import GroupConsumer.Member.Reconcile

/-!
# The processor of events

The processor applies the events of the caller to the subscription and the membership, passes on to
the collaborators what is theirs to do, and links their answers to the tickets of the events. This
module holds its state and what the single events share; the families of events follow in modules of
their own.
-/

namespace GroupConsumer

/-- The state of the processor; a consumer without a group has no member. -/
structure Processor where
  session : Session := {}
  member : Option Member := none
  /-- The version of the metadata at which the pattern was last evaluated. -/
  evaluated : Option UInt64 := none

namespace Processor

/-- The subscription. -/
def subscription (p : Processor) : Subscription := p.session.subscription

/-- The member and the session it acts on. -/
def membership? (p : Processor) : Option Membership := p.member.map (⟨·, p.session⟩)

/-- Whether a manager exists. -/
def has (p : Processor) (m : Manager) : Bool := p.session.script.has m

/-- Changes the session. -/
def withSession (p : Processor) (f : Session → Session) : Processor := { p with session := f p.session }

/-- Changes the subscription. -/
def withSubscription (p : Processor) (f : Subscription → Subscription) : Processor :=
  p.withSession fun s => { s with subscription := f s.subscription }

/-- Takes over a member and the session it acted on. -/
def withMembership (p : Processor) (m : Membership) : Processor :=
  { p with session := m.session, member := some m.member }

/-- Changes the member, if there is one. -/
def withMember (p : Processor) (f : Member → Member) : Processor := { p with member := p.member.map f }

/-- Completes the slot of a ticket. -/
def complete (p : Processor) (t : Ticket) (o : Outcome Value) : Processor :=
  p.withSession (·.complete t.slot o)

/-- Fails a ticket. -/
def fail (p : Processor) (t : Ticket) (f : Fault) : Processor := p.complete t (.error f)

/-- Completes a ticket without a value. -/
def succeed (p : Processor) (t : Ticket) : Processor := p.complete t (.ok .done)

/-- The name of a collaborator in the text of a fault. -/
inductive Missing where
  | commit
  | offsets
  | fetch
  | membership
  | metadata

/-- The name of a collaborator that may be missing. -/
def Missing.name : Missing → String
  | commit => "commit request manager"
  | offsets => "offsets request manager"
  | fetch => "fetch request manager"
  | membership => "membership manager"
  | metadata => "cluster metadata"

/-- Fails a ticket because the collaborator that its event needs does not exist. -/
def failMissing (p : Processor) (t : Ticket) (c : Missing) (kind : AppEvent.Kind) : Processor :=
  p.fail t (.missingCollaborator c.name kind.name)

/-- Asks a collaborator and links its answer to a ticket. -/
def delegate (p : Processor) (t : Ticket) (m : Method) (call : Nat → Call) : Processor :=
  let (session, i) := p.session.ask m call
  { p with session := session.chain i t.slot }

/-- Takes over a subscription on which an operation succeeded and completes the ticket, or fails the
ticket and leaves the subscription as it was. -/
def completeWith (p : Processor) (t : Ticket) (r : Except Fault Subscription) : Processor :=
  match r with
  | .ok subscription => (p.withSubscription fun _ => subscription).succeed t
  | .error f => p.fail t f

/-- Lets the commit manager, if there is one, see the time and what was consumed. -/
def updateCommitTimer (p : Processor) (now : Int64) : Processor :=
  if p.has .commit then
    p.withSession fun s => s.record (.updateCommitTimer now s.subscription.consumed)
  else p

/-- Applies an operation of the member, if there is one. Given are the faults it stopped with. -/
def onMember (p : Processor) (f : Membership → Step) : Processor × List Fault :=
  match p.membership? with
  | some m =>
    let r := f m
    (p.withMembership r.membership, r.fault?.toList)
  | none => (p, [])

/-- Lets the member go on with reconciliation. -/
def reconcile (p : Processor) (now : Int64) : Processor × List Fault :=
  p.onMember (·.reconcile (p.has .commit) now)

/-- Publishes faults for the caller. -/
def report (p : Processor) (fs : List Fault) : Processor := p.withSession (·.report fs)

end Processor

end GroupConsumer
