import GroupConsumer.Collaborator
import GroupConsumer.Metrics
import GroupConsumer.Queue
import GroupConsumer.Reaper

/-!
# The session of a consumer

All that the parts of the background loop share: the slots, the clock, the metrics, the queue of
background events, the subscription, and the collaborators with the record of their calls. The
operations here are the only ways in which the loop acts on the world around it: it completes a
slot, publishes an event, or asks a collaborator.

A lookup that is answered later leaves its value in the journal of the slots under a `Deferral`,
which says what it is to be used for; the loop applies it in its next round.
-/

namespace GroupConsumer

/-- What a value that a collaborator looked up is to be used for. -/
inductive Deferral where
  /-- Positions found by a reset. -/
  | positions (ticket : Ticket)
  /-- Offsets committed earlier, for partitions without a position. -/
  | committed (ticket : Ticket)
  /-- The end of a partition, for a lag that could not be told. -/
  | endOffsets (isolation : IsolationLevel)
deriving DecidableEq

/-- What the parts of the background loop share. -/
structure Session where
  slots : Slots Value Deferral := {}
  clock : Int64 := 0
  metrics : Metrics := {}
  background : Queue BackgroundEvent := {}
  subscription : Subscription := {}
  script : Script := {}
  calls : Array Call := #[]
  /-- The slots that collaborators have answered with, in order, and for which call. -/
  futures : Array (Method × SlotId) := #[]

namespace Session

/-- Completes a slot, if it is pending. -/
def complete (s : Session) (i : SlotId) (o : Outcome Value) : Session :=
  { s with slots := s.slots.settle i o }

/-- Completes a slot with success or with the fault that stood in the way. -/
def completeUnit (s : Session) (i : SlotId) (r : Except Fault Unit) : Session :=
  s.complete i (r.map fun _ => .done)

/-- Links one slot to another. -/
def chain (s : Session) (source target : SlotId) : Session :=
  { s with slots := s.slots.chain source target }

/-- A session with a new slot. -/
def fresh (s : Session) : Session × SlotId :=
  let (slots, i) := s.slots.fresh
  ({ s with slots }, i)

/-- A session with a new slot that is complete. -/
def freshWith (s : Session) (o : Outcome Value) : Session × SlotId :=
  let (slots, i) := s.slots.freshWith o
  ({ s with slots }, i)

/-- A session with a new ticket. -/
def issue (s : Session) (kind : String) (created deadline : Int64) : Session × Ticket :=
  let (s, slot) := s.fresh
  (s, { kind, created, deadline, slot })

/-- Moves the clock, which wraps around at 64 bits. -/
def advance (s : Session) (ms : Int64) : Session := { s with clock := s.clock + ms }

/-- Changes the script. -/
def withScript (s : Session) (f : Script → Script) : Session := { s with script := f s.script }

/-- Records a call. -/
def record (s : Session) (c : Call) : Session := { s with calls := s.calls.push c }

/-- Asks a collaborator: records the call, moves the clock if the reply says so, and gives the slot
of the answer. -/
def ask (s : Session) (m : Method) (call : Nat → Call) : Session × SlotId :=
  let c := call s.futures.size
  let (reply, script) := s.script.nextReply m
  let s := { s.record c with script }
  let s := s.advance ((reply c).advance.getD 0)
  let (s, i) := match (reply c).answer with
    | .pending => s.fresh
    | .settled o => s.freshWith o
    | .again k =>
      match s.futures[k]? with
      | some (_, i) => (s, i)
      | none => s.fresh
  ({ s with futures := s.futures.push (m, i) }, i)

/-- A collaborator does something of itself. -/
def stir (s : Session) : Stir → Session
  | .complete k o =>
    match s.futures[k]? with
    | some (_, i) => s.complete i o
    | none => s
  | .advance ms => s.advance ms
  | .hear os => s.withScript fun x => { x with outcomes := x.outcomes ++ os }
  | .learn version topics =>
    s.withScript fun x => { x with metadataVersion := version, metadataTopics := topics }

/-- A collaborator does things of itself, in order. -/
def stirAll (s : Session) (xs : List Stir) : Session := xs.foldl stir s

/-- Polls a manager. Given is its result. -/
def pollManager (s : Session) (now : Int64) (m : Manager) : Session × PollResult :=
  let (poll, script) := s.script.nextPoll m now
  ({ s with script }.stirAll poll.stirs, poll.result)

/-- Polls a manager because the loop closes. Given is its result. -/
def pollManagerOnClose (s : Session) (now : Int64) (m : Manager) : Session × PollResult :=
  let (poll, script) := s.script.nextClosePoll m now
  ({ s with script }.stirAll poll.stirs, poll.result)

/-- Drives the network once. Given is whether requests are in flight afterwards. -/
def pollNetwork (s : Session) (now : Int64) : Session × Bool :=
  let (poll, script) := s.script.nextNetworkPoll now
  ({ s with script }.stirAll poll.stirs, poll.pending)

/-- Publishes an event for the caller. -/
def publish (s : Session) (e : BackgroundEvent) : Session :=
  let background := s.background.add e s.clock
  { s with background, metrics := s.metrics.withBackgroundSize background.depth }

/-- Publishes faults, in order. -/
def report (s : Session) (faults : List Fault) : Session :=
  faults.foldl (fun s f => s.publish (.fault f)) s

/-- Takes all events published for the caller. -/
def drainBackground (s : Session) : Session × List BackgroundEvent :=
  let (drained, background) := s.background.drain
  let metrics := drained.foldl (fun m q => m.addBackgroundTime (s.clock - q.enqueued))
    (s.metrics.withBackgroundSize 0)
  ({ s with background, metrics }, drained.map (·.item))

/-- The values that lookups have left, in the order in which they arrived. -/
def deferred (s : Session) : List (Deferral × Value) :=
  s.slots.journal.toList.filterMap fun
    | .held d v => some (d, v)
    | _ => none

/-- Takes the values that lookups have left. -/
def takeDeferred (s : Session) : Session × List (Deferral × Value) :=
  ({ s with slots := { s.slots with journal := #[] } }, s.deferred)

/-- Keeps the value a slot will be completed with, or fails the target with its fault. -/
def holdFor (s : Session) (i : SlotId) (d : Deferral) (target : Option SlotId) : Session :=
  { s with slots := s.slots.listen i (.hold d target) }

/-- Gives the heartbeat manager a snapshot; one that is new to it is recorded. -/
def giveSnapshot (s : Session) (snap : MemberSnapshot) : Session :=
  let isNew := s.script.lastSnapshot ≠ some snap
  let s := if isNew then s.record (.updateMembership snap) else s
  let (ms, script) := s.script.nextDelay snap
  { s with script := { script with lastSnapshot := some snap } }.advance ms

/-- Fails the tickets that are due. -/
def sweep (s : Session) (r : Reaper) : Session × Reaper × Nat :=
  let (r, slots, n) := r.sweep s.clock s.slots
  ({ s with slots }, r, n)

/-- Fails all tickets, under watch or queued. -/
def expireAll (s : Session) (r : Reaper) (queued : List Ticket) : Session × Reaper × Nat :=
  let (r, slots, n) := r.expireAll queued s.slots
  ({ s with slots }, r, n)

end Session

end GroupConsumer
