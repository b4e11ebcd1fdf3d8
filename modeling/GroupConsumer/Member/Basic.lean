import GroupConsumer.Session

/-!
# A member of a group

What a member knows of itself, and how it changes state. A member owns the partitions that the group
gave it; when it is given others it works through stages, each of which waits for a commit or for a
callback of the caller.

Operations act on a `Membership`, the member together with the session. One that cannot go on stops
with the fault and with the membership as it is at that point (`Stopped`).
-/

namespace GroupConsumer

/-- Work in progress that waits for the caller or for a collaborator. -/
inductive Stage where
  | idle
  /-- Consumed offsets are being committed before partitions outside the target are given up. -/
  | committing (slot : SlotId) (target : PartitionSet)
  /-- The caller hears of partitions that are given up. -/
  | revoking (slot : SlotId) (target : PartitionSet)
  /-- The caller hears of partitions that came. -/
  | assigning (slot : SlotId) (target : PartitionSet)
  /-- The caller hears that all partitions are given up by a leave. -/
  | leavingRevoke (slot : SlotId)
  /-- The caller hears that all partitions are lost. -/
  | lost (slot : SlotId)
deriving DecidableEq

/-- The epoch of a member that joins. -/
def joinEpoch : Int := 0

/-- The epoch by which a member says that it leaves. -/
def leaveEpoch : Int := -1

/-- What a member knows of itself. -/
structure Member where
  groupId : String
  memberId : String := ""
  epoch : Int := joinEpoch
  state : MemberState := .unsubscribed
  owned : PartitionSet := ∅
  target : Option PartitionSet := none
  stage : Stage := .idle
  /-- Whether the subscription changed since the last poll. -/
  subscriptionUpdated : Bool := false
  /-- The slot that all requests to leave share while a leave is going on. -/
  leaveSlot : Option SlotId := none
  /-- Whether the consumer is closing; it joins no more. -/
  closing : Bool := false
  callbackTimeout : Int64
deriving DecidableEq

/-- A member and the session it acts on. -/
structure Membership where
  member : Member
  session : Session

/-- A fault, and the membership at the point where it occurred. -/
structure Stopped where
  fault : Fault
  membership : Membership

/-- The outcome of an operation on a membership. -/
abbrev Step := Except Stopped Membership

/-- The membership an operation ends with, whether it stopped early or not. -/
def Step.membership : Step → Membership
  | .ok m => m
  | .error s => s.membership

/-- The fault an operation stopped with. -/
def Step.fault? : Step → Option Fault
  | .ok _ => none
  | .error s => some s.fault

namespace Stage

/-- The slot a stage waits for. -/
def slot? : Stage → Option SlotId
  | idle => none
  | committing i _ | revoking i _ | assigning i _ | leavingRevoke i | lost i => some i

/-- The name of a stage. -/
def name : Stage → String
  | idle => "Idle"
  | committing .. => "Committing"
  | revoking .. => "Revoking"
  | assigning .. => "Assigning"
  | leavingRevoke _ => "LeavingRevoke"
  | lost _ => "Lost"

end Stage

namespace Membership

/-- Changes the member. -/
def withMember (m : Membership) (f : Member → Member) : Membership := { m with member := f m.member }

/-- Changes the session. -/
def withSession (m : Membership) (f : Session → Session) : Membership :=
  { m with session := f m.session }

/-- Drops the form of the subscription and all that goes with it. -/
def unsubscribe (m : Membership) : Membership :=
  m.withSession fun s => { s with subscription := s.subscription.unsubscribe }

/-- Stops with a fault. -/
def stop (m : Membership) (f : Fault) : Step := .error ⟨f, m⟩

/-- Enters a state, if it may be entered from the present one. -/
def enter (m : Membership) (next : MemberState) : Step :=
  let x := m.member
  if x.state.canEnter next then .ok (m.withMember fun x => { x with state := next })
  else m.stop (.illegalState (.invalidTransition x.state next x.memberId x.groupId))

/-- Starts to join the group. -/
def join (m : Membership) : Step := do
  let m ← m.enter .joining
  return m.withMember fun x => { x with epoch := joinEpoch, target := none, stage := .idle }

/-- The state to carry in the next heartbeat. -/
def snapshot (m : Membership) : MemberSnapshot :=
  let sub := m.session.subscription
  { memberId := m.member.memberId
    memberEpoch := m.member.epoch
    state := m.member.state
    topics := sub.topics
    pattern := sub.pattern.map (·.source)
    owned := m.member.owned }

/-- The subscription changed; the member joins on the next poll. -/
def onSubscriptionUpdated (m : Membership) : Membership :=
  m.withMember fun x => { x with subscriptionUpdated := true }

/-- The caller polled. -/
def onPoll (m : Membership) : Step :=
  let updated := m.member.subscriptionUpdated
  let m := m.withMember fun x => { x with subscriptionUpdated := false }
  if updated && m.member.state == .unsubscribed && !m.member.closing then m.join else .ok m

/-- Assigns partitions given by the group in the subscription. -/
def assignInSubscription (m : Membership) (parts : PartitionSet) : Step :=
  match m.session.subscription.assignFromGroup parts with
  | .ok (subscription, _) => .ok (m.withSession fun s => { s with subscription })
  | .error f => m.stop f

/-- Gives up all partitions. -/
def release (m : Membership) : Step :=
  let m := m.withMember fun x => { x with owned := ∅ }
  if m.session.subscription.isAuto then m.assignInSubscription ∅ else .ok m

/-- Asks the caller to run a method of its listener. Given is the slot the answer goes to. -/
def requestCallback (m : Membership) (method : ListenerMethod) (partitions : PartitionSet) :
    Membership × SlotId :=
  let s := m.session
  let (s, ticket) := s.issue BackgroundEvent.callbackNeededKind s.clock
    (deadlineAfter s.clock m.member.callbackTimeout)
  ({ m with session := s.publish (.callbackNeeded { ticket, method, partitions }) }, ticket.slot)

/-- Completes the slot of a leave, if there is one, and forgets it. -/
def completeLeave (m : Membership) (r : Except Fault Unit) : Membership :=
  match m.member.leaveSlot with
  | some i =>
    { member := { m.member with leaveSlot := none }, session := m.session.completeUnit i r }
  | none => m

/-! ### Leaving -/

/-- Waits for the heartbeat that says that the member leaves. -/
def startLeaving (m : Membership) : Step :=
  (m.unsubscribe.withMember fun x => { x with owned := ∅, epoch := leaveEpoch }).enter .leaving

/-- Ends a leave. -/
def finishLeaving (m : Membership) : Step :=
  let m := m.unsubscribe.withMember fun x =>
    { x with owned := ∅, epoch := joinEpoch, stage := .idle }
  match m.enter .unsubscribed with
  | .ok m => .ok (m.completeLeave (.ok ()))
  | .error e => .error { e with membership := e.membership.completeLeave (.error e.fault) }

/-- Forgets what is owned and the subscription with it. -/
def forget (m : Membership) : Membership := m.unsubscribe.withMember fun x => { x with owned := ∅ }

/-- A leave that is over at once. -/
def leaveAtOnce (m : Membership) (r : Except Fault Unit) : Membership × SlotId :=
  let (session, i) := m.session.freshWith (r.map fun _ => .done)
  ({ m with session }, i)

/-- Starts a leave in a state that it can start from. -/
def beginLeave (m : Membership) : Membership × SlotId :=
  match m.enter .prepareLeaving with
  | .error e => e.membership.leaveAtOnce (.error e.fault)
  | .ok m =>
    let (session, slot) := m.session.fresh
    let m : Membership := { m with session }
    let m := m.withMember fun x =>
      { x with leaveSlot := some slot, target := none, stage := .idle }
    if m.member.owned.isEmpty then
      match m.startLeaving with
      | .ok m => (m, slot)
      | .error e => (e.membership.withSession (·.completeUnit slot (.error e.fault)), slot)
    else
      let (m, i) := m.requestCallback .partitionsRevoked m.member.owned
      (m.withMember fun x => { x with stage := .leavingRevoke i }, slot)

/-- Leaves the group. Given is the slot that is completed when the leave is over. -/
def leave (m : Membership) : Membership × SlotId :=
  match m.member.state, m.member.leaveSlot with
  | .unsubscribed, _ | .fatal, _ => m.forget.leaveAtOnce (.ok ())
  | .fenced, _ =>
    let m := (m.withMember fun x => { x with stage := .idle }).forget
    match m.enter .unsubscribed with
    | .ok m => m.leaveAtOnce (.ok ())
    | .error e => e.membership.leaveAtOnce (.error e.fault)
  | .prepareLeaving, some i | .leaving, some i => (m, i)
  | _, _ => m.beginLeave

/-- Leaves the group for good. -/
def leaveOnClose (m : Membership) : Membership × SlotId :=
  (m.withMember fun x => { x with closing := true }).leave

/-! ### Outcomes of heartbeats -/

/-- The partitions are lost: joins anew, or is done with the group. -/
def afterLost (m : Membership) : Step := do
  let m ← m.release
  if m.member.closing || !m.session.subscription.isAuto then m.enter .unsubscribed else m.join

/-- Takes over the identity that the group gave, and tells the caller if it is new. -/
def identify (m : Membership) (memberId : String) (epoch : Int) : Membership :=
  if memberId ≠ m.member.memberId ∨ epoch ≠ m.member.epoch then
    (m.withMember fun x => { x with memberId, epoch }).withSession
      (·.publish (.groupMetadata memberId epoch))
  else m

/-- Takes on a new target, unless it is what a stable member owns already. -/
def retarget (m : Membership) (target : PartitionSet) : Step :=
  if m.member.state = .stable ∧ target = m.member.owned then .ok m
  else
    let m := m.withMember fun x => { x with target := some target }
    if m.member.state = .reconciling then .ok m else m.enter .reconciling

/-- The coordinator answered a heartbeat. -/
def onSuccess (m : Membership) (memberId : String) (epoch : Int)
    (assignment : Option PartitionSet) : Step :=
  match m.member.state with
  | .unsubscribed | .prepareLeaving | .leaving | .fenced | .fatal => .ok m
  | .joining | .reconciling | .acknowledging | .stable =>
    let m := m.identify memberId epoch
    match assignment with
    | some target => m.retarget target
    | none => .ok m

/-- A heartbeat was sent. -/
def onRequestSent (m : Membership) (epoch : Int) : Step :=
  match m.member.state with
  | .acknowledging => m.enter .stable
  | .leaving => if epoch = leaveEpoch then m.finishLeaving else .ok m
  | _ => .ok m

/-- The coordinator does not know the epoch of the member any more. -/
def onFenced (m : Membership) : Step :=
  match m.member.state with
  | .prepareLeaving | .leaving => do
    let m ← m.enter .fenced
    m.finishLeaving
  | .unsubscribed | .fenced | .fatal => .ok m
  | .joining | .reconciling | .acknowledging | .stable => do
    let m ← m.enter .fenced
    let m := m.withMember fun x => { x with epoch := joinEpoch, target := none, stage := .idle }
    if m.member.owned.isEmpty then m.afterLost
    else
      let (m, i) := m.requestCallback .partitionsLost m.member.owned
      return m.withMember fun x => { x with stage := .lost i }

/-- The group failed the member for good. -/
def onFatal (m : Membership) (f : Fault) : Step :=
  if m.member.state = .fatal then .ok m
  else do
    let m ← m.enter .fatal
    let m ← (m.withMember fun x => { x with target := none, stage := .idle }).release
    return (m.completeLeave (.ok ())).withSession (·.publish (.fault f))

/-- Applies the outcome of a heartbeat. -/
def onHeartbeat (m : Membership) : HeartbeatOutcome → Step
  | .success memberId epoch assignment => m.onSuccess memberId epoch assignment
  | .fenced => m.onFenced
  | .fatal f => m.onFatal f
  | .requestSent epoch => m.onRequestSent epoch

/-- The caller ran a method of its listener. -/
def onCallbackDone (m : Membership) (slot : SlotId) (fault : Option Fault) : Membership :=
  m.withSession (·.completeUnit slot (match fault with | some f => .error f | none => .ok ()))

end Membership

end GroupConsumer
