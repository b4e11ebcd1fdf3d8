import GroupConsumer.Member.Basic

/-!
# Reconciliation

How a member gets from what it owns to the target it was given: commit what was consumed, if
partitions are given up and there is a commit manager; let the caller hear of the partitions that
go; take over the target; let the caller hear of the partitions that came. `advance` does what the
present stage allows, `reconcile` goes on until it has to wait.
-/

namespace GroupConsumer

namespace Membership

/-- The target is applied, if it is still the latest one. -/
def completeReconciliation (m : Membership) (target : PartitionSet) : Step :=
  if m.member.state ≠ .reconciling ∨ m.member.target ≠ some target then .ok m
  else (m.withMember fun x => { x with target := none }).enter .acknowledging

/-- Takes over the target; the caller hears of the partitions that came. -/
def applyTarget (m : Membership) (target : PartitionSet) : Step := do
  let added := target.diff m.member.owned
  let m ← m.assignInSubscription target
  let m := m.withMember fun x => { x with owned := target }
  if added.isEmpty then m.completeReconciliation target
  else
    let (m, i) := m.requestCallback .partitionsAssigned added
    return m.withMember fun x => { x with stage := .assigning i target }

/-- The caller hears of the partitions outside the target; if there are none, the target is taken
over at once. -/
def revokeThenAssign (m : Membership) (target : PartitionSet) : Step :=
  let revoked := m.member.owned.diff target
  if revoked.isEmpty then m.applyTarget target
  else
    let (m, i) := m.requestCallback .partitionsRevoked revoked
    .ok (m.withMember fun x => { x with stage := .revoking i target })

/-- Asks the commit manager to commit what was consumed, before partitions are given up. -/
def commitBeforeRevocation (m : Membership) (now : Int64) (target : PartitionSet) : Membership :=
  let s := m.session
  let consumed := s.subscription.consumed
  let deadline := deadlineAfter now m.member.callbackTimeout
  let (session, i) := s.ask .commitBeforeRevocation (.commitBeforeRevocation consumed deadline)
  { member := { m.member with stage := .committing i target }, session }

/-- Starts towards the target, if the member has one to apply. Also given is whether it did. -/
def startReconciliation (m : Membership) (commits : Bool) (now : Int64) :
    Except Stopped (Membership × Bool) :=
  match m.member.state, m.member.target with
  | .reconciling, some target =>
    if commits && !(m.member.owned.diff target).isEmpty then
      .ok (m.commitBeforeRevocation now target, true)
    else (m.revokeThenAssign target).map (·, true)
  | _, _ => .ok (m, false)

/-- One step of reconciliation. Also given is whether a further one may follow. -/
def advance (m : Membership) (commits : Bool) (now : Int64) :
    Except Stopped (Membership × Bool) :=
  let waiting := m.member.stage.slot?.any fun i => !m.session.slots.isDone i
  if waiting then .ok (m, false)
  else
    let stage := m.member.stage
    let m := m.withMember fun x => { x with stage := .idle }
    match stage with
    | .idle => m.startReconciliation commits now
    | .committing _ target => (m.revokeThenAssign target).map (·, true)
    | .revoking _ target => (m.applyTarget target).map (·, true)
    | .assigning _ target => (m.completeReconciliation target).map (·, true)
    | .leavingRevoke _ =>
      match m.startLeaving with
      | .ok m => .ok (m, false)
      | .error e => .error { e with membership := e.membership.completeLeave (.error e.fault) }
    | .lost _ => m.afterLost.map (·, false)

/-- At most `n` steps of reconciliation. -/
def advanceWithin (commits : Bool) (now : Int64) : Nat → Membership → Step
  | 0, m => .ok m
  | n + 1, m => do
    let (m, more) ← m.advance commits now
    if more then m.advanceWithin commits now n else return m

/-- Goes on with reconciliation until it has to wait. Four steps are enough: a stage may end for an
older target, the latest target is then started, its commit may be over at once, and the callback it
leads to is not. -/
def reconcile (m : Membership) (commits : Bool) (now : Int64) : Step :=
  m.advanceWithin commits now 4

/-! ### Text form -/

/-- The text form of a partition. -/
def partitionText (tp : TopicPartition) : String :=
  Text.record "TopicPartition" [
    ("topic", Text.quote tp.topic),
    ("partition", toString tp.number)]

/-- The text form of a set of partitions. -/
def partitionsText (s : PartitionSet) : String := Text.braced (s.toList.map partitionText)

/-- The text form of a stage. -/
def stageText (m : Membership) : String :=
  let slot (i : SlotId) := Ticket.slotText (m.session.slots.status i)
  match m.member.stage with
  | .idle => "Idle"
  | .committing i target =>
    Text.record "Committing" [("commit", slot i), ("target", partitionsText target)]
  | .revoking i target =>
    Text.record "Revoking" [("callback", slot i), ("target", partitionsText target)]
  | .assigning i target =>
    Text.record "Assigning" [("callback", slot i), ("target", partitionsText target)]
  | .leavingRevoke i => Text.record "LeavingRevoke" [("callback", slot i)]
  | .lost i => Text.record "Lost" [("callback", slot i)]

/-- The text form of a member. -/
def text (m : Membership) : String :=
  Text.record "MembershipManager" [
    ("group_id", Text.quote m.member.groupId),
    ("member_id", Text.quote m.member.memberId),
    ("member_epoch", toString m.member.epoch),
    ("state", m.member.state.text),
    ("current_assignment", partitionsText m.member.owned),
    ("stage", m.stageText)]

end Membership

end GroupConsumer
