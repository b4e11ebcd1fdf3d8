import GroupConsumer.Member.Reconcile

/-!
# State, stage and bookkeeping of a member

`Member.Coherent` ties the state of a member to its stage, its target, the slot of its leave, its
epoch and what it owns. It holds of a new member and is kept by everything a member does, which is
why no transition that a member attempts is ever refused.
-/

namespace GroupConsumer

namespace MemberState

/-- Whether a member takes part in its group. -/
def isActive : MemberState → Bool
  | joining | reconciling | acknowledging | stable => true
  | unsubscribed | fenced | prepareLeaving | leaving | fatal => false

/-- The states in which a member takes part in its group. -/
theorem eq_of_isActive {s : MemberState} (h : s.isActive = true) :
    s = joining ∨ s = reconciling ∨ s = acknowledging ∨ s = stable := by
  revert h
  cases s <;> decide

/-- A member that takes part is not on its way out. -/
theorem not_isLeaving_of_isActive {s : MemberState} (h : s.isActive = true) :
    s.isLeaving = false := by
  revert h
  cases s <;> decide

/-- The states in which a member is on its way out. -/
theorem eq_of_isLeaving {s : MemberState} (h : s.isLeaving = true) :
    s = prepareLeaving ∨ s = leaving := by
  revert h
  cases s <;> decide

/-- The states in which a member neither takes part nor is on its way out. -/
theorem eq_of_not_isActive {s : MemberState} (ha : s.isActive = false) (hl : s.isLeaving = false) :
    s = unsubscribed ∨ s = fenced ∨ s = fatal := by
  revert ha hl
  cases s <;> decide

end MemberState

namespace Member

/-- Nothing is under way, and there is no target. -/
def AtRest (x : Member) : Prop := x.stage = .idle ∧ x.target = none

/-- The stages on the way to a target. Partitions are given up as long as a commit or a revocation
is waited for, and the target of the last stage has been taken over. -/
def OnTheWay (x : Member) : Prop :=
  match x.stage with
  | .idle => True
  | .committing _ t | .revoking _ t => x.owned.diff t ≠ ∅
  | .assigning _ t => x.owned = t
  | .leavingRevoke _ | .lost _ => False

/-- What the state of a member says about the rest of it. -/
def Coherent (x : Member) : Prop :=
  match x.state with
  | .unsubscribed => x.AtRest ∧ x.leaveSlot = none ∧ x.owned = ∅ ∧ x.epoch = joinEpoch
  | .joining => x.AtRest ∧ x.leaveSlot = none ∧ x.owned = ∅
  | .reconciling => x.OnTheWay ∧ x.leaveSlot = none ∧ x.target.isSome = true
  | .acknowledging | .stable => x.AtRest ∧ x.leaveSlot = none
  | .fenced =>
    (∃ i, x.stage = .lost i) ∧ x.target = none ∧ x.leaveSlot = none ∧ x.owned ≠ ∅ ∧
      x.epoch = joinEpoch
  | .prepareLeaving =>
    (∃ i, x.stage = .leavingRevoke i) ∧ x.target = none ∧ x.leaveSlot.isSome = true ∧ x.owned ≠ ∅
  | .leaving => x.AtRest ∧ x.leaveSlot.isSome = true ∧ x.owned = ∅ ∧ x.epoch = leaveEpoch
  | .fatal => x.AtRest ∧ x.leaveSlot = none ∧ x.owned = ∅

theorem coherent_new (groupId : String) (callbackTimeout : Int64) :
    Coherent { groupId, callbackTimeout } := ⟨⟨rfl, rfl⟩, rfl, rfl, rfl⟩

variable {x : Member}

/-- A member that takes part has no leave going on. -/
theorem Coherent.leaveSlot_of_isActive (h : x.Coherent) (hs : x.state.isActive = true) :
    x.leaveSlot = none := by
  unfold Coherent at h
  cases hx : x.state <;> rw [hx] at h hs
  case joining => exact h.2.1
  case reconciling => exact h.2.1
  case acknowledging => exact h.2
  case stable => exact h.2
  all_goals cases hs

/-- A member on its way out has a leave going on. -/
theorem Coherent.leaveSlot_of_isLeaving (h : x.Coherent) (hs : x.state.isLeaving = true) :
    ∃ i, x.leaveSlot = some i := by
  unfold Coherent at h
  cases hx : x.state <;> rw [hx] at h hs
  case prepareLeaving => exact Option.isSome_iff_exists.1 h.2.2.1
  case leaving => exact Option.isSome_iff_exists.1 h.2.1
  all_goals cases hs

/-- A member that is not on its way out has no leave going on. -/
theorem Coherent.leaveSlot_of_not_isLeaving (h : x.Coherent) (hs : x.state.isLeaving = false) :
    x.leaveSlot = none := by
  cases ha : x.state.isActive with
  | true => exact h.leaveSlot_of_isActive ha
  | false =>
    unfold Coherent at h
    obtain hx | hx | hx := MemberState.eq_of_not_isActive ha hs <;> rw [hx] at h
    · exact h.2.1
    · exact h.2.2.1
    · exact h.2.1

theorem Coherent.of_unsubscribed (h : x.Coherent) (hs : x.state = .unsubscribed) :
    x.AtRest ∧ x.leaveSlot = none ∧ x.owned = ∅ ∧ x.epoch = joinEpoch := by
  unfold Coherent at h
  rwa [hs] at h

theorem Coherent.of_reconciling (h : x.Coherent) (hs : x.state = .reconciling) :
    x.OnTheWay ∧ x.leaveSlot = none ∧ x.target.isSome = true := by
  unfold Coherent at h
  rwa [hs] at h

theorem Coherent.of_fenced (h : x.Coherent) (hs : x.state = .fenced) :
    (∃ i, x.stage = .lost i) ∧ x.target = none ∧ x.leaveSlot = none ∧ x.owned ≠ ∅ ∧
      x.epoch = joinEpoch := by
  unfold Coherent at h
  rwa [hs] at h

theorem Coherent.of_prepareLeaving (h : x.Coherent) (hs : x.state = .prepareLeaving) :
    (∃ i, x.stage = .leavingRevoke i) ∧ x.target = none ∧ x.leaveSlot.isSome = true ∧
      x.owned ≠ ∅ := by
  unfold Coherent at h
  rwa [hs] at h

/-- A member without any work under way has no target either. -/
theorem Coherent.atRest (h : x.Coherent) (hr : x.state ≠ .reconciling) (hf : x.state ≠ .fenced)
    (hp : x.state ≠ .prepareLeaving) : x.AtRest := by
  unfold Coherent at h
  cases hx : x.state <;> rw [hx] at h hr hf hp
  case reconciling => exact absurd rfl hr
  case fenced => exact absurd rfl hf
  case prepareLeaving => exact absurd rfl hp
  all_goals exact h.1

/-- A member outside its group, or leaving it, owns nothing. -/
theorem Coherent.owned_eq_empty (h : x.Coherent)
    (hs : x.state = .unsubscribed ∨ x.state = .fatal ∨ x.state = .leaving) : x.owned = ∅ := by
  unfold Coherent at h
  obtain hs | hs | hs := hs <;> rw [hs] at h
  · exact h.2.2.1
  · exact h.2.2
  · exact h.2.2.1

/-- The stage tells the state of a member at work. -/
theorem Coherent.state_of_stage (h : x.Coherent) :
    match x.stage with
    | .idle => True
    | .committing .. | .revoking .. | .assigning .. => x.state = .reconciling
    | .leavingRevoke _ => x.state = .prepareLeaving
    | .lost _ => x.state = .fenced := by
  unfold Coherent AtRest OnTheWay at h
  cases hx : x.state <;> cases hg : x.stage <;> simp_all

end Member

end GroupConsumer
