import GroupConsumer.Proofs.Member.Leaving
import GroupConsumer.Proofs.Slot.Grants

/-!
# How a leave ends, and what a request to leave is told

A leave ends with success, whatever ends it: the heartbeat that says that the member leaves, the loss
of its epoch, or the group failing it (`Concludes`). A member that is asked to leave has nothing to
leave and says so with a slot that has succeeded, or hands out the slot of its leave (`Asked`).
-/

namespace GroupConsumer.Membership

variable {m n k : Membership}

/-- The leave goes on, or it ends with success. -/
def Concludes (m n : Membership) : Prop :=
  m.KeepsLeave n ∨ ∃ k, m.KeepsLeave k ∧ (k.completeLeave (.ok ())).KeepsLeave n

theorem completeLeave_of_none (h : m.member.leaveSlot = none) (r : Except Fault Unit) :
    m.completeLeave r = m := by
  rw [completeLeave, h]

/-- Where no leave goes on, none ends. -/
theorem Tends.keepsLeave (h : m.Tends n) (hl : m.member.leaveSlot = none) : m.KeepsLeave n := by
  rcases h with h | ⟨k, r, hk, hn⟩
  · exact h
  · rw [completeLeave_of_none (hk.leaveSlot.trans hl)] at hn
    exact hk.trans hn

theorem keepsLeave_parted (m : Membership) : m.KeepsLeave m.parted :=
  keepsLeave_of_slots rfl rfl rfl

theorem keepsLeave_outcast (m : Membership) : m.KeepsLeave m.outcast :=
  keepsLeave_of_slots rfl rfl rfl

theorem concludes_onHeartbeat_of_isLeaving (hl : m.member.state.isLeaving = true)
    (o : HeartbeatOutcome) : m.Concludes (m.onHeartbeat o).membership := by
  have hactive : m.member.state.isActive = false := by
    rcases MemberState.eq_of_isLeaving hl with hs | hs <;> rw [hs] <;> rfl
  cases o with
  | success memberId epoch assignment =>
    rw [onHeartbeat, onSuccess_of_not_isActive hactive]
    exact Or.inl (.refl m)
  | fenced =>
    rw [onHeartbeat, onFenced_eq_completeLeave hl]
    exact Or.inr ⟨m.parted, keepsLeave_parted m, .refl _⟩
  | fatal f =>
    have hf : m.member.state ≠ .fatal := by
      rcases MemberState.eq_of_isLeaving hl with hs | hs <;> rw [hs] <;> simp
    rw [onHeartbeat, onFatal_eq_completeLeave hf]
    exact Or.inr ⟨m.outcast, keepsLeave_outcast m, keepsLeave_of_slots rfl rfl rfl⟩
  | requestSent epoch =>
    rcases MemberState.eq_of_isLeaving hl with hs | hs
    · have hn : m.onHeartbeat (.requestSent epoch) = .ok m := by
        rw [onHeartbeat, onRequestSent, hs]
      rw [hn]
      exact Or.inl (.refl m)
    · have hn : m.onHeartbeat (.requestSent epoch) =
          if epoch = leaveEpoch then m.finishLeaving else .ok m := by
        rw [onHeartbeat, onRequestSent, hs]
      rw [hn]
      split
      · rw [finishLeaving_of_canEnter hs rfl]
        exact Or.inr ⟨m.parted, keepsLeave_parted m, .refl _⟩
      · exact Or.inl (.refl m)

/-- Whatever heartbeat ends a leave, it ends with success. -/
theorem concludes_onHeartbeat (h : m.member.Coherent) (o : HeartbeatOutcome) :
    m.Concludes (m.onHeartbeat o).membership := by
  cases hl : m.member.state.isLeaving with
  | true => exact concludes_onHeartbeat_of_isLeaving hl o
  | false => exact Or.inl ((tends_onHeartbeat m o).keepsLeave (h.leaveSlot_of_not_isLeaving hl))

/-- No step of reconciliation ends a leave. -/
theorem keepsLeave_advanceOnce (h : m.member.Coherent) (commits : Bool) (now : Int64) :
    m.KeepsLeave (m.advanceOnce commits now).membership := by
  cases hl : m.member.state.isLeaving with
  | false => exact (tends_advanceOnce m commits now).keepsLeave (h.leaveSlot_of_not_isLeaving hl)
  | true =>
    have hn : m.KeepsLeave m.unstaged := keepsLeave_of_slots rfl rfl rfl
    by_cases hw : m.Waits
    · rw [advanceOnce_of_waits hw]
      exact .refl m
    · rw [advanceOnce_of_not_waits hw]
      rcases MemberState.eq_of_isLeaving hl with hs | hs
      · obtain ⟨⟨i, hg⟩, -⟩ := h.of_prepareLeaving hs
        rw [hg]
        have hstart := hn.trans (keepsLeave_startLeaving m.unstaged)
        rw [startLeaving_eq (m := m.unstaged) hs rfl] at hstart ⊢
        exact hstart
      · have hg : m.member.stage = .idle :=
          (h.atRest (by simp [hs]) (by simp [hs]) (by simp [hs])).1
        rw [hg]
        exact hn.trans (keepsLeave_startReconciliation m.unstaged commits now)

/-! ### What a request to leave is told -/

/-- What a member that is asked to leave hands out. -/
inductive Asked (m : Membership) (i : SlotId) (n : Membership) : Prop
  /-- There is nothing to leave, which is a success. -/
  | atOnce (before : m.member.state.isLeaving = false) (after : n.member.leaveSlot = none)
      (done : n.session.slots.outcome? i = some (.ok .done))
  /-- The leave goes on, and its slot is handed out once more. -/
  | joined (before : m.member.state.isLeaving = true) (slot : m.member.leaveSlot = some i)
      (same : n = m)
  /-- A leave begins under a new slot. -/
  | begun (before : m.member.state.isActive = true) (after : n.member.state.isLeaving = true)
      (slot : n.member.leaveSlot = some i) (new : i = m.session.slots.cells.size)
      (pending : n.session.slots.isPending i = true)

theorem outcome?_leaveAtOnce (m : Membership) :
    (m.leaveAtOnce (.ok ())).1.session.slots.outcome? (m.leaveAtOnce (.ok ())).2 =
      some (.ok .done) := Slots.outcome?_freshWith m.session.slots (.ok .done)

theorem state_beginLeave (ha : m.member.state.isActive = true) :
    m.beginLeave.1.member.state.isLeaving = true ∧
      m.beginLeave.1.member.leaveSlot = some m.beginLeave.2 := by
  by_cases ho : m.member.owned = ∅
  · obtain ⟨h₁, h₂⟩ := beginLeave_of_owned_eq_empty ha ho
    rw [h₁, h₂]
    exact ⟨rfl, rfl⟩
  · obtain ⟨h₁, h₂⟩ := beginLeave_of_owned_ne_empty ha ho
    rw [h₁, h₂]
    exact ⟨rfl, rfl⟩

theorem asked_leave (h : m.member.Coherent) : m.Asked m.leave.2 m.leave.1 := by
  cases hl : m.member.state.isLeaving with
  | true =>
    obtain ⟨i, hi⟩ := h.leaveSlot_of_isLeaving hl
    have hn : m.leave = (m, i) := by
      rcases MemberState.eq_of_isLeaving hl with hs | hs <;> rw [leave, hs, hi]
    rw [hn]
    exact .joined hl hi rfl
  | false =>
    have hslot := h.leaveSlot_of_not_isLeaving hl
    cases ha : m.member.state.isActive with
    | true =>
      have hn : m.leave = m.beginLeave := by
        rcases MemberState.eq_of_isActive ha with hs | hs | hs | hs <;> rw [leave, hs]
      obtain ⟨hstate, hafter⟩ := state_beginLeave ha
      have hd := departs_beginLeave ha hslot
      rw [hn]
      cases hd with
      | atOnce _ after => cases hafter.symm.trans after
      | joined before => cases hslot.symm.trans before
      | begun _ _ _ new pending => exact .begun ha hstate hafter new pending
    | false =>
      rcases MemberState.eq_of_not_isActive ha hl with hs | hs | hs
      · have hn : m.leave = m.forget.leaveAtOnce (.ok ()) := by rw [leave, hs]
        rw [hn]
        exact .atOnce hl hslot (outcome?_leaveAtOnce _)
      · rw [leave_of_fenced hs]
        exact .atOnce hl hslot (outcome?_leaveAtOnce _)
      · have hn : m.leave = m.forget.leaveAtOnce (.ok ()) := by rw [leave, hs]
        rw [hn]
        exact .atOnce hl hslot (outcome?_leaveAtOnce _)

end GroupConsumer.Membership

namespace GroupConsumer

/-- A leave that ends leaves a member behind that is outside its group, or failed. -/
theorem Move.state_of_ended {m m' : Membership} {t : Trigger} {f : Option Fault}
    (h : Move m t m' f) (hm : m.member.leaveSlot.isSome = true)
    (hm' : m'.member.leaveSlot = none) :
    m'.member.state = .unsubscribed ∨ m'.member.state = .fatal := by
  have hsame {P : Prop} (hl : m.member.leaveSlot = none) : P := by
    rw [hl] at hm
    cases hm
  cases h with
  | finished => exact Or.inl rfl
  | failed => exact Or.inr rfl
  | departed | departing => cases hm'
  | applied | completed =>
    rw [Member.leaveSlot_conclude] at hm'
    exact hsame hm'
  | _ => exact hsame hm'

end GroupConsumer
