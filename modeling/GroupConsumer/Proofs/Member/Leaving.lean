import GroupConsumer.Proofs.Member.Move
import GroupConsumer.Proofs.Session.Proceeds

/-!
# What a member does to the slot of its leave

All that a member does keeps the slot of its leave, if there is one, and works on no slot but new
ones (`KeepsLeave`), or it ends the leave, whose slot is then completed (`EndsLeave`). A member that
is asked to leave has nothing to leave, takes part in a leave that goes on, or begins one under a new
slot (`departs_leave`). A leave that ends leaves no subscription behind, unless the group has failed
the member (`Move.ended`).
-/

namespace GroupConsumer.Membership

variable {m n k : Membership}

/-- The slot of the leave stays, and no slot is worked on but new ones. -/
structure KeepsLeave (m n : Membership) : Prop where
  leaveSlot : n.member.leaveSlot = m.member.leaveSlot
  steps : m.session.Proceeds (fun _ => False) (fun _ => False) n.session

theorem KeepsLeave.slots (h : m.KeepsLeave n) : m.session.WorksOn (fun _ => False) n.session :=
  h.steps.worksOn

theorem KeepsLeave.refl (m : Membership) : m.KeepsLeave m := ⟨rfl, .rest⟩

theorem KeepsLeave.trans (h : m.KeepsLeave n) (h' : n.KeepsLeave k) : m.KeepsLeave k :=
  ⟨h'.leaveSlot.trans h.leaveSlot, h.steps.trans h'.steps⟩

/-- A change of the member and of neither the slots of the session nor the answers on file. -/
theorem keepsLeave_of_slots (hl : n.member.leaveSlot = m.member.leaveSlot)
    (hs : n.session.slots = m.session.slots)
    (hf : n.session.futures = m.session.futures) : m.KeepsLeave n :=
  ⟨hl, Session.proceeds_of_slots _ _ hs hf⟩

/-- The leave ends, and nothing else happens to its slot. -/
def EndsLeave (m n : Membership) : Prop :=
  ∃ k r, m.KeepsLeave k ∧ (k.completeLeave r).KeepsLeave n

/-- The leave goes on or ends. -/
def Tends (m n : Membership) : Prop := m.KeepsLeave n ∨ m.EndsLeave n

theorem KeepsLeave.tends (h : m.KeepsLeave n) : m.Tends n := Or.inl h

theorem KeepsLeave.trans_tends (h : m.KeepsLeave n) (h' : n.Tends k) : m.Tends k := by
  obtain h' | ⟨l, r, hl, hk⟩ := h'
  · exact Or.inl (h.trans h')
  · exact Or.inr ⟨l, r, h.trans hl, hk⟩

theorem tends_completeLeave (m : Membership) (r : Except Fault Unit) :
    m.Tends (m.completeLeave r) := Or.inr ⟨m, r, .refl m, .refl _⟩

/-- Of two steps the second is taken from where the first has led. -/
theorem KeepsLeave.bind {r : Step} {f : Membership → Step} (h : m.KeepsLeave r.membership)
    (hf : ∀ n, r = .ok n → n.KeepsLeave (f n).membership) :
    m.KeepsLeave (Step.membership (r >>= f)) := by
  cases r with
  | ok n => exact h.trans (hf n rfl)
  | error e => exact h

theorem KeepsLeave.bind_tends {r : Step} {f : Membership → Step} (h : m.KeepsLeave r.membership)
    (hf : ∀ n, r = .ok n → n.Tends (f n).membership) : m.Tends (Step.membership (r >>= f)) := by
  cases r with
  | ok n => exact h.trans_tends (hf n rfl)
  | error e => exact h.tends

/-! ### Parts -/

theorem keepsLeave_enter (m : Membership) (s : MemberState) :
    m.KeepsLeave (m.enter s).membership := by
  unfold enter
  simp only
  split
  · exact keepsLeave_of_slots rfl rfl rfl
  · exact .refl m

theorem keepsLeave_join (m : Membership) : m.KeepsLeave m.join.membership :=
  (keepsLeave_enter m .joining).bind fun _ _ => keepsLeave_of_slots rfl rfl rfl

theorem keepsLeave_assignInSubscription (m : Membership) (parts : PartitionSet) :
    m.KeepsLeave (m.assignInSubscription parts).membership := by
  unfold assignInSubscription
  split
  · exact keepsLeave_of_slots rfl rfl rfl
  · exact .refl m

theorem keepsLeave_release (m : Membership) : m.KeepsLeave m.release.membership := by
  have h : m.KeepsLeave (m.withMember fun x => { x with owned := ∅ }) :=
    keepsLeave_of_slots rfl rfl rfl
  unfold release
  simp only
  split
  · exact h.trans (keepsLeave_assignInSubscription _ ∅)
  · exact h

theorem keepsLeave_requestCallback (m : Membership) (method : ListenerMethod)
    (parts : PartitionSet) : m.KeepsLeave (m.requestCallback method parts).1 :=
  ⟨rfl, (Session.proceeds_fresh m.session _ _).trans (Session.proceeds_of_slots _ _ rfl rfl)⟩

theorem keepsLeave_identify (m : Membership) (memberId : String) (epoch : Int) :
    m.KeepsLeave (m.identify memberId epoch) := by
  unfold identify
  split
  · exact keepsLeave_of_slots rfl rfl rfl
  · exact .refl m

theorem keepsLeave_startLeaving (m : Membership) : m.KeepsLeave m.startLeaving.membership := by
  have h : m.KeepsLeave (m.unsubscribe.withMember fun x =>
      { x with owned := ∅, epoch := leaveEpoch }) := keepsLeave_of_slots rfl rfl rfl
  exact h.trans (keepsLeave_enter _ .leaving)

theorem tends_finishLeaving (m : Membership) : m.Tends m.finishLeaving.membership := by
  let n := m.unsubscribe.withMember fun x =>
    { x with owned := ∅, epoch := joinEpoch, stage := .idle }
  have hn : m.KeepsLeave n := keepsLeave_of_slots rfl rfl rfl
  have he := hn.trans (keepsLeave_enter n .unsubscribed)
  unfold finishLeaving
  simp only
  split
  · rename_i k hr
    rw [hr] at he
    exact he.trans_tends (tends_completeLeave k _)
  · rename_i e hr
    rw [hr] at he
    exact he.trans_tends (tends_completeLeave e.membership _)

theorem keepsLeave_afterLost (m : Membership) : m.KeepsLeave m.afterLost.membership := by
  refine (keepsLeave_release m).bind fun n _ => ?_
  split
  · exact keepsLeave_enter n _
  · exact keepsLeave_join n

/-! ### Polls and heartbeats -/

theorem keepsLeave_onPoll (m : Membership) : m.KeepsLeave m.onPoll.membership := by
  have h : m.KeepsLeave (m.withMember fun x => { x with subscriptionUpdated := false }) :=
    keepsLeave_of_slots rfl rfl rfl
  unfold onPoll
  simp only
  split
  · exact h.trans (keepsLeave_join _)
  · exact h

theorem keepsLeave_retarget (m : Membership) (target : PartitionSet) :
    m.KeepsLeave (m.retarget target).membership := by
  have h : m.KeepsLeave (m.withMember fun x => { x with target := some target }) :=
    keepsLeave_of_slots rfl rfl rfl
  unfold retarget
  split
  · exact .refl m
  · simp only
    split
    · exact h
    · exact h.trans (keepsLeave_enter _ _)

theorem keepsLeave_onSuccess (m : Membership) (memberId : String) (epoch : Int)
    (assignment : Option PartitionSet) :
    m.KeepsLeave (m.onSuccess memberId epoch assignment).membership := by
  cases ha : m.member.state.isActive with
  | false =>
    rw [onSuccess_of_not_isActive ha]
    exact .refl m
  | true =>
    rw [onSuccess_of_isActive ha]
    cases assignment with
    | none => exact keepsLeave_identify m _ _
    | some target => exact (keepsLeave_identify m _ _).trans (keepsLeave_retarget _ target)

theorem tends_onRequestSent (m : Membership) (epoch : Int) :
    m.Tends (m.onRequestSent epoch).membership := by
  unfold onRequestSent
  split
  · exact (keepsLeave_enter m _).tends
  · split
    · exact tends_finishLeaving m
    · exact (KeepsLeave.refl m).tends
  · exact (KeepsLeave.refl m).tends

theorem tends_onFenced (m : Membership) : m.Tends m.onFenced.membership := by
  have hidle (n : Membership) : n.KeepsLeave (n.withMember fun x =>
      { x with epoch := joinEpoch, target := none, stage := .idle }) :=
    keepsLeave_of_slots rfl rfl rfl
  unfold onFenced
  cases m.member.state with
  | prepareLeaving | leaving =>
    exact (keepsLeave_enter m .fenced).bind_tends fun n _ => tends_finishLeaving n
  | unsubscribed | fenced | fatal => exact (KeepsLeave.refl m).tends
  | joining | reconciling | acknowledging | stable =>
    refine ((keepsLeave_enter m .fenced).bind fun n _ => ?_).tends
    simp only
    split
    · exact (hidle n).trans (keepsLeave_afterLost _)
    · exact ((hidle n).trans (keepsLeave_requestCallback _ _ _)).trans
        (keepsLeave_of_slots rfl rfl rfl)

theorem tends_onFatal (m : Membership) (f : Fault) : m.Tends (m.onFatal f).membership := by
  unfold onFatal
  split
  · exact (KeepsLeave.refl m).tends
  · refine (keepsLeave_enter m .fatal).bind_tends fun n _ => ?_
    have hn : n.KeepsLeave (n.withMember fun x => { x with target := none, stage := .idle }) :=
      keepsLeave_of_slots rfl rfl rfl
    refine (hn.trans (keepsLeave_release _)).bind_tends fun k _ => ?_
    exact Or.inr ⟨k, .ok (), .refl k, keepsLeave_of_slots rfl rfl rfl⟩

/-- Hearing of a heartbeat keeps a leave going or ends it. -/
theorem tends_onHeartbeat (m : Membership) (o : HeartbeatOutcome) :
    m.Tends (m.onHeartbeat o).membership := by
  cases o with
  | success memberId epoch assignment => exact (keepsLeave_onSuccess m _ _ _).tends
  | fenced => exact tends_onFenced m
  | fatal f => exact tends_onFatal m f
  | requestSent epoch => exact tends_onRequestSent m epoch

/-! ### Reconciliation -/

theorem keepsLeave_completeReconciliation (m : Membership) (target : PartitionSet) :
    m.KeepsLeave (m.completeReconciliation target).membership := by
  have h : m.KeepsLeave (m.withMember fun x => { x with target := none }) :=
    keepsLeave_of_slots rfl rfl rfl
  unfold completeReconciliation
  split
  · exact .refl m
  · exact h.trans (keepsLeave_enter _ _)

theorem keepsLeave_applyTarget (m : Membership) (target : PartitionSet) :
    m.KeepsLeave (m.applyTarget target).membership := by
  refine (keepsLeave_assignInSubscription m target).bind fun n _ => ?_
  have hn : n.KeepsLeave (n.withMember fun x => { x with owned := target }) :=
    keepsLeave_of_slots rfl rfl rfl
  simp only
  split
  · exact hn.trans (keepsLeave_completeReconciliation _ _)
  · exact (hn.trans (keepsLeave_requestCallback _ _ _)).trans (keepsLeave_of_slots rfl rfl rfl)

theorem keepsLeave_revokeThenAssign (m : Membership) (target : PartitionSet) :
    m.KeepsLeave (m.revokeThenAssign target).membership := by
  unfold revokeThenAssign
  simp only
  split
  · exact keepsLeave_applyTarget m target
  · exact (keepsLeave_requestCallback m _ _).trans (keepsLeave_of_slots rfl rfl rfl)

theorem keepsLeave_startReconciliation (m : Membership) (commits : Bool) (now : Int64) :
    let r : Step := (m.startReconciliation commits now).map (·.1)
    m.KeepsLeave r.membership := by
  by_cases hs : m.member.state = .reconciling
  · cases ht : m.member.target with
    | none =>
      rw [startReconciliation, hs, ht]
      exact .refl m
    | some target =>
      rw [startReconciliation_of_target hs ht]
      simp only
      split
      · exact ⟨rfl, Session.proceeds_ask _ _ _ _ _⟩
      · exact keepsLeave_revokeThenAssign m target
  · rw [startReconciliation_of_state_ne hs]
    exact .refl m

/-- A step of reconciliation keeps a leave going or ends it. -/
theorem tends_advanceOnce (m : Membership) (commits : Bool) (now : Int64) :
    m.Tends (m.advanceOnce commits now).membership := by
  have hn : m.KeepsLeave m.unstaged := keepsLeave_of_slots rfl rfl rfl
  by_cases hw : m.Waits
  · rw [advanceOnce_of_waits hw]
    exact (KeepsLeave.refl m).tends
  · rw [advanceOnce_of_not_waits hw]
    cases m.member.stage with
    | idle => exact (hn.trans (keepsLeave_startReconciliation _ commits now)).tends
    | committing i target => exact (hn.trans (keepsLeave_revokeThenAssign _ target)).tends
    | revoking i target => exact (hn.trans (keepsLeave_applyTarget _ target)).tends
    | assigning i target => exact (hn.trans (keepsLeave_completeReconciliation _ target)).tends
    | leavingRevoke i =>
      have hs := hn.trans (keepsLeave_startLeaving m.unstaged)
      simp only
      cases hr : m.unstaged.startLeaving with
      | ok k =>
        rw [hr] at hs
        exact hs.tends
      | error e =>
        rw [hr] at hs
        exact hs.trans_tends (tends_completeLeave e.membership _)
    | lost i => exact (hn.trans (keepsLeave_afterLost _)).tends

/-! ### Leaves -/

/-- What becomes of a member that is asked to leave, and the slot it answers with. -/
inductive Departs (m : Membership) (i : SlotId) (n : Membership) : Prop
  /-- There is nothing to leave. -/
  | atOnce (before : m.member.leaveSlot = none) (after : n.member.leaveSlot = none)
      (steps : m.session.Proceeds (fun _ => False) (fun _ => False) n.session)
      (done : n.session.slots.isDone i = true)
      (subscription : n.session.subscription = m.session.subscription.unsubscribe)
      (owned : n.member.owned = ∅)
  /-- A leave is going on. -/
  | joined (before : m.member.leaveSlot = some i) (same : n = m)
  /-- A leave begins. -/
  | begun (before : m.member.leaveSlot = none) (after : n.member.leaveSlot = some i)
      (steps : m.session.Proceeds (fun _ => False) (fun _ => False) n.session)
      (new : i = m.session.slots.cells.size) (pending : n.session.slots.isPending i = true)

theorem Departs.proceeds {i : SlotId} (h : m.Departs i n) :
    m.session.Proceeds (fun _ => False) (fun _ => False) n.session := by
  cases h with
  | atOnce _ _ steps | begun _ _ steps => exact steps
  | joined _ same => exact same ▸ .rest

theorem departs_leaveAtOnce {n : Membership} (r : Except Fault Unit)
    (hm : m.member.leaveSlot = none) (hn : n.member.leaveSlot = none)
    (hs : n.session.slots = m.session.slots) (hf : n.session.futures = m.session.futures)
    (hu : n.session.subscription = m.session.subscription.unsubscribe) (ho : n.member.owned = ∅) :
    m.Departs (n.leaveAtOnce r).2 (n.leaveAtOnce r).1 := by
  have hd : (n.leaveAtOnce r).1.session.slots.isDone (n.leaveAtOnce r).2 = true := by
    rw [Slots.isDone]
    exact Option.isSome_iff_exists.2 ⟨_, Slots.outcome?_freshWith n.session.slots _⟩
  exact .atOnce hm hn ((Session.proceeds_of_slots _ _ hs hf).trans
    (Session.proceeds_freshWith n.session _ _ _)) hd hu ho

theorem departs_beginLeave (ha : m.member.state.isActive = true) (hm : m.member.leaveSlot = none) :
    m.Departs m.beginLeave.2 m.beginLeave.1 := by
  have hnew : m.session.fresh.1.slots.cells[m.session.slots.cells.size]? = some {} :=
    Array.getElem?_push_size
  have hf := Session.proceeds_fresh m.session (fun _ => False) (fun _ => False)
  by_cases ho : m.member.owned = ∅
  · obtain ⟨h₁, h₂⟩ := beginLeave_of_owned_eq_empty ha ho
    rw [h₁, h₂]
    refine .begun hm rfl (hf.trans (Session.proceeds_of_slots _ _ rfl rfl)) rfl ?_
    show (m.session.fresh.1.slots.cells[m.session.slots.cells.size]?).any _ = true
    rw [hnew]
    rfl
  · obtain ⟨h₁, h₂⟩ := beginLeave_of_owned_ne_empty ha ho
    rw [h₁, h₂]
    refine .begun hm rfl (hf.trans (keepsLeave_requestCallback m.begun _ _).steps) rfl ?_
    -- The slot of the callback is the next one, so that of the leave is as it was.
    show ((m.session.fresh.1.slots.cells.push {})[m.session.slots.cells.size]?).any _ = true
    have hsize : m.session.fresh.1.slots.cells.size = m.session.slots.cells.size + 1 :=
      Slots.size_fresh _
    rw [Array.getElem?_push, if_neg (by omega), hnew]
    rfl

/-- What a coherent member does that is asked to leave. -/
theorem departs_leave (h : m.member.Coherent) : m.Departs m.leave.2 m.leave.1 := by
  cases hs : m.member.state with
  | unsubscribed | fatal =>
    have hn : m.leave = m.forget.leaveAtOnce (.ok ()) := by
      rw [leave, hs]
    rw [hn]
    exact departs_leaveAtOnce _ (h.leaveSlot_of_not_isLeaving (by rw [hs]; rfl))
      (h.leaveSlot_of_not_isLeaving (by rw [hs]; rfl)) rfl rfl rfl rfl
  | fenced =>
    let n : Membership := ⟨{ m.member with owned := ∅, stage := .idle, state := .unsubscribed },
      { m.session with subscription := m.session.subscription.unsubscribe }⟩
    have hl := h.leaveSlot_of_not_isLeaving (by rw [hs]; rfl)
    rw [leave_of_fenced hs]
    exact departs_leaveAtOnce (n := n) _ hl hl rfl rfl rfl rfl
  | prepareLeaving | leaving =>
    obtain ⟨i, hi⟩ := h.leaveSlot_of_isLeaving (by rw [hs]; rfl)
    have hn : m.leave = (m, i) := by
      rw [leave, hs, hi]
    rw [hn]
    exact .joined hi rfl
  | joining | reconciling | acknowledging | stable =>
    have hn : m.leave = m.beginLeave := by
      rw [leave, hs]
    rw [hn]
    exact departs_beginLeave (by rw [hs]; rfl) (h.leaveSlot_of_isActive (by rw [hs]; rfl))

end GroupConsumer.Membership

namespace GroupConsumer

/-- A leave that ends drops the subscription, unless it ends because the group fails the member. -/
theorem Move.ended {m m' : Membership} {t : Trigger} {f : Option Fault} (h : Move m t m' f)
    (hco : m.member.Coherent) (hm : m.member.leaveSlot.isSome = true)
    (hm' : m'.member.leaveSlot = none) :
    m'.member.owned = ∅ ∧
      (m'.session.subscription = m.session.subscription.unsubscribe ∨
        (∃ f, t = .heard (.fatal f)) ∧ m.member.state.isLeaving = true ∧
          m'.session.subscription = m.session.subscription.released) := by
  have hsame {P : Prop} (hl : m.member.leaveSlot = none) : P := by
    rw [hl] at hm
    cases hm
  cases h with
  | finished _ hs => exact ⟨rfl, Or.inl hs.subscription⟩
  | failed _ hs =>
    refine ⟨rfl, Or.inr ⟨⟨_, rfl⟩, ?_, hs.subscription⟩⟩
    cases hl : m.member.state.isLeaving with
    | true => rfl
    | false => exact hsame (hco.leaveSlot_of_not_isLeaving hl)
  | departed | departing => cases hm'
  | applied | completed =>
    rw [Member.leaveSlot_conclude] at hm'
    exact hsame hm'
  | _ => exact hsame hm'

end GroupConsumer
