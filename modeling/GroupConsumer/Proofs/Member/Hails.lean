import GroupConsumer.Proofs.Member.Leaving

/-!
# Where the caller is to answer

The caller that is asked to run its listener answers in a slot that is made for it. No collaborator has
answered with that slot, and no leave goes on under it (`Hails`); what the member waits for next is this
answer. There are few occasions for the caller to be asked (`Hailing`), and each is an operation whose
steps are known, which is how the slot is told. A stage that begins waits for such an answer, or for the
commit that was just asked for (`Move.stage_cases`).
-/

namespace GroupConsumer

namespace Membership

/-- From `m` to `n` the caller is asked to run its listener and to answer in the slot `i`. It is a new
one, nobody else has answered with it, and it is not that of a leave. -/
structure Hails (m n : Membership) (i : SlotId) : Prop where
  new : m.session.slots.cells.size ≤ i ∧ i < n.session.slots.cells.size
  futures : n.session.futures = m.session.futures
  leave : n.member.leaveSlot ≠ some i
  stage : n.member.stage.slot? = some i

/-- The trigger makes the member ask the caller to run its listener. -/
def Hailing (m : Membership) : Trigger → Prop
  | .heard .fenced | .left => m.member.state.isActive = true ∧ m.member.owned ≠ ∅
  | .advanced commits _ => ∃ target, m.RevokesNext commits target ∨
      (m.TakesNext target ∧ m.session.subscription.isAuto = true ∧ target.diff m.member.owned ≠ ∅)
  | .polled | .heard _ => False

/-- The slot of the leave that goes on exists. -/
def LeaveFits (m : Membership) : Prop :=
  ∀ l, m.member.leaveSlot = some l → l < m.session.slots.cells.size

variable {m a : Membership}

/-- A request to run the listener, after which the member waits for the answer. -/
theorem hails_requestCallback (hsize : m.session.slots.cells.size ≤ a.session.slots.cells.size)
    (hf : a.session.futures = m.session.futures) (ha : a.LeaveFits) (method : ListenerMethod)
    (parts : PartitionSet) {f : SlotId → Member → Member}
    (hl : ∀ i x, (f i x).leaveSlot = x.leaveSlot) (hs : ∀ i x, (f i x).stage.slot? = some i) :
    let asked := a.requestCallback method parts
    m.Hails (asked.1.withMember (f asked.2)) asked.2 where
  new := ⟨hsize, Nat.lt_of_lt_of_eq (Nat.lt_succ_self _) (Slots.size_fresh a.session.slots).symm⟩
  futures := hf
  leave h := Nat.lt_irrefl _ (ha _ ((hl _ a.member).symm.trans h))
  stage := hs _ _

theorem hails_onFenced (hm : m.LeaveFits) (h : m.Hailing (.heard .fenced)) :
    ∃ i, m.Hails m.onFenced.membership i := by
  obtain ⟨ha, ho⟩ := h
  rw [onFenced_of_isActive ha, if_neg (mt SortedSet.isEmpty_iff.1 ho)]
  let n : Membership := ⟨{ m.member with
    state := .fenced, epoch := joinEpoch, target := none, stage := .idle }, m.session⟩
  exact ⟨_, hails_requestCallback (m := m) (a := n) (f := fun i x => { x with stage := .lost i })
    (Nat.le_refl _) rfl hm _ _ (fun _ _ => rfl) fun _ _ => rfl⟩

theorem hails_revokeThenAssign (hm : m.LeaveFits) {target : PartitionSet}
    (ho : m.member.owned.diff target ≠ ∅) :
    ∃ i, m.Hails (m.unstaged.revokeThenAssign target).membership i := by
  have hn : ¬ (m.unstaged.member.owned.diff target).isEmpty = true := mt SortedSet.isEmpty_iff.1 ho
  simp only [revokeThenAssign, if_neg hn]
  exact ⟨_, hails_requestCallback (m := m) (a := m.unstaged) (f := fun i x => { x with
    stage := .revoking i target }) (Nat.le_refl _) rfl hm _ _ (fun _ _ => rfl) fun _ _ => rfl⟩

theorem hails_applyTarget (hm : m.LeaveFits) {target : PartitionSet}
    (hauto : m.session.subscription.isAuto = true) (ho : target.diff m.member.owned ≠ ∅) :
    ∃ i, m.Hails (m.unstaged.applyTarget target).membership i := by
  have hn : ¬ (target.diff m.unstaged.member.owned).isEmpty = true := mt SortedSet.isEmpty_iff.1 ho
  rw [applyTarget_of_isAuto (m := m.unstaged) hauto, if_neg hn]
  let n : Membership := ⟨{ m.unstaged.member with owned := target },
    { m.session with subscription := m.session.subscription.reassign target }⟩
  exact ⟨_, hails_requestCallback (m := m) (a := n) (f := fun i x => { x with
    stage := .assigning i target }) (Nat.le_refl _) rfl hm _ _ (fun _ _ => rfl) fun _ _ => rfl⟩

theorem StartsNext.not_waits {target : PartitionSet} (h : m.StartsNext target) : ¬ m.Waits := by
  rintro ⟨i, hi, -⟩
  rw [h.1] at hi
  cases hi

theorem not_waits_of_isDone {i : SlotId} (hi : m.member.stage.slot? = some i)
    (hd : m.session.slots.isDone i = true) : ¬ m.Waits := by
  rintro ⟨j, hj, hn⟩
  obtain rfl := Option.some.inj (hi.symm.trans hj)
  cases hd.symm.trans hn

theorem hails_advanceOnce (hm : m.LeaveFits) {commits : Bool} {now : Int64}
    (h : m.Hailing (.advanced commits now)) :
    ∃ i, m.Hails (m.advanceOnce commits now).membership i := by
  obtain ⟨target, ⟨ho, ⟨hs, rfl⟩ | ⟨i, hg, hd⟩⟩ | ⟨⟨hs, hr⟩ | ⟨i, hg, hd⟩, hauto, ho⟩⟩ := h
  · rw [advanceOnce_of_not_waits hs.not_waits, hs.1]
    simp only
    rw [startReconciliation_of_target (m := m.unstaged) hs.2.1 hs.2.2,
      if_neg fun hc => Bool.false_ne_true hc.1]
    exact hails_revokeThenAssign hm ho
  · rw [advanceOnce_of_not_waits (not_waits_of_isDone (i := i) (by rw [hg]; rfl) hd), hg]
    exact hails_revokeThenAssign hm ho
  · rw [advanceOnce_of_not_waits hs.not_waits, hs.1]
    simp only
    rw [startReconciliation_of_target (m := m.unstaged) hs.2.1 hs.2.2, if_neg fun hc => hc.2 hr,
      revokeThenAssign_of_diff_eq_empty (m := m.unstaged) hr]
    exact hails_applyTarget hm hauto ho
  · rw [advanceOnce_of_not_waits (not_waits_of_isDone (i := i) (by rw [hg]; rfl) hd), hg]
    exact hails_applyTarget hm hauto ho

/-! ### Leaves -/

theorem leave_of_isActive (h : m.member.state.isActive = true) : m.leave = m.beginLeave := by
  obtain hs | hs | hs | hs := MemberState.eq_of_isActive h <;> rw [leave, hs]

/-- A request to leave is linked to the leave that goes on, or to a new slot. -/
theorem slot_leave (h : m.member.Coherent) :
    m.leave.2 = m.member.leaveSlot.getD m.session.slots.cells.size := by
  have hnew (hl : m.member.leaveSlot = none) (hm : m.leave.2 = m.session.slots.cells.size) :
      m.leave.2 = m.member.leaveSlot.getD m.session.slots.cells.size := by
    rw [hm, hl]
    rfl
  cases hs : m.member.state with
  | unsubscribed | fatal =>
    refine hnew (h.leaveSlot_of_not_isLeaving (by rw [hs]; rfl)) ?_
    rw [leave, hs]
    rfl
  | fenced =>
    refine hnew (h.leaveSlot_of_not_isLeaving (by rw [hs]; rfl)) ?_
    rw [leave_of_fenced hs]
    rfl
  | prepareLeaving | leaving =>
    obtain ⟨i, hi⟩ := h.leaveSlot_of_isLeaving (by rw [hs]; rfl)
    rw [leave, hs, hi]
    rfl
  | joining | reconciling | acknowledging | stable =>
    have ha : m.member.state.isActive = true := by rw [hs]; rfl
    refine hnew (h.leaveSlot_of_isActive ha) ?_
    rw [leave_of_isActive ha]
    by_cases ho : m.member.owned = ∅
    · exact (beginLeave_of_owned_eq_empty ha ho).2
    · exact (beginLeave_of_owned_ne_empty ha ho).2

/-- No collaborator is asked for a leave. -/
theorem futures_leave (h : m.member.Coherent) :
    m.leave.1.session.futures = m.session.futures := by
  cases hs : m.member.state with
  | unsubscribed | fatal =>
    have hn : m.leave = m.forget.leaveAtOnce (.ok ()) := by
      rw [leave, hs]
    rw [hn]
    rfl
  | fenced =>
    rw [leave_of_fenced hs]
    rfl
  | prepareLeaving | leaving =>
    obtain ⟨i, hi⟩ := h.leaveSlot_of_isLeaving (by rw [hs]; rfl)
    have hn : m.leave = (m, i) := by
      rw [leave, hs, hi]
    rw [hn]
  | joining | reconciling | acknowledging | stable =>
    have ha : m.member.state.isActive = true := by rw [hs]; rfl
    rw [leave_of_isActive ha]
    by_cases ho : m.member.owned = ∅
    · rw [(beginLeave_of_owned_eq_empty ha ho).1]
      rfl
    · rw [(beginLeave_of_owned_ne_empty ha ho).1]
      rfl

/-- The caller that is asked for a leave answers in another slot than those that wait for the leave. -/
theorem hails_leave (h : m.Hailing .left) :
    ∃ i, m.Hails m.leave.1 i ∧ m.leave.2 ≠ i := by
  obtain ⟨ha, ho⟩ := h
  obtain ⟨h₁, h₂⟩ := beginLeave_of_owned_ne_empty ha ho
  have hsize : m.begun.session.slots.cells.size = m.session.slots.cells.size + 1 :=
    Slots.size_fresh m.session.slots
  rw [leave_of_isActive ha, h₁, h₂]
  refine ⟨_, hails_requestCallback (m := m) (a := m.begun) (f := fun i x => { x with
    stage := .leavingRevoke i }) (by omega) rfl ?_ _ _ (fun _ _ => rfl) fun _ _ => rfl, ?_⟩
  · intro l hl
    obtain rfl := Option.some.inj hl
    exact Nat.lt_of_lt_of_eq (Nat.lt_succ_self _) hsize.symm
  · show m.session.slots.cells.size ≠ m.begun.session.slots.cells.size
    omega

end Membership

namespace Move

variable {m m' : Membership} {t : Trigger} {f : Option Fault} {es : List BackgroundEvent}
  {cs : List Call}

/-- The events of a growing session are those that came. -/
theorem events_eq {es' : List BackgroundEvent} {cs' : List Call}
    (h : m.session.Grows m'.session es cs) (h' : m.session.Grows m'.session es' cs') : es = es' :=
  List.append_cancel_left (h.events.symm.trans h'.events)

/-- The caller is asked on few occasions, and the stage waits for its answer. -/
theorem hailing (h : Move m t m' f) (hg : m.session.Grows m'.session es cs) {r : CallbackRequest}
    (hr : .callbackNeeded r ∈ es) : m.Hailing t ∧ m'.member.stage.slot? = some r.ticket.slot := by
  have hsame {es' : List BackgroundEvent} {cs' : List Call}
      (h' : m.session.Grows m'.session es' cs') : .callbackNeeded r ∈ es' := events_eq hg h' ▸ hr
  have hquiet {es' : List BackgroundEvent} {cs' : List Call} {P : Prop}
      (h' : m.session.Grows m'.session es' cs') (hn : ∀ r, .callbackNeeded r ∉ es') : P :=
    absurd (hsame h') (hn r)
  have hnews (memberId : String) (epoch : Int) (r : CallbackRequest) :
      .callbackNeeded r ∉ m.member.news memberId epoch := by
    unfold Member.news
    split <;> simp
  have hasked {r' : CallbackRequest} (h' : m.session.Grows m'.session [.callbackNeeded r'] []) :
      r = r' := BackgroundEvent.callbackNeeded.inj (List.mem_singleton.1 (hsame h'))
  cases h with
  | rest | noted | joined | settled | refused | completed =>
    exact hquiet (.refl m.session) (by simp)
  | identified _ _ hb | retargeted _ _ hb => exact hquiet hb.grows (hnews _ _)
  | finished _ hb | failed _ hb | forgot _ hb | abandoned _ hb | departed _ _ hb
    | committing _ _ _ hb => exact hquiet hb.grows (by simp)
  | dropped | vacated | applied =>
    exact hquiet (Session.becomes_subscription m.session _).grows (by simp)
  | fenced ha ho _ _ hb | departing ha ho _ _ hb =>
    obtain rfl := hasked hb.grows
    exact ⟨⟨ha, ho⟩, rfl⟩
  | revoking hrev _ _ hb =>
    obtain rfl := hasked hb.grows
    exact ⟨⟨_, Or.inl hrev⟩, rfl⟩
  | assigning ht hauto ho _ _ hb =>
    obtain rfl := hasked hb.grows
    exact ⟨⟨_, Or.inr ⟨ht, hauto, ho⟩⟩, rfl⟩

/-- A stage waits for what it waited for before, for an answer of the caller, or for the commit that
was asked for. -/
theorem stage_cases (h : Move m t m' f) (hg : m.session.Grows m'.session es cs) {j : SlotId}
    (hj : m'.member.stage.slot? = some j) :
    m.member.stage.slot? = some j ∨ (∃ r, .callbackNeeded r ∈ es ∧ r.ticket.slot = j) ∨
      m'.session.futures[m.session.futures.size]? = some (.commitBeforeRevocation, j) := by
  have hidle {P : Prop} (hj : Stage.idle.slot? = some j) : P := by cases hj
  have hasked {r : CallbackRequest} (h' : m.session.Grows m'.session [.callbackNeeded r] [])
      (hj : some r.ticket.slot = some j) : ∃ r, .callbackNeeded r ∈ es ∧ r.ticket.slot = j :=
    ⟨r, (events_eq h' hg) ▸ List.mem_singleton_self _, Option.some.inj hj⟩
  cases h with
  | rest | noted | identified | retargeted | settled | forgot => exact Or.inl hj
  | joined | finished | dropped | failed | abandoned | departed | vacated | refused => exact hidle hj
  | applied | completed =>
    rw [Member.stage_conclude] at hj
    exact hidle hj
  | fenced _ _ _ _ hb | departing _ _ _ _ hb | revoking _ _ _ hb | assigning _ _ _ _ _ hb =>
    exact Or.inr (Or.inl (hasked hb.grows hj))
  | committing _ _ hf =>
    obtain rfl := Option.some.inj hj
    exact Or.inr (Or.inr hf)

end Move

end GroupConsumer
