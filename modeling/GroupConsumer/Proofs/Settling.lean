import GroupConsumer.Proofs.Run.Requests

/-!
# Reconciliation settles

Reconciliation is a loop of steps (`Goes`), and this is where the loop ends. A step after which
another one may follow either has the caller run a callback, and then the next step waits for it, or it
takes one of the few steps that are left (`stepsLeft`): at most three, since a stage may end for an
older target, the latest target is then started, and its commit may be over at once. So the loop ends
within four steps, asks for one callback and one commit at most, and finds nothing to do if it is run
again (`ReconcilesTo`). Where it stops with a fault, the last step has changed nothing: a subscription
that refuses the target is not served by the group, and then nothing is owned that a stage on the way
could give up.
-/

namespace GroupConsumer

namespace Membership

variable {m m' : Membership} {commits more : Bool} {now : Int64}

/-! ### Steps -/

/-- The member waits, or it has nothing to do. -/
def Settled (m : Membership) : Prop :=
  m.Waits ∨ (m.member.stage = .idle ∧ m.member.state ≠ .reconciling)

/-- How many steps of reconciliation may still be taken after which another one follows. -/
def stepsLeft (m : Membership) : Nat :=
  match m.member.stage with
  | .idle => if m.member.state = .reconciling then 2 else 0
  | .committing i _ => if m.session.slots.isDone i then 1 else 0
  | .revoking i _ | .assigning i _ => if m.session.slots.isDone i then 3 else 0
  | .leavingRevoke _ | .lost _ => 0

theorem stepsLeft_le (m : Membership) : m.stepsLeft ≤ 3 := by
  unfold stepsLeft
  split
  all_goals try split
  all_goals omega

theorem Waits.stepsLeft (h : m.Waits) : m.stepsLeft = 0 := by
  obtain ⟨i, hi, hd⟩ := h
  have hd : ¬ m.session.slots.isDone i = true := by simp [hd]
  unfold Membership.stepsLeft
  cases hg : m.member.stage with
  | idle =>
    rw [hg] at hi
    cases hi
  | committing | revoking | assigning =>
    rw [hg] at hi
    cases hi
    exact if_neg hd
  | leavingRevoke | lost => rfl

theorem advance_of_waits (h : m.Waits) (commits : Bool) (now : Int64) :
    m.advance commits now = .ok (m, false) := by
  obtain ⟨i, hi, hd⟩ := h
  rw [advance, hi]
  exact if_pos (by simp [hd])

/-- A member that has nothing to do stays as it is. -/
theorem Settled.advance (h : m.Settled) (commits : Bool) (now : Int64) :
    m.advance commits now = .ok (m, false) := by
  obtain hw | ⟨hg, hs⟩ := h
  · exact advance_of_waits hw commits now
  · have hn : m.advance commits now = m.unstaged.startReconciliation commits now := by
      rw [Membership.advance, hg]
      rfl
    rw [hn, unstaged_of_idle hg]
    unfold startReconciliation
    split
    · rename_i hr _
      exact absurd hr hs
    · rfl

theorem more_of_map {r : Step} {b : Bool} (h : r.map (·, b) = .ok (m', more)) : more = b := by
  cases r with
  | error e => cases h
  | ok n =>
    cases h
    rfl

/-- Another step may follow if the member sets out for a target. -/
theorem more_of_startReconciliation
    (ht : m.member.state = .reconciling → m.member.target.isSome = true)
    (h : m.startReconciliation commits now = .ok (m', more)) :
    more = true ↔ m.member.state = .reconciling := by
  by_cases hs : m.member.state = .reconciling
  · obtain ⟨target, ht⟩ := Option.isSome_iff_exists.1 (ht hs)
    rw [startReconciliation, hs, ht] at h
    simp only at h
    split at h
    · cases h
      simp [hs]
    · simp [more_of_map h, hs]
  · have hmore : more = false := by
      unfold startReconciliation at h
      split at h
      · rename_i hr _
        exact absurd hr hs
      · cases h
        rfl
    simp [hmore, hs]

/-- Another step may follow exactly if there are steps left. -/
theorem more_of_advance (hc : m.member.Coherent) (h : m.advance commits now = .ok (m', more)) :
    more = true ↔ 0 < m.stepsLeft := by
  by_cases hw : m.Waits
  · rw [advance_of_waits hw] at h
    cases h
    rw [hw.stepsLeft]
    decide
  · have hdone {i : SlotId} := isDone_of_not_waits hw (i := i)
    have hany : ¬ (m.member.stage.slot?.any fun i => !m.session.slots.isDone i) = true := by
      intro ha
      obtain ⟨i, hi, hd⟩ := (Option.any_eq_true _ _).1 ha
      rw [hdone hi] at hd
      cases hd
    rw [advance, if_neg hany] at h
    cases hg : m.member.stage with
    | idle =>
      rw [hg] at h
      have hmore := more_of_startReconciliation (m := m.unstaged)
        (fun hs => (hc.of_reconciling hs).2.2) h
      rw [hmore, stepsLeft, hg]
      show m.member.state = .reconciling ↔ 0 < if m.member.state = .reconciling then 2 else 0
      by_cases hs : m.member.state = .reconciling <;> simp [hs]
    | committing i target =>
      rw [hg] at h hdone
      have hs : m.stepsLeft = 1 := by
        rw [stepsLeft, hg]
        exact if_pos (hdone rfl)
      simp [more_of_map h, hs]
    | revoking i target | assigning i target =>
      rw [hg] at h hdone
      have hs : m.stepsLeft = 3 := by
        rw [stepsLeft, hg]
        exact if_pos (hdone rfl)
      simp [more_of_map h, hs]
    | leavingRevoke i =>
      rw [hg] at h
      have hs : m.stepsLeft = 0 := by rw [stepsLeft, hg]
      have hmore : more = false := by
        simp only at h
        split at h
        · cases h
          rfl
        · cases h
      simp [hmore, hs]
    | lost i =>
      rw [hg] at h
      have hs : m.stepsLeft = 0 := by rw [stepsLeft, hg]
      simp [more_of_map h, hs]

theorem Settled.stepsLeft (h : m.Settled) : m.stepsLeft = 0 := by
  obtain hw | ⟨hg, hs⟩ := h
  · exact hw.stepsLeft
  · rw [Membership.stepsLeft, hg]
    exact if_neg hs

theorem stepsLeft_of_idle (h : m.member.stage = .idle) : m.stepsLeft ≤ 2 := by
  rw [stepsLeft, h]
  show (if _ then 2 else 0) ≤ 2
  split <;> omega

theorem stepsLeft_of_committing {i : SlotId} {target : PartitionSet}
    (h : m.member.stage = .committing i target) : m.stepsLeft ≤ 1 := by
  rw [stepsLeft, h]
  show (if _ then 1 else 0) ≤ 1
  split <;> omega

theorem StartsNext.stepsLeft {target : PartitionSet} (h : m.StartsNext target) :
    m.stepsLeft = 2 := by
  rw [Membership.stepsLeft, h.1]
  exact if_pos h.2.1

theorem RevokesNext.stepsLeft {target : PartitionSet} (h : m.RevokesNext commits target) :
    0 < m.stepsLeft := by
  obtain ⟨-, ⟨h, -⟩ | ⟨i, hg, hd⟩⟩ := h
  · rw [h.stepsLeft]
    decide
  · rw [Membership.stepsLeft, hg]
    show 0 < if _ then 1 else 0
    rw [if_pos hd]
    decide

theorem TakesNext.stepsLeft {target : PartitionSet} (h : m.TakesNext target) :
    1 < m.stepsLeft := by
  obtain ⟨h, -⟩ | ⟨i, hg, hd⟩ := h
  · rw [h.stepsLeft]
    decide
  · rw [Membership.stepsLeft, hg]
    show 1 < if _ then 3 else 0
    rw [if_pos hd]
    decide

theorem stepsLeft_of_assigning {i : SlotId} {target : PartitionSet}
    (hg : m.member.stage = .assigning i target) (hd : m.session.slots.isDone i = true) :
    m.stepsLeft = 3 := by
  rw [stepsLeft, hg]
  exact if_pos hd

/-! ### Callbacks -/

/-- The caller has not answered yet what it has just been asked. -/
theorem isDone_requestCallback (m : Membership) (method : ListenerMethod) (parts : PartitionSet) :
    (m.requestCallback method parts).1.session.slots.isDone (m.requestCallback method parts).2 =
      false := by
  show (m.session.slots.fresh.1.outcome? m.session.slots.cells.size).isSome = false
  rw [Slots.outcome?_fresh, Slots.outcome?, Array.getElem?_eq_none (Nat.le_refl _)]
  rfl

theorem stage_completeReconciliation {target : PartitionSet}
    (h : m.completeReconciliation target = .ok m') : m'.member.stage = m.member.stage := by
  unfold completeReconciliation at h
  split at h
  · cases h
    rfl
  · unfold enter at h
    simp only at h
    split at h
    · cases h
      rfl
    · cases h

/-- A target is taken over at once, or the caller has to hear of it first. -/
theorem waits_of_applyTarget {target : PartitionSet} (h : m.applyTarget target = .ok m') :
    m'.member.stage = m.member.stage ∨ m'.Waits := by
  cases hauto : m.session.subscription.isAuto with
  | false =>
    rw [applyTarget_of_not_isAuto hauto] at h
    cases h
  | true =>
    rw [applyTarget_of_isAuto hauto] at h
    split at h
    · have hs := stage_completeReconciliation h
      exact Or.inl hs
    · cases h
      exact Or.inr ⟨_, rfl, isDone_requestCallback _ _ _⟩

theorem waits_of_revokeThenAssign {target : PartitionSet}
    (h : m.revokeThenAssign target = .ok m') : m'.member.stage = m.member.stage ∨ m'.Waits := by
  unfold revokeThenAssign at h
  simp only at h
  split at h
  · exact waits_of_applyTarget h
  · cases h
    exact Or.inr ⟨_, rfl, isDone_requestCallback _ _ _⟩

/-- A step leads to no stage but to one that waits, or to a commit, which may be over at once. -/
theorem waits_of_advanceOnce (hc : m.member.Coherent) (hl : 0 < m.stepsLeft)
    (h : m.advanceOnce commits now = .ok m') :
    m'.member.stage = .idle ∨ (∃ i target, m'.member.stage = .committing i target) ∨ m'.Waits := by
  have hidle {n : Membership} (hn : n.member.stage = m.unstaged.member.stage ∨ n.Waits) :
      n.member.stage = .idle ∨ (∃ i target, n.member.stage = .committing i target) ∨ n.Waits :=
    hn.imp_right Or.inr
  by_cases hw : m.Waits
  · rw [hw.stepsLeft] at hl
    cases hl
  · rw [advanceOnce_of_not_waits hw] at h
    cases hg : m.member.stage with
    | idle =>
      rw [hg] at h
      have hs : m.member.state = .reconciling := by
        by_contra hs
        rw [Settled.stepsLeft (Or.inr ⟨hg, hs⟩)] at hl
        cases hl
      obtain ⟨target, ht⟩ := Option.isSome_iff_exists.1 (hc.of_reconciling hs).2.2
      have h : (m.unstaged.startReconciliation commits now).map (·.1) = .ok m' := h
      rw [startReconciliation_of_target (m := m.unstaged) hs ht commits now] at h
      split at h
      · cases h
        exact Or.inr (Or.inl ⟨_, _, rfl⟩)
      · exact hidle (waits_of_revokeThenAssign h)
    | committing i target =>
      rw [hg] at h
      exact hidle (waits_of_revokeThenAssign h)
    | revoking i target =>
      rw [hg] at h
      exact hidle (waits_of_applyTarget h)
    | assigning i target =>
      rw [hg] at h
      exact Or.inl (stage_completeReconciliation h)
    | leavingRevoke | lost =>
      rw [stepsLeft, hg] at hl
      cases hl

/-! ### What a step does -/

/-- A step after which another one follows. -/
def Goes (commits : Bool) (now : Int64) (m m' : Membership) : Prop :=
  m.advance commits now = .ok (m', true)

/-- A step, whether another one follows or not, is a move. -/
theorem move_of_advance (hc : m.member.Coherent) (h : m.advance commits now = .ok (m', more)) :
    Move m (.advanced commits now) m' none := by
  have hm := move_advanceOnce commits now hc
  rw [advanceOnce, h] at hm
  exact hm

/-- The last step leaves nothing to do, and asks for nothing. -/
theorem settled_of_advance (hc : m.member.Coherent) (h : m.advance commits now = .ok (m', false)) :
    m'.Settled ∧ m.session.Grows m'.session [] [] := by
  have hl : m.stepsLeft = 0 := by
    have := more_of_advance hc h
    simpa using this
  have hm := move_of_advance hc h
  clear h
  cases hm with
  | rest h => exact ⟨h, Session.Grows.refl _⟩
  | finished h =>
    obtain ⟨-, h⟩ | ⟨-, h⟩ := h <;> cases h
  | dropped =>
    refine ⟨Or.inr ⟨rfl, fun hs => ?_⟩, (Session.becomes_subscription m.session _).grows⟩
    obtain he | he := m.member.stateAfterLoss_eq m.session.subscription.isAuto
    · cases he.symm.trans hs
    · cases he.symm.trans hs
  | vacated =>
    exact ⟨Or.inr ⟨rfl, fun hs => by cases hs⟩,
      (Session.becomes_subscription m.session _).grows⟩
  | committing h =>
    rw [h.stepsLeft] at hl
    cases hl
  | revoking h => exact absurd hl h.stepsLeft.ne'
  | assigning h | applied h => exact absurd hl (Nat.lt_of_succ_lt h.stepsLeft).ne'
  | completed hg hd =>
    rw [stepsLeft_of_assigning hg hd] at hl
    cases hl

/-- What is asked for from a membership on: a callback at most, and a commit at most, each only if the
steps are left that it takes. -/
structure Frugal (m : Membership) (es : List BackgroundEvent) (cs : List Call) : Prop where
  events : es = [] ∨ (0 < m.stepsLeft ∧ ∃ r, es = [.callbackNeeded r])
  calls : cs = [] ∨ (1 < m.stepsLeft ∧
    ∃ consumed deadline n, cs = [.commitBeforeRevocation consumed deadline n])

theorem Frugal.nil (m : Membership) : m.Frugal [] [] := ⟨Or.inl rfl, Or.inl rfl⟩

theorem Frugal.mono {es : List BackgroundEvent} {cs : List Call} (h : m'.Frugal es cs)
    (hl : m'.stepsLeft ≤ m.stepsLeft) : m.Frugal es cs where
  events := h.events.imp_right fun he => ⟨Nat.lt_of_lt_of_le he.1 hl, he.2⟩
  calls := h.calls.imp_right fun hc => ⟨Nat.lt_of_lt_of_le hc.1 hl, hc.2⟩

/-- What a step asks for that another one follows: nothing, a callback, for which the next step waits,
or a commit, after which a single step is left at most. -/
inductive Demands (m m' : Membership) : List BackgroundEvent → List Call → Prop
  | nothing (h : m'.stepsLeft < m.stepsLeft) : Demands m m' [] []
  | callback (r : CallbackRequest) (hl : 0 < m.stepsLeft) (h : m'.Waits) :
      Demands m m' [.callbackNeeded r] []
  | commit (consumed : OffsetMap) (deadline : Int64) (n : Nat) (hl : 1 < m.stepsLeft)
      (h : m'.stepsLeft ≤ 1) : Demands m m' [] [.commitBeforeRevocation consumed deadline n]

namespace Demands

variable {es es' : List BackgroundEvent} {cs cs' : List Call}

theorem stepsLeft_lt (h : Demands m m' es cs) : m'.stepsLeft < m.stepsLeft := by
  cases h with
  | nothing h => exact h
  | callback r hl h =>
    rw [h.stepsLeft]
    exact hl
  | commit consumed deadline n hl h => exact Nat.lt_of_le_of_lt h hl

/-- A step and what comes after it ask for as little as what comes after it alone. -/
theorem frugal (h : Demands m m' es cs) (hf : m'.Frugal es' cs') :
    m.Frugal (es ++ es') (cs ++ cs') := by
  have hle := h.stepsLeft_lt.le
  cases h with
  | nothing => exact hf.mono hle
  | callback r hl h =>
    have hzero := h.stepsLeft
    refine ⟨Or.inr ⟨hl, r, ?_⟩, ?_⟩
    · obtain rfl | ⟨he, -⟩ := hf.events
      · rfl
      · omega
    · exact (hf.mono hle).calls
  | commit consumed deadline n hl h =>
    refine ⟨(hf.mono hle).events, Or.inr ⟨hl, consumed, deadline, n, ?_⟩⟩
    obtain rfl | ⟨hc, -⟩ := hf.calls
    · rfl
    · omega

end Demands

theorem Goes.demands (hc : m.member.Coherent) (h : Goes commits now m m') :
    ∃ es cs, m.session.Grows m'.session es cs ∧ Demands m m' es cs := by
  have hl : 0 < m.stepsLeft := (more_of_advance hc h).1 rfl
  have honce : m.advanceOnce commits now = .ok m' := by
    rw [advanceOnce, show m.advance commits now = .ok (m', true) from h]
    rfl
  have hwaits := waits_of_advanceOnce hc hl honce
  have hcallback {r : CallbackRequest}
      (hg : ∃ i target, m'.member.stage = .revoking i target ∨ m'.member.stage = .assigning i target)
      (hs : m.session.Grows m'.session [.callbackNeeded r] []) :
      ∃ es cs, m.session.Grows m'.session es cs ∧ Demands m m' es cs := by
    refine ⟨_, _, hs, .callback r hl ?_⟩
    obtain ⟨i, target, hg⟩ := hg
    obtain hi | ⟨j, t, hi⟩ | hw := hwaits
    · rw [hi] at hg
      obtain hg | hg := hg <;> cases hg
    · rw [hi] at hg
      obtain hg | hg := hg <;> cases hg
    · exact hw
  have hm := move_of_advance hc h
  clear h honce hwaits
  cases hm with
  | rest h =>
    rw [Settled.stepsLeft h] at hl
    cases hl
  | finished h => obtain ⟨-, h⟩ | ⟨-, h⟩ := h <;> cases h
  | dropped h =>
    obtain ⟨h, -⟩ | ⟨_, _, i, -, hg, -⟩ := h
    · cases h
    · rw [stepsLeft, hg] at hl
      cases hl
  | vacated hg =>
    rw [stepsLeft, hg] at hl
    cases hl
  | committing h ho hf hs =>
    exact ⟨_, _, hs.grows, .commit _ _ _ (by rw [h.stepsLeft]; decide) (stepsLeft_of_committing rfl)⟩
  | revoking h hm hp hs => exact hcallback ⟨_, _, Or.inl rfl⟩ hs.grows
  | assigning h hauto ho hm hp hs => exact hcallback ⟨_, _, Or.inr rfl⟩ hs.grows
  | @applied _ _ target h hauto ho =>
    refine ⟨_, _, (Session.becomes_subscription m.session _).grows, .nothing ?_⟩
    have hidle := Member.stage_conclude ({ m.member with owned := target, stage := .idle }) target
    obtain ⟨h, -⟩ | ⟨i, hg, hd⟩ := h
    · -- The latest target is in place.
      have hs : (Member.conclude { m.member with owned := target, stage := .idle } target).state =
          .acknowledging := by
        rw [Member.conclude, if_pos h.2.2]
      rw [Settled.stepsLeft (Or.inr ⟨hidle, by rw [hs]; decide⟩)]
      exact hl
    · have hthree : m.stepsLeft = 3 := by
        rw [stepsLeft, hg]
        exact if_pos hd
      rw [hthree]
      exact Nat.lt_succ_of_le (stepsLeft_of_idle hidle)
  | completed hg hd =>
    refine ⟨_, _, Session.Grows.refl _, .nothing ?_⟩
    rw [stepsLeft_of_assigning hg hd]
    exact Nat.lt_succ_of_le (stepsLeft_of_idle (Member.stage_conclude _ _))

/-- A target that the subscription does not take is refused as often as the member sets out for it. -/
theorem advance_of_startsNext {target : PartitionSet} (h : m.StartsNext target)
    (ho : m.member.owned.diff target = ∅) (hauto : m.session.subscription.isAuto = false)
    (commits : Bool) (now : Int64) :
    m.advance commits now =
      .error ⟨.illegalState (.groupAssignmentOf m.session.subscription.form), m⟩ := by
  have hw : ¬ m.Waits := by
    rintro ⟨i, hi, -⟩
    rw [h.1] at hi
    cases hi
  have honce : m.advanceOnce commits now =
      .error ⟨.illegalState (.groupAssignmentOf m.session.subscription.form), m⟩ := by
    rw [advanceOnce_of_not_waits hw, h.1]
    show (m.unstaged.startReconciliation commits now).map (·.1) = _
    rw [startReconciliation_of_target (m := m.unstaged) h.2.1 h.2.2, if_neg fun hb => hb.2 ho,
      revokeThenAssign_of_diff_eq_empty (m := m.unstaged) ho,
      applyTarget_of_not_isAuto (m := m.unstaged) hauto, unstaged_of_idle h.1]
  rw [advanceOnce] at honce
  cases hadv : m.advance commits now with
  | error e =>
    rw [hadv] at honce
    exact congrArg Except.error (Except.error.inj honce)
  | ok r =>
    rw [hadv] at honce
    cases honce

/-- A step that stops with a fault has changed nothing, and would stop with it again. -/
theorem advance_of_error (hc : m.member.Coherent) (ha : m.Agrees) {e : Stopped}
    (h : m.advance commits now = .error e) :
    ∃ f, e = ⟨f, m⟩ ∧ ∀ commits' now', m.advance commits' now' = .error ⟨f, m⟩ := by
  obtain ⟨f, n⟩ := e
  have hm := move_advanceOnce commits now hc
  rw [advanceOnce, h] at hm
  cases hm with
  | @refused _ _ target htakes hauto =>
    have ho : m.member.owned.diff target = ∅ := by
      rw [ha.other hauto]
      exact SortedSet.isEmpty_iff.1 rfl
    obtain ⟨hs, -⟩ | ⟨i, hg, hd⟩ := htakes
    · have hadv := advance_of_startsNext hs ho hauto
      exact ⟨_, Except.error.inj (h.symm.trans (hadv commits now)), hadv⟩
    · -- A revocation is under way only if something is owned, which the group serves.
      have hway := (hc.of_reconciling (by have := hc.state_of_stage; rwa [hg] at this)).1
      rw [Member.OnTheWay, hg] at hway
      exact absurd ho hway

/-! ### The loop -/

/-- Reconciliation leads to `r`. The loop ends, and `r` is where it does: after the last step, which
no other one follows, or at a fault, before which the membership was as it is now. It asks for one
callback and one commit at most. Done again, it leads nowhere else, whether or not there is a commit
manager and whatever the time. -/
structure ReconcilesTo (commits : Bool) (now : Int64) (m : Membership) (r : Step) : Prop where
  ends : ∃ m₁, Relation.ReflTransGen (Goes commits now) m m₁ ∧
    ((∃ m', r = .ok m' ∧ m₁.advance commits now = .ok (m', false)) ∨
      ∃ f, r = .error ⟨f, m₁⟩ ∧ m₁.advance commits now = .error ⟨f, m₁⟩)
  asks : ∃ es cs, m.session.Grows r.membership.session es cs ∧
    (es = [] ∨ ∃ q, es = [.callbackNeeded q]) ∧
    (cs = [] ∨ ∃ consumed deadline n, cs = [.commitBeforeRevocation consumed deadline n])
  again : ∀ commits' now', r.membership.reconcile commits' now' = r

/-- Where the loop ends, if there are more steps than are left. -/
theorem ends_of_advanceWithin (hc : m.member.Coherent) (ha : m.Agrees) {n : Nat}
    (hn : m.stepsLeft < n) :
    ∃ m₁, Relation.ReflTransGen (Goes commits now) m m₁ ∧
      ((∃ m', m.advanceWithin commits now n = .ok m' ∧ m₁.advance commits now = .ok (m', false) ∧
          m'.Settled) ∨
        ∃ f, m.advanceWithin commits now n = .error ⟨f, m₁⟩ ∧
          ∀ commits' now', m₁.advance commits' now' = .error ⟨f, m₁⟩) ∧
      ∃ es cs, m.session.Grows (m.advanceWithin commits now n).membership.session es cs ∧
        m.Frugal es cs := by
  induction n generalizing m with
  | zero => cases hn
  | succ n ih =>
    rw [advanceWithin]
    cases hadv : m.advance commits now with
    | error e =>
      obtain ⟨f, rfl, hagain⟩ := advance_of_error hc ha hadv
      exact ⟨m, .refl, Or.inr ⟨f, rfl, hagain⟩, [], [], Session.Grows.refl _, .nil m⟩
    | ok r =>
      obtain ⟨m', more⟩ := r
      cases more with
      | false =>
        obtain ⟨hs, hgrows⟩ := settled_of_advance hc hadv
        exact ⟨m, .refl, Or.inl ⟨m', rfl, hadv, hs⟩, [], [], hgrows, .nil m⟩
      | true =>
        have hm := move_of_advance hc hadv
        obtain ⟨es, cs, hgrows, hd⟩ := Goes.demands hc hadv
        obtain ⟨m₁, hgo, hend, es', cs', hgrows', hf⟩ := ih (hm.coherent hc) (hm.agrees ha)
          (Nat.lt_of_lt_of_le hd.stepsLeft_lt (Nat.lt_succ_iff.1 hn))
        exact ⟨m₁, .head hadv hgo, hend, es ++ es', cs ++ cs', hgrows.trans hgrows', hd.frugal hf⟩

/-- Four steps are enough for what three may be left of. -/
theorem reconcilesTo_reconcile (hc : m.member.Coherent) (ha : m.Agrees) (commits : Bool)
    (now : Int64) : m.ReconcilesTo commits now (m.reconcile commits now) := by
  have hn : m.stepsLeft < 4 := Nat.lt_succ_of_le m.stepsLeft_le
  obtain ⟨m₁, hgo, hend, es, cs, hgrows, hf⟩ := ends_of_advanceWithin hc ha hn
  refine ⟨⟨m₁, hgo, ?_⟩, ⟨es, cs, hgrows, hf.events.imp_right And.right,
    hf.calls.imp_right And.right⟩, fun commits' now' => ?_⟩
  · obtain ⟨m', hr, hadv, -⟩ | ⟨f, hr, hadv⟩ := hend
    · exact Or.inl ⟨m', hr, hadv⟩
    · exact Or.inr ⟨f, hr, hadv commits now⟩
  · obtain ⟨m', hr, -, hs⟩ | ⟨f, hr, hadv⟩ := hend
    · have hr : m.reconcile commits now = .ok m' := hr
      rw [hr]
      show m'.advanceWithin commits' now' 4 = .ok m'
      rw [advanceWithin, hs.advance]
      rfl
    · have hr : m.reconcile commits now = .error ⟨f, m₁⟩ := hr
      rw [hr]
      show m₁.advanceWithin commits' now' 4 = .error ⟨f, m₁⟩
      rw [advanceWithin, hadv]
      rfl

end Membership

namespace Setup

/-- Whatever has happened before, reconciliation ends. -/
theorem reconciles (u : Setup) (as : List Action) {k : Chronicle} (hk : k ∈ (u.chronicle as).points)
    {x : Member} (hx : k.present.member = some x) (commits : Bool) (now : Int64) :
    Membership.ReconcilesTo commits now ⟨x, k.present.session⟩
      (Membership.reconcile ⟨x, k.present.session⟩ commits now) := by
  obtain ⟨y, hy⟩ := ((u.lived as).of_mem_points hk).sound u.sound
  obtain rfl := Option.some.inj (hx.symm.trans hy.member)
  exact Membership.reconcilesTo_reconcile hy.coherent hy.agrees commits now

/-- The caller still hears of the first target when the group names another one, and then has heard of
it. Commits are over at once. -/
def overtakenSteps : List Action :=
  firstSteps ++
    [.outside (.script {
        outcomes := [.success "m" 1 (some (.ofList [{ topic := "t", number := 1 }]))]
        replies := fun _ => [fun _ => { answer := .settled (.ok .done) }] }),
      .progress 0, .outside (.settle 2 (.ok .done))]

/-- Four steps in one go: the older target is done with, the latest one is started, its commit is over,
and the caller has to hear of the partition that goes. -/
theorem reconciles_overtaken :
    let k := firstSetup.chronicle overtakenSteps
    ∃ x, k.present.member = some x ∧
      let m : Membership := ⟨x, k.present.session⟩
      let r := m.reconcile true 0
      m.ReconcilesTo true 0 r ∧ m.stepsLeft = 3 ∧ r.membership.member.stage.name = "Revoking" ∧
        r.membership.session.events.length = m.session.events.length + 1 ∧
        r.membership.session.calls.size = m.session.calls.size + 1 := by
  intro k
  have hfacts : k.present.member.map (fun x =>
      ((⟨x, k.present.session⟩ : Membership).stepsLeft,
        (Membership.reconcile ⟨x, k.present.session⟩ true 0).membership.member.stage.name,
        (Membership.reconcile ⟨x, k.present.session⟩ true 0).membership.session.events.length,
        (Membership.reconcile ⟨x, k.present.session⟩ true 0).membership.session.calls.size)) =
      some (3, "Revoking", k.present.session.events.length + 1, k.present.session.calls.size + 1) := by
    decide +kernel
  obtain ⟨x, hx, hfacts⟩ := Option.map_eq_some_iff.1 hfacts
  obtain ⟨hl, hfacts⟩ := Prod.mk.inj hfacts
  obtain ⟨hstage, hfacts⟩ := Prod.mk.inj hfacts
  obtain ⟨hevents, hcalls⟩ := Prod.mk.inj hfacts
  have hr := reconciles firstSetup overtakenSteps (Chronicle.mem_points_self k) hx true 0
  exact ⟨x, hx, hr, hl, hstage, hevents, hcalls⟩

end Setup

end GroupConsumer
