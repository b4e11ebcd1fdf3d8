import GroupConsumer.Proofs.Member.Effect

/-!
# The moves of a member

All that a member can do, as one relation: `Move m t m' f` says that a member, set in motion by `t`,
goes from `m` to `m'` and stops with the fault `f`, if with any. A poll, the outcome of a heartbeat,
a step of reconciliation and a leave each are a move of a coherent member, so that what holds of
every move need not be shown of one operation after the other.
-/

namespace GroupConsumer

/-- What sets a member in motion. -/
inductive Trigger where
  | polled
  | heard (outcome : HeartbeatOutcome)
  /-- A step of reconciliation; `commits` says whether there is a commit manager. -/
  | advanced (commits : Bool) (now : Int64)
  | left

namespace Membership

/-- A poll makes the member join. -/
def JoinsNext (m : Membership) : Prop :=
  m.member.subscriptionUpdated = true ∧ m.member.state = .unsubscribed ∧ m.member.closing = false

/-- The slot that the stage waits for is not complete. -/
def Waits (m : Membership) : Prop :=
  ∃ i, m.member.stage.slot? = some i ∧ m.session.slots.isDone i = false

/-- The member sets out for a target. -/
def StartsNext (m : Membership) (target : PartitionSet) : Prop :=
  m.member.stage = .idle ∧ m.member.state = .reconciling ∧ m.member.target = some target

/-- Partitions outside the target are to be given up, and nothing has to be committed any more. -/
def RevokesNext (m : Membership) (commits : Bool) (target : PartitionSet) : Prop :=
  m.member.owned.diff target ≠ ∅ ∧
    ((m.StartsNext target ∧ commits = false) ∨
      ∃ i, m.member.stage = .committing i target ∧ m.session.slots.isDone i = true)

/-- The target is to be taken over. -/
def TakesNext (m : Membership) (target : PartitionSet) : Prop :=
  (m.StartsNext target ∧ m.member.owned.diff target = ∅) ∨
    ∃ i, m.member.stage = .revoking i target ∧ m.session.slots.isDone i = true

/-- The trigger leaves the member as it is. -/
def AtEase (m : Membership) : Trigger → Prop
  | .polled => False
  | .heard (.success ..) => m.member.state.isActive = false
  | .heard .fenced => m.member.state.isActive = false ∧ m.member.state.isLeaving = false
  | .heard (.fatal _) => m.member.state = .fatal
  | .heard (.requestSent epoch) =>
    m.member.state ≠ .acknowledging ∧ (m.member.state = .leaving → epoch ≠ leaveEpoch)
  | .advanced .. => m.Waits ∨ (m.member.stage = .idle ∧ m.member.state ≠ .reconciling)
  | .left => m.member.state.isLeaving = true

end Membership

/-- What the caller hears of an identity: nothing, unless it is new. -/
def Member.news (x : Member) (memberId : String) (epoch : Int) : List BackgroundEvent :=
  if memberId ≠ x.memberId ∨ epoch ≠ x.epoch then [.groupMetadata memberId epoch] else []

/-- All that a member can do. -/
inductive Move (m : Membership) : Trigger → Membership → Option Fault → Prop
  | rest {t : Trigger} (h : m.AtEase t) : Move m t m none
  | noted (h : ¬ m.JoinsNext) :
      Move m .polled ⟨{ m.member with subscriptionUpdated := false }, m.session⟩ none
  | joined (h : m.JoinsNext) :
      Move m .polled ⟨{ m.member with
        subscriptionUpdated := false, state := .joining, epoch := joinEpoch, target := none,
        stage := .idle }, m.session⟩ none
  | identified {memberId : String} {epoch : Int} {assignment : Option PartitionSet} {s : Session}
      (ha : m.member.state.isActive = true)
      (hn : assignment = none ∨ (m.member.state = .stable ∧ assignment = some m.member.owned))
      (hs : m.session.Becomes s m.session.subscription (m.member.news memberId epoch) []) :
      Move m (.heard (.success memberId epoch assignment))
        ⟨{ m.member with memberId, epoch }, s⟩ none
  | retargeted {memberId : String} {epoch : Int} {target : PartitionSet} {s : Session}
      (ha : m.member.state.isActive = true)
      (hn : ¬ (m.member.state = .stable ∧ target = m.member.owned))
      (hs : m.session.Becomes s m.session.subscription (m.member.news memberId epoch) []) :
      Move m (.heard (.success memberId epoch (some target)))
        ⟨{ m.member with memberId, epoch, target := some target, state := .reconciling }, s⟩ none
  | settled {epoch : Int} (h : m.member.state = .acknowledging) :
      Move m (.heard (.requestSent epoch)) ⟨{ m.member with state := .stable }, m.session⟩ none
  | finished {t : Trigger} {s : Session}
      (h : (m.member.state = .leaving ∧ t = .heard (.requestSent leaveEpoch)) ∨
        (m.member.state.isLeaving = true ∧ t = .heard .fenced))
      (hs : m.session.Becomes s m.session.subscription.unsubscribe [] []) :
      Move m t ⟨{ m.member with
        owned := ∅, epoch := joinEpoch, stage := .idle, state := .unsubscribed,
        leaveSlot := none }, s⟩ none
  | fenced {r : CallbackRequest} {s : Session} (ha : m.member.state.isActive = true)
      (ho : m.member.owned ≠ ∅) (hm : r.method = .partitionsLost)
      (hp : r.partitions = m.member.owned)
      (hs : m.session.Becomes s m.session.subscription [.callbackNeeded r] []) :
      Move m (.heard .fenced) ⟨{ m.member with
        state := .fenced, epoch := joinEpoch, target := none, stage := .lost r.ticket.slot }, s⟩ none
  | dropped {t : Trigger}
      (h : (t = .heard .fenced ∧ m.member.state.isActive = true ∧ m.member.owned = ∅) ∨
        ∃ commits now i, t = .advanced commits now ∧ m.member.stage = .lost i ∧
          m.session.slots.isDone i = true) :
      Move m t ⟨{ m.member with
          owned := ∅, epoch := joinEpoch, target := none, stage := .idle,
          state := m.member.stateAfterLoss m.session.subscription.isAuto },
        { m.session with subscription := m.session.subscription.released }⟩ none
  | failed {f : Fault} {s : Session} (h : m.member.state ≠ .fatal)
      (hs : m.session.Becomes s m.session.subscription.released [.fault f] []) :
      Move m (.heard (.fatal f)) ⟨{ m.member with
        state := .fatal, target := none, stage := .idle, owned := ∅, leaveSlot := none }, s⟩ none
  | forgot {s : Session} (h : m.member.state = .unsubscribed ∨ m.member.state = .fatal)
      (hs : m.session.Becomes s m.session.subscription.unsubscribe [] []) :
      Move m .left ⟨{ m.member with owned := ∅ }, s⟩ none
  | abandoned {s : Session} (h : m.member.state = .fenced)
      (hs : m.session.Becomes s m.session.subscription.unsubscribe [] []) :
      Move m .left
        ⟨{ m.member with owned := ∅, stage := .idle, state := .unsubscribed }, s⟩ none
  | departed {i : SlotId} {s : Session} (ha : m.member.state.isActive = true)
      (ho : m.member.owned = ∅)
      (hs : m.session.Becomes s m.session.subscription.unsubscribe [] []) :
      Move m .left ⟨{ m.member with
        leaveSlot := some i, target := none, stage := .idle, owned := ∅, epoch := leaveEpoch,
        state := .leaving }, s⟩ none
  | departing {i : SlotId} {r : CallbackRequest} {s : Session}
      (ha : m.member.state.isActive = true) (ho : m.member.owned ≠ ∅)
      (hm : r.method = .partitionsRevoked) (hp : r.partitions = m.member.owned)
      (hs : m.session.Becomes s m.session.subscription [.callbackNeeded r] []) :
      Move m .left ⟨{ m.member with
        state := .prepareLeaving, leaveSlot := some i, target := none,
        stage := .leavingRevoke r.ticket.slot }, s⟩ none
  | vacated {commits : Bool} {now : Int64} {i : SlotId} (hg : m.member.stage = .leavingRevoke i)
      (hd : m.session.slots.isDone i = true) :
      Move m (.advanced commits now) ⟨{ m.member with
          stage := .idle, owned := ∅, epoch := leaveEpoch, state := .leaving },
        { m.session with subscription := m.session.subscription.unsubscribe }⟩ none
  | committing {now : Int64} {i : SlotId} {target : PartitionSet} {s : Session}
      (h : m.StartsNext target) (ho : m.member.owned.diff target ≠ ∅)
      (hf : s.futures[m.session.futures.size]? = some (.commitBeforeRevocation, i))
      (hs : m.session.Becomes s m.session.subscription []
        [.commitBeforeRevocation m.session.subscription.consumed
          (deadlineAfter now m.member.callbackTimeout) m.session.futures.size]) :
      Move m (.advanced true now) ⟨{ m.member with stage := .committing i target }, s⟩ none
  | revoking {commits : Bool} {now : Int64} {target : PartitionSet} {r : CallbackRequest}
      {s : Session} (h : m.RevokesNext commits target) (hm : r.method = .partitionsRevoked)
      (hp : r.partitions = m.member.owned.diff target)
      (hs : m.session.Becomes s m.session.subscription [.callbackNeeded r] []) :
      Move m (.advanced commits now)
        ⟨{ m.member with stage := .revoking r.ticket.slot target }, s⟩ none
  | assigning {commits : Bool} {now : Int64} {target : PartitionSet} {r : CallbackRequest}
      {s : Session} (h : m.TakesNext target) (hauto : m.session.subscription.isAuto = true)
      (ho : target.diff m.member.owned ≠ ∅) (hm : r.method = .partitionsAssigned)
      (hp : r.partitions = target.diff m.member.owned)
      (hs : m.session.Becomes s (m.session.subscription.reassign target) [.callbackNeeded r] []) :
      Move m (.advanced commits now)
        ⟨{ m.member with owned := target, stage := .assigning r.ticket.slot target }, s⟩ none
  | applied {commits : Bool} {now : Int64} {target : PartitionSet} (h : m.TakesNext target)
      (hauto : m.session.subscription.isAuto = true) (ho : target.diff m.member.owned = ∅) :
      Move m (.advanced commits now)
        ⟨({ m.member with owned := target, stage := .idle } : Member).conclude target,
          { m.session with subscription := m.session.subscription.reassign target }⟩ none
  | refused {commits : Bool} {now : Int64} {target : PartitionSet} (h : m.TakesNext target)
      (hauto : m.session.subscription.isAuto = false) :
      Move m (.advanced commits now) ⟨{ m.member with stage := .idle }, m.session⟩
        (some (.illegalState (.groupAssignmentOf m.session.subscription.form)))
  | completed {commits : Bool} {now : Int64} {i : SlotId} {target : PartitionSet}
      (hg : m.member.stage = .assigning i target) (hd : m.session.slots.isDone i = true) :
      Move m (.advanced commits now)
        ⟨({ m.member with stage := .idle } : Member).conclude target, m.session⟩ none

namespace Membership

variable {m : Membership}

/-! ### Polls -/

theorem move_onPoll (m : Membership) :
    Move m .polled m.onPoll.membership m.onPoll.fault? := by
  have hcond : (m.member.subscriptionUpdated && m.member.state == .unsubscribed &&
      !m.member.closing) = true ↔ m.JoinsNext := by
    simp [JoinsNext, and_assoc]
  let n : Membership := ⟨{ m.member with subscriptionUpdated := false }, m.session⟩
  have hn : m.onPoll = if m.member.subscriptionUpdated && m.member.state == .unsubscribed &&
      !m.member.closing then n.join else .ok n := rfl
  by_cases h : m.JoinsNext
  · rw [hn, if_pos (hcond.2 h), join_eq (m := n) h.2.1 rfl]
    exact .joined h
  · rw [hn, if_neg (mt hcond.1 h)]
    exact .noted h

/-! ### Heartbeats -/

theorem move_onSuccess (m : Membership) (memberId : String) (epoch : Int)
    (assignment : Option PartitionSet) :
    Move m (.heard (.success memberId epoch assignment))
      (m.onSuccess memberId epoch assignment).membership
      (m.onSuccess memberId epoch assignment).fault? := by
  cases ha : m.member.state.isActive with
  | false =>
    rw [onSuccess_of_not_isActive ha]
    exact .rest ha
  | true =>
    obtain ⟨s, hb, hi⟩ := identify_eq m memberId epoch
    rw [onSuccess_of_isActive ha, hi]
    cases assignment with
    | none => exact .identified ha (Or.inl rfl) hb
    | some target =>
      let n : Membership := ⟨{ m.member with memberId, epoch }, s⟩
      show Move m _ (n.retarget target).membership (n.retarget target).fault?
      by_cases hn : m.member.state = .stable ∧ target = m.member.owned
      · rw [retarget_of_owned (m := n) hn]
        exact .identified ha (Or.inr ⟨hn.1, congrArg some hn.2⟩) hb
      · rw [retarget_of_not_owned (m := n) ha hn]
        exact .retargeted ha hn hb

theorem move_onRequestSent (m : Membership) (epoch : Int) :
    Move m (.heard (.requestSent epoch)) (m.onRequestSent epoch).membership
      (m.onRequestSent epoch).fault? := by
  by_cases hk : m.member.state = .acknowledging
  · have hn : m.onRequestSent epoch = m.enter .stable := by
      rw [onRequestSent, hk]
    rw [hn, enter_eq hk rfl]
    exact .settled hk
  · by_cases hl : m.member.state = .leaving ∧ epoch = leaveEpoch
    · obtain ⟨hs, rfl⟩ := hl
      have hn : m.onRequestSent leaveEpoch = m.finishLeaving := by
        rw [onRequestSent, hs]
        rfl
      obtain ⟨s, hb, he⟩ := finishLeaving_eq hs rfl
      rw [hn, he]
      exact .finished (Or.inl ⟨hs, rfl⟩) hb
    · have hn : m.onRequestSent epoch = .ok m := by
        unfold onRequestSent
        split
        · rename_i hs
          exact absurd hs hk
        · rename_i hs
          exact if_neg fun he => hl ⟨hs, he⟩
        · rfl
      rw [hn]
      exact .rest ⟨hk, fun hs he => hl ⟨hs, he⟩⟩

theorem move_onFenced (m : Membership) :
    Move m (.heard .fenced) m.onFenced.membership m.onFenced.fault? := by
  cases hl : m.member.state.isLeaving with
  | true =>
    obtain ⟨s, hb, he⟩ := onFenced_of_isLeaving hl
    rw [he]
    exact .finished (Or.inr ⟨hl, rfl⟩) hb
  | false =>
    cases ha : m.member.state.isActive with
    | false =>
      have hn : m.onFenced = .ok m := by
        unfold onFenced
        obtain hs | hs | hs := MemberState.eq_of_not_isActive ha hl <;> rw [hs]
      rw [hn]
      exact .rest ⟨ha, hl⟩
    | true =>
      let n : Membership := ⟨{ m.member with
        state := .fenced, epoch := joinEpoch, target := none, stage := .idle }, m.session⟩
      rw [onFenced_of_isActive ha]
      by_cases ho : m.member.owned = ∅
      · rw [if_pos (SortedSet.isEmpty_iff.2 ho), afterLost_eq (m := n) rfl rfl rfl rfl]
        exact .dropped (Or.inl ⟨rfl, ha, ho⟩)
      · rw [if_neg (mt SortedSet.isEmpty_iff.1 ho)]
        obtain ⟨r, s, hm, hp, hb, he⟩ := requestCallback_eq n .partitionsLost m.member.owned
        rw [he]
        exact .fenced ha ho hm hp hb

/-- The outcome of a heartbeat is a move. -/
theorem move_onHeartbeat (m : Membership) (o : HeartbeatOutcome) :
    Move m (.heard o) (m.onHeartbeat o).membership (m.onHeartbeat o).fault? := by
  cases o with
  | success memberId epoch assignment => exact move_onSuccess m memberId epoch assignment
  | fenced => exact move_onFenced m
  | fatal f =>
    show Move m _ (m.onFatal f).membership (m.onFatal f).fault?
    by_cases hs : m.member.state = .fatal
    · rw [onFatal, if_pos hs]
      exact .rest hs
    · obtain ⟨s, hb, he⟩ := onFatal_eq hs f
      rw [he]
      exact .failed hs hb
  | requestSent epoch => exact move_onRequestSent m epoch

/-! ### Reconciliation -/

/-- One step of reconciliation, whether or not a further one may follow. -/
def advanceOnce (m : Membership) (commits : Bool) (now : Int64) : Step :=
  (m.advance commits now).map (·.1)

theorem advanceOnce_of_waits (h : m.Waits) (commits : Bool) (now : Int64) :
    m.advanceOnce commits now = .ok m := by
  obtain ⟨i, hi, hd⟩ := h
  rw [advanceOnce, advance, hi]
  show Except.map _ (if (!m.session.slots.isDone i) = true then _ else _) = _
  rw [hd]
  rfl

theorem isDone_of_not_waits (h : ¬ m.Waits) {i : SlotId} (hi : m.member.stage.slot? = some i) :
    m.session.slots.isDone i = true := by
  cases hd : m.session.slots.isDone i with
  | true => rfl
  | false => exact absurd ⟨i, hi, hd⟩ h

/-- The membership when the stage is over. -/
def unstaged (m : Membership) : Membership := ⟨{ m.member with stage := .idle }, m.session⟩

theorem unstaged_of_idle (h : m.member.stage = .idle) : m.unstaged = m := by
  rw [unstaged, Member.with_stage_idle h]

/-- What the stage says is next, once it has not to wait any more. -/
theorem advanceOnce_of_not_waits (h : ¬ m.Waits) (commits : Bool) (now : Int64) :
    m.advanceOnce commits now =
      match m.member.stage with
      | .idle => (m.unstaged.startReconciliation commits now).map (·.1)
      | .committing _ target => m.unstaged.revokeThenAssign target
      | .revoking _ target => m.unstaged.applyTarget target
      | .assigning _ target => m.unstaged.completeReconciliation target
      | .leavingRevoke _ =>
        match m.unstaged.startLeaving with
        | .ok m => .ok m
        | .error e => .error { e with membership := e.membership.completeLeave (.error e.fault) }
      | .lost _ => m.unstaged.afterLost := by
  have hmap (r : Step) (b : Bool) : (r.map (·, b)).map (·.1) = r := by
    cases r <;> rfl
  have hw : ¬ (m.member.stage.slot?.any fun i => !m.session.slots.isDone i) = true := by
    intro hw
    obtain ⟨i, hi, hd⟩ := (Option.any_eq_true _ _).1 hw
    exact h ⟨i, hi, by simpa using hd⟩
  rw [advanceOnce, advance, if_neg hw]
  cases m.member.stage with
  | idle => rfl
  | committing i target => exact hmap _ _
  | revoking i target => exact hmap _ _
  | assigning i target => exact hmap _ _
  | leavingRevoke i =>
    show Except.map _ (match m.unstaged.startLeaving with | .ok m => _ | .error e => _) = _
    cases m.unstaged.startLeaving <;> rfl
  | lost i => exact hmap _ _

section Advance

variable (commits : Bool) (now : Int64) {target : PartitionSet}

theorem move_applyTarget (hs : m.member.state = .reconciling) (h : m.TakesNext target) :
    Move m (.advanced commits now) (m.unstaged.applyTarget target).membership
      (m.unstaged.applyTarget target).fault? := by
  cases hauto : m.session.subscription.isAuto with
  | false =>
    rw [applyTarget_of_not_isAuto (m := m.unstaged) hauto]
    exact .refused h hauto
  | true =>
    by_cases ho : target.diff m.member.owned = ∅
    · rw [applyTarget_of_diff_eq_empty (m := m.unstaged) hauto hs ho]
      exact .applied h hauto ho
    · obtain ⟨r, s, hm, hp, hb, he⟩ :=
        applyTarget_of_diff_ne_empty (m := m.unstaged) hauto ho
      rw [he]
      exact .assigning h hauto ho hm hp hb

theorem move_revoke (h : m.RevokesNext commits target) :
    Move m (.advanced commits now) (m.unstaged.revokeThenAssign target).membership
      (m.unstaged.revokeThenAssign target).fault? := by
  obtain ⟨r, s, hm, hp, hb, he⟩ := revokeThenAssign_of_diff_ne_empty (m := m.unstaged) h.1
  rw [he]
  exact .revoking h hm hp hb

theorem move_start (h : m.StartsNext target) :
    let r : Step := (m.unstaged.startReconciliation commits now).map (·.1)
    Move m (.advanced commits now) r.membership r.fault? := by
  intro r
  have hr : r = _ := startReconciliation_of_target (m := m.unstaged) h.2.1 h.2.2 commits now
  rw [hr]
  by_cases ho : m.member.owned.diff target = ∅
  · rw [if_neg fun hc => hc.2 ho, revokeThenAssign_of_diff_eq_empty (m := m.unstaged) ho]
    exact move_applyTarget commits now h.2.1 (Or.inl ⟨h, ho⟩)
  · cases commits with
    | true =>
      obtain ⟨s, i, hb, hf, he⟩ := commitBeforeRevocation_eq m.unstaged now target
      rw [if_pos ⟨rfl, ho⟩, he]
      exact .committing h ho hf hb
    | false =>
      rw [if_neg fun hc => Bool.false_ne_true hc.1]
      exact move_revoke false now ⟨ho, Or.inl ⟨h, rfl⟩⟩

/-- A step of reconciliation of a coherent member is a move. -/
theorem move_advanceOnce (h : m.member.Coherent) :
    Move m (.advanced commits now) (m.advanceOnce commits now).membership
      (m.advanceOnce commits now).fault? := by
  by_cases hw : m.Waits
  · rw [advanceOnce_of_waits hw]
    exact .rest (Or.inl hw)
  · have hdone {i : SlotId} := isDone_of_not_waits hw (i := i)
    have hst := h.state_of_stage
    rw [advanceOnce_of_not_waits hw]
    -- Coherence tells the state that each stage belongs to, and so what the stage may enter next.
    cases hg : m.member.stage with
    | idle =>
      by_cases hs : m.member.state = .reconciling
      · obtain ⟨target, ht⟩ := Option.isSome_iff_exists.1 (h.of_reconciling hs).2.2
        exact move_start commits now ⟨hg, hs, ht⟩
      · show Move m _ (Step.membership ((m.unstaged.startReconciliation commits now).map (·.1)))
          (Step.fault? ((m.unstaged.startReconciliation commits now).map (·.1)))
        rw [unstaged_of_idle hg, startReconciliation_of_state_ne hs]
        exact .rest (Or.inr ⟨hg, hs⟩)
    | committing i target =>
      rw [hg] at hst hdone
      have ho := (h.of_reconciling hst).1
      rw [Member.OnTheWay, hg] at ho
      exact move_revoke commits now ⟨ho, Or.inr ⟨i, hg, hdone rfl⟩⟩
    | revoking i target =>
      rw [hg] at hst hdone
      exact move_applyTarget commits now hst (Or.inr ⟨i, hg, hdone rfl⟩)
    | assigning i target =>
      rw [hg] at hst hdone
      show Move m _ (m.unstaged.completeReconciliation target).membership
        (m.unstaged.completeReconciliation target).fault?
      rw [completeReconciliation_eq (m := m.unstaged) hst]
      exact .completed hg (hdone rfl)
    | leavingRevoke i =>
      rw [hg] at hst hdone
      simp only [startLeaving_eq (m := m.unstaged) hst rfl]
      exact .vacated hg (hdone rfl)
    | lost i =>
      rw [hg] at hst hdone
      obtain ⟨-, ht, -, -, he⟩ := h.of_fenced hst
      have hm := Move.dropped (Or.inr ⟨commits, now, i, rfl, hg, hdone rfl⟩)
      rw [← he, ← ht] at hm
      show Move m _ m.unstaged.afterLost.membership m.unstaged.afterLost.fault?
      rw [afterLost_eq (m := m.unstaged) hst he ht rfl]
      exact hm

end Advance

/-! ### Leaves -/

/-- A member that takes part and has begun to leave, under a new slot. -/
def begun (m : Membership) : Membership :=
  ⟨{ m.member with
      state := .prepareLeaving, leaveSlot := some m.session.fresh.2, target := none,
      stage := .idle }, m.session.fresh.1⟩

theorem canEnter_prepareLeaving {s : MemberState} (h : s.isActive = true) :
    s.canEnter .prepareLeaving = true := by
  obtain rfl | rfl | rfl | rfl := MemberState.eq_of_isActive h <;> rfl

/-- A member that owns nothing says at once that it leaves. -/
theorem beginLeave_of_owned_eq_empty (ha : m.member.state.isActive = true)
    (ho : m.member.owned = ∅) :
    m.beginLeave.1 = ⟨{ m.begun.member with owned := ∅, epoch := leaveEpoch, state := .leaving },
        { m.begun.session with subscription := m.session.subscription.unsubscribe }⟩ ∧
      m.beginLeave.2 = m.session.fresh.2 := by
  have he : m.begun.member.owned.isEmpty = true := SortedSet.isEmpty_iff.2 ho
  have hn : m.beginLeave = (⟨{ m.begun.member with
        owned := ∅, epoch := leaveEpoch, state := .leaving },
      { m.begun.session with subscription := m.session.subscription.unsubscribe }⟩,
      m.session.fresh.2) := by
    rw [beginLeave, enter_eq rfl (canEnter_prepareLeaving ha)]
    show (if m.begun.member.owned.isEmpty then
      (match m.begun.startLeaving with
        | .ok n => (n, m.session.fresh.2)
        | .error e =>
          (e.membership.withSession (·.completeUnit m.session.fresh.2 (.error e.fault)),
            m.session.fresh.2))
      else _) = _
    rw [if_pos he, startLeaving_eq (m := m.begun) rfl rfl]
    rfl
  rw [hn]
  exact ⟨rfl, rfl⟩

/-- A member that owns partitions lets the caller hear that they are given up. -/
theorem beginLeave_of_owned_ne_empty (ha : m.member.state.isActive = true)
    (ho : m.member.owned ≠ ∅) :
    let asked := m.begun.requestCallback .partitionsRevoked m.member.owned
    m.beginLeave.1 = (asked.1.withMember fun x => { x with stage := .leavingRevoke asked.2 }) ∧
      m.beginLeave.2 = m.session.fresh.2 := by
  intro asked
  have he : ¬ m.begun.member.owned.isEmpty = true := mt SortedSet.isEmpty_iff.1 ho
  have hn : m.beginLeave = (asked.1.withMember fun x => { x with stage := .leavingRevoke asked.2 },
      m.session.fresh.2) := by
    rw [beginLeave, enter_eq rfl (canEnter_prepareLeaving ha)]
    show (if m.begun.member.owned.isEmpty then _ else _) = _
    rw [if_neg he]
    rfl
  rw [hn]
  exact ⟨rfl, rfl⟩

/-- A fenced member that is asked to leave has nothing to tell the group. -/
theorem leave_of_fenced (hs : m.member.state = .fenced) :
    m.leave = (⟨{ m.member with owned := ∅, stage := .idle, state := .unsubscribed },
      { m.session with subscription := m.session.subscription.unsubscribe }⟩ :
        Membership).leaveAtOnce (.ok ()) := by
  rw [leave, hs]
  show (match m.unstaged.forget.enter .unsubscribed with
    | .ok k => k.leaveAtOnce (.ok ())
    | .error e => e.membership.leaveAtOnce (.error e.fault)) = _
  rw [enter_eq (m := m.unstaged.forget) hs rfl]
  rfl

theorem move_beginLeave (ha : m.member.state.isActive = true) : Move m .left m.beginLeave.1 none := by
  have hg := Session.grows_fresh m.session
  by_cases ho : m.member.owned = ∅
  · rw [(beginLeave_of_owned_eq_empty ha ho).1]
    have hb : m.session.Becomes m.session.fresh.1 m.session.subscription [] [] := ⟨rfl, hg⟩
    exact .departed ha ho (hb.trans (Session.becomes_subscription _ _))
  · rw [(beginLeave_of_owned_ne_empty ha ho).1]
    obtain ⟨r, s, hm, hp, hb, he⟩ := requestCallback_eq m.begun .partitionsRevoked m.member.owned
    rw [he]
    exact .departing ha ho hm hp ⟨hb.subscription, hg.trans hb.grows⟩

/-- A leave of a coherent member is a move. -/
theorem move_leave (h : m.member.Coherent) : Move m .left m.leave.1 none := by
  cases hs : m.member.state with
  | unsubscribed | fatal =>
    obtain ⟨s, i, hb, he⟩ := leaveAtOnce_eq m.forget (.ok ())
    have hn : m.leave = m.forget.leaveAtOnce (.ok ()) := by
      rw [leave, hs]
    rw [hn, he]
    exact .forgot (by simp [hs]) ((Session.becomes_subscription m.session _).trans hb)
  | fenced =>
    let n : Membership := ⟨{ m.member with owned := ∅, stage := .idle, state := .unsubscribed },
      { m.session with subscription := m.session.subscription.unsubscribe }⟩
    obtain ⟨s, i, hb, he⟩ := leaveAtOnce_eq n (.ok ())
    rw [leave_of_fenced hs, he]
    exact .abandoned hs ((Session.becomes_subscription m.session _).trans hb)
  | prepareLeaving | leaving =>
    obtain ⟨i, hi⟩ := h.leaveSlot_of_isLeaving (by rw [hs]; rfl)
    have hn : m.leave = (m, i) := by
      rw [leave, hs, hi]
    rw [hn]
    exact .rest (by simp [AtEase, hs, MemberState.isLeaving])
  | joining | reconciling | acknowledging | stable =>
    have hn : m.leave = m.beginLeave := by
      rw [leave, hs]
    rw [hn]
    exact move_beginLeave (by rw [hs]; rfl)

end Membership

end GroupConsumer
