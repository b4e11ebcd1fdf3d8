import GroupConsumer.Proofs.Member.Coherent
import GroupConsumer.Proofs.Session.Grows
import GroupConsumer.Proofs.Subscription.Assigned

/-!
# What the parts of a move do

One lemma for each part that the moves of a member are made of: the member it ends with, and what
the session becomes. No part looks at more than the state, the stage or the form that its lemma
names.
-/

namespace GroupConsumer

/-- The subscription after its partitions were lost. One that the group does not serve keeps them. -/
def Subscription.released (s : Subscription) : Subscription :=
  if s.isAuto then s.reassign ∅ else s

theorem Subscription.form_released (s : Subscription) : s.released.form = s.form := by
  unfold released
  split <;> rfl

namespace Member

/-- Where a member goes that has lost its partitions. -/
def stateAfterLoss (x : Member) (auto : Bool) : MemberState :=
  if x.closing || !auto then .unsubscribed else .joining

theorem stateAfterLoss_eq (x : Member) (auto : Bool) :
    x.stateAfterLoss auto = .unsubscribed ∨ x.stateAfterLoss auto = .joining := by
  unfold stateAfterLoss
  split
  · exact Or.inl rfl
  · exact Or.inr rfl

/-- The member for which a target is in place: if it is the latest one, it is to be acknowledged. -/
def conclude (x : Member) (target : PartitionSet) : Member :=
  if x.target = some target then { x with target := none, state := .acknowledging } else x

@[simp] theorem owned_conclude (x : Member) (target : PartitionSet) :
    (x.conclude target).owned = x.owned := by
  unfold conclude
  split <;> rfl

@[simp] theorem stage_conclude (x : Member) (target : PartitionSet) :
    (x.conclude target).stage = x.stage := by
  unfold conclude
  split <;> rfl

@[simp] theorem subscriptionUpdated_conclude (x : Member) (target : PartitionSet) :
    (x.conclude target).subscriptionUpdated = x.subscriptionUpdated := by
  unfold conclude
  split <;> rfl

@[simp] theorem leaveSlot_conclude (x : Member) (target : PartitionSet) :
    (x.conclude target).leaveSlot = x.leaveSlot := by
  unfold conclude
  split <;> rfl

theorem state_conclude (x : Member) (target : PartitionSet) :
    (x.conclude target).state = .acknowledging ∨ (x.conclude target).state = x.state := by
  unfold conclude
  split
  · exact Or.inl rfl
  · exact Or.inr rfl

theorem with_stage_idle {x : Member} (h : x.stage = .idle) : { x with stage := .idle } = x := by
  rw [← h]

end Member

namespace Membership

variable {m : Membership}

theorem enter_eq {a next : MemberState} (hs : m.member.state = a) (h : a.canEnter next = true) :
    m.enter next = .ok { m with member := { m.member with state := next } } := by
  rw [enter, hs, if_pos h]
  rfl

theorem join_eq {a : MemberState} (hs : m.member.state = a) (h : a.canEnter .joining = true) :
    m.join = .ok { m with member := { m.member with
      state := .joining, epoch := joinEpoch, target := none, stage := .idle } } := by
  rw [join, enter_eq hs h]
  rfl

/-- The request that is published names the slot that is handed back. -/
theorem requestCallback_eq (m : Membership) (method : ListenerMethod) (parts : PartitionSet) :
    ∃ (r : CallbackRequest) (s : Session), r.method = method ∧ r.partitions = parts ∧
      m.session.Becomes s m.session.subscription [.callbackNeeded r] [] ∧
      m.requestCallback method parts = (⟨m.member, s⟩, r.ticket.slot) := by
  let t := m.session.issue BackgroundEvent.callbackNeededKind m.session.clock
    (deadlineAfter m.session.clock m.member.callbackTimeout)
  refine ⟨⟨t.2, method, parts⟩, t.1.publish (.callbackNeeded ⟨t.2, method, parts⟩), rfl, rfl, ?_,
    rfl⟩
  refine ⟨rfl, (Session.grows_fresh m.session).trans (Session.grows_publish _ ?_)⟩
  intro e he r hr
  obtain rfl := List.mem_singleton.1 he
  obtain rfl := Option.some.inj hr
  exact Nat.lt_of_lt_of_eq (Nat.lt_succ_self _) (Slots.size_fresh m.session.slots).symm

theorem assignInSubscription_of_isAuto (h : m.session.subscription.isAuto = true)
    (parts : PartitionSet) :
    m.assignInSubscription parts =
      .ok ⟨m.member, { m.session with subscription := m.session.subscription.reassign parts }⟩ := by
  rw [assignInSubscription, Subscription.assignFromGroup_of_isAuto h]
  rfl

theorem assignInSubscription_of_not_isAuto (h : m.session.subscription.isAuto = false)
    (parts : PartitionSet) :
    m.assignInSubscription parts =
      .error ⟨.illegalState (.groupAssignmentOf m.session.subscription.form), m⟩ := by
  rw [assignInSubscription, Subscription.assignFromGroup_of_not_isAuto h]
  rfl

theorem release_eq (m : Membership) :
    m.release = .ok ⟨{ m.member with owned := ∅ },
      { m.session with subscription := m.session.subscription.released }⟩ := by
  let n : Membership := ⟨{ m.member with owned := ∅ }, m.session⟩
  show (if n.session.subscription.isAuto then n.assignInSubscription ∅ else .ok n) = _
  rw [Subscription.released]
  split
  · rename_i h
    exact assignInSubscription_of_isAuto h ∅
  · rfl

theorem isAuto_released (s : Subscription) : s.released.isAuto = s.isAuto := by
  rw [Subscription.released]
  split <;> rfl

/-- A fenced member with nothing under way ends up outside the group or joins anew. -/
theorem afterLost_eq (hs : m.member.state = .fenced) (he : m.member.epoch = joinEpoch)
    (ht : m.member.target = none) (hg : m.member.stage = .idle) :
    m.afterLost = .ok ⟨{ m.member with
        owned := ∅, state := m.member.stateAfterLoss m.session.subscription.isAuto },
      { m.session with subscription := m.session.subscription.released }⟩ := by
  let n : Membership := ⟨{ m.member with owned := ∅ },
    { m.session with subscription := m.session.subscription.released }⟩
  have hn : m.afterLost =
      if n.member.closing || !n.session.subscription.isAuto then n.enter .unsubscribed
      else n.join := by
    rw [afterLost, release_eq]
    rfl
  have hauto : n.session.subscription.isAuto = m.session.subscription.isAuto :=
    isAuto_released m.session.subscription
  rw [hn, hauto, Member.stateAfterLoss]
  split
  · exact enter_eq (m := n) hs rfl
  · rw [join_eq (m := n) hs rfl, ← he, ← ht, ← hg]

theorem completeLeave_eq (m : Membership) (r : Except Fault Unit) :
    ∃ s, m.session.Becomes s m.session.subscription [] [] ∧
      m.completeLeave r = ⟨{ m.member with leaveSlot := none }, s⟩ := by
  unfold completeLeave
  split
  · rename_i i _
    exact ⟨m.session.completeUnit i r, ⟨rfl, Session.grows_completeUnit _ _ _⟩, rfl⟩
  · rename_i h
    exact ⟨m.session, Session.becomes_refl _, by rw [← h]⟩

theorem startLeaving_eq {a : MemberState} (hs : m.member.state = a)
    (h : a.canEnter .leaving = true) :
    m.startLeaving = .ok ⟨{ m.member with owned := ∅, epoch := leaveEpoch, state := .leaving },
      { m.session with subscription := m.session.subscription.unsubscribe }⟩ := by
  exact enter_eq (m := ⟨{ m.member with owned := ∅, epoch := leaveEpoch }, _⟩) hs h

/-- A member that has left, but for the slot of its leave. -/
def parted (m : Membership) : Membership :=
  ⟨{ m.member with owned := ∅, epoch := joinEpoch, stage := .idle, state := .unsubscribed },
    { m.session with subscription := m.session.subscription.unsubscribe }⟩

/-- The end of a leave is good news for those who wait for it. -/
theorem finishLeaving_of_canEnter {a : MemberState} (hs : m.member.state = a)
    (h : a.canEnter .unsubscribed = true) :
    m.finishLeaving = .ok (m.parted.completeLeave (.ok ())) := by
  let n : Membership := ⟨{ m.member with owned := ∅, epoch := joinEpoch, stage := .idle },
    { m.session with subscription := m.session.subscription.unsubscribe }⟩
  have hk : (m.unsubscribe.withMember fun x =>
      { x with owned := ∅, epoch := joinEpoch, stage := .idle }).enter .unsubscribed = .ok m.parted :=
    enter_eq (m := n) hs h
  simp only [finishLeaving, hk]

theorem finishLeaving_eq {a : MemberState} (hs : m.member.state = a)
    (h : a.canEnter .unsubscribed = true) :
    ∃ s, m.session.Becomes s m.session.subscription.unsubscribe [] [] ∧
      m.finishLeaving = .ok ⟨{ m.member with
        owned := ∅, epoch := joinEpoch, stage := .idle, state := .unsubscribed,
        leaveSlot := none }, s⟩ := by
  obtain ⟨s, hb, he⟩ := completeLeave_eq m.parted (.ok ())
  refine ⟨s, (Session.becomes_subscription m.session _).trans hb, ?_⟩
  rw [finishLeaving_of_canEnter hs h, he]
  rfl

theorem leaveAtOnce_eq (m : Membership) (r : Except Fault Unit) :
    ∃ s i, m.session.Becomes s m.session.subscription [] [] ∧
      m.leaveAtOnce r = (⟨m.member, s⟩, i) :=
  ⟨(m.session.freshWith (r.map fun _ => .done)).1, _, ⟨rfl, Session.grows_freshWith _ _⟩, rfl⟩

/-- The caller hears of an identity exactly if it is new. -/
theorem identify_eq (m : Membership) (memberId : String) (epoch : Int) :
    ∃ s, m.session.Becomes s m.session.subscription
        (if memberId ≠ m.member.memberId ∨ epoch ≠ m.member.epoch then
          [.groupMetadata memberId epoch] else []) [] ∧
      m.identify memberId epoch = ⟨{ m.member with memberId, epoch }, s⟩ := by
  unfold identify
  split
  · exact ⟨m.session.publish (.groupMetadata memberId epoch),
      ⟨rfl, Session.grows_publish _ (Session.ticketed_of_none _ rfl)⟩, rfl⟩
  · rename_i h
    obtain ⟨hid, hep⟩ := not_or.1 h
    refine ⟨m.session, Session.becomes_refl _, ?_⟩
    rw [Decidable.of_not_not hid, Decidable.of_not_not hep]

theorem onSuccess_of_not_isActive (h : m.member.state.isActive = false) (memberId : String)
    (epoch : Int) (assignment : Option PartitionSet) :
    m.onSuccess memberId epoch assignment = .ok m := by
  unfold onSuccess
  cases hs : m.member.state with
  | joining | reconciling | acknowledging | stable =>
    rw [hs] at h
    cases h
  | _ => rfl

theorem onSuccess_of_isActive (h : m.member.state.isActive = true) (memberId : String)
    (epoch : Int) (assignment : Option PartitionSet) :
    m.onSuccess memberId epoch assignment =
      match assignment with
      | some target => (m.identify memberId epoch).retarget target
      | none => .ok (m.identify memberId epoch) := by
  have hs := MemberState.eq_of_isActive h
  cases assignment with
  | none => obtain hs | hs | hs | hs := hs <;> simp only [onSuccess, hs]
  | some target => obtain hs | hs | hs | hs := hs <;> simp only [onSuccess, hs]

theorem retarget_of_owned {target : PartitionSet}
    (h : m.member.state = .stable ∧ target = m.member.owned) : m.retarget target = .ok m := by
  rw [retarget, if_pos h]

/-- A target is taken on in any state of a member that takes part. -/
theorem retarget_of_not_owned (ha : m.member.state.isActive = true) {target : PartitionSet}
    (h : ¬ (m.member.state = .stable ∧ target = m.member.owned)) :
    m.retarget target = .ok ⟨{ m.member with
      target := some target, state := .reconciling }, m.session⟩ := by
  let n : Membership := ⟨{ m.member with target := some target }, m.session⟩
  have hn : m.retarget target =
      if n.member.state = .reconciling then .ok n else n.enter .reconciling := by
    rw [retarget, if_neg h]
    rfl
  rw [hn]
  obtain hs | hs | hs | hs := MemberState.eq_of_isActive ha
  · rw [if_neg (by simp [n, hs]), enter_eq (m := n) hs rfl]
  · rw [if_pos hs, ← hs]
  · rw [if_neg (by simp [n, hs]), enter_eq (m := n) hs rfl]
  · rw [if_neg (by simp [n, hs]), enter_eq (m := n) hs rfl]

/-- A member on its way out that is fenced has left. -/
theorem onFenced_eq_completeLeave (h : m.member.state.isLeaving = true) :
    m.onFenced = .ok (m.parted.completeLeave (.ok ())) := by
  let n : Membership := ⟨{ m.member with state := .fenced }, m.session⟩
  have hn : m.onFenced = n.finishLeaving := by
    unfold onFenced
    obtain hs | hs := MemberState.eq_of_isLeaving h
    · rw [hs, enter_eq hs rfl]
      rfl
    · rw [hs, enter_eq hs rfl]
      rfl
  rw [hn, finishLeaving_of_canEnter (m := n) rfl rfl]
  rfl

theorem onFenced_of_isLeaving (h : m.member.state.isLeaving = true) :
    ∃ s, m.session.Becomes s m.session.subscription.unsubscribe [] [] ∧
      m.onFenced = .ok ⟨{ m.member with
        owned := ∅, epoch := joinEpoch, stage := .idle, state := .unsubscribed,
        leaveSlot := none }, s⟩ := by
  obtain ⟨s, hb, he⟩ := completeLeave_eq m.parted (.ok ())
  refine ⟨s, (Session.becomes_subscription m.session _).trans hb, ?_⟩
  rw [onFenced_eq_completeLeave h, he]
  rfl

/-- What is left to do once a member that takes part has been fenced. -/
theorem onFenced_of_isActive (h : m.member.state.isActive = true) :
    let n : Membership := ⟨{ m.member with
      state := .fenced, epoch := joinEpoch, target := none, stage := .idle }, m.session⟩
    let asked := n.requestCallback .partitionsLost m.member.owned
    m.onFenced =
      if m.member.owned.isEmpty then n.afterLost
      else .ok (asked.1.withMember fun x => { x with stage := .lost asked.2 }) := by
  unfold onFenced
  obtain hs | hs | hs | hs := MemberState.eq_of_isActive h <;> rw [hs, enter_eq hs rfl] <;> rfl

/-- A member that the group has failed, but for the slot of its leave. -/
def outcast (m : Membership) : Membership :=
  ⟨{ m.member with state := .fatal, target := none, stage := .idle, owned := ∅ },
    { m.session with subscription := m.session.subscription.released }⟩

/-- Those who wait for a leave do not hear of the failure that ends it. -/
theorem onFatal_eq_completeLeave (h : m.member.state ≠ .fatal) (f : Fault) :
    m.onFatal f = .ok ((m.outcast.completeLeave (.ok ())).withSession (·.publish (.fault f))) := by
  have hc : m.member.state.canEnter .fatal = true := by
    cases hs : m.member.state with
    | fatal => exact absurd hs h
    | _ => rfl
  let n : Membership := ⟨{ m.member with state := .fatal, target := none, stage := .idle },
    m.session⟩
  have hn : m.onFatal f = (n.release >>= fun m =>
      pure ((m.completeLeave (.ok ())).withSession (·.publish (.fault f)))) := by
    rw [onFatal, if_neg h, enter_eq rfl hc]
    rfl
  rw [hn, release_eq]
  rfl

/-- A failed member has given up everything, and its caller knows why. -/
theorem onFatal_eq (h : m.member.state ≠ .fatal) (f : Fault) :
    ∃ s, m.session.Becomes s m.session.subscription.released [.fault f] [] ∧
      m.onFatal f = .ok ⟨{ m.member with
        state := .fatal, target := none, stage := .idle, owned := ∅, leaveSlot := none }, s⟩ := by
  obtain ⟨s, hb, he⟩ := completeLeave_eq m.outcast (.ok ())
  have hp : s.Becomes (s.publish (.fault f)) s.subscription [.fault f] [] :=
    ⟨rfl, Session.grows_publish _ (Session.ticketed_of_none _ rfl)⟩
  refine ⟨s.publish (.fault f), ?_, ?_⟩
  · have := ((Session.becomes_subscription m.session _).trans hb).trans hp
    rwa [hb.subscription] at this
  · rw [onFatal_eq_completeLeave h, he]
    rfl

theorem commitBeforeRevocation_eq (m : Membership) (now : Int64) (target : PartitionSet) :
    ∃ s i, m.session.Becomes s m.session.subscription []
        [.commitBeforeRevocation m.session.subscription.consumed
          (deadlineAfter now m.member.callbackTimeout) m.session.futures.size] ∧
      s.futures[m.session.futures.size]? = some (.commitBeforeRevocation, i) ∧
      m.commitBeforeRevocation now target =
        ⟨{ m.member with stage := .committing i target }, s⟩ :=
  ⟨_, _, ⟨Session.subscription_ask _ _ _, Session.grows_ask _ _ _⟩,
    Session.futures_ask _ _ _, rfl⟩

theorem completeReconciliation_eq (hs : m.member.state = .reconciling) (target : PartitionSet) :
    m.completeReconciliation target = .ok { m with member := m.member.conclude target } := by
  unfold completeReconciliation Member.conclude
  by_cases ht : m.member.target = some target
  · rw [if_pos ht, if_neg (by simp [hs, ht])]
    exact enter_eq (m := ⟨{ m.member with target := none }, m.session⟩) hs rfl
  · rw [if_neg ht, if_pos (Or.inr ht)]

/-- A target that the subscription does not take is not taken over. -/
theorem applyTarget_of_not_isAuto (h : m.session.subscription.isAuto = false)
    (target : PartitionSet) :
    m.applyTarget target =
      .error ⟨.illegalState (.groupAssignmentOf m.session.subscription.form), m⟩ := by
  rw [applyTarget, assignInSubscription_of_not_isAuto h]
  rfl

/-- What is left to do once the subscription has taken a target. -/
theorem applyTarget_of_isAuto (h : m.session.subscription.isAuto = true) (target : PartitionSet) :
    let n : Membership := ⟨{ m.member with owned := target },
      { m.session with subscription := m.session.subscription.reassign target }⟩
    let asked := n.requestCallback .partitionsAssigned (target.diff m.member.owned)
    m.applyTarget target =
      if (target.diff m.member.owned).isEmpty then n.completeReconciliation target
      else .ok (asked.1.withMember fun x => { x with stage := .assigning asked.2 target }) := by
  rw [applyTarget, assignInSubscription_of_isAuto h]
  rfl

/-- A target within what is owned is in place as soon as it is taken over. -/
theorem applyTarget_of_diff_eq_empty (h : m.session.subscription.isAuto = true)
    (hs : m.member.state = .reconciling) {target : PartitionSet}
    (hd : target.diff m.member.owned = ∅) :
    m.applyTarget target = .ok ⟨({ m.member with owned := target } : Member).conclude target,
      { m.session with subscription := m.session.subscription.reassign target }⟩ := by
  rw [applyTarget_of_isAuto h, if_pos (SortedSet.isEmpty_iff.2 hd)]
  exact completeReconciliation_eq (m := ⟨{ m.member with owned := target }, _⟩) hs target

/-- The caller hears of the partitions of a target that were not owned before. -/
theorem applyTarget_of_diff_ne_empty (h : m.session.subscription.isAuto = true)
    {target : PartitionSet} (hd : target.diff m.member.owned ≠ ∅) :
    ∃ (r : CallbackRequest) (s : Session), r.method = .partitionsAssigned ∧
      r.partitions = target.diff m.member.owned ∧
      m.session.Becomes s (m.session.subscription.reassign target) [.callbackNeeded r] [] ∧
      m.applyTarget target = .ok ⟨{ m.member with
        owned := target, stage := .assigning r.ticket.slot target }, s⟩ := by
  obtain ⟨r, s, hm, hp, hb, he⟩ := requestCallback_eq
    ⟨{ m.member with owned := target },
      { m.session with subscription := m.session.subscription.reassign target }⟩
    .partitionsAssigned (target.diff m.member.owned)
  refine ⟨r, s, hm, hp, (Session.becomes_subscription m.session _).trans hb, ?_⟩
  rw [applyTarget_of_isAuto h, if_neg (mt SortedSet.isEmpty_iff.1 hd), he]
  rfl

/-- If no partition is given up, nobody has to be asked. -/
theorem revokeThenAssign_of_diff_eq_empty {target : PartitionSet}
    (ho : m.member.owned.diff target = ∅) : m.revokeThenAssign target = m.applyTarget target :=
  if_pos (SortedSet.isEmpty_iff.2 ho)

/-- The caller hears of the partitions that are given up. -/
theorem revokeThenAssign_of_diff_ne_empty {target : PartitionSet}
    (ho : m.member.owned.diff target ≠ ∅) :
    ∃ (r : CallbackRequest) (s : Session), r.method = .partitionsRevoked ∧
      r.partitions = m.member.owned.diff target ∧
      m.session.Becomes s m.session.subscription [.callbackNeeded r] [] ∧
      m.revokeThenAssign target =
        .ok ⟨{ m.member with stage := .revoking r.ticket.slot target }, s⟩ := by
  obtain ⟨r, s, hm, hp, hb, he⟩ :=
    requestCallback_eq m .partitionsRevoked (m.member.owned.diff target)
  refine ⟨r, s, hm, hp, hb, ?_⟩
  rw [revokeThenAssign, he]
  exact if_neg (mt SortedSet.isEmpty_iff.1 ho)

/-- A member that has a target commits first, if there is a commit manager and partitions are given
up. -/
theorem startReconciliation_of_target (hs : m.member.state = .reconciling) {target : PartitionSet}
    (ht : m.member.target = some target) (commits : Bool) (now : Int64) :
    (m.startReconciliation commits now).map (·.1) =
      if commits = true ∧ m.member.owned.diff target ≠ ∅ then
        .ok (m.commitBeforeRevocation now target)
      else m.revokeThenAssign target := by
  have hc : (commits && !(m.member.owned.diff target).isEmpty) = true ↔
      commits = true ∧ m.member.owned.diff target ≠ ∅ := by
    rw [Bool.and_eq_true, Bool.not_eq_true', ← Bool.not_eq_true, SortedSet.isEmpty_iff]
  have hn : m.startReconciliation commits now =
      if commits && !(m.member.owned.diff target).isEmpty then
        .ok (m.commitBeforeRevocation now target, true)
      else (m.revokeThenAssign target).map (·, true) := by
    rw [startReconciliation, hs, ht]
  rw [hn]
  by_cases h : commits = true ∧ m.member.owned.diff target ≠ ∅
  · rw [if_pos h, if_pos (hc.2 h)]
    rfl
  · rw [if_neg h, if_neg (mt hc.1 h)]
    cases m.revokeThenAssign target <;> rfl

/-- A member that is not reconciling does not set out for anything. -/
theorem startReconciliation_of_state_ne (hs : m.member.state ≠ .reconciling) (commits : Bool)
    (now : Int64) : (m.startReconciliation commits now).map (·.1) = .ok m := by
  have hn : m.startReconciliation commits now = .ok (m, false) := by
    unfold startReconciliation
    split
    · rename_i h _
      exact absurd h hs
    · rfl
  rw [hn]
  rfl

end Membership

end GroupConsumer
