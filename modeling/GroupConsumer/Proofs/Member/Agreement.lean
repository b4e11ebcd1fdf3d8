import GroupConsumer.Proofs.Member.Move

/-!
# What every move keeps

A move leads from a coherent member to a coherent one (`Move.coherent`), it only adds to what was
published, called and completed (`Move.grows`), and it changes what the member owns and what is
assigned in the subscription together (`Move.agrees`). Some states are entered in one way only
(`Move.entered`).
-/

namespace GroupConsumer

namespace Member

variable {x : Member}

/-- A member with a target and nothing under way is coherent. -/
theorem coherent_of_idle (hs : x.state = .reconciling) (hg : x.stage = .idle)
    (hl : x.leaveSlot = none) (ht : x.target.isSome = true) : x.Coherent := by
  unfold Coherent OnTheWay
  rw [hs, hg]
  exact ⟨trivial, hl, ht⟩

/-- A member is coherent when a target is in place, be it the latest one or not. -/
theorem coherent_conclude (hs : x.state = .reconciling) (hg : x.stage = .idle)
    (hl : x.leaveSlot = none) (ht : x.target.isSome = true) (target : PartitionSet) :
    (x.conclude target).Coherent := by
  unfold conclude
  split
  · exact ⟨⟨hg, rfl⟩, hl⟩
  · exact coherent_of_idle hs hg hl ht

/-- A member that has a target already and gets another one goes on with what is under way. -/
theorem Coherent.retarget (h : x.Coherent) (ha : x.state.isActive = true) (memberId : String)
    (epoch : Int) (target : PartitionSet) :
    Coherent { x with memberId, epoch, target := some target, state := .reconciling } := by
  have hl := h.leaveSlot_of_isActive ha
  have hidle (hr : x.AtRest) :
      Coherent { x with memberId, epoch, target := some target, state := .reconciling } :=
    coherent_of_idle rfl hr.1 hl rfl
  unfold Coherent at h
  obtain hs | hs | hs | hs := MemberState.eq_of_isActive ha <;> rw [hs] at h
  · exact hidle h.1
  · exact ⟨h.1, hl, rfl⟩
  · exact hidle h.1
  · exact hidle h.1

/-- The epoch of a member that takes part is of no matter for coherence. -/
theorem Coherent.identify (h : x.Coherent) (ha : x.state.isActive = true) (memberId : String)
    (epoch : Int) : Coherent { x with memberId, epoch } := by
  unfold Coherent at h ⊢
  obtain hs | hs | hs | hs := MemberState.eq_of_isActive ha <;> rw [hs] at h ⊢ <;> exact h

/-- A member without target, stage, leave and partitions is coherent outside the group and while it
joins. -/
theorem coherent_stateAfterLoss (hg : x.stage = .idle) (ht : x.target = none)
    (hl : x.leaveSlot = none) (ho : x.owned = ∅) (he : x.epoch = joinEpoch) {y : Member}
    {auto : Bool} (hs : x.state = y.stateAfterLoss auto) : x.Coherent := by
  unfold Coherent
  obtain hy | hy := y.stateAfterLoss_eq auto
  · rw [hs, hy]
    exact ⟨⟨hg, ht⟩, hl, ho, he⟩
  · rw [hs, hy]
    exact ⟨⟨hg, ht⟩, hl, ho⟩

end Member

namespace Membership

variable {m : Membership} {target : PartitionSet}

theorem TakesNext.reconciling (h : m.TakesNext target) (hc : m.member.Coherent) :
    m.member.state = .reconciling := by
  obtain ⟨h, -⟩ | ⟨i, hg, -⟩ := h
  · exact h.2.1
  · have := hc.state_of_stage
    rwa [hg] at this

theorem RevokesNext.reconciling {commits : Bool} (h : m.RevokesNext commits target)
    (hc : m.member.Coherent) : m.member.state = .reconciling := by
  obtain ⟨-, ⟨h, -⟩ | ⟨i, hg, -⟩⟩ := h
  · exact h.2.1
  · have := hc.state_of_stage
    rwa [hg] at this

/-- What the member owns is what the group has assigned in the subscription. -/
structure Agrees (m : Membership) : Prop where
  auto : m.session.subscription.isAuto = true →
    m.session.subscription.assigned = m.member.owned
  other : m.session.subscription.isAuto = false → m.member.owned = ∅
  none : m.session.subscription.form = .none → m.session.subscription.assigned = ∅

/-- Agreement is about the subscription and what is owned alone. -/
theorem Agrees.congr (h : m.Agrees) {m' : Membership}
    (hs : m'.session.subscription = m.session.subscription)
    (ho : m'.member.owned = m.member.owned) : m'.Agrees := by
  constructor
  · rw [hs, ho]
    exact h.auto
  · rw [hs, ho]
    exact h.other
  · rw [hs]
    exact h.none

theorem agrees_of_unsubscribe {sub : Subscription}
    (hs : m.session.subscription = sub.unsubscribe) (ho : m.member.owned = ∅) : m.Agrees := by
  constructor
  · rw [hs]
    intro h
    cases h
  · exact fun _ => ho
  · rw [hs]
    exact fun _ => rfl

theorem agrees_of_reassign {sub : Subscription} (hauto : sub.isAuto = true)
    (hs : m.session.subscription = sub.reassign m.member.owned) : m.Agrees := by
  constructor
  · rw [hs]
    exact fun _ => Subscription.assigned_reassign _ _
  · rw [hs]
    intro h
    exact absurd (hauto.symm.trans h) (by decide)
  · rw [hs]
    intro h
    rw [Subscription.isAuto, show sub.form = .none from h] at hauto
    cases hauto

theorem Agrees.released (h : m.Agrees) {m' : Membership}
    (hs : m'.session.subscription = m.session.subscription.released)
    (ho : m'.member.owned = ∅) : m'.Agrees := by
  cases hauto : m.session.subscription.isAuto with
  | true =>
    rw [Subscription.released, if_pos hauto, ← ho] at hs
    exact agrees_of_reassign hauto hs
  | false =>
    rw [Subscription.released, if_neg (by simp [hauto])] at hs
    exact h.congr hs (ho.trans (h.other hauto).symm)

end Membership

namespace Move

variable {m m' : Membership} {t : Trigger} {f : Option Fault}

/-- A move of a coherent member leads to a coherent member. -/
theorem coherent (h : Move m t m' f) (hc : m.member.Coherent) : m'.member.Coherent := by
  cases h with
  | rest => exact hc
  | noted => exact hc
  | joined hj =>
    obtain ⟨-, hl, ho, -⟩ := hc.of_unsubscribed hj.2.1
    exact ⟨⟨rfl, rfl⟩, hl, ho⟩
  | identified ha => exact hc.identify ha _ _
  | retargeted ha => exact hc.retarget ha _ _ _
  | settled hs =>
    unfold Member.Coherent at hc
    rw [hs] at hc
    exact hc
  | finished hs =>
    have ht : m.member.target = none := by
      unfold Member.Coherent at hc
      obtain ⟨hs, -⟩ | ⟨hl, -⟩ := hs
      · rw [hs] at hc
        exact hc.1.2
      · obtain hs | hs := MemberState.eq_of_isLeaving hl
        · rw [hs] at hc
          exact hc.2.1
        · rw [hs] at hc
          exact hc.1.2
    exact ⟨⟨rfl, ht⟩, rfl, rfl, rfl⟩
  | fenced ha ho => exact ⟨⟨_, rfl⟩, rfl, hc.leaveSlot_of_isActive ha, ho, rfl⟩
  | dropped hd =>
    have hl : m.member.leaveSlot = none := by
      obtain ⟨-, ha, -⟩ | ⟨-, -, i, -, hg, -⟩ := hd
      · exact hc.leaveSlot_of_isActive ha
      · have hs := hc.state_of_stage
        rw [hg] at hs
        exact (hc.of_fenced hs).2.2.1
    exact Member.coherent_stateAfterLoss rfl rfl hl rfl rfl rfl
  | failed => exact ⟨⟨rfl, rfl⟩, rfl, rfl⟩
  | forgot hs =>
    unfold Member.Coherent at hc ⊢
    obtain hs | hs := hs
    · rw [hs] at hc ⊢
      exact ⟨hc.1, hc.2.1, rfl, hc.2.2.2⟩
    · rw [hs] at hc ⊢
      exact ⟨hc.1, hc.2.1, rfl⟩
  | abandoned hs =>
    obtain ⟨-, ht, hl, -, he⟩ := hc.of_fenced hs
    exact ⟨⟨rfl, ht⟩, hl, rfl, he⟩
  | departed => exact ⟨⟨rfl, rfl⟩, rfl, rfl, rfl⟩
  | departing _ ho => exact ⟨⟨_, rfl⟩, rfl, rfl, ho⟩
  | vacated hg =>
    have hs := hc.state_of_stage
    rw [hg] at hs
    obtain ⟨-, ht, hl, -⟩ := hc.of_prepareLeaving hs
    exact ⟨⟨rfl, ht⟩, hl, rfl, rfl⟩
  | committing hst ho =>
    obtain ⟨-, hl, ht⟩ := hc.of_reconciling hst.2.1
    unfold Member.Coherent
    rw [hst.2.1]
    exact ⟨ho, hl, ht⟩
  | revoking hr =>
    have hs := hr.reconciling hc
    obtain ⟨-, hl, ht⟩ := hc.of_reconciling hs
    unfold Member.Coherent
    rw [hs]
    exact ⟨hr.1, hl, ht⟩
  | assigning hr =>
    have hs := hr.reconciling hc
    obtain ⟨-, hl, ht⟩ := hc.of_reconciling hs
    unfold Member.Coherent
    rw [hs]
    exact ⟨rfl, hl, ht⟩
  | applied hr =>
    have hs := hr.reconciling hc
    obtain ⟨-, hl, ht⟩ := hc.of_reconciling hs
    refine Member.coherent_conclude ?_ ?_ ?_ ?_ _
    · exact hs
    · rfl
    · exact hl
    · exact ht
  | refused hr =>
    have hs := hr.reconciling hc
    obtain ⟨-, hl, ht⟩ := hc.of_reconciling hs
    exact Member.coherent_of_idle hs rfl hl ht
  | completed hg =>
    have hs := hc.state_of_stage
    rw [hg] at hs
    obtain ⟨-, hl, ht⟩ := hc.of_reconciling hs
    refine Member.coherent_conclude ?_ ?_ ?_ ?_ _
    · exact hs
    · rfl
    · exact hl
    · exact ht

/-- No move takes back an event, a call or an outcome. -/
theorem grows (h : Move m t m' f) : ∃ es cs, m.session.Grows m'.session es cs := by
  have hsub (sub : Subscription) :=
    (Session.becomes_subscription m.session sub).grows
  cases h with
  | rest | noted | joined | settled | refused | completed => exact ⟨[], [], Session.Grows.refl _⟩
  | dropped | vacated | applied => exact ⟨[], [], hsub _⟩
  | identified _ _ hs | retargeted _ _ hs | finished _ hs | fenced _ _ _ _ hs | failed _ hs
  | forgot _ hs | abandoned _ hs | departed _ _ hs | departing _ _ _ _ hs | committing _ _ _ hs
  | revoking _ _ _ hs | assigning _ _ _ _ _ hs => exact ⟨_, _, hs.grows⟩

/-- A move changes what is owned and what is assigned together. -/
theorem agrees (h : Move m t m' f) (ha : m.Agrees) : m'.Agrees := by
  cases h with
  | rest => exact ha
  | noted => exact ha.congr rfl rfl
  | joined => exact ha.congr rfl rfl
  | identified _ _ hs => exact ha.congr hs.subscription rfl
  | retargeted _ _ hs => exact ha.congr hs.subscription rfl
  | settled => exact ha.congr rfl rfl
  | finished _ hs => exact Membership.agrees_of_unsubscribe hs.subscription rfl
  | fenced _ _ _ _ hs => exact ha.congr hs.subscription rfl
  | dropped => exact ha.released rfl rfl
  | failed _ hs => exact ha.released hs.subscription rfl
  | forgot _ hs => exact Membership.agrees_of_unsubscribe hs.subscription rfl
  | abandoned _ hs => exact Membership.agrees_of_unsubscribe hs.subscription rfl
  | departed _ _ hs => exact Membership.agrees_of_unsubscribe hs.subscription rfl
  | departing _ _ _ _ hs => exact ha.congr hs.subscription rfl
  | vacated => exact Membership.agrees_of_unsubscribe rfl rfl
  | committing _ _ _ hs => exact ha.congr hs.subscription rfl
  | revoking _ _ _ hs => exact ha.congr hs.subscription rfl
  | assigning _ hauto _ _ _ hs => exact Membership.agrees_of_reassign hauto hs.subscription
  | applied _ hauto =>
    refine Membership.agrees_of_reassign hauto ?_
    rw [Member.owned_conclude]
  | refused => exact ha.congr rfl rfl
  | completed => exact ha.congr rfl (Member.owned_conclude _ _)

/-- A move keeps the form of a subscription that the group serves, or it takes everything. -/
theorem isAuto (h : Move m t m' f) :
    m'.session.subscription.isAuto = m.session.subscription.isAuto ∨
      m'.session.subscription.assigned = ∅ := by
  cases h with
  | rest | noted | joined | settled | refused | completed => exact Or.inl rfl
  | identified _ _ hs | retargeted _ _ hs | fenced _ _ _ _ hs | departing _ _ _ _ hs
  | committing _ _ _ hs | revoking _ _ _ hs => exact Or.inl (by rw [hs.subscription])
  | dropped => exact Or.inl (Membership.isAuto_released _)
  | failed _ hs => exact Or.inl (by rw [hs.subscription, Membership.isAuto_released])
  | finished _ hs | forgot _ hs | abandoned _ hs | departed _ _ hs =>
    exact Or.inr (by rw [hs.subscription, Subscription.assigned_unsubscribe])
  | vacated => exact Or.inr (Subscription.assigned_unsubscribe _)
  | assigning _ _ _ _ _ hs =>
    exact Or.inl (by rw [hs.subscription, Subscription.isAuto_reassign])
  | applied => exact Or.inl (Subscription.isAuto_reassign _ _)

/-! ### What leads into a state -/

/-- A target makes a member reconcile, being fenced makes it fenced, and a leave makes it prepare for
it. -/
theorem entered (h : Move m t m' f) (hs : m'.member.state ≠ m.member.state) :
    match m'.member.state with
    | .reconciling => ∃ o, t = .heard o
    | .fenced => t = .heard .fenced
    | .prepareLeaving => t = .left
    | _ => True := by
  have hconclude (x : Member) (target : PartitionSet) (hx : x.state = m.member.state)
      (hs : (x.conclude target).state ≠ m.member.state) :
      (x.conclude target).state = .acknowledging := by
    obtain h | h := x.state_conclude target
    · exact h
    · exact absurd (h.trans hx) hs
  cases h with
  | rest | noted | identified | forgot | committing | revoking | assigning | refused =>
    exact absurd rfl hs
  | joined | settled | finished | failed | abandoned | departed | vacated => trivial
  | retargeted => exact ⟨_, rfl⟩
  | fenced => rfl
  | departing => rfl
  | dropped =>
    obtain h | h := m.member.stateAfterLoss_eq m.session.subscription.isAuto
    · rw [h]
      trivial
    · rw [h]
      trivial
  | @applied _ _ target =>
    rw [hconclude { m.member with owned := target, stage := .idle } target rfl hs]
    trivial
  | @completed _ _ _ target =>
    rw [hconclude { m.member with stage := .idle } target rfl hs]
    trivial

end Move

end GroupConsumer
