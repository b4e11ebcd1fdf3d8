import GroupConsumer.Proofs.Run.Groupless

/-!
# Who takes part in a group

A member takes part only if it was told of a subscription that the group serves. It remembers that
it was told until the next poll, and does not look at the subscription again when that poll makes it
join. So a subscription that was dropped in between leaves a member in the group for nothing
(`joining_unserved`), and this is the only way (`isAuto_iff_not_joinedUnserved`).
-/

namespace GroupConsumer

/-- Whether there is a member that takes part in its group. -/
def Processor.takesPart (p : Processor) : Bool := p.state?.any (·.isActive)

namespace Moment

/-- The caller subscribes, and the group serves the subscription. -/
def Subscribes (y : Moment) : Prop :=
  ∃ e, y.cause = .received e ∧ e.isSubscription = true ∧ y.after.subscription.isAuto = true

/-- A poll makes the member join, although the group does not serve the subscription. -/
def JoinsUnserved (y : Moment) : Prop :=
  y.cause = .polled ∧ y.before.state? = some .unsubscribed ∧ y.after.state? = some .joining ∧
    y.after.subscription.isAuto = false

/-- The member takes part before and after, and the group does not serve the subscription. -/
def StaysUnserved (y : Moment) : Prop :=
  y.before.takesPart = true ∧ y.after.takesPart = true ∧ y.after.subscription.isAuto = false

end Moment

/-- The caller has subscribed since the last poll. -/
def SubscribedSincePoll (past : List Moment) : Prop :=
  Since (fun y => y.cause ≠ .polled) (fun y _ => y.Subscribes) past

/-- A poll made the member join for a subscription of which nothing was left by then, and it has been
in the group for nothing ever since. -/
def JoinedUnserved (past : List Moment) : Prop :=
  Since Moment.StaysUnserved
    (fun y earlier => y.JoinsUnserved ∧ SubscribedSincePoll earlier) past

/-! ### Moves -/

namespace Move

variable {m m' : Membership} {t : Trigger} {f : Option Fault}

/-- A member that takes part did so before under the same kind of subscription, or the group serves
the subscription, or a poll made it join. -/
theorem served (h : Move m t m' f) (hc : m.member.Coherent)
    (ha : m'.member.state.isActive = true) :
    (m.member.state.isActive = true ∧
        m'.session.subscription.isAuto = m.session.subscription.isAuto) ∨
      m'.session.subscription.isAuto = true ∨
      (t = .polled ∧ m.JoinsNext ∧ m'.member.state = .joining) := by
  have hr (hs : m.member.state = .reconciling) : m.member.state.isActive = true := by
    rw [hs]
    rfl
  cases h with
  | rest | noted => exact Or.inl ⟨ha, rfl⟩
  | joined hj => exact Or.inr (Or.inr ⟨rfl, hj, rfl⟩)
  | identified hm _ hs | retargeted hm _ hs => exact Or.inl ⟨hm, by rw [hs.subscription]⟩
  | settled hs =>
    refine Or.inl ⟨?_, rfl⟩
    rw [hs]
    rfl
  | finished | fenced | failed | abandoned | departed | departing | vacated => cases ha
  | forgot hs =>
    obtain hs | hs := hs
    · rw [hs] at ha
      cases ha
    · rw [hs] at ha
      cases ha
  | dropped =>
    refine Or.inr (Or.inl ?_)
    rw [Membership.isAuto_released]
    cases hauto : m.session.subscription.isAuto with
    | true => rfl
    | false =>
      rw [hauto, Member.stateAfterLoss, if_pos (by simp)] at ha
      cases ha
  | committing hst _ _ hs => exact Or.inl ⟨hr hst.2.1, by rw [hs.subscription]⟩
  | revoking hn _ _ hs => exact Or.inl ⟨hr (hn.reconciling hc), by rw [hs.subscription]⟩
  | assigning hn _ _ _ _ hs =>
    refine Or.inl ⟨hr (hn.reconciling hc), ?_⟩
    rw [hs.subscription, Subscription.isAuto_reassign]
  | applied hn => exact Or.inl ⟨hr (hn.reconciling hc), Subscription.isAuto_reassign _ _⟩
  | refused hn => exact Or.inl ⟨hr (hn.reconciling hc), rfl⟩
  | completed hg =>
    have hs := hc.state_of_stage
    rw [hg] at hs
    exact Or.inl ⟨hr hs, rfl⟩

/-- A member that remembers a subscription did so before, and was not polled. -/
theorem remembers (h : Move m t m' f) (hu : m'.member.subscriptionUpdated = true) :
    t ≠ .polled ∧ m.member.subscriptionUpdated = true := by
  cases h with
  | rest h =>
    refine ⟨?_, hu⟩
    rintro rfl
    exact h
  | noted | joined => cases hu
  | finished h =>
    obtain ⟨-, rfl⟩ | ⟨-, rfl⟩ := h
    · exact ⟨nofun, hu⟩
    · exact ⟨nofun, hu⟩
  | dropped h =>
    obtain ⟨rfl, -⟩ | ⟨_, _, _, rfl, -⟩ := h
    · exact ⟨nofun, hu⟩
    · exact ⟨nofun, hu⟩
  | applied | completed =>
    rw [Member.subscriptionUpdated_conclude] at hu
    exact ⟨nofun, hu⟩
  | _ => exact ⟨nofun, hu⟩

end Move

/-! ### Causes -/

namespace Processor

variable {p : Processor} {x z : Member} {c : Cause}

/-- Topics that were subscribed to are served by the group, whatever became of the member. -/
theorem subscribeTopics_cases (p : Processor) (t : Ticket) (topics : SortedSet String) :
    (p.subscribeTopics t topics).member = p.member ∨
      (p.subscribeTopics t topics).subscription.isAuto = true := by
  unfold subscribeTopics
  split
  · exact Or.inl (serves_failMissing p t _ _).member
  · split
    · rename_i s changed hs
      refine Or.inr ?_
      have hauto : s.isAuto = true := (Subscription.joins_subscribe hs).auto
      simp only
      split
      · exact (serves_requestMetadata (p.withSubscription fun _ => s)).subscription.isAuto.trans hauto
      · exact hauto
    · exact Or.inl (serves_fail p t _).member

theorem subscribePattern_cases (p : Processor) (t : Ticket) (source : String) :
    (p.subscribePattern t source).member = p.member ∨
      (p.subscribePattern t source).subscription.isAuto = true := by
  unfold subscribePattern
  split
  · exact Or.inl (serves_failMissing p t _ _).member
  · split
    · exact Or.inl (serves_fail p t _).member
    · rename_i s hs
      refine Or.inr ?_
      let q : Processor := { p.withSubscription fun _ => s with evaluated := none }
      have hq := (serves_evaluatePattern q).trans (serves_requestMetadata _)
      exact hq.subscription.isAuto.trans (Subscription.joins_subscribePattern hs).auto

/-- Only a pattern has topics that may change. -/
theorem form_of_evaluatePattern (h : p.evaluatePattern.2 = true) :
    p.subscription.form = .autoPattern := by
  unfold evaluatePattern at h
  simp only at h
  split at h
  · cases h
  · rename_i hn
    exact Decidable.of_not_not fun hf => hn (Or.inl hf)

theorem refreshPattern_cases (p : Processor) (t : Ticket) :
    (p.refreshPattern t).member = p.member ∨ (p.refreshPattern t).subscription.isAuto = true := by
  have hs := serves_evaluatePattern p
  unfold refreshPattern
  split
  · simp only
    split
    · rename_i hch
      refine Or.inr (hs.subscription.isAuto.trans ?_)
      rw [Subscription.isAuto, form_of_evaluatePattern hch]
      rfl
    · exact Or.inl hs.member
  · exact Or.inl (serves_failMissing p t _ _).member

/-- The member is told of a subscription by an event, and only if the group serves it. -/
theorem member_undergo (hc : c.trigger? p = none) :
    (p.undergo c).member = p.member ∨ Moment.Subscribes ⟨p, c⟩ := by
  cases c with
  | outside o => exact Or.inl rfl
  | received e =>
    cases he : e.isSubscription with
    | false => exact Or.inl (member_receive hc he)
    | true =>
      have hcases : (p.receive e).member = p.member ∨ (p.receive e).subscription.isAuto = true := by
        cases e with
        | subscribeTopics t topics => exact subscribeTopics_cases p t topics
        | subscribePattern t source => exact subscribePattern_cases p t source
        | refreshPattern t => exact refreshPattern_cases p t
        | _ => cases he
      exact hcases.imp_right fun hauto => ⟨e, rfl, he, hauto⟩
  | polled | heard | advanced => cases hc
  | pollDone time gate => exact Or.inl (serves_updateCommitTimer p time).member
  | lookups => exact Or.inl rfl
  | deferred update => exact Or.inl (serves_applyDeferred p update).member
  | drained => exact Or.inl (serves_drainOutcomes p).member
  | told => exact Or.inl (publishSnapshot_eq p).1
  | reported fs => exact Or.inl rfl

/-- A member that remembers a subscription was not polled, and did so before or was told just then. -/
theorem Sound.remembers (hx : p.Sound x) (hz : (p.undergo c).member = some z)
    (hu : z.subscriptionUpdated = true) :
    c ≠ .polled ∧ (x.subscriptionUpdated = true ∨ Moment.Subscribes ⟨p, c⟩) := by
  cases hc : c.trigger? p with
  | none =>
    refine ⟨?_, ?_⟩
    · rintro rfl
      cases hc
    · obtain hm | hs := member_undergo hc
      · obtain rfl : x = z := Option.some.inj ((hm.trans hx.member).symm.trans hz)
        exact Or.inl hu
      · exact Or.inr hs
  | some t =>
    have hturn := hx.turn c
    generalize p.undergo c = q at hz hturn
    cases hturn with
    | still hn | noticed hn | picked hn => cases hn.symm.trans hc
    | @moved t' y m f ht hy hmove hm =>
      obtain rfl : m.member = z := Option.some.inj (hm.symm.trans hz)
      obtain ⟨hne, hu⟩ := hmove.remembers hu
      refine ⟨?_, Or.inl ?_⟩
      · rintro rfl
        exact hne (Option.some.inj ht).symm
      · obtain rfl | rfl := hy
        · exact hu
        · exact hu

/-- A member that takes part although the group does not serve the subscription did so before, or a
poll made it join. -/
theorem Sound.unserved (hx : p.Sound x) (hz : (p.undergo c).member = some z)
    (ha : z.state.isActive = true) (hn : (p.undergo c).subscription.isAuto = false) :
    (x.state.isActive = true ∧ p.subscription.isAuto = false) ∨
      (Moment.JoinsUnserved ⟨p, c⟩ ∧ x.subscriptionUpdated = true) := by
  have hturn := hx.turn c
  cases hturn with
  | still _ hm hs =>
    obtain rfl : x = z := Option.some.inj (hm.symm.trans hz)
    exact Or.inl ⟨ha, hs.isAuto.symm.trans hn⟩
  | noticed _ hm hs =>
    obtain rfl : _ = z := Option.some.inj (hm.symm.trans hz)
    obtain hs | hs := hs
    · exact Or.inl ⟨ha, hs.isAuto.symm.trans hn⟩
    · exact absurd (hs.auto.symm.trans hn) (by decide)
  | picked _ hm hf =>
    obtain rfl : x = z := Option.some.inj (hm.symm.trans hz)
    refine Or.inl ⟨ha, ?_⟩
    obtain hf | hf := hf <;> rw [Subscription.isAuto, hf] <;> rfl
  | @moved t y m f ht hy hmove hm hs =>
    obtain rfl : m.member = z := Option.some.inj (hm.symm.trans hz)
    have hlike : x.Like y := Member.like_of_closing hy
    have hupdated : y.subscriptionUpdated = x.subscriptionUpdated := by
      obtain rfl | rfl := hy <;> rfl
    have hn' : m.session.subscription.isAuto = false := by
      rw [← hs.subscription]
      exact hn
    obtain ⟨hact, hauto⟩ | hauto | ⟨rfl, hj, hst⟩ := hmove.served (hx.coherent.of_closing hy) ha
    · refine Or.inl ⟨?_, hauto.symm.trans hn'⟩
      rwa [← hlike.state]
    · exact absurd (hauto.symm.trans hn') (by decide)
    · refine Or.inr ⟨⟨Cause.eq_of_trigger? ht, ?_, ?_, hn⟩, hupdated.symm.trans hj.1⟩
      · rw [state?_eq hx.member, ← hlike.state, hj.2.1]
      · rw [Moment.after, state?_eq hz, hst]

theorem takesPart_eq (hm : p.member = some x) : p.takesPart = x.state.isActive := by
  rw [takesPart, state?_eq hm]
  rfl

end Processor

/-! ### Runs -/

namespace Chronicle

variable {p : Processor} {k : Chronicle} {x : Member}

/-- A member that remembers a subscription was told of it since the last poll, and one that takes
part although the group does not serve the subscription joined for one that was dropped. -/
structure Accounted (k : Chronicle) (x : Member) : Prop where
  remembers : x.subscriptionUpdated = true → SubscribedSincePoll k.past
  unserved : x.state.isActive = true → k.present.subscription.isAuto = false →
    JoinedUnserved k.past

theorem Accounted.undergo (h : k.Accounted x) (hx : k.present.Sound x) {c : Cause} {z : Member}
    (hz : (k.present.undergo c).member = some z) : (k.undergo c).Accounted z where
  remembers hu := by
    obtain ⟨hne, hold | hnew⟩ := hx.remembers hz hu
    · exact Or.inr ⟨hne, h.remembers hold⟩
    · exact Or.inl hnew
  unserved ha hn := by
    obtain ⟨hact, hauto⟩ | ⟨hj, hu⟩ := hx.unserved hz ha hn
    · refine Or.inr ⟨⟨?_, ?_, hn⟩, h.unserved hact hauto⟩
      · rwa [Processor.takesPart_eq hx.member]
      · rwa [Moment.after, Processor.takesPart_eq hz]
    · exact Or.inl ⟨hj, h.remembers hu⟩

theorem Lived.accounted {u : Setup} (h : Lived u.processor k) :
    ∃ x, k.present.Sound x ∧ k.Accounted x := by
  induction h with
  | start => exact ⟨u.member, u.sound, nofun, nofun⟩
  | @undergo k h c ih =>
    obtain ⟨x, hx, ha⟩ := ih
    obtain ⟨z, hz⟩ := hx.undergo c
    exact ⟨z, hz, ha.undergo hx hz.member⟩

end Chronicle

namespace Setup

/-- The group serves the subscription of a member that takes part, unless the member joined for a
subscription that had been dropped before the poll. -/
theorem isAuto_iff_not_joinedUnserved (u : Setup) (as : List Action) {x : Member}
    (hx : (u.chronicle as).present.member = some x) (ha : x.state.isActive = true) :
    (u.chronicle as).present.subscription.isAuto = true ↔
      ¬ JoinedUnserved (u.chronicle as).past := by
  have hlived := u.lived as
  generalize u.chronicle as = k at hx hlived
  constructor
  · intro hauto hj
    cases hlived with
    | start => exact hj
    | @undergo k h c =>
      have hn : (k.present.undergo c).subscription.isAuto = false := by
        obtain ⟨hj, -⟩ | ⟨hs, -⟩ := hj
        · exact hj.2.2.2
        · exact hs.2.2
      exact absurd (hn.symm.trans hauto) (by decide)
  · intro hj
    obtain ⟨y, hy, hacc⟩ := hlived.accounted
    obtain rfl : x = y := Option.some.inj (hx.symm.trans hy.member)
    cases hauto : k.present.subscription.isAuto with
    | true => rfl
    | false => exact absurd (hacc.unserved ha hauto) hj

/-- The caller subscribes and unsubscribes again before it polls. -/
def unservedSteps : List Action :=
  [.outside .fresh, .process (.subscribeTopics (ticketAt 0) (.ofList ["t"])),
    .outside .fresh, .process (.unsubscribe (ticketAt 1)),
    .outside .fresh]

/-- A consumer that has picked its partitions by then joins for the subscription it had before. -/
theorem joinedUnserved_of_assign :
    let k := Setup.chronicle {} (unservedSteps ++
      [.process (.assign (ticketAt 3) 0 (.ofList [{ topic := "t", number := 0 }])),
        .outside .fresh, .process (.poll 0 4)])
    k.present.state? = some .joining ∧ k.present.subscription.form = .userAssigned ∧
      JoinedUnserved k.past := by
  intro k
  have hst : k.present.state? = some .joining := by decide +kernel
  have hform : k.present.subscription.form = .userAssigned := by decide +kernel
  obtain ⟨x, hx, hs⟩ := Option.map_eq_some_iff.1 hst
  have h := isAuto_iff_not_joinedUnserved {} _ hx (by rw [hs]; rfl)
  refine ⟨hst, hform, Classical.byContradiction fun hn => ?_⟩
  have hauto := h.2 hn
  rw [Subscription.isAuto, hform] at hauto
  cases hauto

/-- A consumer that has unsubscribed joins on the next poll. -/
theorem joining_unserved :
    let k := Setup.chronicle {} (unservedSteps ++ [.process (.poll 0 3)])
    ∃ x, k.present.member = some x ∧ x.state = .joining ∧ k.present.subscription.form = .none := by
  intro k
  have hst : k.present.state? = some .joining := by decide +kernel
  obtain ⟨x, hx, hs⟩ := Option.map_eq_some_iff.1 hst
  exact ⟨x, hx, hs, by decide +kernel⟩

end Setup

end GroupConsumer
