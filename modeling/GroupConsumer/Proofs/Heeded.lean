import GroupConsumer.Proofs.Run.Requests

/-!
# No subscription is left without a join

A poll takes note of a new subscription whether or not the member can join for it at that point. This
loses nothing: as long as the consumer is not told to close, a member that is outside its group while
the group serves the subscription has a subscription left to take note of, and joins on the next poll
(`joining_after_poll`). Every way back out of the group drops the subscription or goes straight on to
join again, which is what `Move.heeds` says case by case.
-/

namespace GroupConsumer

/-- Whether the consumer is told to close. -/
def Cause.closes : Cause → Bool
  | .received (.leaveOnClose _) => true
  | _ => false

/-- A member that does not close, and that has a subscription to take note of if the group serves one
and it is outside the group. -/
structure Membership.Heeds (m : Membership) : Prop where
  remains : m.member.closing = false
  pending : m.session.subscription.isAuto = true → m.member.state = .unsubscribed →
    m.member.subscriptionUpdated = true

/-! ### Moves -/

namespace Member

@[simp] theorem closing_conclude (x : Member) (target : PartitionSet) :
    (x.conclude target).closing = x.closing := by
  unfold conclude
  split <;> rfl

/-- A member that loses its partitions goes on to join, unless it closes or has nothing to join for. -/
theorem stateAfterLoss_of_open {x : Member} (hc : x.closing = false) :
    x.stateAfterLoss true = .joining := by
  rw [stateAfterLoss, hc]
  rfl

end Member

namespace Move

variable {m m' : Membership} {t : Trigger} {f : Option Fault}

theorem closing (h : Move m t m' f) : m'.member.closing = m.member.closing := by
  cases h with
  | applied | completed => exact Member.closing_conclude _ _
  | _ => rfl

/-- Whatever sets a member in motion leaves it with a subscription to take note of, should it end up
outside its group. -/
theorem heeds (h : Move m t m' f) (hc : m.member.Coherent) (hm : m.Heeds) : m'.Heeds := by
  refine ⟨h.closing.trans hm.remains, fun hauto hs => ?_⟩
  -- Most moves lead into another state or drop the subscription.
  have hactive {P : Prop} (ha : m.member.state.isActive = true) (hs : m.member.state = .unsubscribed) :
      P := by
    rw [hs] at ha
    cases ha
  have hreconciling {P : Prop} (hr : m.member.state = .reconciling)
      (hs : m.member.state = .unsubscribed) : P := by
    cases hr.symm.trans hs
  have hdropped {P : Prop} {s : Session} {cs : List Call} {es : List BackgroundEvent}
      (hb : m.session.Becomes s m.session.subscription.unsubscribe es cs)
      (hauto : s.subscription.isAuto = true) : P := by
    rw [hb.subscription] at hauto
    cases hauto
  have hconclude {P : Prop} (x : Member) (target : PartitionSet) (hx : x.state = .reconciling)
      (hs : (x.conclude target).state = .unsubscribed) : P := by
    rcases x.state_conclude target with h | h
    · cases h.symm.trans hs
    · cases hx.symm.trans (h.symm.trans hs)
  cases h with
  | rest => exact hm.pending hauto hs
  | noted hn => exact absurd ⟨hm.pending hauto hs, hs, hm.remains⟩ hn
  | joined | retargeted | settled | fenced | failed | departed | departing | vacated => cases hs
  | identified ha => exact hactive ha hs
  | finished _ hb | forgot _ hb | abandoned _ hb => exact hdropped hb hauto
  | dropped =>
    have hserved : m.session.subscription.isAuto = true :=
      (Membership.isAuto_released _).symm.trans hauto
    have hjoins := Member.stateAfterLoss_of_open hm.remains
    rw [← hserved] at hjoins
    cases hjoins.symm.trans hs
  | committing hst => exact hreconciling hst.2.1 hs
  | revoking hr => exact hreconciling (hr.reconciling hc) hs
  | assigning hr | refused hr => exact hreconciling (hr.reconciling hc) hs
  | @applied _ _ target hr =>
    exact hconclude { m.member with owned := target, stage := .idle } target (hr.reconciling hc) hs
  | @completed _ _ _ target hg =>
    have hr := hc.state_of_stage
    rw [hg] at hr
    exact hconclude { m.member with stage := .idle } target hr hs

/-- A poll makes a member join that has a subscription to take note of. -/
theorem state_of_polled (h : Move m .polled m' f) (hn : m.JoinsNext) :
    m'.member.state = .joining := by
  cases h with
  | rest he => exact he.elim
  | noted hno => exact absurd hn hno
  | joined => rfl
  | finished hd => rcases hd with ⟨-, ht⟩ | ⟨-, ht⟩ <;> cases ht
  | dropped hd => rcases hd with ⟨ht, -⟩ | ⟨_, _, _, ht, -⟩ <;> cases ht

/-- A member that waits for its first assignment has nothing to reconcile. -/
theorem state_of_joining {commits : Bool} {now : Int64} (h : Move m (.advanced commits now) m' f)
    (hc : m.member.Coherent) (hs : m.member.state = .joining) : m'.member.state = .joining := by
  have hother {P : Prop} {s : MemberState} (hx : m.member.state = s) (hne : s ≠ .joining) : P :=
    absurd (hx.symm.trans hs) hne
  have hstage := hc.state_of_stage
  cases h with
  | rest => exact hs
  | finished hd => rcases hd with ⟨-, ht⟩ | ⟨-, ht⟩ <;> cases ht
  | dropped hd =>
    rcases hd with ⟨ht, -⟩ | ⟨-, -, i, -, hg, -⟩
    · cases ht
    · rw [hg] at hstage
      exact hother hstage (by decide)
  | vacated hg | completed hg =>
    rw [hg] at hstage
    exact hother hstage (by decide)
  | committing hst => exact hother hst.2.1 (by decide)
  | revoking hr => exact hother (hr.reconciling hc) (by decide)
  | assigning hr | applied hr | refused hr => exact hother (hr.reconciling hc) (by decide)

end Move

/-! ### Causes -/

namespace Processor

variable {p : Processor} {x z : Member} {c : Cause}

/-- Only the end of the consumer makes a member leave for good. -/
theorem Sound.closing_undergo (h : p.Sound x) (hc : c.closes = false)
    (hz : (p.undergo c).member = some z) : z.closing = x.closing := by
  have hmove {t : Trigger} {f : Membership → Step}
      (hm : Move ⟨x, p.session⟩ t (f ⟨x, p.session⟩).membership (f ⟨x, p.session⟩).fault?)
      (hz : (p.onMember f).1.member = some z) : z.closing = x.closing := by
    rw [onMember_eq h.member] at hz
    obtain rfl := Option.some.inj hz
    exact hm.closing
  have hother (hn : c.trigger? p = none) : z.closing = x.closing := by
    have hturn := h.turn c
    cases hturn with
    | still _ hm | picked _ hm | noticed _ hm =>
      obtain rfl := Option.some.inj (hm.symm.trans hz)
      rfl
    | moved ht => cases hn.symm.trans ht
  cases c with
  | polled => exact hmove (Membership.move_onPoll _) hz
  | heard o => exact hmove (Membership.move_onHeartbeat _ o) hz
  | advanced now => exact hmove (Membership.move_advanceOnce _ now h.coherent) hz
  | received e =>
    cases e with
    | leaveOnClose => cases hc
    | unsubscribe t =>
      have hl := leave_eq (p := { p with evaluated := none }) h.member t (·.leave)
      have hm : (p.unsubscribe t).member = some (Membership.leave ⟨x, p.session⟩).1.member := by
        rw [unsubscribe, hl]
        rfl
      obtain rfl := Option.some.inj (hm.symm.trans hz)
      exact (Membership.move_leave (m := ⟨x, p.session⟩) h.coherent).closing
    | _ => exact hother rfl
  | _ => exact hother rfl

/-- Whatever happens but the end of the consumer leaves a member outside its group with a subscription
to take note of. -/
theorem Sound.heeds_undergo (h : p.Sound x) (hx : Membership.Heeds ⟨x, p.session⟩)
    (hc : c.closes = false) (hz : (p.undergo c).member = some z) :
    Membership.Heeds ⟨z, (p.undergo c).session⟩ := by
  have hclosing := (h.closing_undergo hc hz).trans hx.remains
  refine ⟨hclosing, fun hauto hs => ?_⟩
  have hturn := h.turn c
  cases hturn with
  | still _ hm ha =>
    obtain rfl : x = z := Option.some.inj (hm.symm.trans hz)
    exact hx.pending (ha.isAuto.symm.trans hauto) hs
  | noticed _ hm =>
    obtain rfl := Option.some.inj (hm.symm.trans hz)
    rfl
  | picked _ _ _ ha =>
    have hn : (p.undergo c).session.subscription.isAuto = false := by
      show (p.undergo c).subscription.isAuto = false
      rw [ha]
      rfl
    cases hn.symm.trans hauto
  | @moved t y m f _ hy hmove hm hb =>
    obtain rfl : m.member = z := Option.some.inj (hm.symm.trans hz)
    have hyx : y = x := by
      rcases hy with rfl | rfl
      · rfl
      · cases hmove.closing.symm.trans hclosing
    subst hyx
    have hsub : (p.undergo c).session.subscription = m.session.subscription := hb.subscription
    exact (hmove.heeds h.coherent hx).pending (hsub ▸ hauto) hs

/-! ### The next poll -/

/-- A poll that finds a subscription to take note of makes a member outside its group join. -/
theorem Sound.joins_polled (h : p.Sound x) (hn : Membership.JoinsNext ⟨x, p.session⟩) :
    (p.undergo .polled).state? = some .joining := by
  have hz : (p.undergo .polled).member =
      some (Membership.onPoll ⟨x, p.session⟩).membership.member := by
    show (p.onMember (·.onPoll)).1.member = _
    rw [onMember_eq h.member]
    rfl
  rw [state?_eq hz, (Membership.move_onPoll ⟨x, p.session⟩).state_of_polled hn]

/-- A member that waits for its first assignment goes on doing so, unless it hears something or is
asked to leave. -/
theorem Sound.joining_undergo (h : p.Sound x) (hs : x.state = .joining)
    (hc : c.trigger? p = none ∨ ∃ now, c = .advanced now)
    (hz : (p.undergo c).member = some z) : z.state = .joining := by
  rcases (h.turn c).still_or_moved h.coherent hz with ⟨-, hl⟩ | ⟨t, y, s, f, ht, hl, hy, hmove, -⟩
  · exact hl.state.trans hs
  · rcases hc with hn | ⟨now, rfl⟩
    · cases hn.symm.trans ht
    · obtain rfl := Option.some.inj ht
      exact hmove.state_of_joining hy (hl.state.trans hs)

theorem Sound.joining_follow (h : p.Sound x) (hs : x.state = .joining) {cs : List Cause}
    (hcs : ∀ c ∈ cs, (∀ q, c.trigger? q = none) ∨ ∃ now, c = .advanced now) :
    (p.follow cs).state? = some .joining := by
  induction cs generalizing p x with
  | nil => rw [follow_nil, state?_eq h.member, hs]
  | cons c cs ih =>
    obtain ⟨z, hz⟩ := h.undergo c
    have hc := (hcs c List.mem_cons_self).imp_left fun hn => hn p
    exact ih hz (h.joining_undergo hs hc hz.member) fun d hd => hcs d (List.mem_cons_of_mem _ hd)

/-- A poll that finds a subscription to take note of ends with the member waiting for its first
assignment. -/
theorem Sound.joining_poll (h : p.Sound x) (hn : Membership.JoinsNext ⟨x, p.session⟩)
    (time : Int64) (gate : SlotId) :
    (p.act (.process (.poll time gate))).state? = some .joining := by
  let q := p.undergo (.received (.poll time gate))
  have hq : q.Sound x := by
    obtain ⟨y, hy⟩ := h.undergo (.received (.poll time gate))
    have hm : q.member = some x := (member_receive rfl rfl).trans h.member
    obtain rfl : x = y := Option.some.inj (hm.symm.trans hy.member)
    exact hy
  have hj := hq.joins_polled (x := x) hn
  obtain ⟨z, hz⟩ := hq.undergo .polled
  rw [state?_eq hz.member] at hj
  obtain ⟨cs, hcs, hrest⟩ : ∃ cs, p.pollCauses time gate =
      [.received (.poll time gate), .polled] ++ cs ∧
        ∀ c ∈ cs, (∀ q, c.trigger? q = none) ∨ ∃ now, c = .advanced now := by
    refine ⟨_, List.append_assoc .., fun c hc => ?_⟩
    rcases List.mem_append.1 hc with hc | hc
    · exact Or.inr ⟨time, eq_advanced_of_mem_advances hc⟩
    · simp only [List.mem_cons, List.not_mem_nil, or_false] at hc
      rcases hc with rfl | rfl <;> exact Or.inl fun _ => rfl
  rw [← h.follow_causes]
  show (p.follow (p.pollCauses time gate)).state? = _
  rw [hcs, follow_append]
  exact hz.joining_follow (Option.some.inj hj) hrest

end Processor

/-! ### Runs -/

namespace Chronicle

variable {u : Setup} {k : Chronicle}

/-- As long as the consumer is not told to close, a member outside its group has a subscription to
take note of if the group serves one. -/
theorem Lived.heeds (h : Lived u.processor k) (hc : ∀ y ∈ k.past, y.cause.closes = false) :
    ∃ x, k.present.Sound x ∧ Membership.Heeds ⟨x, k.present.session⟩ := by
  induction h with
  | start => exact ⟨u.member, u.sound, rfl, fun hauto => by cases hauto⟩
  | @undergo k h c ih =>
    obtain ⟨x, hx, hheeds⟩ := ih fun y hy => hc y (List.mem_cons_of_mem _ hy)
    obtain ⟨z, hz⟩ := hx.undergo c
    exact ⟨z, hz, hx.heeds_undergo hheeds (hc ⟨k.present, c⟩ List.mem_cons_self) hz.member⟩

end Chronicle

namespace Setup

/-- At any point of a run that has not told the consumer to close yet, a member that is outside its
group although the group serves the subscription has that subscription to take note of, and a poll
makes it join. -/
theorem joining_after_poll (u : Setup) (as : List Action) {k : Chronicle}
    (hk : k ∈ (u.chronicle as).points) (hc : ∀ y ∈ k.past, y.cause.closes = false) {x : Member}
    (hx : k.present.member = some x) (hs : x.state = .unsubscribed)
    (hauto : k.present.subscription.isAuto = true) :
    x.subscriptionUpdated = true ∧
      ∀ time gate, (k.present.act (.process (.poll time gate))).state? = some .joining := by
  obtain ⟨y, hy, hheeds⟩ := Chronicle.Lived.heeds ((u.lived as).of_mem_points hk) hc
  obtain rfl : x = y := Option.some.inj (hx.symm.trans hy.member)
  have hupdated := hheeds.pending hauto hs
  exact ⟨hupdated, hy.joining_poll ⟨hupdated, hs, hheeds.remains⟩⟩

/-- A consumer leaves its group, is fenced on the way, and subscribes again. -/
def rejoiningSteps : List Action :=
  departingSteps ++ hears .fenced ++
    [.outside .fresh, .process (.subscribeTopics (ticketAt 5) (.ofList ["t"]))]

/-- A consumer that subscribes again after it has left joins again. -/
theorem joining_after_resubscribing :
    let p := (heartbeatSetup.chronicle rejoiningSteps).present
    p.state? = some .unsubscribed ∧
      ∀ time gate, (p.act (.process (.poll time gate))).state? = some .joining := by
  intro p
  have hs : p.state? = some .unsubscribed := by decide +kernel
  have hauto : p.subscription.isAuto = true := by decide +kernel
  have hc : ∀ y ∈ (heartbeatSetup.chronicle rejoiningSteps).past, y.cause.closes = false := by
    decide +kernel
  obtain ⟨x, hx, hxs⟩ := Option.map_eq_some_iff.1 hs
  exact ⟨hs, (joining_after_poll heartbeatSetup rejoiningSteps (Chronicle.mem_points_self _) hc
    hx hxs hauto).2⟩

end Setup

end GroupConsumer
