import GroupConsumer.Proofs.Run.Chronicle

/-!
# How long an accepted subscription stays

A subscription that was accepted is not dropped by anything but a leave. Yet it need not be a leave
that the caller asked for later: each step of a leave drops whatever subscription there is, also one
that was accepted while the leave was going on (`dropped_by_earlier_leave`). `form_of_accepted` says
that these steps are all there is to fear.
-/

namespace GroupConsumer

/-- The subscription that the event asks for, or the fault by which it is refused. Given is the
subscription before. -/
def AppEvent.subscribed? (e : AppEvent) (s : Subscription) : Option (Except Fault Subscription) :=
  match e with
  | .subscribeTopics _ topics => some ((s.subscribe topics).map (·.1))
  | .subscribePattern _ source => some (s.subscribePattern source)
  | .assign _ _ parts => some ((s.assignFromUser parts).map (·.1))
  | _ => none

/-- Whether the caller drops its subscription. -/
def Cause.drops : Cause → Bool
  | .received (.unsubscribe _) | .received (.leaveOnClose _) => true
  | _ => false

/-- Whether a leave goes on when a member gets from one state to another: the caller has given up
its partitions, or the leave ends. -/
def MemberState.leaveGoesOn : MemberState → MemberState → Bool
  | prepareLeaving, leaving | prepareLeaving, unsubscribed | leaving, unsubscribed => true
  | _, _ => false

namespace Moment

/-- The form of the subscription that is accepted. -/
def accepted? (y : Moment) : Option SubscriptionForm :=
  match y.cause with
  | .received e =>
    match e.subscribed? y.before.subscription with
    | some (.ok s) => some s.form
    | _ => none
  | _ => none

/-- A leave of the member goes on. -/
def leaveGoesOn (y : Moment) : Bool :=
  match y.before.state?, y.after.state? with
  | some s, some s' => s.leaveGoesOn s'
  | _, _ => false

end Moment

/-! ### Moves -/

theorem MemberState.leaveGoesOn_self (s : MemberState) : s.leaveGoesOn s = false := by
  cases s <;> rfl

theorem MemberState.leaveGoesOn_of_not_isLeaving {s : MemberState} (h : s.isLeaving = false)
    (s' : MemberState) : s.leaveGoesOn s' = false := by
  cases s with
  | prepareLeaving | leaving => cases h
  | _ => rfl

namespace Move

variable {m m' : Membership} {t : Trigger} {f : Option Fault}

/-- Apart from leaves that are asked for, a move keeps the form of the subscription, unless a leave
goes on; then there is none left. -/
theorem form (h : Move m t m' f) (hc : m.member.Coherent) (hl : t ≠ .left) :
    m'.session.subscription.form =
      if m.member.state.leaveGoesOn m'.member.state then .none
      else m.session.subscription.form := by
  -- Whoever is not on the way out keeps the form, wherever the move leads.
  have hkeep {s' : MemberState} {form : SubscriptionForm}
      (hs : m.member.state.isLeaving = false) (hf : form = m.session.subscription.form) :
      form = if m.member.state.leaveGoesOn s' then .none else m.session.subscription.form := by
    rw [MemberState.leaveGoesOn_of_not_isLeaving hs]
    exact hf
  have hsame {form : SubscriptionForm} (hf : form = m.session.subscription.form) :
      form = if m.member.state.leaveGoesOn m.member.state then .none
        else m.session.subscription.form := by
    rw [MemberState.leaveGoesOn_self]
    exact hf
  have hrec (hs : m.member.state = .reconciling) : m.member.state.isLeaving = false := by
    rw [hs]
    rfl
  cases h with
  | rest => exact hsame rfl
  | noted => exact hsame rfl
  | joined hj => exact hkeep (by rw [hj.2.1]; rfl) rfl
  | identified _ _ hs => exact hsame (by rw [hs.subscription])
  | retargeted ha _ hs =>
    exact hkeep (MemberState.not_isLeaving_of_isActive ha) (by rw [hs.subscription])
  | settled hs => exact hkeep (by rw [hs]; rfl) rfl
  | finished hs hb =>
    rw [hb.subscription, Subscription.form_unsubscribe, if_pos]
    obtain ⟨hs, -⟩ | ⟨hs, -⟩ := hs
    · rw [hs]
      rfl
    · obtain hs | hs := MemberState.eq_of_isLeaving hs <;> rw [hs] <;> rfl
  | fenced ha _ _ _ hs =>
    exact hkeep (MemberState.not_isLeaving_of_isActive ha) (by rw [hs.subscription])
  | dropped hd =>
    refine hkeep ?_ (Subscription.form_released _)
    obtain ⟨-, ha, -⟩ | ⟨_, _, _, -, hg, -⟩ := hd
    · exact MemberState.not_isLeaving_of_isActive ha
    · have hs := hc.state_of_stage
      rw [hg] at hs
      rw [hs]
      rfl
  | failed _ hs =>
    have hn : m.member.state.leaveGoesOn .fatal = false := by
      cases m.member.state <;> rfl
    rw [hs.subscription, Subscription.form_released]
    simp only [hn]
    rfl
  | forgot | abandoned | departed | departing => exact absurd rfl hl
  | vacated hg =>
    have hs := hc.state_of_stage
    rw [hg] at hs
    rw [if_pos]
    · rfl
    · rw [hs]
      rfl
  | committing _ _ _ hs => exact hsame (by rw [hs.subscription])
  | revoking _ _ _ hs => exact hsame (by rw [hs.subscription])
  | assigning hn _ _ _ _ hs => exact hsame (by rw [hs.subscription, Subscription.form_reassign])
  | applied hn => exact hkeep (hrec (hn.reconciling hc)) (Subscription.form_reassign _ _)
  | refused => exact hsame rfl
  | completed hg =>
    have hs := hc.state_of_stage
    rw [hg] at hs
    exact hkeep (hrec hs) rfl

/-- A leave that is asked for begins or joins another one. -/
theorem not_leaveGoesOn_of_left (h : Move m .left m' f) :
    m.member.state.leaveGoesOn m'.member.state = false := by
  cases h with
  | rest => exact MemberState.leaveGoesOn_self _
  | finished hs =>
    obtain ⟨-, ht⟩ | ⟨-, ht⟩ := hs
    · cases ht
    · cases ht
  | dropped hs =>
    obtain ⟨ht, -⟩ | ⟨_, _, _, ht, -⟩ := hs
    · cases ht
    · cases ht
  | forgot => exact MemberState.leaveGoesOn_self _
  | abandoned hs => exact MemberState.leaveGoesOn_of_not_isLeaving (by rw [hs]; rfl) _
  | departed ha | departing ha =>
    exact MemberState.leaveGoesOn_of_not_isLeaving (MemberState.not_isLeaving_of_isActive ha) _

end Move

/-! ### Causes -/

namespace Processor

variable {p : Processor} {x z : Member} {c : Cause} {e : AppEvent}

theorem drops_of_trigger? (h : c.trigger? p = some .left) : c.drops = true := by
  unfold Cause.trigger? at h
  split at h
  · cases h
  · cases h
  · cases h
  · rfl
  · rfl
  · cases h

/-- A leave that goes on leaves no subscription. Apart from that a form stays unless the caller drops
it. -/
theorem Sound.form_undergo (hx : p.Sound x) :
    let q := p.undergo c
    match Moment.leaveGoesOn ⟨p, c⟩ with
    | true => q.subscription.form = .none
    | false => c.drops = true ∨ p.subscription.form = .none ∨
        q.subscription.form = p.subscription.form := by
  intro q
  have hturn : Turn p x c q := hx.turn c
  have hgo {z : Member} (hz : q.member = some z) :
      Moment.leaveGoesOn ⟨p, c⟩ = x.state.leaveGoesOn z.state := by
    rw [Moment.leaveGoesOn, Moment.after, state?_eq hx.member, state?_eq hz]
  cases hturn with
  | still _ hm hs =>
    rw [hgo hm, MemberState.leaveGoesOn_self]
    exact Or.inr (Or.inr hs.form)
  | noticed _ hm hs =>
    rw [hgo hm, MemberState.leaveGoesOn_self]
    obtain hs | hs := hs
    · exact Or.inr (Or.inr hs.form)
    · exact Or.inr (hs.form.imp id Eq.symm)
  | picked _ hm hf hs =>
    rw [hgo hm, MemberState.leaveGoesOn_self, hs, Subscription.form_reassign]
    exact Or.inr (hf.imp id Eq.symm)
  | @moved t y m f ht hy hmove hm hs =>
    have hstate : y.state = x.state := (Member.like_of_closing hy).state
    have hco : y.Coherent := hx.coherent.of_closing hy
    have hq : q.subscription.form = m.session.subscription.form := by
      rw [subscription, hs.subscription]
    rw [hgo hm, ← hstate, hq]
    by_cases hl : t = .left
    · subst hl
      rw [hmove.not_leaveGoesOn_of_left]
      exact Or.inl (drops_of_trigger? ht)
    · rw [hmove.form hco hl]
      split
      · rename_i h
        exact if_pos h
      · rename_i h
        exact Or.inr (Or.inr (if_neg (by simp [h])))

/-- What was accepted is the subscription, as far as its form and its partitions go. -/
theorem alike_receive (hm : p.member = some x) {s : Subscription}
    (h : e.subscribed? p.subscription = some (.ok s)) : s.Alike (p.receive e).subscription := by
  cases e with
  | subscribeTopics t topics =>
    show s.Alike (p.subscribeTopics t topics).subscription
    obtain ⟨changed, hr⟩ := exists_of_map_fst_eq_ok (Option.some.inj h)
    rw [subscribeTopics, if_neg (by simp [hm]), hr]
    simp only
    split
    · exact (serves_requestMetadata (p.withSubscription fun _ => s)).subscription
    · exact Subscription.Alike.refl _
  | subscribePattern t source =>
    show s.Alike (p.subscribePattern t source).subscription
    rw [subscribePattern, if_neg (by simp [hm]), Option.some.inj h]
    exact ((serves_evaluatePattern { p.withSubscription fun _ => s with evaluated := none }).trans
      (serves_requestMetadata _)).subscription
  | assign t time parts =>
    show s.Alike (p.assign t time parts).subscription
    unfold assign
    simp only
    rw [(handles_updateCommitTimer p [] time).subscription, Option.some.inj h]
    exact Subscription.Alike.refl s
  | _ => cases h

end Processor

/-- An accepted subscription has a form. -/
theorem AppEvent.form_ne_none_of_subscribed? {e : AppEvent} {s t : Subscription}
    (h : e.subscribed? s = some (.ok t)) : t.form ≠ .none := by
  have hauto (ht : t.isAuto = true) : t.form ≠ .none := by
    intro hf
    rw [Subscription.isAuto, hf] at ht
    cases ht
  cases e with
  | subscribeTopics ticket topics =>
    obtain ⟨changed, hr⟩ := exists_of_map_fst_eq_ok (Option.some.inj h)
    exact hauto (Subscription.joins_subscribe hr).auto
  | subscribePattern ticket source =>
    exact hauto (Subscription.joins_subscribePattern (Option.some.inj h)).auto
  | assign ticket time parts =>
    obtain ⟨changed, hr⟩ := exists_of_map_fst_eq_ok (Option.some.inj h)
    have hs : t = _ := (Subscription.assignFromUser_eq_ok hr).2
    rw [hs]
    show SubscriptionForm.userAssigned ≠ .none
    decide
  | _ => cases h

namespace Moment

variable {y : Moment} {form : SubscriptionForm}

theorem accepted?_eq_some (h : y.accepted? = some form) :
    ∃ e s, y.cause = .received e ∧ e.subscribed? y.before.subscription = some (.ok s) ∧
      s.form = form := by
  unfold accepted? at h
  split at h
  · rename_i e hc
    split at h
    · rename_i s hs
      exact ⟨e, s, hc, hs, Option.some.inj h⟩
    · cases h
  · cases h

theorem form_of_accepted? {x : Member} (hm : y.before.member = some x)
    (h : y.accepted? = some form) : y.after.subscription.form = form := by
  obtain ⟨e, s, hc, hs, rfl⟩ := accepted?_eq_some h
  rw [after, hc]
  exact (Processor.alike_receive hm hs).form

theorem ne_none_of_accepted? (h : y.accepted? = some form) : form ≠ .none := by
  obtain ⟨e, s, -, hs, rfl⟩ := accepted?_eq_some h
  exact AppEvent.form_ne_none_of_subscribed? hs

end Moment

/-! ### Runs -/

namespace Chronicle

variable {u : Setup} {k : Chronicle} {later earlier : List Moment} {y : Moment}
  {form : SubscriptionForm}

/-- As long as no leave goes on and the caller drops nothing, an accepted subscription keeps its
form. -/
theorem Lived.form_of_accepted? (h : Lived u.processor k) (hk : k.past = later ++ y :: earlier)
    (hy : y.accepted? = some form)
    (hl : ∀ z ∈ later, z.cause.drops = false ∧ z.leaveGoesOn = false) :
    k.present.subscription.form = form := by
  induction h generalizing later with
  | start => cases later <;> cases hk
  | @undergo k h c ih =>
    obtain ⟨x, hx⟩ := h.sound u.sound
    cases later with
    | nil =>
      cases hk
      exact Moment.form_of_accepted? hx.member hy
    | cons z later =>
      injection hk with hz hk
      subst hz
      obtain ⟨hd, hg⟩ := hl _ List.mem_cons_self
      have hf := ih hk fun w hw => hl w (List.mem_cons_of_mem _ hw)
      have hu := hx.form_undergo (c := c)
      rw [hg] at hu
      obtain hu | hu | hu := hu
      · exact absurd (hd.symm.trans hu) (by decide)
      · exact absurd (hf.symm.trans hu) (Moment.ne_none_of_accepted? hy)
      · exact hu.trans hf

end Chronicle

namespace Setup

/-- Once a subscription has been accepted, and as long as the caller does not drop it, it keeps its
form until a leave goes on that was asked for before. When one does, nothing is left of it. -/
theorem form_of_accepted (u : Setup) (as : List Action) {later earlier : List Moment} {y : Moment}
    {form : SubscriptionForm} (hk : (u.chronicle as).past = later ++ y :: earlier)
    (hy : y.accepted? = some form) (hd : ∀ z ∈ later, z.cause.drops = false) :
    ((∀ z ∈ later, z.leaveGoesOn = false) →
        (u.chronicle as).present.subscription.form = form) ∧
      ∀ z ∈ later, z.leaveGoesOn = true → z.after.subscription.form = .none := by
  have hlived := u.lived as
  generalize u.chronicle as = k at hk hlived
  constructor
  · exact fun hg => hlived.form_of_accepted? hk hy fun z hz => ⟨hd z hz, hg z hz⟩
  · intro z hz hg
    obtain ⟨later', middle, rfl⟩ := List.append_of_mem hz
    have hk' : k.past = later' ++ z :: (middle ++ y :: earlier) := by
      rw [hk, List.append_assoc]
      rfl
    obtain ⟨x, hx⟩ := (hlived.at_moment hk').sound u.sound
    have hu := hx.form_undergo (c := z.cause)
    rw [hg] at hu
    exact hu

/-- A consumer leaves its group, and subscribes again while it leaves. -/
def resubscribingSteps : List Action :=
  [.outside .fresh, .process (.subscribeTopics (ticketAt 0) (.ofList ["t"])),
    .outside .fresh, .process (.poll 0 1),
    .outside .fresh, .process (.unsubscribe (ticketAt 2)),
    .outside .fresh, .process (.subscribeTopics (ticketAt 4) (.ofList ["t"]))]

/-- As long as the heartbeat by which the consumer leaves has not been sent, the new subscription
stays. -/
theorem form_of_resubscribing :
    (heartbeatSetup.chronicle (resubscribingSteps ++ [.progress 0])).present.subscription.form =
      .autoTopics := by
  let k := heartbeatSetup.chronicle (resubscribingSteps ++ [.progress 0])
  have ha : k.past[5]?.map (·.accepted?) = some (some .autoTopics) := by decide +kernel
  obtain ⟨y, hy, ha⟩ := Option.map_eq_some_iff.1 ha
  have hd : ∀ z ∈ k.past.take 5, z.cause.drops = false := by decide +kernel
  have hg : ∀ z ∈ k.past.take 5, z.leaveGoesOn = false := by decide +kernel
  exact (form_of_accepted heartbeatSetup _ (past_eq_of_getElem? hy) ha hd).1 hg

/-- When it has been sent, the new subscription is gone, although it was accepted and the caller has
not dropped it. -/
theorem dropped_by_earlier_leave :
    let k := heartbeatSetup.chronicle (resubscribingSteps ++
      [.outside (.script { outcomes := [.requestSent leaveEpoch] }), .progress 0])
    ∃ later y earlier, k.past = later ++ y :: earlier ∧ y.accepted? = some .autoTopics ∧
      (k.present.session.slots.outcome? 4).bind (·.toOption) = some .done ∧
      (∀ z ∈ later, z.cause.drops = false) ∧ k.present.subscription.form = .none := by
  intro k
  have ha : k.past[7]?.map (·.accepted?) = some (some .autoTopics) := by decide +kernel
  obtain ⟨y, hy, ha⟩ := Option.map_eq_some_iff.1 ha
  exact ⟨_, y, _, past_eq_of_getElem? hy, ha, by decide +kernel, by decide +kernel,
    by decide +kernel⟩

end Setup

end GroupConsumer
