import GroupConsumer.Proofs.Run.Guarded

/-!
# What an answered request to unsubscribe stands for

The ticket of a request to unsubscribe is completed when the leave is over that it asks for, which may
be long after the request. By then the consumer has no subscription any more and owns nothing, unless
it is the group that has failed the member in the meantime: the leave is over then as well, but the
subscription stays (`unsubscribed_of_completes`, `subscribed_at_completion`). All this is so as long as
nobody else makes use of the ticket, nor of slots that are not theirs to use (`discreet`).
-/

namespace GroupConsumer

/-- Nothing is left of the subscription, and nothing is owned. -/
structure Processor.Unsubscribed (p : Processor) : Prop where
  form : p.subscription.form = .none
  topics : p.subscription.topics = ∅
  pattern : p.subscription.pattern = none
  assigned : p.subscription.assigned = ∅
  owned : ∀ x, p.member = some x → x.owned = ∅

/-- A slot is used as the ticket of a request to unsubscribe at most. Somebody outside may complete it
all the same. -/
def Cause.reserves (c : Cause) (i : SlotId) : Bool :=
  match c with
  | .received (.unsubscribe _) | .outside (.settle ..) => true
  | c => !decide (i ∈ c.names)

/-- The slots that an action names. -/
def Action.names : Action → List SlotId
  | .process e => e.names
  | .outside o => o.names
  | .progress _ => []

/-- A slot is used as the ticket of a request to unsubscribe at most. -/
def Action.reserves (a : Action) (i : SlotId) : Bool :=
  match a with
  | .process e => Cause.reserves (.received e) i
  | .outside o => Cause.reserves (.outside o) i
  | .progress _ => true

/-- Each action names slots that may be used when its turn comes. -/
def Processor.discreet (p : Processor) : List Action → Bool
  | [] => true
  | a :: as => a.names.all p.admits && (p.act a).discreet as

namespace Moment

/-- The processor completes a slot with success. -/
def completes (y : Moment) (i : SlotId) : Bool :=
  match y.cause with
  | .outside _ => false
  | _ => y.before.session.slots.isPending i && (y.after.session.slots.outcome? i).any (·.isOk)

/-- The group fails a member that is on its way out. The partitions are given up, but the
subscription stays. -/
structure FailsLeaving (y : Moment) : Prop where
  fatal : ∃ f, y.cause = .heard (.fatal f)
  leaving : ∃ x, y.before.member = some x ∧ x.state.isLeaving = true
  subscription : y.after.subscription = y.before.subscription.released
  owned : ∀ x, y.after.member = some x → x.owned = ∅

/-- The request stays linked to the leave, and if it is answered, it is answered well. -/
structure Answers (y : Moment) (i : SlotId) : Prop where
  passes : y.before.Passes i y.after
  answered : y.completes i = true → y.after.Unsubscribed ∨ y.FailsLeaving

variable {y : Moment} {i : SlotId}

theorem outcome?_ne_of_completes (h : y.completes i = true) :
    i < y.before.session.slots.cells.size ∧
      y.after.session.slots.outcome? i ≠ y.before.session.slots.outcome? i := by
  unfold completes at h
  split at h
  · cases h
  · obtain ⟨hp, ho⟩ := Bool.and_eq_true_iff.1 h
    obtain ⟨hlt, hn⟩ := Slots.isPending_iff.1 hp
    refine ⟨hlt, fun he => ?_⟩
    rw [he, hn] at ho
    cases ho

/-- A request that keeps its outcome is not answered. -/
theorem answers_of_outcome? (hp : y.before.Passes i y.after)
    (ho : i < y.before.session.slots.cells.size →
      y.after.session.slots.outcome? i = y.before.session.slots.outcome? i) : y.Answers i := by
  refine ⟨hp, fun hc => ?_⟩
  obtain ⟨hlt, hne⟩ := outcome?_ne_of_completes hc
  exact absurd (ho hlt) hne

end Moment

namespace Processor

variable {p q : Processor} {c : Cause} {x : Member} {i l : SlotId}

theorem unsubscribed_of_subscription (hs : p.subscription = q.subscription.unsubscribe)
    (ho : ∀ x, p.member = some x → x.owned = ∅) : p.Unsubscribed := by
  constructor
  case owned => exact ho
  all_goals
    rw [hs]
    rfl

/-! ### Causes that do not set the member in motion -/

theorem Steady.answers_of_trigger? (hp : p.Steady) (h : p.Guarded i)
    (hc : c.trigger? p = none) (hn : ∀ j ∈ c.names, p.admits j = true)
    (hr : c.reserves i = true) : Moment.Answers ⟨p, c⟩ i := by
  have hw := worksOn_undergo hc
  have hl := hp.leaveSlot?_undergo hc
  by_cases hi : i ∈ c.names
  · unfold Cause.reserves at hr
    split at hr
    · cases hc
    · rename_i j o
      refine ⟨h.passes hw hn hl (h.request.settle j o), fun hd => ?_⟩
      cases hd
    · simp [hi] at hr
  · exact Moment.answers_of_outcome? (h.passes_of_not_mem hw hn hl hi)
      (h.outcome?_of_worksOn hw hn hi)

/-! ### Polls, heartbeats and steps of reconciliation -/

/-- A member answers the request when its leave ends, and by then it has dropped the subscription or
failed. -/
theorem Sound.answers_onMember (hp : p.Sound x) (h : p.Guarded i) {f : Membership → Step}
    {t : Trigger} (hc : c.trigger? p = some t) (hu : p.undergo c = (p.onMember f).1)
    (ht : Membership.Tends ⟨x, p.session⟩ (f ⟨x, p.session⟩).membership)
    (hmove : Move ⟨x, p.session⟩ t (f ⟨x, p.session⟩).membership (f ⟨x, p.session⟩).fault?) :
    Moment.Answers ⟨p, c⟩ i := by
  rw [onMember_eq hp.member] at hu
  generalize (f ⟨x, p.session⟩).membership = m at hu ht hmove
  have ha : Moment.after ⟨p, c⟩ = p.withMembership m := hu
  obtain ⟨hpass, hends⟩ := h.tends hp.member ht
  refine ⟨ha ▸ hpass, fun hd => ?_⟩
  obtain ⟨hlt, hne⟩ := Moment.outcome?_ne_of_completes hd
  rw [ha] at hne
  obtain ⟨hx, hm⟩ := hends hlt hne
  rw [leaveSlot?_eq hp.member] at hx
  obtain ⟨ho, hs⟩ := hmove.ended hp.coherent hx hm
  have howned : ∀ z, (Moment.after ⟨p, c⟩).member = some z → z.owned = ∅ := by
    intro z hz
    rw [ha] at hz
    obtain rfl : m.member = z := Option.some.inj hz
    exact ho
  have hsub : (Moment.after ⟨p, c⟩).subscription = m.session.subscription := by
    rw [ha]
    rfl
  obtain hs | ⟨⟨g, rfl⟩, hleave, hs⟩ := hs
  · exact Or.inl (unsubscribed_of_subscription (q := p) (hsub.trans hs) howned)
  · exact Or.inr ⟨⟨g, Cause.eq_of_trigger? hc⟩, ⟨x, hp.member, hleave⟩, hsub.trans hs, howned⟩

/-! ### Requests to leave -/

/-- Before the ticket is linked: there is nothing to leave, or a leave goes on. -/
theorem Guarded.departs (h : p.Guarded i) {m n : Membership} (hs : m.session = p.session)
    (hm : m.member.leaveSlot = p.leaveSlot?) (hd : m.Departs l n) (hqs : q.session = n.session)
    (hqm : q.member = some n.member) :
    p.Passes i q ∧ (i < p.session.slots.cells.size →
        q.session.slots.outcome? i = p.session.slots.outcome? i) ∧
      ((q.session.slots.isDone l = true ∧ q.subscription = p.subscription.unsubscribe ∧
          n.member.owned = ∅) ∨ q.leaveSlot? = some l) := by
  have hql := leaveSlot?_eq hqm
  have hw : p.session.WorksOn (fun _ => False) q.session := by
    rw [hqs, ← hs]
    exact hd.proceeds.worksOn
  have hkeeps := h.outcome?_of_worksOn hw (fun _ => False.elim) not_false
  cases hd with
  | atOnce before after _ done subscription owned =>
    have hl : q.leaveSlot? = p.leaveSlot? := by rw [hql, after, ← hm, before]
    refine ⟨h.passes_of_not_mem hw (fun _ => False.elim) hl not_false, hkeeps, Or.inl
      ⟨by rwa [hqs], ?_, owned⟩⟩
    rw [Processor.subscription, hqs, subscription, hs]
    rfl
  | joined before same =>
    subst same
    have hl : q.leaveSlot? = p.leaveSlot? := hql.trans hm
    exact ⟨h.passes_of_not_mem hw (fun _ => False.elim) hl not_false, hkeeps,
      Or.inr (hql.trans before)⟩
  | begun before after _ new pending =>
    rw [hs] at new
    rw [new] at after pending
    refine ⟨h.begun hw (hm.symm.trans before) (hql.trans after) ?_, hkeeps, Or.inr ?_⟩
    · rwa [hqs]
    · rw [new]
      exact hql.trans after

/-- A coherent member that is asked to leave answers the request at once if there is nothing to
leave. -/
theorem Guarded.answers_leave (h : p.Guarded i) {y : Member} (hy : y.Coherent)
    (hl : y.leaveSlot = p.leaveSlot?) {t : Ticket} (ht : p.admits t.slot = true)
    (hqs : q.session = (Membership.leave ⟨y, p.session⟩).1.session)
    (hqm : q.member = some (Membership.leave ⟨y, p.session⟩).1.member)
    (hu : p.undergo c =
      q.withSession (·.chain (Membership.leave ⟨y, p.session⟩).2 t.slot)) :
    Moment.Answers ⟨p, c⟩ i := by
  have ha : Moment.after ⟨p, c⟩ = _ := hu
  obtain ⟨hpass, ho, hstate⟩ :=
    h.departs (q := q) rfl hl (Membership.departs_leave (m := ⟨y, p.session⟩) hy) hqs hqm
  generalize Membership.leave ⟨y, p.session⟩ = r at hqs hqm hu ha hstate
  have hchain := hpass.guarded.chain (hpass.admits _ ht) (hstate.imp_left And.left)
  refine ⟨ha ▸ hpass.trans hchain, fun hd => ?_⟩
  obtain ⟨hlt, hne⟩ := Moment.outcome?_ne_of_completes hd
  rw [ha] at hne ⊢
  obtain ⟨-, hs, howned⟩ | hleave := hstate
  · refine Or.inl (unsubscribed_of_subscription (q := p) hs fun z hz => ?_)
    obtain rfl : r.1.member = z := Option.some.inj (hqm.symm.trans hz)
    exact howned
  · exact absurd ((hpass.guarded.outcome?_chain hleave t.slot).trans (ho hlt)) hne

/-- Without a group the request is answered as soon as the subscription is dropped. -/
theorem Guarded.answers_unsubscribe_of_none (h : p.Guarded i) (hm : p.member = none) {t : Ticket}
    (ht : p.admits t.slot = true) : Moment.Answers ⟨p, .received (.unsubscribe t)⟩ i := by
  let q := ({ p with evaluated := none } : Processor).withSubscription (·.unsubscribe)
  have ha : Moment.after ⟨p, .received (.unsubscribe t)⟩ = q.succeed t := unsubscribe_of_none hm t
  have hq : (q.succeed t).member = none := hm
  have hl : (q.succeed t).leaveSlot? = p.leaveSlot? := by
    rw [leaveSlot?_of_none hm, leaveSlot?_of_none hq]
  have hq' : p.Proceeds [t.slot] [] q := Session.proceeds_of_slots _ _ rfl rfl
  have hw : p.WorksOn [t.slot] (q.succeed t) := hq'.succeed.worksOn
  have hn : ∀ j ∈ [t.slot], p.admits j = true := fun j hj => by rwa [List.mem_singleton.1 hj]
  constructor
  · rw [ha]
    exact h.passes hw hn hl (h.request.settle t.slot _)
  · intro _
    rw [ha]
    refine Or.inl (unsubscribed_of_subscription (q := p) rfl fun z hz => ?_)
    cases hq.symm.trans hz

/-! ### All causes -/

/-- Whatever happens, the request stays linked to the leave, and if it is answered, it is answered
well. -/
theorem Steady.answers (hp : p.Steady) (h : p.Guarded i) (hn : ∀ j ∈ c.names, p.admits j = true)
    (hr : c.reserves i = true) : Moment.Answers ⟨p, c⟩ i := by
  have hstill (hu : p.undergo c = p) : Moment.Answers ⟨p, c⟩ i := by
    have ha : Moment.after ⟨p, c⟩ = p := hu
    refine Moment.answers_of_outcome? ?_ fun _ => ?_
    · rw [ha]
      exact ⟨h, fun _ => id⟩
    · rw [ha]
  cases hm : p.member with
  | none =>
    cases c with
    | received e =>
      cases e with
      | unsubscribe t => exact h.answers_unsubscribe_of_none hm (hn _ List.mem_cons_self)
      | leaveOnClose t =>
        have ha : Moment.after ⟨p, .received (.leaveOnClose t)⟩ = p.succeed t :=
          leaveOnClose_of_none hm t
        have hl : (p.succeed t).leaveSlot? = p.leaveSlot? := rfl
        have hi : i ∉ Cause.names (.received (.leaveOnClose t)) := by
          simpa [Cause.reserves] using hr
        have hw : p.WorksOn [t.slot] (p.succeed t) := (handles_complete p t _).worksOn
        refine Moment.answers_of_outcome? ?_ ?_
        · rw [ha]
          exact h.passes_of_not_mem hw hn hl hi
        · rw [ha]
          exact h.outcome?_of_worksOn hw hn hi
      | _ => exact hp.answers_of_trigger? h rfl hn hr
    | polled | heard | advanced =>
      refine hstill ?_
      rw [Processor.undergo, onMember_of_none hm]
    | _ => exact hp.answers_of_trigger? h rfl hn hr
  | some x =>
    have hx := hp x hm
    have hl := leaveSlot?_eq hm
    cases c with
    | received e =>
      by_cases he : e.isLeave = true
      · obtain ⟨t, y, q, ht, hy, hqs, hqm, hq⟩ := receive_leave hm he
        have hly : y.leaveSlot = p.leaveSlot? := (Member.leaveSlot_of_closing hy).trans hl.symm
        exact h.answers_leave (hx.coherent.of_closing hy) hly
          (hn t.slot (AppEvent.slot_mem_names ht)) hqs hqm hq
      · cases e with
        | unsubscribe | leaveOnClose => exact absurd rfl he
        | _ => exact hp.answers_of_trigger? h rfl hn hr
    | polled =>
      exact hx.answers_onMember h rfl rfl (Membership.keepsLeave_onPoll _).tends
        (Membership.move_onPoll _)
    | heard o =>
      exact hx.answers_onMember h rfl rfl (Membership.tends_onHeartbeat _ o)
        (Membership.move_onHeartbeat _ o)
    | advanced now =>
      exact hx.answers_onMember h rfl rfl (Membership.tends_advanceOnce _ _ now)
        (Membership.move_advanceOnce _ now hx.coherent)
    | _ => exact hp.answers_of_trigger? h rfl hn hr

/-! ### The causes of an action -/

/-- What a lookup has left may be applied, and does not answer the request. -/
theorem Guarded.admits_deferred (h : p.Guarded i) {u : Deferral × Value} {j : SlotId}
    (hu : u ∈ p.session.deferred) (hj : j ∈ u.1.slot?.toList) : p.admits j = true ∧ j ≠ i := by
  have hn := Session.mem_deferred.1 hu
  refine ⟨admits_iff.2 ⟨Nat.lt_of_not_le fun hle => ?_, fun hl => ?_⟩, ?_⟩
  · exact (h.unborn j hle).journal _ hn hj
  · exact (h.leave j hl).2.journal _ hn hj
  · rintro rfl
    exact h.request.journal _ hn hj

/-- The causes of an action name what the action names, and slots that lookups were asked for. -/
theorem Guarded.admits_causes (h : p.Guarded i) {a : Action}
    (ha : ∀ j ∈ a.names, p.admits j = true) (hr : a.reserves i = true) :
    ∀ c ∈ p.causes a, (∀ j ∈ c.names, p.admits j = true) ∧ c.reserves i = true := by
  intro c hc
  -- Parts that name no slot ask for nothing.
  have hnone {c : Cause} (hn : c.names = []) (hs : c.reserves i = !decide (i ∈ c.names)) :
      (∀ j ∈ c.names, p.admits j = true) ∧ c.reserves i = true := by
    rw [hs, hn]
    exact ⟨fun j hj => absurd hj List.not_mem_nil, by simp⟩
  cases a with
  | outside o =>
    obtain rfl := List.mem_singleton.1 hc
    exact ⟨ha, hr⟩
  | progress now =>
    obtain rfl | ⟨u, rfl⟩ | rfl | ⟨o, rfl⟩ | rfl | rfl | ⟨fs, rfl⟩ := mem_progressCauses hc
    case inr.inl =>
      have hu := mem_deferred_of_mem_progressCauses hc
      refine ⟨fun j hj => (h.admits_deferred hu hj).1, ?_⟩
      have hi : i ∉ u.1.slot?.toList := fun hi => (h.admits_deferred hu hi).2 rfl
      simp [Cause.reserves, Cause.names, hi]
    all_goals exact hnone rfl rfl
  | process e =>
    cases e with
    | poll time gate =>
      obtain rfl | rfl | rfl | rfl | ⟨fs, rfl⟩ := mem_pollCauses hc
      case inl => exact ⟨ha, hr⟩
      case inr.inr.inr.inl => exact ⟨ha, hr⟩
      all_goals exact hnone rfl rfl
    | callbackDone method slot fault =>
      obtain rfl | ⟨now, rfl⟩ | ⟨fs, rfl⟩ := mem_callbackCauses hc
      case inl => exact ⟨ha, hr⟩
      all_goals exact hnone rfl rfl
    | _ =>
      obtain rfl := List.mem_singleton.1 hc
      exact ⟨ha, hr⟩

end Processor

/-! ### Runs -/

namespace Chronicle

/-- The request is linked to the leave, and whenever it was answered, it was answered well. -/
structure Answering (k : Chronicle) (i : SlotId) : Prop where
  steady : k.present.Steady
  guarded : k.present.Guarded i
  past : ∀ y ∈ k.past, y.completes i = true → y.after.Unsubscribed ∨ y.FailsLeaving

variable {k : Chronicle} {i : SlotId}

theorem Answering.follow (h : k.Answering i) {cs : List Cause}
    (hcs : ∀ c ∈ cs, (∀ j ∈ c.names, k.present.admits j = true) ∧ c.reserves i = true) :
    (k.follow cs).Answering i := by
  induction cs generalizing k with
  | nil => exact h
  | cons c cs ih =>
    obtain ⟨hn, hr⟩ := hcs c List.mem_cons_self
    obtain ⟨hpass, hans⟩ := h.steady.answers h.guarded hn hr
    have hk : (k.undergo c).Answering i := by
      refine ⟨h.steady.undergo c, hpass.guarded, fun y hy => ?_⟩
      obtain rfl | hy := List.mem_cons.1 hy
      · exact hans
      · exact h.past y hy
    refine ih hk fun d hd => ?_
    obtain ⟨hn, hr⟩ := hcs d (List.mem_cons_of_mem _ hd)
    exact ⟨fun j hj => hpass.admits j (hn j hj), hr⟩

theorem Answering.run (h : k.Answering i) {as : List Action} (hd : k.present.discreet as = true)
    (hr : ∀ a ∈ as, a.reserves i = true) : (k.run as).Answering i := by
  induction as generalizing k with
  | nil => exact h
  | cons a as ih =>
    obtain ⟨hn, hd⟩ := Bool.and_eq_true_iff.1 hd
    have hc := h.guarded.admits_causes (List.all_eq_true.1 hn) (hr a List.mem_cons_self)
    refine ih (k := k.act a) (h.follow hc) ?_ fun b hb => hr b (List.mem_cons_of_mem _ hb)
    rwa [present_act h.steady]

end Chronicle

namespace Setup

theorem guarded_begin (u : Setup) (inGroup : Bool) (i : SlotId) : (u.begin inGroup).Guarded i where
  unborn j _ := Slots.ledBy_empty _ j
  leave l hl := by
    cases inGroup <;> cases hl
  request := Slots.ledBy_empty _ i

/-- When the processor completes a request to unsubscribe with success, the consumer has no
subscription and owns nothing, unless the group has just failed a member on its way out. -/
theorem unsubscribed_of_completes (u : Setup) (inGroup : Bool) (as : List Action) (i : SlotId)
    (hd : (u.begin inGroup).discreet as = true) (hr : ∀ a ∈ as, a.reserves i = true) :
    ∀ y ∈ (u.record inGroup as).past,
      y.completes i = true → y.after.Unsubscribed ∨ y.FailsLeaving := by
  have hstart : Chronicle.Answering { present := u.begin inGroup } i :=
    ⟨u.steady inGroup, u.guarded_begin inGroup i, fun y hy => absurd hy List.not_mem_nil⟩
  exact (hstart.run hd hr).past

/-- A consumer is given a partition, and unsubscribes. -/
def departingSteps : List Action :=
  [.outside .fresh, .process (.subscribeTopics (ticketAt 0) (.ofList ["t"])),
    .outside .fresh, .process (.poll 0 1),
    .outside (.script
      { outcomes := [.success "m" 1 (some (.ofList [{ topic := "t", number := 0 }]))] }),
    .progress 0, .outside .fresh, .process (.unsubscribe (ticketAt 3))]

/-- The heartbeat manager has something to tell. -/
def hears (o : HeartbeatOutcome) : List Action :=
  [.outside (.script { outcomes := [o] }), .progress 0]

/-- A member that is fenced before its listener has run is unsubscribed by the time its request is
answered. -/
theorem unsubscribed_when_fenced :
    let k := heartbeatSetup.record true (departingSteps ++ hears .fenced)
    ∃ y ∈ k.past, y.completes 3 = true ∧ y.after.Unsubscribed := by
  intro k
  have hd : (heartbeatSetup.begin true).discreet (departingSteps ++ hears .fenced) = true := by
    decide +kernel
  have hr : ∀ a ∈ departingSteps ++ hears .fenced, a.reserves 3 = true := by decide +kernel
  have hp : k.past[3]?.map (fun y =>
      (y.completes 3, y.before.subscription.form, y.after.subscription.form)) =
        some (true, .autoTopics, .none) := by decide +kernel
  obtain ⟨y, hk, hy⟩ := Option.map_eq_some_iff.1 hp
  have hc : y.completes 3 = true := congrArg Prod.fst hy
  have hbefore : y.before.subscription.form = .autoTopics := congrArg (·.2.1) hy
  have hafter : y.after.subscription.form = .none := congrArg (·.2.2) hy
  have hmem : y ∈ k.past := List.mem_of_getElem? hk
  obtain h | h := unsubscribed_of_completes heartbeatSetup true _ 3 hd hr y hmem hc
  · exact ⟨y, hmem, hc, h⟩
  · -- A failure would have kept the form.
    have hform : y.after.subscription.form = y.before.subscription.form := by
      rw [h.subscription, Subscription.form_released]
    rw [hafter, hbefore] at hform
    cases hform

/-- A member that the group fails at that point is still subscribed when its request is answered. -/
theorem subscribed_at_completion :
    let as := departingSteps ++ hears (.fatal (.fatal "gone"))
    (heartbeatSetup.begin true).discreet as = true ∧
      ∃ y ∈ (heartbeatSetup.record true as).past,
        y.completes 3 = true ∧ y.after.subscription.form = .autoTopics := by
  intro as
  have hp : (heartbeatSetup.record true as).past[3]?.map (fun y =>
      (y.completes 3, y.after.subscription.form)) = some (true, .autoTopics) := by decide +kernel
  obtain ⟨y, hk, hy⟩ := Option.map_eq_some_iff.1 hp
  exact ⟨by decide +kernel, y, List.mem_of_getElem? hk, congrArg Prod.fst hy, congrArg Prod.snd hy⟩

end Setup

end GroupConsumer
