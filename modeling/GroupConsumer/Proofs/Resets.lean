import GroupConsumer.Proofs.Positions
import GroupConsumer.Proofs.Run.Proceeds
import GroupConsumer.Proofs.Session.Expects
import GroupConsumer.Proofs.Subscription.Awaits

/-!
# Where the first position after a reset comes from

A partition that has been reset awaits a position under the strategy that the caller has named. Every
lookup that is asked for from then on respects this: one that asks for positions asks for the partition
under that strategy, and one that asks for committed offsets leaves the partition out (`Moment.Asks`).
Lookups that were under way at the reset do not. Their answers name the partition as they did before, and
when they are applied nothing tells them from the others. So the first position comes from a lookup of
the one kind or the other (`origin_of_reset`), and it may be an offset committed earlier
(`reset_undone`).
-/

namespace GroupConsumer

/-- The position that the cause has for the partition, if it applies what a lookup has left. -/
def Cause.answer? (c : Cause) (tp : TopicPartition) : Option Int64 :=
  match c with
  | .deferred (.positions _, v) => (Processor.positionsOf v).get? tp
  | .deferred (.committed _, v) => ((Processor.offsetsOf v).get? tp).map (·.offset)
  | _ => none

theorem Cause.eq_deferred_of_answer? {c : Cause} {tp : TopicPartition} {o : Int64}
    (h : c.answer? tp = some o) : ∃ d v, c = .deferred (d, v) ∧ d.slot?.isSome = true := by
  unfold answer? at h
  split at h
  · exact ⟨_, _, rfl, rfl⟩
  · exact ⟨_, _, rfl, rfl⟩
  · cases h

/-- The lookups whose answers somebody outside keeps for the loop. -/
def Cause.intrusions : Cause → List Deferral
  | .outside o => o.deferrals
  | _ => []

namespace Moment

/-- The strategy under which the caller gives up the position of a partition, if it does. -/
def resetTo? (y : Moment) (tp : TopicPartition) : Option ResetStrategy :=
  match y.cause with
  | .received (.resetOffset _ _ strategy) => if y.resets tp then some strategy else none
  | _ => none

/-- The moment asks for the lookup, and what it asks for respects a reset of the partition under the
strategy. -/
def Asks (x : Moment) (tp : TopicPartition) (strategy : ResetStrategy) : Deferral → Prop
  | .positions t => .positions t ∈ x.cause.deferrals ∧
      ∃ resets i, x.called = [.resolveResets resets t.deadline i] ∧
        ∀ s, (tp, s) ∈ resets ↔ s = strategy
  | .committed t => .committed t ∈ x.cause.deferrals ∧
      ∃ parts i, x.called = [.fetchCommitted parts t.deadline i] ∧ tp ∉ parts
  | .endOffsets _ => False

/-- A partition that is reset awaits a position. -/
theorem awaits_of_resetTo? {y : Moment} {tp : TopicPartition} {strategy : ResetStrategy}
    (h : y.resetTo? tp = some strategy) :
    (∃ e, y.cause = .received e) ∧ y.after.subscription.Awaits tp strategy := by
  obtain ⟨p, c⟩ := y
  unfold resetTo? at h
  split at h
  · rename_i t parts s hc
    obtain rfl : c = .received (.resetOffset t parts s) := hc
    refine ⟨⟨_, rfl⟩, ?_⟩
    split at h
    · rename_i hr
      obtain rfl := Option.some.inj h
      rw [resets_resetOffset, Bool.and_eq_true, decide_eq_true_iff] at hr
      show (p.completeWith t (p.subscription.requestReset parts s)).subscription.Awaits tp s
      cases hk : p.subscription.requestReset parts s with
      | error f =>
        rw [hk] at hr
        cases hr.2
      | ok q => exact Subscription.awaits_requestReset hk hr.1
    · cases h
  · cases h

end Moment

namespace Processor

variable {p q : Processor} {c : Cause} {t : Ticket} {tp : TopicPartition} {strategy : ResetStrategy}
  {d : Deferral}

/-! ### What ends the waiting -/

/-- A partition that awaits a reset and that the caller leaves alone goes on doing so, unless what a
lookup has left has a position for it. -/
theorem Steady.awaits_undergo (hp : p.Steady) (h : p.subscription.Awaits tp strategy)
    (hs : Moment.Spares ⟨p, c⟩ tp) :
    (c.answer? tp = none → (p.undergo c).subscription.Awaits tp strategy) ∧
      ∀ o, c.answer? tp = some o → (p.undergo c).subscription.position? tp = some o := by
  cases c with
  | deferred update =>
    obtain ⟨d, v⟩ := update
    cases d with
    | positions t => exact Subscription.found_takePositions h (positionsOf v)
    | committed t =>
      have hsub : (p.undergo (.deferred (.committed t, v))).subscription =
          takeCommitted p.subscription (offsetsOf v) :=
        (handles_resetPositions _ t).subscription
      obtain ⟨hnone, hsome⟩ := Subscription.found_takeCommitted h (offsetsOf v)
      rw [hsub]
      refine ⟨fun hn => hnone (Option.map_eq_none_iff.1 hn), fun o ho => ?_⟩
      obtain ⟨found, hfound, rfl⟩ := Option.map_eq_some_iff.1 ho
      exact hsome found hfound
    | endOffsets isolation =>
      exact ⟨fun _ => Subscription.awaits_takeEnds h isolation _, fun o ho => by cases ho⟩
  | _ =>
    have hst := hp.get?_undergo h.mem_assigned hs fun u hu => by cases hu
    exact ⟨fun _ => h.of_get? hst, fun o ho => by cases ho⟩

/-! ### What is asked for -/

theorem Handles.mem_expected {I : List SlotId} {D : List Deferral} (h : Handles I D p q)
    (hd : d ∈ q.session.expected) : d ∈ p.session.expected ∨ d ∈ D := h.proceeds.mem_expected hd

/-- When positions are asked for, a partition that awaits a reset is asked for under its strategy. -/
theorem mem_expected_resetPositions (h : p.subscription.Awaits tp strategy)
    (hd : d ∈ (p.resetPositions t).session.expected) :
    d ∈ p.session.expected ∨ d = .positions t ∧ ∃ resets i,
      p.session.Grows (p.resetPositions t).session [] [.resolveResets resets t.deadline i] ∧
        ∀ s, (tp, s) ∈ resets ↔ s = strategy := by
  obtain ⟨o, he⟩ | ⟨resets, hr, he⟩ := resetPositions_cases p t
  · rw [he] at hd
    obtain hd | hd := (handles_complete p t o).mem_expected hd
    · exact Or.inl hd
    · cases hd
  · rw [he] at hd ⊢
    obtain hd | hd := (handles_askFor p t rfl _ _).mem_expected hd
    · exact Or.inl hd
    · refine Or.inr ⟨List.mem_singleton.1 hd, resets, _, grows_askFor p _ _ _ _, fun s => ?_⟩
      rw [(resetsFor_eq_ok hr).2, List.mem_map]
      constructor
      · rintro ⟨⟨tp', r⟩, hm, hs⟩
        cases hs
        rw [h.mem_needingPosition.1 hm]
        rfl
      · rintro rfl
        exact ⟨_, h.mem_needingPosition.2 rfl, rfl⟩

/-- Partitions start from their committed offsets if they have no position and await no reset. -/
theorem mem_uncommitted : tp ∈ p.uncommitted ↔ p.subscription.Lacks tp none := by
  rw [uncommitted, SortedSet.mem_ofList, List.mem_map, ← Subscription.mem_needingPosition]
  constructor
  · rintro ⟨⟨tp', r⟩, he, rfl⟩
    obtain ⟨he, hnone⟩ := List.mem_filter.1 he
    obtain rfl : r = none := Option.isNone_iff_eq_none.1 hnone
    exact he
  · exact fun h => ⟨_, List.mem_filter.2 ⟨h, rfl⟩, rfl⟩

/-- A partition that awaits a reset does not start from a committed offset. -/
theorem not_mem_uncommitted (h : p.subscription.Awaits tp strategy) : tp ∉ p.uncommitted := by
  rw [mem_uncommitted, ← Subscription.mem_needingPosition, h.mem_needingPosition]
  exact fun he => by cases he

/-- When positions are checked, a partition that awaits a reset is looked up under its strategy or not
at all. -/
theorem asks_checkPositions (h : p.subscription.Awaits tp strategy)
    (hd : d ∈ (p.checkPositions t).session.expected) :
    d ∈ p.session.expected ∨
      Moment.Asks ⟨p, .received (.checkPositions t)⟩ tp strategy d := by
  have hcalled {cs : List Call} (hg : p.session.Grows (p.checkPositions t).session [] cs) :
      Moment.called ⟨p, .received (.checkPositions t)⟩ = cs := Moment.called_eq hg
  obtain ⟨o, he⟩ | he | he := checkPositions_cases p t
  · rw [he] at hd
    obtain hd | hd := (handles_complete p t o).mem_expected hd
    · exact Or.inl hd
    · cases hd
  · rw [he] at hd hcalled
    obtain hd | hd := (handles_askFor p t rfl _ _).mem_expected hd
    · exact Or.inl hd
    · obtain rfl := List.mem_singleton.1 hd
      exact Or.inr ⟨List.mem_cons_self, _, _, hcalled (grows_askFor p _ _ _ _),
        not_mem_uncommitted h⟩
  · rw [he] at hd hcalled
    obtain hd | ⟨rfl, resets, i, hg, hr⟩ := mem_expected_resetPositions h hd
    · exact Or.inl hd
    · exact Or.inr ⟨List.mem_cons_of_mem _ List.mem_cons_self, resets, i, hcalled hg, hr⟩

/-- A lookup that is under way while a partition awaits a reset was so before, or has been asked for in
a way that respects the reset. -/
theorem Steady.asks_of_expected (hp : p.Steady)
    (h : (p.undergo c).subscription.Awaits tp strategy) (hc : c.intrusions = [])
    (hslot : d.slot?.isSome = true) (hd : d ∈ (p.undergo c).session.expected) :
    d ∈ p.session.expected ∨ Moment.Asks ⟨p, c⟩ tp strategy d := by
  by_cases hl : c = .lookups
  · subst hl
    exact Or.inl (Session.mem_expected_takeDeferred hd)
  obtain hd' | hd' := (hp.proceeds hl).mem_expected hd
  · exact Or.inl hd'
  cases c with
  | outside o =>
    have hnone : d ∈ Cause.intrusions (.outside o) := hd'
    rw [hc] at hnone
    cases hnone
  | received e =>
    cases e with
    | checkPositions t =>
      have hsub : (p.checkPositions t).subscription = p.subscription :=
        (handles_checkPositions p t).subscription
      refine asks_checkPositions ?_ hd
      rw [← hsub]
      exact h
    | currentLag t tp' isolation =>
      obtain rfl := List.mem_singleton.1 hd'
      cases hslot
    | _ => cases hd'
  | deferred update =>
    obtain ⟨k, v⟩ := update
    cases k with
    | committed t =>
      let q := p.withSubscription (takeCommitted · (offsetsOf v))
      have hsub : (q.resetPositions t).subscription = q.subscription :=
        (handles_resetPositions q t).subscription
      have hq : q.subscription.Awaits tp strategy := by
        rw [← hsub]
        exact h
      obtain hd | ⟨rfl, resets, i, hg, hr⟩ := mem_expected_resetPositions hq hd
      · exact Or.inl hd
      · have hsub := (Session.becomes_subscription p.session q.subscription).grows
        exact Or.inr ⟨hd', resets, i, Moment.called_eq (hsub.trans hg), hr⟩
    | positions | endOffsets => cases hd'
  | _ => cases hd'

end Processor

/-! ### Runs -/

/-- The value was among those that background progress has taken, and it goes on doing so. -/
def TakenFrom (u : Deferral × Value) : List Moment → Prop :=
  Since (fun x => ∀ e, x.cause ≠ .received e)
    fun x _ => x.cause = .lookups ∧ u ∈ x.before.session.deferred

/-- Whatever was applied had been taken in the same round. -/
def AllTaken : List Moment → Prop :=
  Throughout fun z earlier => ∀ u, z.cause = .deferred u → TakenFrom u earlier

namespace Chronicle

variable {p : Processor} {k : Chronicle} {tp : TopicPartition} {strategy : ResetStrategy}

theorem allTaken_follow {cs : List Cause} (h : AllTaken k.past)
    (hcs : ∀ c ∈ cs, (∀ e, c ≠ .received e) ∧ ∀ u, c = .deferred u → TakenFrom u k.past) :
    AllTaken (k.follow cs).past := by
  induction cs generalizing k with
  | nil => exact h
  | cons c cs ih =>
    obtain ⟨hc, hu⟩ := hcs c List.mem_cons_self
    refine ih (Throughout.cons h hu) fun d hd => ?_
    obtain ⟨hd, hv⟩ := hcs d (List.mem_cons_of_mem _ hd)
    exact ⟨hd, fun v he => Or.inr ⟨hc, hv v he⟩⟩

theorem allTaken_act (h : AllTaken k.past) (a : Action) : AllTaken (k.act a).past := by
  by_cases ha : ∃ now, a = .progress now
  · obtain ⟨now, rfl⟩ := ha
    obtain ⟨cs, he, -⟩ := Processor.progressCauses_eq_cons k.present now
    have hact : k.act (.progress now) = k.follow (k.present.progressCauses now) := rfl
    rw [hact, he, follow_cons]
    refine allTaken_follow (Throughout.cons h fun u hu => by cases hu) fun c hc => ?_
    have hm : c ∈ k.present.progressCauses now := he ▸ List.mem_cons_of_mem _ hc
    refine ⟨fun e hce => ?_, fun u hcu => ?_⟩
    · subst hce
      simpa using Processor.mem_progressCauses hm
    · subst hcu
      exact Or.inl ⟨rfl, Processor.mem_deferred_of_mem_progressCauses hm⟩
  · refine Throughout.follow h fun c hc q past u hu => ?_
    obtain rfl : c = .deferred u := hu
    cases Processor.isProgress_of_mem_causes (fun now he => ha ⟨now, he⟩) hc

theorem allTaken_run (h : AllTaken k.past) (as : List Action) : AllTaken (k.run as).past :=
  run_induction (I := fun k => AllTaken k.past) (fun _ a h => allTaken_act h a) h as

/-- A partition that awaits a reset and that the caller leaves alone has got a position, or it has been
waiting all the time. -/
theorem Lived.awaits (h : Lived p k) (hp : p.Steady) {between earlier : List Moment} {y : Moment}
    (hk : k.past = between ++ y :: earlier) (hy : y.after.subscription.Awaits tp strategy)
    (hl : ∀ x ∈ between, x.Spares tp) :
    (k.present.subscription.Awaits tp strategy ∧
        ∀ x ∈ between, x.after.subscription.Awaits tp strategy) ∨
      tp ∈ k.present.subscription.assigned ∧ ∃ o, k.present.subscription.position? tp = some o := by
  induction h generalizing between with
  | start => cases between <;> cases hk
  | @undergo k h c ih =>
    cases between with
    | nil =>
      cases hk
      exact Or.inl ⟨hy, fun x hx => by cases hx⟩
    | cons x between =>
      injection hk with hx hk
      subst hx
      have hs := hl _ List.mem_cons_self
      obtain ⟨hw, hb⟩ | ⟨ha, o, ho⟩ := ih hk fun x hx => hl x (List.mem_cons_of_mem _ hx)
      · obtain ⟨hnone, hsome⟩ := (h.steady hp).awaits_undergo hw hs
        cases hc : c.answer? tp with
        | none =>
          refine Or.inl ⟨hnone hc, fun x hx => ?_⟩
          obtain rfl | hx := List.mem_cons.1 hx
          · exact hnone hc
          · exact hb x hx
        | some o => exact Or.inr ⟨hs.1, o, hsome o hc⟩
      · exact Or.inr ⟨hs.1, _, (h.steady hp).position?_undergo ha hs ho⟩

/-- A lookup that is under way after a reset was so at the reset, or it has been asked for since, in a
way that respects the reset. -/
theorem Lived.asks (h : Lived p k) (hp : p.Steady) {between earlier : List Moment} {y : Moment}
    (hk : k.past = between ++ y :: earlier)
    (hb : ∀ x ∈ between, x.after.subscription.Awaits tp strategy ∧ x.cause.intrusions = [])
    {d : Deferral} (hslot : d.slot?.isSome = true) (hd : d ∈ k.present.session.expected) :
    d ∈ y.after.session.expected ∨ ∃ x ∈ between, x.Asks tp strategy d := by
  induction h generalizing between with
  | start => cases between <;> cases hk
  | @undergo k h c ih =>
    cases between with
    | nil =>
      cases hk
      exact Or.inl hd
    | cons x between =>
      injection hk with hx hk
      subst hx
      obtain ⟨hw, hc⟩ := hb _ List.mem_cons_self
      obtain hd | hasks := (h.steady hp).asks_of_expected hw hc hslot hd
      · obtain hd | ⟨x, hx, hasks⟩ := ih hk (fun x hx => hb x (List.mem_cons_of_mem _ hx)) hd
        · exact Or.inl hd
        · exact Or.inr ⟨x, List.mem_cons_of_mem _ hx, hasks⟩
      · exact Or.inr ⟨_, List.mem_cons_self, hasks⟩

end Chronicle

namespace Setup

/-- The first position after a reset comes from a lookup that was under way at the reset, or from one
that was asked for since and respects the reset. As far as the slots go, somebody outside might keep
answers for the loop; here nobody does. -/
theorem origin_of_reset (u : Setup) (inGroup : Bool) (as : List Action)
    {later between earlier : List Moment} {y z : Moment} {tp : TopicPartition}
    {strategy : ResetStrategy} {o : Int64}
    (hk : (u.record inGroup as).past = later ++ z :: (between ++ y :: earlier))
    (hy : y.resetTo? tp = some strategy) (hl : ∀ x ∈ z :: between, x.Spares tp)
    (hb : ∀ x ∈ between, x.cause.intrusions = [])
    (hnone : z.before.subscription.position? tp = none)
    (ho : z.after.subscription.position? tp = some o) :
    ∃ d v, z.cause = .deferred (d, v) ∧ z.cause.answer? tp = some o ∧
      (d ∈ y.after.session.expected ∨ ∃ x ∈ between, x.Asks tp strategy d) := by
  have hsteady := u.steady inGroup
  have hlived := (u.lived_record inGroup as).at_moment hk
  obtain ⟨⟨e, hye⟩, hy⟩ := Moment.awaits_of_resetTo? hy
  -- The partition has been waiting until `z`, so that `z` answers it.
  obtain ⟨hw, hbetween⟩ | ⟨-, o', ho'⟩ :=
    hlived.awaits hsteady rfl hy fun x hx => hl x (List.mem_cons_of_mem _ hx)
  rotate_left
  · cases hnone.symm.trans ho'
  obtain ⟨hrest, hfound⟩ :=
    (hlived.steady hsteady).awaits_undergo hw (hl z List.mem_cons_self)
  have hanswer : z.cause.answer? tp = some o := by
    cases hc : z.cause.answer? tp with
    | none => cases (hrest hc).position?.symm.trans ho
    | some o' => exact (hfound o' hc).symm.trans ho
  obtain ⟨d, v, hz, hslot⟩ := Cause.eq_deferred_of_answer? hanswer
  refine ⟨d, v, hz, hanswer, ?_⟩
  -- What `z` applies had been taken in the same round, and so after the reset.
  have htaken : TakenFrom (d, v) (between ++ y :: earlier) :=
    Chronicle.allTaken_run (k := { present := u.begin inGroup }) Throughout.nil as later z _ hk _ hz
  obtain ⟨after, l, before, rfl, hlc, hu⟩ := htaken.exists_of_append (fun h => h e hye)
    fun h => by cases hye.symm.trans h.1
  have hsub {x : Moment} (hx : x ∈ before) : x ∈ after ++ l :: before :=
    List.mem_append_right _ (List.mem_cons_of_mem _ hx)
  have hl : Chronicle.Lived (u.begin inGroup) ⟨before ++ y :: earlier, l.before⟩ :=
    hlived.at_moment (List.append_assoc after (l :: before) (y :: earlier))
  obtain hd | ⟨x, hx, hasks⟩ := hl.asks hsteady rfl
    (fun x hx => ⟨hbetween x (hsub hx), hb x (hsub hx)⟩) hslot
    (Session.mem_expected_of_deferred hu)
  · exact Or.inl hd
  · exact Or.inr ⟨x, hsub hx, hasks⟩

/-- The caller resets its partition, and then lets its position be looked up. -/
def resetFirst : List Action :=
  [.outside .fresh, .process (.assign (ticketAt 0) 0 (.ofList [soughtPartition])),
    .outside .fresh,
    .process (.resetOffset (ticketAt 1) (.ofList [soughtPartition]) .earliest),
    .outside .fresh, .process (.checkPositions (ticketAt 2)),
    .outside (.settle 3 (.ok (.positions (.ofList [(soughtPartition, 7)])))), .progress 0]

/-- When nothing was under way at the reset, the position is found under the strategy. -/
theorem origin_of_reset_first :
    ∃ later z between y earlier d,
      ((managedBy .offsets).record false resetFirst).past =
        later ++ z :: (between ++ y :: earlier) ∧
      y.resetTo? soughtPartition = some .earliest ∧
      z.after.subscription.position? soughtPartition = some 7 ∧
      ∃ x ∈ between, x.Asks soughtPartition .earliest d := by
  let past := ((managedBy .offsets).record false resetFirst).past
  have hz : past[3]?.map (fun z => (z.before.subscription.position? soughtPartition,
      z.after.subscription.position? soughtPartition, decide (z.Spares soughtPartition))) =
      some (none, some 7, true) := by decide +kernel
  have hy : (past.drop 4)[4]?.map (fun y => (y.resetTo? soughtPartition,
      y.after.session.expected)) = some (some .earliest, []) := by decide +kernel
  obtain ⟨z, hz, hzs⟩ := Option.map_eq_some_iff.1 hz
  obtain ⟨y, hy, hys⟩ := Option.map_eq_some_iff.1 hy
  simp only [Prod.mk.injEq, decide_eq_true_eq] at hzs hys
  obtain ⟨hnone, ho, hspares⟩ := hzs
  obtain ⟨hreset, hexpected⟩ := hys
  have hl : ∀ x ∈ (past.drop 4).take 4, x.Spares soughtPartition := by decide +kernel
  have hb : ∀ x ∈ (past.drop 4).take 4, x.cause.intrusions = [] := by decide +kernel
  have hk : past = past.take 3 ++ z :: ((past.drop 4).take 4 ++ y :: (past.drop 4).drop 5) := by
    rw [← past_eq_of_getElem? hy]
    exact past_eq_of_getElem? hz
  obtain ⟨d, v, -, -, hd | hasks⟩ := origin_of_reset (managedBy .offsets) false resetFirst hk hreset
    (List.forall_mem_cons.2 ⟨hspares, hl⟩) hb hnone ho
  · rw [hexpected] at hd
    cases hd
  · exact ⟨_, z, _, y, _, d, hk, hreset, ho, hasks⟩

/-- The caller lets the position of its partition be looked up, and resets it before the lookup is
over. -/
def resetLate : List Action :=
  [.outside .fresh, .process (.assign (ticketAt 0) 0 (.ofList [soughtPartition])),
    .outside .fresh, .process (.checkPositions (ticketAt 1)),
    .outside .fresh,
    .process (.resetOffset (ticketAt 3) (.ofList [soughtPartition]) .earliest)]

/-- A committed offset that arrives late undoes the reset: the first position is one that no reset has
found. -/
theorem reset_undone :
    let k := ({ script := { managers := [.commit, .offsets] } } : Setup).record false
      (resetLate ++ lateReply (.offsets (.ofList [(soughtPartition, ⟨7, none, ""⟩)])))
    ∃ later z between y earlier, k.past = later ++ z :: (between ++ y :: earlier) ∧
      y.resetTo? soughtPartition = some .earliest ∧
      (∀ x ∈ z :: between, x.Spares soughtPartition) ∧
      z.before.subscription.position? soughtPartition = none ∧
      z.after.subscription.position? soughtPartition = some 7 ∧
      z.cause.found? soughtPartition = none := by
  intro k
  have hz : k.past[3]?.map (fun z => (z.before.subscription.position? soughtPartition,
      z.after.subscription.position? soughtPartition, z.cause.found? soughtPartition,
      decide (z.Spares soughtPartition))) = some (none, some 7, none, true) := by decide +kernel
  have hy : (k.past.drop 4)[2]?.map (·.resetTo? soughtPartition) = some (some .earliest) := by
    decide +kernel
  obtain ⟨z, hz, hzs⟩ := Option.map_eq_some_iff.1 hz
  obtain ⟨y, hy, hreset⟩ := Option.map_eq_some_iff.1 hy
  simp only [Prod.mk.injEq, decide_eq_true_eq] at hzs
  obtain ⟨hnone, ho, hfound, hspares⟩ := hzs
  have hl : ∀ x ∈ (k.past.drop 4).take 2, x.Spares soughtPartition := by decide +kernel
  refine ⟨k.past.take 3, z, (k.past.drop 4).take 2, y, (k.past.drop 4).drop 3, ?_, hreset,
    List.forall_mem_cons.2 ⟨hspares, hl⟩, hnone, ho, hfound⟩
  rw [← past_eq_of_getElem? hy]
  exact past_eq_of_getElem? hz

end Setup

end GroupConsumer
