import GroupConsumer.Proofs.Run.Chronicle

/-!
# Which heartbeats acknowledge an assignment

Any heartbeat that was sent takes an acknowledging member to the state stable, whether or not it
could carry the assignment. It could if the heartbeat manager had been told of the assignment since
the member began to acknowledge (`ToldSince`), and that is so exactly if the last thing it was told
is that the member is acknowledging (`toldSince_iff_lastSnapshot`). A member that starts to
acknowledge while an event is processed may be taken for stable on a heartbeat that was sent before
(`settled_untold`).
-/

namespace GroupConsumer

namespace Moment

/-- The member is acknowledging before and after. -/
def StaysAcknowledging (y : Moment) : Prop :=
  y.before.state? = some .acknowledging ∧ y.after.state? = some .acknowledging

/-- The heartbeat manager is told that the member acknowledges an assignment. -/
def TellsOf (y : Moment) (owned : PartitionSet) : Prop :=
  y.StaysAcknowledging ∧ ∃ snap, y.told? = some snap ∧ snap.state = .acknowledging ∧
    snap.owned = owned

end Moment

/-- Since the member last began to acknowledge, the heartbeat manager was told that it acknowledges
an assignment. -/
def ToldSince (owned : PartitionSet) (past : List Moment) : Prop :=
  Since Moment.StaysAcknowledging (fun y _ => y.TellsOf owned) past

/-! ### Moves -/

namespace Move

variable {m m' : Membership} {t : Trigger} {f : Option Fault}

/-- A member begins to acknowledge in a step of reconciliation, and owns the same partitions as long
as it does. -/
theorem acknowledging (h : Move m t m' f) (hc : m.member.Coherent)
    (hs : m'.member.state = .acknowledging) :
    (m.member.state = .acknowledging ∧ m'.member.owned = m.member.owned) ∨
      (m.member.state = .reconciling ∧ ∃ commits now, t = .advanced commits now) := by
  cases h with
  | rest | noted => exact Or.inl ⟨hs, rfl⟩
  | identified => exact Or.inl ⟨hs, rfl⟩
  | joined | retargeted | settled | finished | fenced | failed | abandoned | departed | departing
  | vacated => cases hs
  | dropped =>
    obtain h | h := m.member.stateAfterLoss_eq m.session.subscription.isAuto
    · exact absurd (h.symm.trans hs) (by decide)
    · exact absurd (h.symm.trans hs) (by decide)
  | forgot h =>
    obtain h | h := h
    · exact absurd (h.symm.trans hs) (by decide)
    · exact absurd (h.symm.trans hs) (by decide)
  | committing h => exact Or.inr ⟨h.2.1, _, _, rfl⟩
  | revoking h => exact Or.inr ⟨h.reconciling hc, _, _, rfl⟩
  | assigning h | applied h | refused h => exact Or.inr ⟨h.reconciling hc, _, _, rfl⟩
  | completed hg =>
    have h := hc.state_of_stage
    rw [hg] at h
    exact Or.inr ⟨h, _, _, rfl⟩

end Move

/-! ### Causes -/

namespace Chronicle

variable {p : Processor} {k : Chronicle} {x z : Member} {c : Cause}

/-- If the last thing that the heartbeat manager was told is that the member is acknowledging, and
it is, then it has been since. -/
def Timely (k : Chronicle) (x : Member) : Prop :=
  ∀ snap, k.present.session.script.lastSnapshot = some snap → snap.state = .acknowledging →
    x.state = .acknowledging → ToldSince x.owned k.past

/-- If the last thing that the heartbeat manager was told is that the member is acknowledging, it
has got no target since. -/
def Untargeted (k : Chronicle) (x : Member) : Prop :=
  ∀ snap, k.present.session.script.lastSnapshot = some snap → snap.state = .acknowledging →
    x.state ≠ .reconciling

/-- What a cause may have done to a member that is acknowledging afterwards. -/
theorem acknowledging_of_turn {p q : Processor} (h : Turn p x c q) (hx : p.Sound x)
    (hz : q.member = some z) (hs : z.state = .acknowledging) :
    (x.state = .acknowledging ∧ z.owned = x.owned) ∨
      (x.state = .reconciling ∧ ∃ now, c = .advanced now) := by
  obtain ⟨-, hlike⟩ | ⟨t, y, s, f, hc, hlike, hy, hmove, -⟩ :=
    h.still_or_moved hx.coherent hz
  · exact Or.inl ⟨hlike.state.symm.trans hs, hlike.owned⟩
  · obtain ⟨hst, ho⟩ | ⟨hst, commits, now, rfl⟩ := hmove.acknowledging hy hs
    · exact Or.inl ⟨hlike.state.symm.trans hst, ho.trans hlike.owned⟩
    · exact Or.inr ⟨hlike.state.symm.trans hst, now, (Cause.eq_of_trigger? hc).1⟩

/-- As long as the member stays acknowledging, what the heartbeat manager was told still counts. -/
theorem toldSince_undergo (hx : k.present.member = some x)
    (hz : (k.present.undergo c).member = some z) (hsx : x.state = .acknowledging)
    (hsz : z.state = .acknowledging) (ho : z.owned = x.owned) (h : ToldSince x.owned k.past) :
    ToldSince z.owned (k.undergo c).past := by
  rw [ho]
  refine Or.inr ⟨⟨?_, ?_⟩, h⟩
  · rw [Processor.state?_eq hx, hsx]
  · rw [Moment.after, Processor.state?_eq hz, hsz]

/-- A heartbeat leaves the member timely. -/
theorem Timely.heard (h : k.Timely x) (hx : k.present.Sound x) (o : HeartbeatOutcome)
    (hz : (k.undergo (.heard o)).present.Sound z) : (k.undergo (.heard o)).Timely z := by
  intro snap hl hsn hs
  have hturn := hx.turn (.heard o)
  obtain ⟨hsx, ho⟩ | ⟨-, now, hc⟩ := acknowledging_of_turn hturn hx hz.member hs
  · have hl' : k.present.session.script.lastSnapshot = some snap :=
      (hturn.follows.2 (by simp)).symm.trans hl
    exact toldSince_undergo hx.member hz.member hsx hs ho (h snap hl' hsn hsx)
  · cases hc

/-- Any other cause but the telling leaves a timely member timely, as long as it gets no target. -/
theorem Timely.undergo (h : k.Timely x) (hu : k.Untargeted x) (hx : k.present.Sound x)
    (hc : c ≠ .told) (hh : c.heard? = none) (hz : (k.undergo c).present.Sound z) :
    (k.undergo c).Timely z ∧ (k.undergo c).Untargeted z := by
  have hturn := hx.turn c
  have hl {snap : MemberSnapshot}
      (hs : (k.undergo c).present.session.script.lastSnapshot = some snap) :
      k.present.session.script.lastSnapshot = some snap := (hturn.follows.2 hc).symm.trans hs
  constructor
  · intro snap hs hsn hst
    obtain ⟨hsx, ho⟩ | ⟨hsx, -⟩ := acknowledging_of_turn hturn hx hz.member hst
    · exact toldSince_undergo hx.member hz.member hsx hst ho (h snap (hl hs) hsn hsx)
    · exact absurd hsx (hu snap (hl hs) hsn)
  · intro snap hs hsn hst
    have hsx := hu snap (hl hs) hsn
    have hne : z.state ≠ x.state := fun h => hsx (h.symm.trans hst)
    have he := hturn.entered hx.coherent hz.member hne
    rw [hst] at he
    obtain ⟨o, rfl⟩ := he
    cases hh

/-- The telling makes the member timely, whatever came before. -/
theorem timely_told (hx : k.present.Sound x) (hh : k.present.has .heartbeat = true) :
    (k.undergo .told).Timely x ∧ (k.undergo .told).Untargeted x := by
  obtain ⟨ht, hl⟩ := Moment.told?_of_has hx.member hh
  have hz : (k.present.undergo .told).member = some x :=
    (Processor.publishSnapshot_eq k.present).1.trans hx.member
  constructor
  · intro snap hs hsn hst
    refine Or.inl ⟨⟨?_, ?_⟩, _, ht, hst, rfl⟩
    · rw [Processor.state?_eq hx.member, hst]
    · rw [Moment.after, Processor.state?_eq hz, hst]
  · intro snap hs hsn hst
    obtain rfl : _ = snap := Option.some.inj (hl.symm.trans hs)
    exact absurd (hsn.symm.trans hst) (by decide)

/-- Without a heartbeat manager nobody is told. -/
theorem Timely.told_of_not_has (h : k.Timely x) (hu : k.Untargeted x) (hx : k.present.Sound x)
    (hh : k.present.has .heartbeat = false) :
    (k.undergo .told).Timely x ∧ (k.undergo .told).Untargeted x := by
  have hp : k.present.undergo .told = k.present :=
    Processor.publishSnapshot_of_not_has hx.member hh
  have hz : (k.present.undergo .told).member = some x := by
    rw [hp]
    exact hx.member
  have hl {snap : MemberSnapshot}
      (hs : (k.present.undergo .told).session.script.lastSnapshot = some snap) :
      k.present.session.script.lastSnapshot = some snap := by
    rwa [hp] at hs
  constructor
  · intro snap hs hsn hst
    exact toldSince_undergo hx.member hz hst hst rfl (h snap (hl hs) hsn hst)
  · exact fun snap hs hsn => hu snap (hl hs) hsn

/-! ### Runs -/

/-- Whenever the member heard of a heartbeat it was timely. -/
def TimelyWhenHeard (past : List Moment) : Prop :=
  ∀ later y earlier, past = later ++ y :: earlier → y.cause.heard?.isSome = true →
    ∃ x, y.before.Sound x ∧ Timely ⟨earlier, y.before⟩ x

theorem timelyWhenHeard_cons {past : List Moment} {y : Moment} (h : TimelyWhenHeard past)
    (hy : y.cause.heard?.isSome = true → ∃ x, y.before.Sound x ∧ Timely ⟨past, y.before⟩ x) :
    TimelyWhenHeard (y :: past) := Throughout.cons h hy

/-- The member is timely, has got no target since it was last spoken of, and was timely whenever it
heard of a heartbeat. -/
structure Punctual (k : Chronicle) : Prop where
  present : ∃ x, k.present.Sound x ∧ k.Timely x ∧ k.Untargeted x
  past : TimelyWhenHeard k.past

theorem timelyWhenHeard_follow (h : TimelyWhenHeard k.past) {cs : List Cause}
    (hc : ∀ c ∈ cs, c.heard? = none) : TimelyWhenHeard (k.follow cs).past := by
  refine Throughout.follow h fun c hm p past hs => ?_
  rw [hc c hm] at hs
  cases hs

/-- A cause that is no heartbeat leaves all as punctual as it was. -/
theorem Punctual.undergo (h : k.Punctual) (hc : c.heard? = none) : (k.undergo c).Punctual := by
  obtain ⟨x, hx, ht, hu⟩ := h.present
  have hpast : TimelyWhenHeard (k.follow [c]).past :=
    timelyWhenHeard_follow h.past (by simpa using hc)
  refine ⟨?_, hpast⟩
  by_cases htold : c = .told
  · subst htold
    have hs : (k.undergo .told).present.Sound x := hx.undergo_told
    cases hh : k.present.has .heartbeat with
    | true => exact ⟨x, hs, timely_told hx hh⟩
    | false => exact ⟨x, hs, ht.told_of_not_has hu hx hh⟩
  · obtain ⟨z, hz⟩ := hx.undergo c
    exact ⟨z, hz, ht.undergo hu hx htold hc hz⟩

theorem Punctual.follow (h : k.Punctual) {cs : List Cause} (hc : ∀ c ∈ cs, c.heard? = none) :
    (k.follow cs).Punctual := by
  induction cs generalizing k with
  | nil => exact h
  | cons c cs ih =>
    exact ih (h.undergo (hc c List.mem_cons_self)) fun d hd => hc d (List.mem_cons_of_mem _ hd)

/-- A row of heartbeats finds the member timely each time. -/
theorem timelyWhenHeard_heard (hx : k.present.Sound x) (ht : k.Timely x)
    (hp : TimelyWhenHeard k.past) (os : List HeartbeatOutcome) :
    TimelyWhenHeard (k.follow (os.map Cause.heard)).past := by
  induction os generalizing k x with
  | nil => exact hp
  | cons o os ih =>
    obtain ⟨z, hz⟩ := hx.undergo (.heard o)
    exact ih hz (ht.heard hx o hz) (timelyWhenHeard_cons hp fun _ => ⟨x, hx, ht⟩)

theorem heard?_eq_none_of_reconciles {q : Processor} {now : Int64} (h : c ∈ q.reconciles now) :
    c.heard? = none := by
  rw [Processor.eq_advanced_of_mem_advances h]
  rfl

/-- Background progress tells where the member stands after the last heartbeat it hears of. -/
theorem Punctual.progress (h : k.Punctual) (now : Int64) : (k.act (.progress now)).Punctual := by
  obtain ⟨x, hx, -⟩ := h.present
  obtain ⟨updates, os, q, fs, hcs, hos⟩ := hx.progressCauses_eq now
  have hact : k.act (.progress now) = k.follow (k.present.progressCauses now) := rfl
  rw [hact, hcs, follow_append]
  have hfirst : (k.follow (.lookups :: updates.map .deferred ++ [.drained])).Punctual := by
    refine h.follow ?_
    intro c hc
    simp only [List.cons_append, List.mem_cons, List.mem_append, List.mem_map] at hc
    obtain rfl | ⟨u, -, rfl⟩ | rfl | hc := hc
    · rfl
    · rfl
    · rfl
    · cases hc
  have hhas : (k.follow (.lookups :: updates.map .deferred ++ [.drained])).present.has .heartbeat =
      k.present.has .heartbeat := by
    rw [present_follow, hx.has_follow]
  generalize k.follow (.lookups :: updates.map .deferred ++ [.drained]) = k at hfirst hhas
  cases hh : k.present.has .heartbeat with
  | false =>
    rw [hos (hhas.symm.trans hh)]
    refine hfirst.follow ?_
    intro c hc
    simp only [List.map_nil, List.nil_append, List.mem_append, List.mem_cons] at hc
    obtain hc | rfl | rfl | hc := hc
    · exact heard?_eq_none_of_reconciles hc
    · rfl
    · rfl
    · cases hc
  | true =>
    -- The steps of reconciliation may take a member that has heard of a target to acknowledge it
    -- untold; the telling makes up for that.
    obtain ⟨y, hy, ht, -⟩ := hfirst.present
    have hpast : TimelyWhenHeard ((k.follow (os.map .heard)).follow (q.reconciles now)).past :=
      timelyWhenHeard_follow (timelyWhenHeard_heard hy ht hfirst.past os) fun c hc =>
        heard?_eq_none_of_reconciles hc
    rw [← follow_append] at hpast
    obtain ⟨z, hz⟩ := hy.follow (os.map .heard ++ q.reconciles now)
    have hhz : (k.present.follow (os.map .heard ++ q.reconciles now)).has .heartbeat = true := by
      rw [hy.has_follow, hh]
    rw [← present_follow] at hz hhz
    rw [← List.append_assoc, follow_append]
    generalize k.follow (os.map .heard ++ q.reconciles now) = k at hpast hz hhz
    have htold : (k.undergo .told).Punctual :=
      ⟨⟨z, hz.undergo_told, timely_told hz hhz⟩, timelyWhenHeard_cons hpast nofun⟩
    exact htold.undergo rfl

theorem Punctual.act (h : k.Punctual) (a : Action) : (k.act a).Punctual := by
  cases a with
  | progress now => exact h.progress now
  | outside o => exact h.undergo rfl
  | process e =>
    refine h.follow fun c hc => ?_
    cases hs : c.heard? with
    | none => rfl
    | some o =>
      exact absurd (Cause.eq_heard_of_heard? hs) (Processor.ne_heard_of_mem_process hc o)

end Chronicle

namespace Setup

theorem punctual (u : Setup) (as : List Action) : (u.chronicle as).Punctual := by
  refine Chronicle.run_induction (fun _ a h => h.act a) ?_ as
  refine ⟨⟨u.member, u.sound, ?_, ?_⟩, ?_⟩
  · intro snap h
    cases h
  · intro snap h
    cases h
  · intro later y earlier h
    cases later <;> cases h

/-- A member that was spoken of and acknowledges still is the last that was spoken of. -/
theorem lastSnapshot_of_toldSince {u : Setup} {k : Chronicle} (h : k.Lived u.processor)
    {owned : PartitionSet} (ht : ToldSince owned k.past) :
    ∃ snap, k.present.session.script.lastSnapshot = some snap ∧ snap.state = .acknowledging := by
  induction h with
  | start => exact ht.elim
  | @undergo k h c ih =>
    obtain ⟨x, hx⟩ := h.sound u.sound
    obtain ⟨-, snap, hsnap, hst, -⟩ | ⟨⟨hb, -⟩, ht⟩ := ht
    · exact ⟨snap, Moment.lastSnapshot_of_told? hsnap, hst⟩
    · obtain ⟨snap, hl, hst⟩ := ih ht
      by_cases hc : c = .told
      · subst hc
        cases hh : k.present.has .heartbeat with
        | true =>
          refine ⟨_, (Moment.told?_of_has hx.member hh).2, ?_⟩
          exact Option.some.inj ((Processor.state?_eq hx.member).symm.trans hb)
        | false =>
          refine ⟨snap, ?_, hst⟩
          show (k.present.publishSnapshot).session.script.lastSnapshot = _
          rw [Processor.publishSnapshot_of_not_has hx.member hh, hl]
      · exact ⟨snap, ((hx.turn c).follows.2 hc).trans hl, hst⟩

/-- A heartbeat that was sent makes an acknowledging member stable. The heartbeat manager has been
told of the assignment since the member began to acknowledge it exactly if the last it was told is
that the member acknowledges. -/
theorem toldSince_iff_lastSnapshot (u : Setup) (as : List Action) {later earlier : List Moment}
    {y : Moment} {epoch : Int} {x : Member} (hk : (u.chronicle as).past = later ++ y :: earlier)
    (hc : y.cause = .heard (.requestSent epoch)) (hx : y.before.member = some x)
    (hs : x.state = .acknowledging) :
    y.after.state? = some .stable ∧
      (ToldSince x.owned earlier ↔
        ∃ snap, y.before.session.script.lastSnapshot = some snap ∧
          snap.state = .acknowledging) := by
  have hlived := (u.lived as).at_moment hk
  refine ⟨?_, lastSnapshot_of_toldSince hlived, ?_⟩
  · have hn : Membership.onHeartbeat ⟨x, y.before.session⟩ (.requestSent epoch) =
        Membership.enter ⟨x, y.before.session⟩ .stable := by
      show Membership.onRequestSent _ epoch = _
      rw [Membership.onRequestSent, hs]
    rw [Moment.after, hc, Processor.undergo, Processor.onMember_eq hx, hn,
      Membership.enter_eq hs rfl]
    rfl
  · rintro ⟨snap, hl, hst⟩
    obtain ⟨z, hz, ht⟩ := (u.punctual as).past later y earlier hk (by rw [hc]; rfl)
    obtain rfl : x = z := Option.some.inj (hx.symm.trans hz.member)
    exact ht snap hl hst hs

/-- The steps after which a member acknowledges its first partition. -/
def acknowledgingSteps : List Action := firstSteps ++ [listenerRun .partitionsAssigned 2]

/-- A heartbeat was sent, and the loop hears of it. -/
def heartbeatSent : List Action := [.outside (.script { outcomes := [.requestSent 1] }), .progress 0]

/-- What the member hears of at a moment, its state before and after, and the state in which it was
last spoken of. -/
def summary (y : Moment) :
    Option HeartbeatOutcome × Option MemberState × Option MemberState × Option MemberState :=
  (y.cause.heard?, y.before.state?, y.after.state?,
    y.before.session.script.lastSnapshot.map (·.state))

theorem exists_of_summary {past : List Moment} {n : Nat} {o : HeartbeatOutcome}
    {s s' r : MemberState} (h : past[n]?.map summary = some (some o, some s, some s', some r)) :
    ∃ y x snap, past = past.take n ++ y :: past.drop (n + 1) ∧ y.cause = .heard o ∧
      y.before.member = some x ∧ x.state = s ∧ y.after.state? = some s' ∧
      y.before.session.script.lastSnapshot = some snap ∧ snap.state = r := by
  obtain ⟨y, hy, hs⟩ := Option.map_eq_some_iff.1 h
  obtain ⟨hn, rfl⟩ := List.getElem?_eq_some_iff.1 hy
  simp only [summary, Prod.mk.injEq] at hs
  obtain ⟨hc, hb, ha, hl⟩ := hs
  obtain ⟨x, hx, hxs⟩ := Option.map_eq_some_iff.1 hb
  obtain ⟨snap, hsnap, hr⟩ := Option.map_eq_some_iff.1 hl
  refine ⟨past[n], x, snap, ?_, Cause.eq_heard_of_heard? hc, hx, hxs, ha, hsnap, hr⟩
  rw [← List.drop_eq_getElem_cons hn, List.take_append_drop]

/-- If the loop makes a round in between, the heartbeat manager is told in time. -/
theorem toldSince_of_progress :
    ∃ later y earlier x,
      (firstSetup.chronicle (acknowledgingSteps ++ [.progress 0] ++ heartbeatSent)).past =
        later ++ y :: earlier ∧
      y.cause = .heard (.requestSent 1) ∧ y.before.member = some x ∧ x.state = .acknowledging ∧
      y.after.state? = some .stable ∧ ToldSince x.owned earlier := by
  have h : (firstSetup.chronicle
      (acknowledgingSteps ++ [.progress 0] ++ heartbeatSent)).past[3]?.map summary =
      some (some (.requestSent 1), some .acknowledging, some .stable, some .acknowledging) := by
    decide +kernel
  obtain ⟨y, x, snap, hk, hc, hx, hs, -, hl, hr⟩ := exists_of_summary h
  obtain ⟨ha, ht⟩ := toldSince_iff_lastSnapshot firstSetup _ hk hc hx hs
  exact ⟨_, y, _, x, hk, hc, hx, hs, ha, ht.2 ⟨snap, hl, hr⟩⟩

/-- Without a round in between the member is taken for stable, although the heartbeat manager has
not been told that it acknowledges anything. -/
theorem settled_untold :
    ∃ later y earlier x,
      (firstSetup.chronicle (acknowledgingSteps ++ heartbeatSent)).past =
        later ++ y :: earlier ∧
      y.cause = .heard (.requestSent 1) ∧ y.before.member = some x ∧ x.state = .acknowledging ∧
      y.after.state? = some .stable ∧ ¬ ToldSince x.owned earlier := by
  have h : (firstSetup.chronicle
      (acknowledgingSteps ++ heartbeatSent)).past[3]?.map summary =
      some (some (.requestSent 1), some .acknowledging, some .stable, some .reconciling) := by
    decide +kernel
  obtain ⟨y, x, snap, hk, hc, hx, hs, ha, hl, hr⟩ := exists_of_summary h
  refine ⟨_, y, _, x, hk, hc, hx, hs, ha, fun ht => ?_⟩
  obtain ⟨snap', hl', hr'⟩ := lastSnapshot_of_toldSince ((firstSetup.lived _).at_moment hk) ht
  obtain rfl : snap = snap' := Option.some.inj (hl.symm.trans hl')
  exact absurd (hr.symm.trans hr') (by decide)

end Setup

end GroupConsumer
