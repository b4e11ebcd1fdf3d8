import GroupConsumer.Proofs.Run.Turn

/-!
# What holds all through a run

`Sound p x`: the processor `p` has the member `x`, which is coherent and agrees with the
subscription. Every cause keeps a processor sound, and so does every row of them. From a sound
processor the causes of an action lead just where the action leads (`follow_causes`).
-/

namespace GroupConsumer

namespace Membership.Agrees

variable {m m' : Membership}

theorem alike (h : m.Agrees) (hs : m.session.subscription.Alike m'.session.subscription)
    (ho : m'.member.owned = m.member.owned) : m'.Agrees where
  auto hauto := by
    rw [hs.assigned, ho]
    exact h.auto (hs.isAuto.symm.trans hauto)
  other hauto := by
    rw [ho]
    exact h.other (hs.isAuto.symm.trans hauto)
  none hform := by
    rw [hs.assigned]
    exact h.none (hs.form.symm.trans hform)

/-- Without a form nothing is assigned, so that a first subscription starts with nothing. -/
theorem joins (h : m.Agrees) (hs : m.session.subscription.Joins m'.session.subscription)
    (ho : m'.member.owned = m.member.owned) : m'.Agrees where
  auto _ := by
    rw [hs.assigned, ho]
    obtain hform | hform := hs.form
    · rw [h.none hform]
      exact (h.other (by rw [Subscription.isAuto, hform]; rfl)).symm
    · exact h.auto (by rw [Subscription.isAuto, hform]; exact hs.auto)
  other hauto := absurd (hs.auto.symm.trans hauto) (by decide)
  none hform := by
    have hauto := hs.auto
    rw [Subscription.isAuto, hform] at hauto
    cases hauto

theorem picked (h : m.Agrees) {parts : PartitionSet}
    (hf : m.session.subscription.form = .none ∨ m.session.subscription.form = .userAssigned)
    (hs : m'.session.subscription =
      ({ m.session.subscription with form := .userAssigned } : Subscription).reassign parts)
    (ho : m'.member.owned = m.member.owned) : m'.Agrees where
  auto hauto := by
    rw [hs] at hauto
    cases hauto
  other _ := by
    rw [ho]
    refine h.other ?_
    obtain hf | hf := hf <;> rw [Subscription.isAuto, hf] <;> rfl
  none hform := by
    rw [hs] at hform
    cases hform

end Membership.Agrees

namespace Processor

/-- The state of the member, if there is one. -/
def state? (p : Processor) : Option MemberState := p.member.map (·.state)

theorem state?_eq {p : Processor} {x : Member} (h : p.member = some x) :
    p.state? = some x.state := by
  rw [state?, h]
  rfl

/-- The member of the processor is coherent and agrees with the subscription. -/
structure Sound (p : Processor) (x : Member) : Prop where
  member : p.member = some x
  coherent : x.Coherent
  agrees : Membership.Agrees ⟨x, p.session⟩

end Processor

/-- What a run starts with. The collaborators may be any. -/
structure Setup where
  script : Script := {}
  clock : Int64 := 0
  reset : ResetStrategy := .latest
  groupId : String := ""
  callbackTimeout : Int64 := 0

namespace Setup

/-- A member that has done nothing yet. -/
def member (u : Setup) : Member := { groupId := u.groupId, callbackTimeout := u.callbackTimeout }

/-- A processor with a new subscription and a new member. The heartbeat manager has not been told
anything yet. -/
def processor (u : Setup) : Processor :=
  { session :=
      { clock := u.clock
        script := { u.script with lastSnapshot := none }
        subscription := { defaultReset := u.reset } }
    member := some u.member }

theorem sound (u : Setup) : u.processor.Sound u.member where
  member := rfl
  coherent := Member.coherent_new u.groupId u.callbackTimeout
  agrees := ⟨(by intro h; cases h), fun _ => rfl, fun _ => rfl⟩

end Setup

section

variable {p q : Processor} {x : Member}

/-- A turn leads from a sound processor to a sound one. -/
theorem Turn.sound {c : Cause} (h : Turn p x c q) (hp : p.Sound x) :
    ∃ y, q.Sound y := by
  cases h with
  | still _ hx hs => exact ⟨x, hx, hp.coherent, hp.agrees.alike hs rfl⟩
  | noticed _ hx hs =>
    refine ⟨_, hx, hp.coherent, ?_⟩
    obtain hs | hs := hs
    · exact hp.agrees.alike hs rfl
    · exact hp.agrees.joins hs rfl
  | picked _ hx hf hs => exact ⟨x, hx, hp.coherent, hp.agrees.picked hf hs rfl⟩
  | @moved t y m f _ hy h hx hs =>
    have hco : y.Coherent := hp.coherent.of_closing hy
    have hag : Membership.Agrees ⟨y, p.session⟩ := by
      obtain rfl | rfl := hy
      · exact hp.agrees
      · exact hp.agrees.congr rfl rfl
    exact ⟨m.member, hx, h.coherent hco, (h.agrees hag).congr hs.subscription rfl⟩

end

namespace Processor

variable {p : Processor} {x : Member}

/-- What the member owns is assigned, and the group serves the subscription. -/
theorem Sound.of_mem_owned {tp : TopicPartition} (h : p.Sound x) (ho : tp ∈ x.owned) :
    p.subscription.isAuto = true ∧ tp ∈ p.subscription.assigned := by
  cases hauto : p.subscription.isAuto with
  | false =>
    rw [h.agrees.other hauto] at ho
    exact absurd ho (SortedSet.not_mem_empty tp)
  | true =>
    have ha : p.subscription.assigned = x.owned := h.agrees.auto hauto
    exact ⟨rfl, by rwa [ha]⟩

theorem Sound.turn (h : p.Sound x) (c : Cause) : Turn p x c (p.undergo c) :=
  Processor.turn h.member h.coherent c

theorem Sound.undergo (h : p.Sound x) (c : Cause) : ∃ y, (p.undergo c).Sound y :=
  (h.turn c).sound h

theorem Sound.undergo_told (h : p.Sound x) : (p.undergo .told).Sound x := by
  obtain ⟨y, hy⟩ := h.undergo .told
  have hm : (p.undergo .told).member = some x := (publishSnapshot_eq p).1.trans h.member
  obtain rfl : x = y := Option.some.inj (hm.symm.trans hy.member)
  exact hy

theorem Sound.follow (h : p.Sound x) (cs : List Cause) : ∃ y, (p.follow cs).Sound y := by
  induction cs generalizing p x with
  | nil => exact ⟨x, h⟩
  | cons c cs ih =>
    obtain ⟨y, hy⟩ := h.undergo c
    exact ih hy

theorem Sound.has_undergo (h : p.Sound x) (c : Cause) (m : Manager) :
    (p.undergo c).has m = p.has m := by
  rw [has, has, Script.has, Script.has, (h.turn c).follows.1.managers]

theorem Sound.has_follow (h : p.Sound x) (cs : List Cause) (m : Manager) :
    (p.follow cs).has m = p.has m := by
  induction cs generalizing p x with
  | nil => rfl
  | cons c cs ih =>
    obtain ⟨y, hy⟩ := h.undergo c
    exact (ih hy).trans (h.has_undergo c m)

/-! ### The causes of an action -/

theorem follow_deferred (p : Processor) (updates : List (Deferral × Value)) :
    p.follow (updates.map Cause.deferred) = updates.foldl applyDeferred p := by
  rw [follow, List.foldl_map]
  rfl

theorem follow_heard (p : Processor) (os : List HeartbeatOutcome) :
    p.follow (os.map Cause.heard) = (p.applyHeartbeats os).1 := by
  induction os generalizing p with
  | nil => rfl
  | cons o os ih => exact ih _

theorem advances_succ (hm : p.member = some x) (now : Int64) (n : Nat) :
    advances now (n + 1) p =
      match Membership.advance ⟨x, p.session⟩ (p.has .commit) now with
      | .ok (m, true) => .advanced now :: advances now n (p.withMembership m)
      | _ => [.advanced now] := by
  have hp := membership?_eq hm
  cases ha : Membership.advance ⟨x, p.session⟩ (p.has .commit) now with
  | error e => simp only [advances, hp, ha]
  | ok r =>
    obtain ⟨m, more⟩ := r
    cases more <;> simp only [advances, hp, ha]

/-- The steps of reconciliation lead where reconciliation leads. -/
theorem Sound.follow_advances (h : p.Sound x) (now : Int64) (n : Nat) :
    p.follow (advances now n p) =
      p.withMembership
        (Membership.advanceWithin (p.has .commit) now n ⟨x, p.session⟩).membership := by
  induction n generalizing p x with
  | zero =>
    show p = { p with session := p.session, member := some x }
    rw [← h.member]
  | succ n ih =>
    have hu : p.undergo (.advanced now) = p.withMembership
        (Membership.advanceOnce ⟨x, p.session⟩ (p.has .commit) now).membership := by
      rw [Processor.undergo, onMember_eq h.member]
    rw [Membership.advanceOnce] at hu
    rw [advances_succ h.member, Membership.advanceWithin]
    cases hadv : Membership.advance ⟨x, p.session⟩ (p.has .commit) now with
    | error e =>
      rw [hadv] at hu
      exact hu
    | ok r =>
      rw [hadv] at hu
      obtain ⟨m, more⟩ := r
      cases more with
      | false => exact hu
      | true =>
        -- The next step is taken by the same managers, so that the induction hypothesis applies.
        have hu' : p.undergo (.advanced now) = p.withMembership m := hu
        have hc := h.has_undergo (.advanced now) .commit
        obtain ⟨y, hy⟩ := h.undergo (.advanced now)
        rw [hu'] at hy hc
        obtain rfl : m.member = y := Option.some.inj hy.member
        have hn := ih hy
        rw [hc] at hn
        show (p.undergo (.advanced now)).follow _ = _
        rw [hu']
        exact hn

theorem Sound.follow_reconciles (h : p.Sound x) (now : Int64) :
    p.follow (p.reconciles now) = (p.reconcile now).1 := by
  rw [reconcile, onMember_eq h.member]
  exact h.follow_advances now 4

theorem Sound.follow_pollCauses (h : p.Sound x) (time : Int64) (gate : SlotId) :
    p.follow (p.pollCauses time gate) = p.poll time gate := by
  let q : Processor := (p.follow [.received (.poll time gate), .polled])
  obtain ⟨y, hy⟩ := h.follow [.received (.poll time gate), .polled]
  have hq : ((p.receive (.poll time gate)).onMember (·.onPoll)).1 = q := rfl
  rw [pollCauses]
  simp only [hq, follow_append]
  rw [hy.follow_reconciles]
  rfl

theorem Sound.follow_callbackCauses (h : p.Sound x) (method : ListenerMethod) (slot : SlotId)
    (fault : Option Fault) :
    p.follow (p.callbackCauses (.callbackDone method slot fault)) = p.callbackDone slot fault := by
  let e : AppEvent := .callbackDone method slot fault
  let q := p.withMembership (Membership.onCallbackDone ⟨x, p.session⟩ slot fault)
  have hr : p.receive e = q := receive_callbackDone (membership?_eq h.member) method slot fault
  obtain ⟨y, hy⟩ : ∃ y, (p.receive e).Sound y := h.undergo (.received e)
  have hp : p.callbackDone slot fault =
      (q.reconcile q.session.clock).1.report (q.reconcile q.session.clock).2 := by
    rw [callbackDone, membership?_eq h.member]
  have hc : p.callbackCauses e = .received e :: (q.reconciles q.session.clock ++
      [.reported (q.reconcile q.session.clock).2]) := by
    rw [callbackCauses, if_neg (by simp [h.member]), hr]
  rw [hc, hp]
  show (p.receive e).follow _ = _
  rw [hr] at hy ⊢
  rw [follow_append, hy.follow_reconciles]
  rfl

theorem Sound.follow_progressCauses (h : p.Sound x) (now : Int64) :
    p.follow (p.progressCauses now) = p.progress now := by
  let updates := p.session.deferred.map Cause.deferred
  let q := p.follow (.lookups :: updates)
  let os := q.drainOutcomes.2
  let k := q.drainOutcomes.1.applyHeartbeats os
  have hq : q = p.session.deferred.foldl applyDeferred
      { p with session := p.session.takeDeferred.1 } := follow_deferred _ _
  have hk : p.follow (.lookups :: (updates ++ .drained :: os.map Cause.heard)) = k.1 := by
    show (p.undergo .lookups).follow (updates ++ .drained :: os.map Cause.heard) = _
    rw [follow_append]
    exact follow_heard q.drainOutcomes.1 os
  obtain ⟨y, hy⟩ := h.follow (.lookups :: (updates ++ .drained :: os.map Cause.heard))
  rw [hk] at hy
  have hp : p.progress now =
      (k.1.reconcile now).1.publishSnapshot.report (k.2 ++ (k.1.reconcile now).2) := by
    show _ = ((q.drainOutcomes.1.applyHeartbeats q.drainOutcomes.2).1.reconcile
      now).1.publishSnapshot.report
        ((q.drainOutcomes.1.applyHeartbeats q.drainOutcomes.2).2 ++ 
          ((q.drainOutcomes.1.applyHeartbeats q.drainOutcomes.2).1.reconcile now).2)
    rw [hq]
    rfl
  have hc : p.progressCauses now = (.lookups :: (updates ++ .drained :: os.map Cause.heard)) ++
      (k.1.reconciles now ++ [.told, .reported (k.2 ++ (k.1.reconcile now).2)]) := by
    show Cause.lookups :: (updates ++ .drained :: (os.map Cause.heard ++ (k.1.reconciles now ++
      [.told, .reported (k.2 ++ (k.1.reconcile now).2)]))) = _
    rw [List.cons_append, List.append_assoc, List.cons_append]
  rw [hc, follow_append, hk, follow_append, hy.follow_reconciles, hp]
  rfl

/-- The causes of an action lead where the action leads. -/
theorem Sound.follow_causes (h : p.Sound x) (a : Action) : p.follow (p.causes a) = p.act a := by
  cases a with
  | outside o => rfl
  | progress now => exact h.follow_progressCauses now
  | process e =>
    cases e with
    | poll time gate => exact h.follow_pollCauses time gate
    | callbackDone method slot fault => exact h.follow_callbackCauses method slot fault
    | _ => rfl

/-- Background progress takes what lookups have left, lets the member hear of heartbeats if there is
a manager for them, reconciles, and tells where the member stands. -/
theorem Sound.progressCauses_eq (h : p.Sound x) (now : Int64) :
    ∃ (updates : List (Deferral × Value)) (os : List HeartbeatOutcome) (q : Processor)
      (fs : List Fault),
      p.progressCauses now = (.lookups :: updates.map .deferred ++ [.drained]) ++
        (os.map .heard ++ (q.reconciles now ++ [.told, .reported fs])) ∧
      (p.has .heartbeat = false → os = []) := by
  let updates := p.session.deferred
  let q := p.follow (.lookups :: updates.map Cause.deferred)
  let r := q.drainOutcomes.1.applyHeartbeats q.drainOutcomes.2
  refine ⟨updates, q.drainOutcomes.2, r.1, r.2 ++ (r.1.reconcile now).2, ?_, ?_⟩
  · simp only [List.cons_append, List.append_assoc, List.nil_append]
    rfl
  · intro hh
    have hq : ¬ q.has .heartbeat = true := by
      rw [h.has_follow, hh]
      exact Bool.false_ne_true
    rw [drainOutcomes, if_neg hq]

end Processor

end GroupConsumer
