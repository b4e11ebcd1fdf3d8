import GroupConsumer.Proofs.Processor.Twins
import GroupConsumer.Proofs.Run.Makes
import Mathlib.Data.List.Forall2

/-!
# Runs of processors that are alike but for a few slots

Two processors that are twins stay twins in whatever happens to both, as long as each moment is
`Calm`: nothing leads out of `D` that is hooked onto a slot in `D`, no lookup and no leave is answered
with such a slot, and no stage waits for one. Then the same actions have the same causes for both, but
for faults that are reported (`Calm.act`), so that the two runs go side by side (`Calm.run`).
-/

namespace GroupConsumer

/-- The causes are the same, or both report faults. -/
inductive Cause.Like : Cause → Cause → Prop
  | refl (c : Cause) : Like c c
  | reported (fs gs : List Fault) : Like (.reported fs) (.reported gs)

/-- The event asks for fetches, is answered with a slot in `D`, and has its ticket outside `D`. -/
def Moment.Leaks (D : SlotId → Prop) (y : Moment) : Prop :=
  ∃ t f, y.cause = .received (.createFetches t) ∧
    y.after.session.futures[y.before.session.futures.size]? = some f ∧ D f.2 ∧ ¬ D t.slot

/-- What happens leads out of `D` nowhere: no lookup is answered with a slot in `D`, nor are fetches for
a ticket outside `D`, what is hooked onto such a slot from outside stays in `D`, and no request to leave
is linked to one. -/
structure Moment.Contained (D : SlotId → Prop) (y : Moment) : Prop where
  asked : y.after.Unasked D
  fetched : ¬ y.Leaks D
  hooked : ∀ i l, y.cause = .outside (.listen i l) → D i → l.StaysIn D
  left : ∀ l, y.Links l → ¬ D l

namespace Processor

variable {D : SlotId → Prop} {p p' : Processor} {c c' : Cause}

/-- The stage of the member, if it waits, waits for a slot outside of `D`. -/
def StageClear (D : SlotId → Prop) (p : Processor) : Prop :=
  ∀ x i, p.member = some x → x.stage.slot? = some i → ¬ D i

/-! ### Causes -/

/-- Outside of the processors the same happens to both. -/
theorem Twins.undergo_outside (h : p.Twins D p') {o : Outside}
    (ho : ∀ i l, o = .listen i l → D i → l.StaysIn D) :
    (p.undergo (.outside o)).Twins D (p'.undergo (.outside o)) := by
  show (p.withSession (·.undergo o)).Twins D (p'.withSession (·.undergo o))
  refine h.withSession ?_
  cases o with
  | fresh => exact h.session.fresh.1
  | settle i o => exact h.session.complete i o
  | listen i l => exact h.session.listen (ho i l rfl)
  | drain =>
    exact ⟨h.session.slots, h.session.clock, h.session.subscription, h.session.script,
      h.session.futures⟩
  | clock ms => exact h.session.advance ms
  | script x =>
    refine ⟨h.session.slots, h.session.clock, h.session.subscription, ?_, h.session.futures⟩
    show ({ x with managers := _, lastSnapshot := _ } : Script) = _
    rw [h.session.script]
    rfl

theorem Twins.receive (h : p.Twins D p') {e : AppEvent}
    (hy : Moment.Contained D ⟨p, .received e⟩) : (p.receive e).Twins D (p'.receive e) := by
  have hleave {m : Membership} (he : e.isLeave = true) (hm : p.membership? = some m) :
      ¬ D m.leave.2 ∧ ¬ D m.leaveOnClose.2 := by
    obtain ⟨x, hx, rfl⟩ := Option.map_eq_some_iff.1 hm
    exact ⟨hy.left _ ⟨e, x, x, rfl, he, hx, Or.inl rfl, rfl⟩,
      hy.left _ ⟨e, x, _, rfl, he, hx, Or.inr rfl, rfl⟩⟩
  have hu : (p.receive e).Unasked D := hy.asked
  cases e with
  | poll time gate =>
    show (if _ then _ else p).Twins D (if _ then _ else p')
    rw [h.has]
    split
    · exact h.record _ _
    · exact h
  | commitAsync => exact h.commitAsync hu
  | commitSync => exact h.commitSync hu
  | commitOnClose => exact h.signalManager .commit
  | fetchCommitted => exact h.fetchCommitted hu
  | listOffsets => exact h.listOffsets hu
  | checkPositions => exact h.checkPositions hu
  | resetOffset t parts strategy =>
    show (p.completeWith t _).Twins D (p'.completeWith t _)
    rw [h.subscription]
    exact h.completeWith t _
  | subscribeTopics t topics => exact h.subscribeTopics topics
  | subscribePattern t source => exact h.subscribePattern source
  | refreshPattern t => exact h.refreshPattern
  | unsubscribe t => exact h.unsubscribe fun m hm => (hleave rfl hm).1
  | assign t time parts => exact h.assign time parts
  | seek t tp offset epoch =>
    show (p.completeWith t _).Twins D (p'.completeWith t _)
    rw [h.subscription]
    exact h.completeWith t _
  | currentLag => exact h.currentLag hu
  | createFetches t => exact h.createFetches fun f hf hD => by_contra fun ht => hy.fetched ⟨t, f, rfl, hf, hD, ht⟩
  | leaveOnClose t => exact h.leaveOnClose fun m hm => (hleave rfl hm).2
  | stopCoordinatorOnClose => exact h.signalManager .coordinator
  | callbackDone method slot fault =>
    unfold Processor.receive
    obtain ⟨hp, hp'⟩ | ⟨m, n, hp, hp', hm⟩ := h.membership?
    · simp only [hp, hp']
      exact h
    · simp only [hp, hp']
      exact h.withMembership (hm.onCallbackDone slot fault)
  | tasksCallbackDone c slot fault => exact h.tasksCallbackDone c slot fault

/-- A step of reconciliation is alike for both processors if the slot of the stage is complete for both
or for neither. -/
theorem endsAlike_advance (hd : ∀ x i, p.member = some x → x.stage.slot? = some i →
    p'.session.slots.isDone i = p.session.slots.isDone i) {m n : Membership}
    (hp : p.membership? = some m) (hp' : p'.membership? = some n) (hm : m.Twins D n)
    (commits : Bool) (now : Int64) :
    EndsAlike D (Membership.Twins.Advances D) (m.advance commits now) (n.advance commits now) := by
  obtain ⟨x, hx, rfl⟩ := Option.map_eq_some_iff.1 hp
  obtain ⟨y, -, rfl⟩ := Option.map_eq_some_iff.1 hp'
  exact hm.advance (fun i => hd x i hx) commits now

/-- The same happens to both processors. A step of reconciliation is alike for both if the slot of the
stage is complete for both or for neither. -/
theorem Twins.undergo (h : p.Twins D p') (hy : Moment.Contained D ⟨p, c⟩)
    (hd : ∀ x i, p.member = some x → x.stage.slot? = some i →
      p'.session.slots.isDone i = p.session.slots.isDone i) (hc : c.Like c') :
    (p.undergo c).Twins D (p'.undergo c') := by
  cases hc with
  | reported fs gs => exact h.report fs gs
  | refl =>
    cases c with
    | outside o => exact h.undergo_outside fun i l ho => hy.hooked i l (congrArg Cause.outside ho)
    | received e => exact h.receive hy
    | polled => exact h.onMember fun m n _ _ hm => hm.onPoll
    | heard o => exact h.onMember fun m n _ _ hm => hm.onHeartbeat o
    | advanced now =>
      show (p.onMember _).1.Twins D (p'.onMember _).1
      rw [h.has]
      exact h.onMember fun m n hp hp' hm => (endsAlike_advance hd hp hp' hm _ now).map fun _ _ hk => hk.1
    | pollDone time gate => exact (h.updateCommitTimer time).completeUnit gate _
    | lookups => exact ⟨h.member, h.evaluated, h.session.takeDeferred⟩
    | deferred update => exact h.applyDeferred update hy.asked
    | drained => exact h.drainOutcomes.1
    | told => exact h.publishSnapshot
    | reported fs => exact h.report fs fs

/-! ### The causes of an action -/

/-- A poll has two parts before the steps of reconciliation. -/
theorem pollCauses_eq_row (p : Processor) (time : Int64) (gate : SlotId) :
    let cs : List Cause := [.received (.poll time gate), .polled]
    ∃ fs, p.pollCauses time gate =
      cs ++ (p.follow cs).reconciles time ++ [.pollDone time gate, .reported fs] := ⟨_, rfl⟩

/-- Before the steps of reconciliation the end of a callback is received, and that is all of it
without a member. -/
theorem callbackCauses_eq_row (p : Processor) (e : AppEvent) :
    let cs : List Cause := [.received e]
    (p.member = none ∧ p.callbackCauses e = cs) ∨
      p.member ≠ none ∧ ∃ fs, p.callbackCauses e =
        cs ++ (p.follow cs).reconciles (p.follow cs).session.clock ++ [.reported fs] := by
  cases hm : p.member with
  | none => exact Or.inl ⟨rfl, by simp [callbackCauses, hm]⟩
  | some x =>
    refine Or.inr ⟨by simp, ((p.receive e).reconcile (p.receive e).session.clock).2, ?_⟩
    rw [callbackCauses, if_neg (by simp [hm])]
    rfl

/-- What background progress does before the steps of reconciliation. -/
def beforeReconciling (p : Processor) : List Cause :=
  let updates := p.session.deferred.map Cause.deferred
  .lookups :: (updates ++
    .drained :: (p.follow (.lookups :: updates)).drainOutcomes.2.map .heard)

theorem progressCauses_eq_row (p : Processor) (now : Int64) :
    ∃ fs, p.progressCauses now =
      p.beforeReconciling ++ (p.follow p.beforeReconciling).reconciles now ++
        [.told, .reported fs] := by
  let updates := p.session.deferred.map Cause.deferred
  let q := (p.follow (.lookups :: updates)).drainOutcomes
  have hq : p.follow p.beforeReconciling = (q.1.applyHeartbeats q.2).1 := by
    show (p.undergo .lookups).follow (updates ++ .drained :: q.2.map .heard) = _
    rw [follow_append]
    exact follow_heard q.1 q.2
  rw [hq]
  refine ⟨(q.1.applyHeartbeats q.2).2 ++ ((q.1.applyHeartbeats q.2).1.reconcile now).2, ?_⟩
  simp only [beforeReconciling, List.cons_append, List.append_assoc]
  rfl

end Processor

namespace Chronicle

open Processor

variable {D : SlotId → Prop} {k K : Chronicle} {p' : Processor} {c : Cause} {cs : List Cause}

/-- From `k` on, all moments on the way to `K` are contained, and no stage waits for a slot in `D`. -/
def Calm (D : SlotId → Prop) (k K : Chronicle) : Prop :=
  ∀ later y earlier, K.past = later ++ y :: earlier → k.past <:+ earlier →
    y.Contained D ∧ y.before.StageClear D

theorem suffix_follow (k : Chronicle) (cs : List Cause) : k.past <:+ (k.follow cs).past := by
  obtain ⟨later, h⟩ := k.past_follow cs
  exact ⟨later, h.symm⟩

theorem suffix_run (k : Chronicle) (as : List Action) : k.past <:+ (k.run as).past := by
  induction as generalizing k with
  | nil => exact List.suffix_refl _
  | cons a as ih => exact (suffix_follow k _).trans (ih (k.act a))

theorem Calm.mono {k' : Chronicle} (h : Calm D k K) (hk : k.past <:+ k'.past) : Calm D k' K :=
  fun later y earlier hK hs => h later y earlier hK (hk.trans hs)

theorem Calm.head (h : Calm D k K) (hK : (k.undergo c).past <:+ K.past) :
    Moment.Contained D ⟨k.present, c⟩ ∧ k.present.StageClear D := by
  obtain ⟨later, hlater⟩ := hK
  exact h later _ _ hlater.symm (List.suffix_refl _)

/-- Rows of causes that are the same, but for faults that are reported. -/
theorem Calm.follow (h : Calm D k K) (ht : k.present.Twins D p') {cs' : List Cause}
    (hcs : List.Forall₂ Cause.Like cs cs') (hK : (k.follow cs).past <:+ K.past) :
    (k.present.follow cs).Twins D (p'.follow cs') := by
  induction hcs generalizing k p' with
  | nil => exact ht
  | @cons c c' cs cs' hc _ ih =>
    have hfirst : (k.undergo c).past <:+ K.past := (suffix_follow (k.undergo c) cs).trans hK
    obtain ⟨hy, hs⟩ := h.head hfirst
    exact ih (h.mono (List.suffix_cons _ _))
      (ht.undergo hy (fun x i hx hi => ht.session.slots.isDone (hs x i hx hi)) hc) hK

theorem like_self (cs : List Cause) : List.Forall₂ Cause.Like cs cs :=
  List.forall₂_same.2 fun c _ => .refl c

/-- The same steps of reconciliation are taken by both. -/
theorem Calm.advances {now : Int64} {n : Nat} (h : Calm D k K) (ht : k.present.Twins D p')
    (hK : (k.follow (advances now n k.present)).past <:+ K.past) :
    advances now n p' = advances now n k.present := by
  induction n generalizing k p' with
  | zero => rfl
  | succ n ih =>
    unfold Processor.advances at hK ⊢
    obtain ⟨hp, hp'⟩ | ⟨m, m', hp, hp', hm⟩ := ht.membership?
    · rw [hp, hp']
    · simp only [hp, hp'] at hK ⊢
      have hu : (k.undergo (.advanced now)).present = k.present.withMembership
          (m.advanceOnce (k.present.has .commit) now).membership := by
        show (k.present.onMember _).1 = _
        rw [Processor.onMember, hp]
      have hfirst : (k.undergo (.advanced now)).past <:+ K.past := by
        refine List.IsSuffix.trans ?_ hK
        split
        · exact suffix_follow _ _
        · exact List.suffix_refl _
      obtain ⟨hy, hs⟩ := h.head hfirst
      have hadv := endsAlike_advance (fun x i hx hi => ht.session.slots.isDone (hs x i hx hi)) hp hp'
        hm (k.present.has .commit) now
      rw [ht.has]
      rw [Membership.advanceOnce] at hu
      generalize m'.advance (k.present.has .commit) now = r' at hadv ⊢
      generalize m.advance (k.present.has .commit) now = r at hadv hK hu ⊢
      cases hadv with
      | error f _ => rfl
      | @ok a b hab =>
        obtain ⟨a, more⟩ := a
        obtain ⟨b, more'⟩ := b
        obtain ⟨hab, rfl⟩ : a.Twins D b ∧ more' = more := hab
        cases more' with
        | false => rfl
        | true =>
          have hu : (k.undergo (.advanced now)).present = k.present.withMembership a := hu
          have hnext : (k.undergo (.advanced now)).present.Twins D (p'.withMembership b) := by
            rw [hu]
            exact ht.withMembership hab
          have hrest := ih (h.mono (List.suffix_cons _ _)) hnext (by rwa [hu])
          rw [hu] at hrest
          exact congrArg _ hrest

/-- A row of causes, the steps of reconciliation after them, and some more. -/
theorem Calm.like_row {now : Int64} {ds ds' : List Cause} (h : Calm D k K)
    (ht : k.present.Twins D p') (hd : List.Forall₂ Cause.Like ds ds')
    (hK : (k.follow (cs ++ (k.present.follow cs).reconciles now ++ ds)).past <:+ K.past) :
    List.Forall₂ Cause.Like (cs ++ (k.present.follow cs).reconciles now ++ ds)
      (cs ++ (p'.follow cs).reconciles now ++ ds') := by
  rw [follow_append, follow_append] at hK
  have hsteps := (suffix_follow _ ds).trans hK
  have hrow := (suffix_follow _ ((k.present.follow cs).reconciles now)).trans hsteps
  have htwins := h.follow ht (like_self cs) hrow
  rw [← present_follow] at htwins hsteps ⊢
  have hsame : (p'.follow cs).reconciles now = (k.follow cs).present.reconciles now :=
    (h.mono (suffix_follow k cs)).advances htwins hsteps
  rw [hsame]
  exact List.rel_append (like_self _) hd

/-- The causes of an action are the same for both, but for faults that are reported. -/
theorem Calm.like_causes (h : Calm D k K) (ht : k.present.Twins D p') (a : Action)
    (hK : (k.act a).past <:+ K.past) :
    List.Forall₂ Cause.Like (k.present.causes a) (p'.causes a) := by
  have hrow {cs ds ds' : List Cause} {now : Int64} (hd : List.Forall₂ Cause.Like ds ds')
      (hc : k.present.causes a = cs ++ (k.present.follow cs).reconciles now ++ ds)
      (hc' : p'.causes a = cs ++ (p'.follow cs).reconciles now ++ ds') :
      List.Forall₂ Cause.Like (k.present.causes a) (p'.causes a) := by
    rw [Chronicle.act, hc] at hK
    rw [hc, hc']
    exact h.like_row ht hd hK
  cases a with
  | outside o => exact like_self _
  | process e =>
    cases e with
    | poll time gate =>
      obtain ⟨fs, he⟩ := k.present.pollCauses_eq_row time gate
      obtain ⟨fs', he'⟩ := p'.pollCauses_eq_row time gate
      exact hrow (.cons (.refl _) (.cons (.reported fs fs') .nil)) he he'
    | callbackDone method slot fault =>
      let e : AppEvent := .callbackDone method slot fault
      obtain ⟨hm, he⟩ | ⟨hm, fs, he⟩ := k.present.callbackCauses_eq_row e
      · obtain ⟨-, he'⟩ | ⟨hm', -⟩ := p'.callbackCauses_eq_row e
        · show List.Forall₂ _ (k.present.callbackCauses e) (p'.callbackCauses e)
          rw [he, he']
          exact like_self _
        · exact absurd (ht.member.trans hm) hm'
      · obtain ⟨hm', -⟩ | ⟨-, fs', he'⟩ := p'.callbackCauses_eq_row e
        · exact absurd (ht.member.symm.trans hm') hm
        · have hfirst : (k.undergo (.received e)).past <:+ K.past := by
            have hK' : (k.follow (k.present.callbackCauses e)).past <:+ K.past := hK
            rw [he, List.append_assoc, List.singleton_append] at hK'
            exact (suffix_follow (k.undergo (.received e)) _).trans hK'
          have hq : (k.present.receive e).Twins D (p'.receive e) := ht.receive (h.head hfirst).1
          have hclock : (p'.follow [.received e]).session.clock =
              (k.present.follow [.received e]).session.clock := hq.session.clock
          rw [hclock] at he'
          exact hrow (.cons (.reported fs fs') .nil) he he'
    | _ => exact like_self _
  | progress now =>
    obtain ⟨fs, he⟩ := k.present.progressCauses_eq_row now
    obtain ⟨fs', he'⟩ := p'.progressCauses_eq_row now
    let cs : List Cause := .lookups :: k.present.session.deferred.map .deferred
    obtain ⟨ds, hds⟩ : ∃ ds, k.present.causes (.progress now) = cs ++ ds :=
      ⟨_, he.trans (by simp only [beforeReconciling, List.cons_append, List.append_assoc]; rfl)⟩
    have hfirst : (k.follow cs).past <:+ K.past := by
      rw [Chronicle.act, hds, follow_append] at hK
      exact (suffix_follow _ ds).trans hK
    have hrounds : p'.beforeReconciling = k.present.beforeReconciling := by
      unfold Processor.beforeReconciling
      simp only [ht.session.deferred, (h.follow ht (like_self cs) hfirst).drainOutcomes.2, cs]
    rw [hrounds] at he'
    exact hrow (.cons (.refl _) (.cons (.reported fs fs') .nil)) he he'

/-- An action leaves twins. -/
theorem Calm.act {x' : Member} (h : Calm D k K) (ht : k.present.Twins D p')
    (hp' : p'.Sound x') (a : Action) (hK : (k.act a).past <:+ K.past) :
    (k.act a).present.Twins D (p'.act a) := by
  rw [Chronicle.act, present_follow, ← hp'.follow_causes a]
  exact h.follow ht (h.like_causes ht a hK) hK

/-- A run leaves twins. -/
theorem Calm.run {x' : Member} {as : List Action} (h : Calm D k K) (ht : k.present.Twins D p')
    (hp' : p'.Sound x') (hK : (k.run as).past <:+ K.past) :
    (k.run as).present.Twins D (as.foldl Processor.act p') := by
  induction as generalizing k p' x' with
  | nil => exact ht
  | cons a as ih =>
    obtain ⟨y, hy⟩ := hp'.follow (p'.causes a)
    rw [hp'.follow_causes] at hy
    exact ih (h.mono (suffix_follow k _)) (h.act ht hp' a ((suffix_run (k.act a) as).trans hK)) hy hK

/-- Moments that lead out of `D` nowhere leave what waits on slots in `D` within `D`. -/
theorem Lived.encloses {p : Processor} (h : Lived p k) (hp : p.session.slots.Encloses D)
    (hk : ∀ y ∈ k.past, y.Contained D) : k.present.session.slots.Encloses D := by
  induction h with
  | start => exact hp
  | @undergo k h c ih =>
    have hin := ih fun y hy => hk y (List.mem_cons_of_mem _ hy)
    have htwins : k.present.Twins D k.present := .refl hin
    exact (htwins.undergo (hk _ List.mem_cons_self) (fun _ _ _ _ => rfl) (.refl c)).session.slots.left

end Chronicle

end GroupConsumer
