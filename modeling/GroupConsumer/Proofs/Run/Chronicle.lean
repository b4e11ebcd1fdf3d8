import GroupConsumer.Proofs.Run.Sound

/-!
# The chronicle of a run

A `Chronicle` is a processor together with all `Moment`s that led to it, so that what came before
can be spoken of. A run writes it from the causes of its actions, and its present is what the
actions make of the processor (`present_run`). `Since hold mark past` says that `mark` was true once
and that `hold` has been true ever since.
-/

namespace GroupConsumer

/-- A cause and the processor that it found. -/
structure Moment where
  before : Processor
  cause : Cause

/-- A processor and what led to it, the latest moment first. -/
structure Chronicle where
  past : List Moment := []
  present : Processor

namespace Moment

/-- The processor that the moment leaves. -/
def after (x : Moment) : Processor := x.before.undergo x.cause

/-- The events that were published. -/
def published (x : Moment) : List BackgroundEvent :=
  x.after.session.events.drop x.before.session.events.length

/-- The calls that were made. -/
def called (x : Moment) : List Call :=
  x.after.session.calls.toList.drop x.before.session.calls.toList.length

/-- What the heartbeat manager was told. -/
def told? (x : Moment) : Option MemberSnapshot :=
  match x.cause with
  | .told => if x.before.has .heartbeat then x.after.session.script.lastSnapshot else none
  | _ => none

theorem published_eq {x : Moment} {es : List BackgroundEvent} {cs : List Call}
    (h : x.before.session.Grows x.after.session es cs) : x.published = es := by
  rw [published, h.events, List.drop_left]

theorem called_eq {x : Moment} {es : List BackgroundEvent} {cs : List Call}
    (h : x.before.session.Grows x.after.session es cs) : x.called = cs := by
  rw [called, h.calls, List.drop_left]

/-- A cause that does not move the member publishes nothing but faults, and these only if it is there
to report them. -/
theorem published_of_unmoved {y : Moment}
    (h : y.before.session.Unmoved y.cause y.after.session) :
    y.published = [] ∨ ∃ fs, y.cause = .reported fs ∧ y.published = fs.map .fault := by
  have hgrows (h : ∃ cs, y.before.session.Grows y.after.session [] cs) : y.published = [] := by
    obtain ⟨cs, h⟩ := h
    exact published_eq h
  obtain ⟨p, c⟩ := y
  cases c with
  | outside o =>
    have he : Session.events (p.session.undergo o) = p.session.events ∨
        Session.events (p.session.undergo o) = [] := by
      cases o with
      | drain =>
        refine Or.inr ?_
        show (p.session.background.drain.2).waiting.map _ = []
        rw [Queue.drain_snd]
        rfl
      | _ => exact Or.inl rfl
    refine Or.inl ?_
    show (Session.events (p.session.undergo o)).drop _ = []
    rcases he with he | he <;> rw [he] <;> simp
  | told =>
    refine Or.inl ?_
    rw [published, h.2]
    simp
  | reported fs => exact Or.inr ⟨fs, rfl, published_eq h⟩
  | received | polled | heard | advanced | pollDone | lookups | deferred | drained =>
    exact Or.inl (hgrows h)

/-- The heartbeat manager, if there is one, is told what the member says of itself, and knows it
afterwards. -/
theorem told?_of_has {p : Processor} {x : Member} (hm : p.member = some x)
    (hh : p.has .heartbeat = true) :
    told? ⟨p, .told⟩ = some (Membership.snapshot ⟨x, p.session⟩) ∧
      (p.undergo .told).session.script.lastSnapshot =
        some (Membership.snapshot ⟨x, p.session⟩) := by
  have hl : (p.undergo .told).session.script.lastSnapshot =
      some (Membership.snapshot ⟨x, p.session⟩) := by
    rw [Processor.undergo, Processor.publishSnapshot_of_has hm hh]
    exact Session.lastSnapshot_giveSnapshot p.session _
  refine ⟨?_, hl⟩
  show (if p.has .heartbeat then (p.undergo .told).session.script.lastSnapshot else none) = _
  rw [if_pos hh, hl]

/-- What the heartbeat manager was told is the last it was told. -/
theorem lastSnapshot_of_told? {y : Moment} {snap : MemberSnapshot} (h : y.told? = some snap) :
    y.after.session.script.lastSnapshot = some snap := by
  unfold told? at h
  split at h
  · split at h
    · exact h
    · cases h
  · cases h

theorem eq_snapshot_of_told? {y : Moment} {x : Member} {snap : MemberSnapshot}
    (hm : y.before.member = some x) (h : y.told? = some snap) :
    y.cause = .told ∧ y.before.has .heartbeat = true ∧
      snap = Membership.snapshot ⟨x, y.before.session⟩ := by
  obtain ⟨p, c⟩ := y
  cases c with
  | told =>
    cases hh : p.has .heartbeat with
    | false =>
      rw [told?] at h
      simp only [hh] at h
      cases h
    | true => exact ⟨rfl, rfl, Option.some.inj (h.symm.trans (told?_of_has hm hh).1)⟩
  | _ => cases h

end Moment

namespace Chronicle

/-- One more moment. -/
def undergo (k : Chronicle) (c : Cause) : Chronicle :=
  ⟨⟨k.present, c⟩ :: k.past, k.present.undergo c⟩

/-- A row of further moments. -/
def follow (k : Chronicle) (cs : List Cause) : Chronicle := cs.foldl undergo k

/-- One more action. -/
def act (k : Chronicle) (a : Action) : Chronicle := k.follow (k.present.causes a)

/-- A row of further actions. -/
def run (k : Chronicle) (as : List Action) : Chronicle := as.foldl act k

@[simp] theorem follow_nil (k : Chronicle) : k.follow [] = k := rfl

@[simp] theorem follow_cons (k : Chronicle) (c : Cause) (cs : List Cause) :
    k.follow (c :: cs) = (k.undergo c).follow cs := rfl

@[simp] theorem follow_append (k : Chronicle) (cs cs' : List Cause) :
    k.follow (cs ++ cs') = (k.follow cs).follow cs' := List.foldl_append

theorem present_follow (k : Chronicle) (cs : List Cause) :
    (k.follow cs).present = k.present.follow cs := by
  induction cs generalizing k with
  | nil => rfl
  | cons c cs ih => exact ih (k.undergo c)

theorem past_follow (k : Chronicle) (cs : List Cause) :
    ∃ later, (k.follow cs).past = later ++ k.past := by
  induction cs generalizing k with
  | nil => exact ⟨[], rfl⟩
  | cons c cs ih =>
    obtain ⟨later, h⟩ := ih (k.undergo c)
    exact ⟨later ++ [⟨k.present, c⟩], by rw [follow_cons, h, List.append_assoc]; rfl⟩

/-- What holds of a chronicle and is kept by every further moment holds after a row of them. -/
theorem follow_induction {I : Chronicle → Prop} (step : ∀ k c, I k → I (k.undergo c))
    {k : Chronicle} (h : I k) (cs : List Cause) : I (k.follow cs) := by
  induction cs generalizing k with
  | nil => exact h
  | cons c cs ih => exact ih (step k c h)

/-- What holds of a chronicle and is kept by every further action holds after a row of them. -/
theorem run_induction {I : Chronicle → Prop} (step : ∀ k a, I k → I (k.act a))
    {k : Chronicle} (h : I k) (as : List Action) : I (k.run as) := by
  induction as generalizing k with
  | nil => exact h
  | cons a as ih => exact ih (step k a h)

/-! ### Chronicles of runs -/

/-- The chronicles that can be written from a processor on, one cause after the other. -/
inductive Lived (p : Processor) : Chronicle → Prop
  | start : Lived p { present := p }
  | undergo {k : Chronicle} (h : Lived p k) (c : Cause) : Lived p (k.undergo c)

variable {p : Processor} {k : Chronicle} {x : Member}

theorem Lived.follow (h : Lived p k) (cs : List Cause) : Lived p (k.follow cs) :=
  follow_induction (fun _ c h => h.undergo c) h cs

theorem Lived.run (h : Lived p k) (as : List Action) : Lived p (k.run as) :=
  run_induction (fun _ _ h => h.follow _) h as

theorem Lived.sound (h : Lived p k) (hp : p.Sound x) : ∃ y, k.present.Sound y := by
  induction h with
  | start => exact ⟨x, hp⟩
  | undergo _ c ih =>
    obtain ⟨y, hy⟩ := ih
    exact hy.undergo c

/-- Every moment of a chronicle was once the next thing to happen. -/
theorem Lived.at_moment (h : Lived p k) {later earlier : List Moment} {x : Moment}
    (hk : k.past = later ++ x :: earlier) : Lived p ⟨earlier, x.before⟩ := by
  induction h generalizing later with
  | start =>
    rw [List.nil_eq, List.append_eq_nil_iff] at hk
    cases hk.2
  | @undergo k h c ih =>
    cases later with
    | nil =>
      cases hk
      exact h
    | cons y later =>
      injection hk with _ hk
      exact ih hk

/-- The present of a run is what its actions make of the processor. -/
theorem present_run (hp : p.Sound x) (as : List Action) :
    (run { present := p } as).present = as.foldl Processor.act p := by
  suffices h : ∀ k : Chronicle, Lived p k →
      (k.run as).present = as.foldl Processor.act k.present from h _ .start
  induction as with
  | nil => exact fun _ _ => rfl
  | cons a as ih =>
    intro k hk
    obtain ⟨y, hy⟩ := hk.sound hp
    have ha : (k.act a).present = k.present.act a := by
      rw [act, present_follow, hy.follow_causes]
    have := ih (k.act a) (hk.follow _)
    rw [ha] at this
    exact this

end Chronicle

/-- The chronicle of a run. -/
def Setup.chronicle (u : Setup) (as : List Action) : Chronicle :=
  Chronicle.run { present := u.processor } as

namespace Setup

variable (u : Setup) (as : List Action)

theorem lived : Chronicle.Lived u.processor (u.chronicle as) := Chronicle.Lived.start.run as

theorem sound_present : ∃ x, (u.chronicle as).present.Sound x := (u.lived as).sound u.sound

theorem present_chronicle : (u.chronicle as).present = as.foldl Processor.act u.processor :=
  Chronicle.present_run u.sound as

end Setup

/-- A consumer that commits and sends heartbeats. -/
def firstSetup : Setup := { script := { managers := [.commit, .heartbeat] } }

/-- A consumer that sends heartbeats. -/
def heartbeatSetup : Setup := { script := { managers := [.heartbeat] } }

/-- The first steps of a member: it joins, and the group gives it a partition. -/
def firstSteps : List Action :=
  [.outside .fresh,
    .process (.subscribeTopics { kind := "", created := 0, deadline := 0, slot := 0 } ∅),
    .outside .fresh,
    .process (.poll 0 1),
    .outside (.script { outcomes := [.success "m" 1 (some (.ofList [{ topic := "t", number := 0 }]))] }),
    .progress 0]

/-- A ticket whose result goes to a slot. -/
def ticketAt (slot : SlotId) : Ticket := { kind := "", created := 0, deadline := 0, slot }

/-- The caller has run its listener without a fault. -/
def listenerRun (method : ListenerMethod) (slot : SlotId) : Action :=
  .process (.callbackDone method slot none)

/-- A moment of the past, with what came later and earlier. -/
theorem past_eq_of_getElem? {past : List Moment} {n : Nat} {y : Moment} (h : past[n]? = some y) :
    past = past.take n ++ y :: past.drop (n + 1) := by
  obtain ⟨hn, rfl⟩ := List.getElem?_eq_some_iff.1 h
  rw [← List.drop_eq_getElem_cons hn, List.take_append_drop]

/-! ### Throughout and since -/

/-- `P` is true of every moment and of what came before it. -/
def Throughout (P : Moment → List Moment → Prop) (past : List Moment) : Prop :=
  ∀ later x earlier, past = later ++ x :: earlier → P x earlier

namespace Throughout

variable {P : Moment → List Moment → Prop}

theorem nil : Throughout P [] := by
  intro later x earlier h
  cases later <;> cases h

theorem cons {past : List Moment} {x : Moment} (h : Throughout P past) (hx : P x past) :
    Throughout P (x :: past) := by
  intro later y earlier hk
  cases later with
  | nil =>
    cases hk
    exact hx
  | cons z later =>
    injection hk with _ hk
    exact h later y earlier hk

/-- A row of further moments of which `P` is true whenever they come. -/
theorem follow {k : Chronicle} {cs : List Cause} (h : Throughout P k.past)
    (hcs : ∀ c ∈ cs, ∀ p past, P ⟨p, c⟩ past) : Throughout P (k.follow cs).past := by
  induction cs generalizing k with
  | nil => exact h
  | cons c cs ih =>
    exact ih (h.cons (hcs c List.mem_cons_self _ _)) fun d hd => hcs d (List.mem_cons_of_mem _ hd)

end Throughout

/-- A moment was marked, and `hold` has been true of every later one. -/
def Since (hold : Moment → Prop) (mark : Moment → List Moment → Prop) : List Moment → Prop
  | [] => False
  | x :: past => mark x past ∨ (hold x ∧ Since hold mark past)

namespace Since

variable {hold hold' : Moment → Prop} {mark mark' : Moment → List Moment → Prop}

theorem mono {past : List Moment} (hh : ∀ x, hold x → hold' x)
    (hm : ∀ x past, mark x past → mark' x past) (h : Since hold mark past) :
    Since hold' mark' past := by
  induction past with
  | nil => exact h
  | cons x past ih =>
    obtain h | ⟨hx, h⟩ := h
    · exact Or.inl (hm x past h)
    · exact Or.inr ⟨hh x hx, ih h⟩

/-- What neither holds of a moment nor marks it has been marked later. -/
theorem exists_of_append {later earlier : List Moment} {y : Moment}
    (h : Since hold mark (later ++ y :: earlier)) (hy : ¬ hold y) (hm : ¬ mark y earlier) :
    ∃ after x before, later = after ++ x :: before ∧ mark x (before ++ y :: earlier) := by
  induction later with
  | nil =>
    obtain h | ⟨h, -⟩ := h
    · exact absurd h hm
    · exact absurd h hy
  | cons x later ih =>
    obtain h | ⟨-, h⟩ := h
    · exact ⟨[], x, later, rfl, h⟩
    · obtain ⟨after, w, before, rfl, hw⟩ := ih h
      exact ⟨x :: after, w, before, rfl, hw⟩

end Since

end GroupConsumer
