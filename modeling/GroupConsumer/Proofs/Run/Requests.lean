import GroupConsumer.Proofs.Attended
import GroupConsumer.Proofs.Departure
import Mathlib.Data.Fintype.EquivFin

/-!
# Runs in which slots are used by those they belong to

A run is `discreet` if each of its actions names slots that may be used when its turn comes. If
besides a slot `i` is used for nothing but requests to leave (`spares`), then every moment of the run
is `Orderly`: it finds a sound member whose leave nobody else works on, and the slot `i` is linked to
that leave at most. `Chronicle.points` are all the states that a run goes through, each with the past
that led to it.
-/

namespace GroupConsumer

/-- A slot is used as the ticket of requests to leave at most. Somebody outside may complete it all
the same. -/
def Cause.spares (c : Cause) (i : SlotId) : Bool :=
  match c with
  | .received (.unsubscribe _) | .received (.leaveOnClose _) | .outside (.settle ..) => true
  | c => !decide (i ∈ c.names)

/-- A slot is used as the ticket of requests to leave at most. -/
def Action.spares (a : Action) (i : SlotId) : Bool :=
  match a with
  | .process e => Cause.spares (.received e) i
  | .outside o => Cause.spares (.outside o) i
  | .progress _ => true

namespace Cause

variable {c : Cause} {i : SlotId}

theorem spares_of_not_mem (h : i ∉ c.names) : c.spares i = true := by
  unfold spares
  split
  · rfl
  · rfl
  · rfl
  · simp [h]

theorem spares_of_reserves (h : c.reserves i = true) : c.spares i = true := by
  unfold reserves at h
  split at h
  · rfl
  · rfl
  · exact spares_of_not_mem (by simpa using h)

/-- The two differ in the last request of a consumer alone. -/
theorem reserves_of_spares (h : c.spares i = true) (hc : ∀ t, c ≠ .received (.leaveOnClose t)) :
    c.reserves i = true := by
  unfold spares at h
  unfold reserves
  split at h
  · rfl
  · exact absurd rfl (hc _)
  · rfl
  · split
    · rfl
    · rfl
    · exact h

/-- A request to leave sets the member in motion, and so do polls, heartbeats and reconciliation.
Every other cause works on the slots that it names. -/
theorem not_mem_names_of_spares (h : c.spares i = true) {p : Processor}
    (hc : c.trigger? p = none) (ho : ∀ o, c ≠ .outside o) : i ∉ c.names := by
  unfold spares at h
  split at h
  · cases hc
  · cases hc
  · exact absurd rfl (ho _)
  · simpa using h

end Cause

/-- There is always a slot that nobody uses. -/
theorem exists_spared (as : List Action) : ∃ i, ∀ a ∈ as, a.spares i = true := by
  obtain ⟨i, hi⟩ := Infinite.exists_notMem_finset (as.flatMap Action.names).toFinset
  refine ⟨i, fun a ha => ?_⟩
  have hn : i ∉ a.names := fun hm => hi (List.mem_toFinset.2 (List.mem_flatMap.2 ⟨a, ha, hm⟩))
  cases a with
  | progress now => rfl
  | process e => exact Cause.spares_of_not_mem hn
  | outside o => exact Cause.spares_of_not_mem hn

namespace Moment

/-- The moment finds a sound member, to whose leave at most requests to leave are linked, and makes
use of nothing but slots that may be used. -/
structure Orderly (y : Moment) (i : SlotId) : Prop where
  sound : ∃ x, y.before.Sound x
  guarded : y.before.Guarded i
  names : ∀ j ∈ y.cause.names, y.before.admits j = true
  spares : y.cause.spares i = true

variable {y : Moment} {i : SlotId}

/-- The links stay as they should be. -/
theorem Orderly.passes (h : y.Orderly i) : y.before.Passes i y.after := by
  obtain ⟨x, hx⟩ := h.sound
  obtain ⟨p, c⟩ := y
  by_cases hc : ∃ e, c = .received e ∧ e.isLeave = true
  · obtain ⟨e, rfl, he⟩ := hc
    obtain ⟨t, z, q, ht, hz, hqs, hqm, hq⟩ := Processor.receive_leave hx.member he
    have hl : z.leaveSlot = p.leaveSlot? :=
      (Member.leaveSlot_of_closing hz).trans (Processor.leaveSlot?_eq hx.member).symm
    exact (h.guarded.answers_leave (c := .received e) (hx.coherent.of_closing hz) hl
      (h.names t.slot (AppEvent.slot_mem_names ht)) hqs hqm hq).passes
  · have hr := Cause.reserves_of_spares h.spares fun t ht => hc ⟨_, ht, rfl⟩
    exact (hx.steady.answers h.guarded h.names hr).passes

end Moment

namespace Processor

variable {p : Processor} {i : SlotId}

/-- The causes of an action name what the action names, and slots that lookups were asked for. -/
theorem Guarded.admits_spared (h : p.Guarded i) {a : Action}
    (ha : ∀ j ∈ a.names, p.admits j = true) (hs : a.spares i = true) :
    ∀ c ∈ p.causes a, (∀ j ∈ c.names, p.admits j = true) ∧ c.spares i = true := by
  intro c hc
  have hr (hr : a.reserves i = true) :
      (∀ j ∈ c.names, p.admits j = true) ∧ c.spares i = true :=
    (h.admits_causes ha hr c hc).imp_right Cause.spares_of_reserves
  cases a with
  | progress now => exact hr rfl
  | outside o => exact hr (Cause.reserves_of_spares hs (by simp))
  | process e =>
    by_cases he : ∃ t, e = .leaveOnClose t
    · obtain ⟨t, rfl⟩ := he
      obtain rfl := List.mem_singleton.1 hc
      exact ⟨ha, rfl⟩
    · exact hr (Cause.reserves_of_spares hs fun t ht => he ⟨t, Cause.received.inj ht⟩)

end Processor

namespace Chronicle

variable {p : Processor} {k k' : Chronicle} {i : SlotId}

/-- The states that a chronicle has gone through, the latest first, each with its past. -/
def pointsOf (q : Processor) : List Moment → List Chronicle
  | [] => [⟨[], q⟩]
  | y :: past => ⟨y :: past, q⟩ :: pointsOf y.before past

/-- The states that a chronicle has gone through, the latest first, each with its past. -/
def points (k : Chronicle) : List Chronicle := pointsOf k.present k.past

theorem points_undergo (k : Chronicle) (c : Cause) :
    (k.undergo c).points = k.undergo c :: k.points := rfl

theorem mem_points_self (k : Chronicle) : k ∈ k.points := by
  obtain ⟨past, q⟩ := k
  cases past <;> exact List.mem_cons_self

/-- At all its points a chronicle is one that can be written. -/
theorem Lived.of_mem_points (h : Lived p k) (hk : k' ∈ k.points) : Lived p k' := by
  induction h with
  | start =>
    rw [List.mem_singleton.1 hk]
    exact .start
  | undergo h c ih =>
    rw [points_undergo] at hk
    rcases List.mem_cons.1 hk with rfl | hk
    · exact h.undergo c
    · exact ih hk

/-- All moments have been orderly, and so is what they have led to. -/
structure Orderly (k : Chronicle) (i : SlotId) : Prop where
  past : ∀ y ∈ k.past, y.Orderly i
  sound : ∃ x, k.present.Sound x
  guarded : k.present.Guarded i

theorem Orderly.undergo (h : k.Orderly i) {c : Cause}
    (hc : ∀ j ∈ c.names, k.present.admits j = true) (hs : c.spares i = true) :
    (k.undergo c).Orderly i := by
  have hy : Moment.Orderly ⟨k.present, c⟩ i := ⟨h.sound, h.guarded, hc, hs⟩
  refine ⟨fun y hm => ?_, ?_, hy.passes.guarded⟩
  · rcases List.mem_cons.1 hm with rfl | hm
    · exact hy
    · exact h.past y hm
  · obtain ⟨x, hx⟩ := h.sound
    exact hx.undergo c

theorem Orderly.follow (h : k.Orderly i) {cs : List Cause}
    (hcs : ∀ c ∈ cs, (∀ j ∈ c.names, k.present.admits j = true) ∧ c.spares i = true) :
    (k.follow cs).Orderly i := by
  induction cs generalizing k with
  | nil => exact h
  | cons c cs ih =>
    obtain ⟨hn, hs⟩ := hcs c List.mem_cons_self
    have hy : Moment.Orderly ⟨k.present, c⟩ i := ⟨h.sound, h.guarded, hn, hs⟩
    refine ih (h.undergo hn hs) fun d hd => ?_
    obtain ⟨hn, hs⟩ := hcs d (List.mem_cons_of_mem _ hd)
    exact ⟨fun j hj => hy.passes.admits j (hn j hj), hs⟩

theorem Orderly.run (h : k.Orderly i) {as : List Action} (hd : k.present.discreet as = true)
    (hs : ∀ a ∈ as, a.spares i = true) : (k.run as).Orderly i := by
  induction as generalizing k with
  | nil => exact h
  | cons a as ih =>
    obtain ⟨hn, hd⟩ := Bool.and_eq_true_iff.1 hd
    obtain ⟨x, hx⟩ := h.sound
    have hc := h.guarded.admits_spared (List.all_eq_true.1 hn) (hs a List.mem_cons_self)
    refine ih (k := k.act a) (h.follow hc) ?_ fun b hb => hs b (List.mem_cons_of_mem _ hb)
    rwa [present_act hx.steady]

/-- Before and at each of its moments an orderly chronicle was orderly. -/
theorem Orderly.at_moment (h : k.Orderly i) {later earlier : List Moment} {y : Moment}
    (hk : k.past = later ++ y :: earlier) :
    Orderly ⟨earlier, y.before⟩ i ∧ y.Orderly i := by
  have hmem : ∀ z ∈ y :: earlier, z ∈ k.past := fun z hz => hk ▸ List.mem_append_right later hz
  have hy := h.past y (hmem y List.mem_cons_self)
  exact ⟨⟨fun z hz => h.past z (hmem z (List.mem_cons_of_mem _ hz)), hy.sound, hy.guarded⟩, hy⟩

theorem Orderly.of_cons {y : Moment} {earlier : List Moment} {p : Processor}
    (h : Orderly ⟨y :: earlier, p⟩ i) : Orderly ⟨earlier, y.before⟩ i ∧ y.Orderly i :=
  h.at_moment (List.nil_append _).symm

/-- At all its points an orderly chronicle is orderly. -/
theorem Orderly.of_mem_points (h : k.Orderly i) (hk : k' ∈ k.points) : k'.Orderly i := by
  obtain ⟨past, q⟩ := k
  induction past generalizing q with
  | nil =>
    obtain rfl := List.mem_singleton.1 hk
    exact h
  | cons y past ih =>
    rcases List.mem_cons.1 hk with rfl | hk
    · exact h
    · have hy := h.past y List.mem_cons_self
      exact ih y.before ⟨fun z hz => h.past z (List.mem_cons_of_mem _ hz), hy.sound, hy.guarded⟩ hk

end Chronicle

/-- The chronicle of a discreet run is orderly. -/
theorem Setup.orderly (u : Setup) {as : List Action} {i : SlotId}
    (hd : (u.begin true).discreet as = true) (hs : ∀ a ∈ as, a.spares i = true) :
    (u.record true as).Orderly i := by
  have hstart : Chronicle.Orderly { present := u.begin true } i :=
    ⟨fun y hy => absurd hy List.not_mem_nil, ⟨_, u.sound⟩, u.guarded_begin true i⟩
  exact hstart.run hd hs

end GroupConsumer
