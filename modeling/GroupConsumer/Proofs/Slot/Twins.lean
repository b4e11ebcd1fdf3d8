import GroupConsumer.Proofs.Slot.Delivery

/-!
# Stores that are alike but for a few slots

There may be slots, told apart by `D`, of which nobody needs to know whether they are complete: what
waits on them stays among them, and leaves no value for a later round. Two stores are twins if they
differ in such slots alone (`Twins D s t`). What is done to both of them keeps them twins, and so does
what is done to one of them, if it is done to slots in `D`. Cascades that are set off by the one go
hand in hand, but for steps that stay in `D` (`Pace`).
-/

namespace GroupConsumer

variable {V N : Type}

/-- The value that a note keeps, under its name. -/
def Note.entry? : Note V N → Option (N × V)
  | held d v => some (d, v)
  | reported .. | attempted .. | woken _ => none

/-- The listener completes slots in `D` alone, and keeps no value. -/
def Listener.StaysIn (D : SlotId → Prop) : Listener V N → Prop
  | relay target _ | settle target _ _ => D target
  | report _ => True
  | hold .. => False
  | spread targets => ∀ k ∈ targets, D k.1

/-- The step of a cascade completes slots in `D` alone, and keeps no value. -/
def Task.StaysIn (D : SlotId → Prop) : Task V N → Prop
  | tell l _ => l.StaysIn D
  | complete target _ => D target
  | note n => n.entry? = none

/-- Two rows of tasks that are the same, but for tasks that stay in `D`. -/
inductive Pace (D : SlotId → Prop) : List (Task V N) → List (Task V N) → Prop
  | nil : Pace D [] []
  | both (t : Task V N) {ts us : List (Task V N)} (h : Pace D ts us) : Pace D (t :: ts) (t :: us)
  | left {t : Task V N} {ts us : List (Task V N)} (ht : t.StaysIn D) (h : Pace D ts us) :
      Pace D (t :: ts) us
  | right {t : Task V N} {ts us : List (Task V N)} (ht : t.StaysIn D) (h : Pace D ts us) :
      Pace D ts (t :: us)

namespace Pace

variable {D : SlotId → Prop} {ts us ts' us' : List (Task V N)}

theorem refl (D : SlotId → Prop) (ts : List (Task V N)) : Pace D ts ts := by
  induction ts with
  | nil => exact .nil
  | cons t ts ih => exact .both t ih

theorem symm (h : Pace D ts us) : Pace D us ts := by
  induction h with
  | nil => exact .nil
  | both t _ ih => exact .both t ih
  | left ht _ ih => exact .right ht ih
  | right ht _ ih => exact .left ht ih

theorem append (h : Pace D ts us) (h' : Pace D ts' us') : Pace D (ts ++ ts') (us ++ us') := by
  induction h with
  | nil => exact h'
  | both t _ ih => exact .both t ih
  | left ht _ ih => exact .left ht ih
  | right ht _ ih => exact .right ht ih

theorem nil_right (h : ∀ t ∈ ts, t.StaysIn D) : Pace D ts [] := by
  induction ts with
  | nil => exact .nil
  | cons t ts ih =>
    exact .left (h t List.mem_cons_self) (ih fun u hu => h u (List.mem_cons_of_mem _ hu))

/-- Tasks that stay in `D` may be different ones. -/
theorem of_staysIn (h : ∀ t ∈ ts, t.StaysIn D) (h' : ∀ t ∈ us, t.StaysIn D) : Pace D ts us := by
  have := (nil_right h).append (nil_right h').symm
  rwa [List.append_nil] at this

end Pace

namespace Slots

variable {D : SlotId → Prop} {s t : Slots V N} {k : SlotId} {o : Outcome V}

/-- The values that the journal keeps. -/
def kept (s : Slots V N) : List (N × V) := s.journal.toList.filterMap Note.entry?

/-- What waits on slots in `D` stays in `D`. -/
def Encloses (s : Slots V N) (D : SlotId → Prop) : Prop :=
  ∀ i c, D i → s.cells[i]? = some c → ∀ l ∈ c.listeners, l.StaysIn D

/-- The stores differ in slots in `D` alone, and what waits on these stays in `D`. -/
structure Twins (D : SlotId → Prop) (s t : Slots V N) : Prop where
  size : t.cells.size = s.cells.size
  cells : ∀ j, ¬ D j → t.cells[j]? = s.cells[j]?
  kept : t.kept = s.kept
  left : s.Encloses D
  right : t.Encloses D

theorem Twins.refl (h : s.Encloses D) : Twins D s s := ⟨rfl, fun _ _ => rfl, rfl, h, h⟩

theorem Twins.symm (h : Twins D s t) : Twins D t s :=
  ⟨h.size.symm, fun j hj => (h.cells j hj).symm, h.kept.symm, h.right, h.left⟩

/-- A slot outside `D` is complete in both stores or in neither. -/
theorem Twins.isDone (h : Twins D s t) (hk : ¬ D k) : t.isDone k = s.isDone k := by
  rw [Slots.isDone, outcome?, h.cells k hk]
  rfl

/-! ### Changes of one slot -/

theorem kept_note (s : Slots V N) (n : Note V N) :
    (s.note n).kept = s.kept ++ n.entry?.toList := by
  rw [kept, note, Array.toList_push, List.filterMap_append]
  cases h : n.entry? <;> simp [kept, h]

theorem kept_fill (s : Slots V N) (k : SlotId) (o : Outcome V) :
    (s.fill k o).slots.kept = s.kept := by rw [kept, journal_fill, kept]

theorem Encloses.set (h : s.Encloses D) {c : Slot V N}
    (hc : D k → ∀ l ∈ c.listeners, l.StaysIn D) (journal : Array (Note V N)) :
    Encloses ⟨s.cells.setIfInBounds k c, journal⟩ D := by
  intro i d hi hd
  rw [Array.getElem?_setIfInBounds] at hd
  split at hd
  · rename_i hk
    subst hk
    split at hd
    · obtain rfl := Option.some.inj hd
      exact hc hi
    · cases hd
  · exact h i d hi hd

theorem Encloses.fill (h : s.Encloses D) (k : SlotId) (o : Outcome V) :
    (s.fill k o).slots.Encloses D := by
  obtain he | ⟨c, -, -, he⟩ := s.fill_cases k o <;> rw [he]
  · exact h
  · exact h.set (fun _ l hl => absurd hl List.not_mem_nil) _

theorem Encloses.fresh (h : s.Encloses D) : s.fresh.1.Encloses D := by
  intro i c hi hc
  obtain ⟨-, he⟩ | he := s.fresh_cases i
  · obtain rfl := Option.some.inj (hc.symm.trans he)
    exact fun l hl => absurd hl List.not_mem_nil
  · exact h i c hi (he.symm.trans hc)

/-- What completing a slot in `D` sets off stays in `D`. -/
theorem Encloses.tasks (h : s.Encloses D) (hk : D k) (o : Outcome V) :
    ∀ t ∈ (s.fill k o).tasks, t.StaysIn D := by
  obtain he | ⟨c, hc, -, he⟩ := s.fill_cases k o <;> rw [he]
  · exact fun t ht => absurd ht List.not_mem_nil
  · intro t ht
    simp only [Slot.tasks, List.mem_append, List.mem_map] at ht
    obtain ⟨l, hl, rfl⟩ | ⟨w, -, rfl⟩ := ht
    · exact h k c hk hc l hl
    · rfl

namespace Twins

/-- A new entry of a cell, in both stores. -/
theorem set (h : Twins D s t) {c d : Slot V N} (hcd : ¬ D k → c = d)
    (hc : D k → ∀ l ∈ c.listeners, l.StaysIn D) (hd : D k → ∀ l ∈ d.listeners, l.StaysIn D) :
    Twins D ⟨s.cells.setIfInBounds k c, s.journal⟩ ⟨t.cells.setIfInBounds k d, t.journal⟩ where
  size := by
    simp only [Array.size_setIfInBounds]
    exact h.size
  cells j hj := by
    rw [Array.getElem?_setIfInBounds, Array.getElem?_setIfInBounds, h.size, h.cells j hj]
    by_cases hk : k = j
    · rw [hcd (hk ▸ hj)]
    · rw [if_neg hk, if_neg hk]
  kept := h.kept
  left := h.left.set hc _
  right := h.right.set hd _

theorem note (h : Twins D s t) (n : Note V N) : Twins D (s.note n) (t.note n) :=
  { h with kept := by rw [kept_note, kept_note, h.kept] }

theorem note_left (h : Twins D s t) {n : Note V N} (hn : n.entry? = none) :
    Twins D (s.note n) t :=
  { h with kept := by rw [kept_note, hn, Option.toList_none, List.append_nil, h.kept] }

/-- Completing a slot in `D` in one store alone. -/
theorem fill_left (h : Twins D s t) (hk : D k) (o : Outcome V) :
    Twins D (s.fill k o).slots t where
  size := h.size.trans (size_fill s k o).symm
  cells j hj := by
    have hne : k ≠ j := fun he => hj (he ▸ hk)
    rw [h.cells j hj]
    obtain he | ⟨c, -, -, he⟩ := s.fill_cases k o <;> rw [he]
    exact (Array.getElem?_setIfInBounds_ne hne).symm
  kept := h.kept.trans (kept_fill s k o).symm
  left := h.left.fill k o
  right := h.right

theorem fill (h : Twins D s t) (k : SlotId) (o : Outcome V) :
    Twins D (s.fill k o).slots (t.fill k o).slots ∧
      Pace D (s.fill k o).tasks (t.fill k o).tasks := by
  by_cases hk : D k
  · exact ⟨((h.fill_left hk o).symm.fill_left hk o).symm,
      .of_staysIn (h.left.tasks hk o) (h.right.tasks hk o)⟩
  · unfold Slots.fill
    rw [h.cells k hk]
    split
    · split
      · exact ⟨h.set (fun _ => rfl) (fun hD => absurd hD hk) fun hD => absurd hD hk, .refl D _⟩
      · exact ⟨h, .nil⟩
    · exact ⟨h, .nil⟩

/-! ### Cascades -/

/-- A step that stays in `D` may be taken in one store alone. -/
theorem perform_left (h : Twins D s t) {u : Task V N} (hu : u.StaysIn D) :
    Twins D (s.perform u).1 t ∧ ∀ v ∈ (s.perform u).2, v.StaysIn D := by
  have hnone {s' : Slots V N} (hs : Twins D s' t) :
      Twins D s' t ∧ ∀ v ∈ ([] : List (Task V N)), v.StaysIn D :=
    ⟨hs, fun v hv => absurd hv List.not_mem_nil⟩
  have hfill {k : SlotId} (hk : D k) (o : Outcome V) :
      Twins D (s.fill k o).slots t ∧ ∀ v ∈ (s.fill k o).tasks, v.StaysIn D :=
    ⟨h.fill_left hk o, h.left.tasks hk o⟩
  cases u with
  | note n => exact hnone (h.note_left hu)
  | complete target o => exact hfill hu o
  | tell l o =>
    cases l with
    | relay target image => exact hfill hu _
    | settle target value name =>
      refine ⟨h.fill_left hu _, fun v hv => ?_⟩
      obtain hv | hv := List.mem_append.1 hv
      · exact h.left.tasks hu _ v hv
      · rw [List.mem_singleton.1 hv]
        rfl
    | report name => exact hnone (h.note_left rfl)
    | hold name target => exact hu.elim
    | spread targets =>
      refine ⟨h, fun v hv => ?_⟩
      obtain ⟨k, hk, rfl⟩ := List.mem_map.1 hv
      obtain ⟨a, ha, hak⟩ := List.mem_filterMap.1 hk
      obtain ⟨o', -, rfl⟩ := Option.map_eq_some_iff.1 hak
      exact hu a ha

/-- The same step in both stores. -/
theorem perform (h : Twins D s t) (u : Task V N) :
    Twins D (s.perform u).1 (t.perform u).1 ∧ Pace D (s.perform u).2 (t.perform u).2 := by
  cases u with
  | note n => exact ⟨h.note n, .nil⟩
  | complete target o => exact h.fill target o
  | tell l o =>
    cases l with
    | relay target image => exact h.fill target _
    | settle target value name =>
      obtain ⟨ht, hp⟩ := h.fill target (.ok value)
      -- Which of the two completions came first is noted, but nobody is to know.
      have hnote (first : Bool) :
          ∀ v ∈ [(.note (.attempted name first) : Task V N)], v.StaysIn D := by
        intro v hv
        rw [List.mem_singleton.1 hv]
        rfl
      exact ⟨ht, hp.append (.of_staysIn (hnote _) (hnote _))⟩
    | report name => exact ⟨h.note _, .nil⟩
    | hold name target =>
      cases o with
      | ok v => exact ⟨h.note _, .nil⟩
      | error e =>
        cases target with
        | none => exact ⟨h, .nil⟩
        | some target => exact h.fill target _
    | spread targets => exact ⟨h, .refl D _⟩

/-- Cascades that keep pace with each other. The induction is on how much they can still set off. -/
theorem cascade {s t : Slots V N} {ts us : List (Task V N)} (h : Twins D s t)
    (hp : Pace D ts us) : Twins D (s.cascade ts) (t.cascade us) := by
  cases hp with
  | nil =>
    rw [cascade_nil, cascade_nil]
    exact h
  | both u hp =>
    obtain ⟨hu, hus⟩ := h.perform u
    rw [cascade_cons, cascade_cons]
    exact hu.cascade (hus.append hp)
  | @left u _ _ hu hp =>
    obtain ⟨hs, hus⟩ := h.perform_left hu
    rw [cascade_cons]
    exact hs.cascade ((Pace.nil_right hus).append hp)
  | @right u _ _ hu hp =>
    obtain ⟨hs, hus⟩ := h.symm.perform_left hu
    rw [t.cascade_cons]
    exact hs.symm.cascade ((Pace.nil_right hus).symm.append hp)
termination_by s.weight + Task.total ts + (t.weight + Task.total us)
decreasing_by
  all_goals subst_vars
  · have hs := weight_perform s u
    have ht := weight_perform t u
    simp only [Task.total_append, Task.total_cons]
    omega
  · have hs := weight_perform s u
    simp only [Task.total_append, Task.total_cons]
    omega
  · have ht := weight_perform t u
    simp only [Task.total_append, Task.total_cons]
    omega

/-! ### Operations -/

theorem settle (h : Twins D s t) (k : SlotId) (o : Outcome V) :
    Twins D (s.settle k o) (t.settle k o) := (h.fill k o).1.cascade (h.fill k o).2

/-- A slot in `D` that is completed in one of the stores alone. -/
theorem settle_left (h : Twins D s t) (hk : D k) (o : Outcome V) : Twins D (s.settle k o) t := by
  have := (h.fill_left hk o).cascade (Pace.nil_right (h.left.tasks hk o))
  rwa [cascade_nil] at this

/-- A listener on a slot in `D` has to stay in `D`. -/
theorem listen (h : Twins D s t) {l : Listener V N} (hl : D k → l.StaysIn D) :
    Twins D (s.listen k l) (t.listen k l) := by
  by_cases hk : D k
  · -- The slot may be complete in one of the stores and pending in the other.
    have hleft {s t : Slots V N} (h : Twins D s t) : Twins D (s.listen k l) t := by
      obtain he | ⟨c, hc, -, he⟩ | ⟨o, -, he⟩ := s.listen_cases k l <;> rw [he]
      · exact h
      · have hls : ∀ l' ∈ c.listeners ++ [l], l'.StaysIn D := by
          intro l' hl'
          obtain hl' | hl' := List.mem_append.1 hl'
          · exact h.left k c hk hc l' hl'
          · rw [List.mem_singleton.1 hl']
            exact hl hk
        exact
          { size := h.size.trans Array.size_setIfInBounds.symm
            cells := fun j hj => by
              have hne : k ≠ j := fun hkj => hj (hkj ▸ hk)
              exact (h.cells j hj).trans (Array.getElem?_setIfInBounds_ne hne).symm
            kept := h.kept
            left := h.left.set (fun _ => hls) _
            right := h.right }
      · have htell : Pace D [.tell l o] [] := .left (hl hk) .nil
        have := h.cascade htell
        rwa [cascade_nil] at this
    exact (hleft (hleft h).symm).symm
  · unfold Slots.listen
    rw [h.cells k hk]
    split
    · split
      · exact h.set (fun _ => rfl) (fun hD => absurd hD hk) fun hD => absurd hD hk
      · exact h.cascade (.refl D _)
    · exact h

theorem fresh (h : Twins D s t) : Twins D s.fresh.1 t.fresh.1 where
  size := by rw [size_fresh, size_fresh, h.size]
  cells j hj := by
    show (t.cells.push {})[j]? = (s.cells.push {})[j]?
    rw [Array.getElem?_push, Array.getElem?_push, h.size, h.cells j hj]
  kept := h.kept
  left := h.left.fresh
  right := h.right.fresh

end Twins

end Slots

end GroupConsumer
