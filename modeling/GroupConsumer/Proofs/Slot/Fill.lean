import GroupConsumer.Slot.Basic

/-!
# Operations on one slot

What `fill` does to a store: it completes a slot that is pending and hands on what the slot had
registered, and otherwise does nothing (`fill_cases`). Every other slot stays as it is. Registering a
listener or a waker depends on whether the slot is pending, too.
-/

namespace GroupConsumer.Slots

variable {V N : Type} {s : Slots V N} {i k : SlotId}

theorem outcome?_eq_some {o : Outcome V} :
    s.outcome? i = some o ↔ ∃ c, s.cells[i]? = some c ∧ c.outcome = some o := by
  rw [outcome?, Option.bind_eq_some_iff]

theorem isDone_of_outcome {o : Outcome V} (h : s.outcome? i = some o) : s.isDone i = true :=
  Option.isSome_iff_exists.2 ⟨o, h⟩

theorem isPending_iff : s.isPending i = true ↔ i < s.cells.size ∧ s.outcome? i = none := by
  rw [isPending, outcome?]
  by_cases hi : i < s.cells.size
  · rw [Array.getElem?_eq_getElem hi]
    simp [hi]
  · rw [Array.getElem?_eq_none (Nat.le_of_not_lt hi)]
    simp [hi]

theorem not_isPending_of_isDone (h : s.isDone i = true) : s.isPending i = false := by
  rw [Bool.eq_false_iff]
  intro hp
  obtain ⟨-, hnone⟩ := isPending_iff.1 hp
  rw [isDone, hnone] at h
  cases h

theorem exists_cell_of_isPending (h : s.isPending i = true) :
    ∃ c, s.cells[i]? = some c ∧ c.outcome = none := by
  obtain ⟨c, hc, hp⟩ := (Option.any_eq_true _ _).1 h
  exact ⟨c, hc, Option.isNone_iff_eq_none.1 hp⟩

theorem fill_of_pending {c : Slot V N} (hc : s.cells[k]? = some c)
    (hp : c.outcome = none) (o : Outcome V) :
    s.fill k o =
      ⟨⟨s.cells.setIfInBounds k { outcome := some o }, s.journal⟩, c.tasks o, true⟩ := by
  rw [fill, hc]
  simp only [hp]

/-- Completing a slot does something if the slot is pending. -/
theorem fill_cases (s : Slots V N) (k : SlotId) (o : Outcome V) :
    s.fill k o = ⟨s, [], false⟩ ∨
      ∃ c, s.cells[k]? = some c ∧ c.outcome = none ∧
        s.fill k o =
          ⟨⟨s.cells.setIfInBounds k { outcome := some o }, s.journal⟩, c.tasks o, true⟩ := by
  unfold fill
  split
  · rename_i c hc
    split
    · rename_i hp
      exact Or.inr ⟨c, hc, hp, rfl⟩
    · exact Or.inl rfl
  · exact Or.inl rfl

/-- The completion of what is not pending comes to nothing. -/
theorem settle_of_not_isPending (h : s.isPending i = false) (o : Outcome V) :
    s.settle i o = s := by
  obtain he | ⟨c, hc, hn, -⟩ := s.fill_cases i o
  · show (s.fill i o).slots.cascade (s.fill i o).tasks = s
    rw [he, cascade_nil]
  · rw [isPending, hc, Option.any_some, hn] at h
    cases h

theorem listen_of_pending {c : Slot V N} (hc : s.cells[k]? = some c) (hp : c.outcome = none)
    (l : Listener V N) : s.listen k l =
      ⟨s.cells.setIfInBounds k { c with listeners := c.listeners ++ [l] }, s.journal⟩ := by
  rw [listen, hc]
  simp only [hp]

theorem listen_of_outcome? {o : Outcome V} (h : s.outcome? k = some o) (l : Listener V N) :
    s.listen k l = s.cascade [.tell l o] := by
  obtain ⟨c, hc, ho⟩ := outcome?_eq_some.1 h
  rw [listen, hc]
  simp only [ho]

/-- A listener is registered with a slot that is pending, and told at once if it is complete. -/
theorem listen_cases (s : Slots V N) (k : SlotId) (l : Listener V N) :
    s.listen k l = s ∨
      (∃ c, s.cells[k]? = some c ∧ c.outcome = none ∧ s.listen k l =
        ⟨s.cells.setIfInBounds k { c with listeners := c.listeners ++ [l] }, s.journal⟩) ∨
      ∃ o, s.outcome? k = some o ∧ s.listen k l = s.cascade [.tell l o] := by
  cases hc : s.cells[k]? with
  | none =>
    rw [listen, hc]
    exact Or.inl rfl
  | some c =>
    cases ho : c.outcome with
    | none => exact Or.inr (Or.inl ⟨c, rfl, ho, listen_of_pending hc ho l⟩)
    | some o =>
      have hk : s.outcome? k = some o := outcome?_eq_some.2 ⟨c, hc, ho⟩
      exact Or.inr (Or.inr ⟨o, hk, listen_of_outcome? hk l⟩)

theorem poll_of_pending {c : Slot V N} (hc : s.cells[k]? = some c) (hp : c.outcome = none)
    (w : Nat) : s.poll k w =
      (if c.wakers.contains w then s
        else ⟨s.cells.setIfInBounds k { c with wakers := c.wakers ++ [w] }, s.journal⟩, none) := by
  rw [poll, hc]
  simp only [hp]
  split <;> rfl

theorem poll_of_outcome? {o : Outcome V} (h : s.outcome? k = some o) (w : Nat) :
    s.poll k w = (s, some o) := by
  obtain ⟨c, hc, ho⟩ := outcome?_eq_some.1 h
  rw [poll, hc]
  simp only [ho]

theorem outcome?_set_of_ne (hne : k ≠ i) (d : Slot V N) :
    outcome? ⟨s.cells.setIfInBounds k d, s.journal⟩ i = s.outcome? i := by
  rw [outcome?, outcome?, Array.getElem?_setIfInBounds_ne hne]

theorem outcome?_fill_self {c : Slot V N} (hc : s.cells[k]? = some c) (o : Outcome V) :
    outcome? ⟨s.cells.setIfInBounds k { outcome := some o }, s.journal⟩ k = some o := by
  obtain ⟨hk, -⟩ := Array.getElem?_eq_some_iff.1 hc
  rw [outcome?, Array.getElem?_setIfInBounds_self_of_lt hk]
  rfl

theorem outcome?_fill_of_ne (hne : k ≠ i) (o : Outcome V) :
    (s.fill k o).slots.outcome? i = s.outcome? i := by
  obtain he | ⟨c, -, -, he⟩ := s.fill_cases k o
  · rw [he]
  · rw [he]
    exact outcome?_set_of_ne hne _

theorem outcome?_set_listeners {c : Slot V N} (hc : s.cells[k]? = some c)
    (ls : List (Listener V N)) (i : SlotId) :
    outcome? ⟨s.cells.setIfInBounds k { c with listeners := ls }, s.journal⟩ i = s.outcome? i := by
  by_cases hne : k = i
  · subst hne
    obtain ⟨hk, -⟩ := Array.getElem?_eq_some_iff.1 hc
    rw [outcome?, outcome?, hc, Array.getElem?_setIfInBounds_self_of_lt hk]
    rfl
  · exact outcome?_set_of_ne hne _

/-- Where there has not been a slot before, a new one is empty; all others are as they were. -/
theorem fresh_cases (s : Slots V N) (i : SlotId) :
    (s.cells[i]? = none ∧ s.fresh.1.cells[i]? = some {}) ∨
      s.fresh.1.cells[i]? = s.cells[i]? := by
  rw [Slots.fresh, Array.getElem?_push]
  split
  · rename_i h
    exact Or.inl ⟨Array.getElem?_eq_none (Nat.le_of_eq h.symm), rfl⟩
  · exact Or.inr rfl

theorem getElem?_fresh {c : Slot V N} (hc : s.cells[i]? = some c) :
    s.fresh.1.cells[i]? = some c := by
  obtain ⟨hn, -⟩ | he := s.fresh_cases i
  · cases hc.symm.trans hn
  · exact he.trans hc

theorem outcome?_fresh (s : Slots V N) (i : SlotId) :
    s.fresh.1.outcome? i = s.outcome? i := by
  obtain ⟨hn, he⟩ | he := s.fresh_cases i
  · rw [outcome?, outcome?, hn, he]
    rfl
  · rw [outcome?, outcome?, he]

theorem journal_fill (s : Slots V N) (k : SlotId) (o : Outcome V) :
    (s.fill k o).slots.journal = s.journal := by
  obtain he | ⟨c, -, -, he⟩ := s.fill_cases k o <;> rw [he]

theorem journal_poll (s : Slots V N) (k : SlotId) (w : Nat) :
    (s.poll k w).1.journal = s.journal := by
  unfold poll
  repeat' split
  all_goals rfl

theorem size_fill (s : Slots V N) (k : SlotId) (o : Outcome V) :
    (s.fill k o).slots.cells.size = s.cells.size := by
  obtain he | ⟨c, -, -, he⟩ := s.fill_cases k o
  · rw [he]
  · rw [he]
    exact Array.size_setIfInBounds

theorem size_fresh (s : Slots V N) : s.fresh.1.cells.size = s.cells.size + 1 :=
  Array.size_push _

end GroupConsumer.Slots
