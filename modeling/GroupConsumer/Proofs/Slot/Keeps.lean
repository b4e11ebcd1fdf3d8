import GroupConsumer.Proofs.Slot.Fill

/-!
# Outcomes stay

A store only ever gains outcomes: `Keeps s t` says that every outcome of `s` is in `t` unchanged. It
holds from any store to the one after an operation, however far the operation cascades.
-/

namespace GroupConsumer.Slots

variable {V N : Type}

/-- Every outcome of `s` is in `t` unchanged. -/
def Keeps (s t : Slots V N) : Prop := ∀ i o, s.outcome? i = some o → t.outcome? i = some o

theorem Keeps.refl (s : Slots V N) : Keeps s s := fun _ _ h => h

theorem Keeps.trans {s t u : Slots V N} (h : Keeps s t) (h' : Keeps t u) : Keeps s u :=
  fun i o ho => h' i o (h i o ho)

theorem Keeps.isDone {s t : Slots V N} (h : Keeps s t) {i : SlotId} (hi : s.isDone i = true) :
    t.isDone i = true := by
  obtain ⟨o, ho⟩ := Option.isSome_iff_exists.1 hi
  exact Option.isSome_iff_exists.2 ⟨o, h i o ho⟩

/-- Stores with the same cells keep each other's outcomes. -/
theorem keeps_of_cells {s t : Slots V N} (h : t.cells = s.cells) : Keeps s t := by
  intro i o ho
  rw [outcome?, h]
  exact ho

/-- A cell that is pending can be replaced. -/
theorem keeps_setIfInBounds {s : Slots V N} {i : SlotId} {c d : Slot V N}
    (hc : s.cells[i]? = some c) (hp : c.outcome = none) (j : Array (Note V N)) :
    Keeps s ⟨s.cells.setIfInBounds i d, j⟩ := by
  intro k o ho
  obtain ⟨e, he, heo⟩ := outcome?_eq_some.1 ho
  have hne : i ≠ k := by
    rintro rfl
    rw [hc] at he
    obtain rfl := Option.some.inj he
    rw [hp] at heo
    exact absurd heo (by simp)
  refine outcome?_eq_some.2 ⟨e, ?_, heo⟩
  rw [Array.getElem?_setIfInBounds_ne hne]
  exact he

theorem keeps_fill (s : Slots V N) (i : SlotId) (o : Outcome V) : Keeps s (s.fill i o).slots := by
  unfold fill
  split
  · rename_i c hc
    split
    · rename_i hp
      exact keeps_setIfInBounds hc hp _
    · exact Keeps.refl s
  · exact Keeps.refl s

theorem keeps_note (s : Slots V N) (n : Note V N) : Keeps s (s.note n) := keeps_of_cells rfl

theorem keeps_perform (s : Slots V N) (t : Task V N) : Keeps s (s.perform t).1 := by
  unfold perform
  split
  · exact keeps_note s _
  · exact keeps_fill s _ _
  · exact keeps_fill s _ _
  · exact keeps_fill s _ _
  · exact keeps_note s _
  · exact keeps_note s _
  · exact keeps_fill s _ _
  · exact Keeps.refl s
  · exact Keeps.refl s

theorem keeps_cascade (s : Slots V N) (ts : List (Task V N)) : Keeps s (s.cascade ts) := by
  induction s, ts using cascade.induct with
  | case1 s =>
    rw [cascade_nil]
    exact Keeps.refl s
  | case2 s t ts ih =>
    rw [cascade_cons]
    exact (keeps_perform s t).trans ih

theorem keeps_settle (s : Slots V N) (i : SlotId) (o : Outcome V) : Keeps s (s.settle i o) :=
  (keeps_fill s i o).trans (keeps_cascade _ _)

/-- A slot that is completed while it is pending has the outcome that it is completed with. -/
theorem outcome?_settle_self {s : Slots V N} {i : SlotId} (h : s.isPending i = true)
    (o : Outcome V) :
    (s.settle i o).outcome? i = some o := by
  obtain ⟨c, hc, hn⟩ := exists_cell_of_isPending h
  refine keeps_cascade _ _ _ _ ?_
  rw [fill_of_pending hc hn]
  exact outcome?_fill_self hc o

theorem keeps_listen (s : Slots V N) (i : SlotId) (l : Listener V N) : Keeps s (s.listen i l) := by
  obtain he | ⟨c, hc, hp, he⟩ | ⟨o, -, he⟩ := s.listen_cases i l <;> rw [he]
  · exact Keeps.refl s
  · exact keeps_setIfInBounds hc hp _
  · exact keeps_cascade s _

theorem keeps_poll (s : Slots V N) (i : SlotId) (w : Nat) : Keeps s (s.poll i w).1 := by
  cases hc : s.cells[i]? with
  | none =>
    rw [Slots.poll, hc]
    exact Keeps.refl s
  | some c =>
    cases ho : c.outcome with
    | none =>
      rw [poll_of_pending hc ho]
      split
      · exact Keeps.refl s
      · exact keeps_setIfInBounds hc ho _
    | some o =>
      rw [poll_of_outcome? (outcome?_eq_some.2 ⟨c, hc, ho⟩)]
      exact Keeps.refl s

theorem keeps_fresh (s : Slots V N) : Keeps s s.fresh.1 := by
  intro i o ho
  obtain ⟨c, hc, hco⟩ := outcome?_eq_some.1 ho
  exact outcome?_eq_some.2 ⟨c, getElem?_fresh hc, hco⟩

/-- A pending slot that is linked to a complete one gets what the link makes of its outcome at once. -/
theorem outcome?_listen_relay {s : Slots V N} {k i : SlotId} {o : Outcome V}
    (hk : s.outcome? k = some o) (hi : s.isPending i = true) (image : V → V) :
    (s.listen k (.relay i image)).outcome? i = some (o.map image) := by
  obtain ⟨c, hc, hn⟩ := exists_cell_of_isPending hi
  rw [listen_of_outcome? hk, cascade_cons]
  refine keeps_cascade _ _ _ _ ?_
  show (s.fill i (o.map image)).slots.outcome? i = some (o.map image)
  rw [fill_of_pending hc hn]
  exact outcome?_fill_self hc _

theorem outcome?_chain {s : Slots V N} {k i : SlotId} {o : Outcome V}
    (hk : s.outcome? k = some o) (hi : s.isPending i = true) :
    (s.chain k i).outcome? i = some o := by
  have ho : o.map id = o := by cases o <;> rfl
  rw [chain, outcome?_listen_relay hk hi, ho]

/-- A slot that is complete from the start makes no other slot complete. -/
theorem isPending_freshWith {s : Slots V N} {i : SlotId} (h : s.isPending i = true)
    (o : Outcome V) : (s.freshWith o).1.isPending i = true := by
  obtain ⟨hlt, hn⟩ := isPending_iff.1 h
  have hc : s.fresh.1.cells[s.cells.size]? = some {} := Array.getElem?_push_size
  have ht : (s.fresh.1.fill s.cells.size o).tasks = [] := by
    rw [fill_of_pending hc rfl]
    rfl
  have he : (s.freshWith o).1 = (s.fresh.1.fill s.cells.size o).slots := by
    show (s.fresh.1.fill s.cells.size o).slots.cascade (s.fresh.1.fill s.cells.size o).tasks = _
    rw [ht, cascade_nil]
  rw [he, isPending_iff, size_fill, size_fresh, outcome?_fill_of_ne (Nat.ne_of_gt hlt), outcome?_fresh]
  exact ⟨Nat.lt_succ_of_lt hlt, hn⟩

end GroupConsumer.Slots
