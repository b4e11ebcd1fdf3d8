import GroupConsumer.Proofs.Slot.Leads

/-!
# Who sees to a slot

A slot that somebody waits for is not forgotten as long as a listener on another, pending slot will
complete it, or will keep a value for a lookup whose answer leads to it. `Hooks D i j` says that such
a listener waits on the slot `i` for the sake of `j`, and `Met D j` that `j` is complete or that a value
for a lookup in `D` has been kept. When the slot `i` is completed, the one turns into the other, however
the completion comes about (`Hooks.settle`, `Hooks.listen`); and what is met stays met.
-/

namespace GroupConsumer

/-- The listener, when it is told, completes the slot `j`, or keeps a value for a lookup in `D` that is
made for `j`. One that spreads an outcome may make nothing of it. -/
def Listener.SeesTo (D : Deferral → Prop) (j : SlotId) : Listener Value Deferral → Prop
  | relay target _ | settle target _ _ => target = j
  | report _ | spread _ => False
  | hold d target => D d ∧ target = some j

/-- The step of a cascade tells a listener that sees to `j`, or completes `j` itself. -/
def Task.SeesTo (D : Deferral → Prop) (j : SlotId) : Task Value Deferral → Prop
  | tell l _ => l.SeesTo D j
  | complete target _ => target = j
  | note _ => False

theorem Listener.SeesTo.mono {D D' : Deferral → Prop} {j : SlotId} {l : Listener Value Deferral}
    (h : l.SeesTo D j) (hD : ∀ d, D d → D' d) : l.SeesTo D' j := by
  cases l with
  | hold d target => exact h.imp_left (hD d)
  | _ => exact h

namespace Slots

variable {s t : Slots Value Deferral} {D D' : Deferral → Prop} {i j k : SlotId}

/-- The slot `j` is complete, or a value has been kept for a lookup in `D`. -/
def Met (s : Slots Value Deferral) (D : Deferral → Prop) (j : SlotId) : Prop :=
  s.isDone j = true ∨ ∃ d v, D d ∧ Note.held d v ∈ s.journal.toList

/-- A listener that sees to `j` waits on the pending slot `i`. -/
def Hooks (s : Slots Value Deferral) (D : Deferral → Prop) (i j : SlotId) : Prop :=
  ∃ c, s.cells[i]? = some c ∧ c.outcome = none ∧ ∃ l ∈ c.listeners, l.SeesTo D j

theorem Met.mono (h : s.Met D j) (hD : ∀ d, D d → D' d) : s.Met D' j := by
  obtain h | ⟨d, v, hd, hn⟩ := h
  · exact Or.inl h
  · exact Or.inr ⟨d, v, hD d hd, hn⟩

theorem Hooks.mono (h : s.Hooks D i j) (hD : ∀ d, D d → D' d) : s.Hooks D' i j := by
  obtain ⟨c, hc, hp, l, hl, hs⟩ := h
  exact ⟨c, hc, hp, l, hl, hs.mono hD⟩

/-- A slot on which somebody waits is not complete. -/
theorem Hooks.not_isDone (h : s.Hooks D i j) : s.isDone i = false := by
  obtain ⟨c, hc, hp, -⟩ := h
  rw [isDone, outcome?, hc, Option.bind_some, hp]
  rfl

/-- What keeps the outcomes and appends to the journal keeps what is met. -/
theorem Met.of_keeps (h : s.Met D j) (hk : s.Keeps t)
    (hj : ∀ n ∈ s.journal.toList, n ∈ t.journal.toList) : t.Met D j := by
  obtain h | ⟨d, v, hd, hn⟩ := h
  · exact Or.inl (hk.isDone h)
  · exact Or.inr ⟨d, v, hd, hj _ hn⟩

/-! ### The journal grows -/

theorem mem_journal_note (n : Note Value Deferral) : n ∈ (s.note n).journal.toList := by
  simp [note]

theorem mem_journal_perform (t : Task Value Deferral) {n : Note Value Deferral}
    (h : n ∈ s.journal.toList) : n ∈ (s.perform t).1.journal.toList := by
  obtain ⟨us, he, -⟩ | ⟨m, he, -⟩ | ⟨k, o, us, -, he, -⟩ := s.perform_cases t
  · rwa [he]
  · rw [he]
    simp only [note, Array.toList_push]
    exact List.mem_append_left _ h
  · rw [he]
    show n ∈ (s.fill k o).slots.journal.toList
    rwa [journal_fill]

theorem mem_journal_cascade (ts : List (Task Value Deferral)) {n : Note Value Deferral}
    (h : n ∈ s.journal.toList) : n ∈ (s.cascade ts).journal.toList := by
  induction s, ts using cascade.induct with
  | case1 s => rwa [cascade_nil]
  | case2 s t ts ih =>
    rw [cascade_cons]
    exact ih (mem_journal_perform t h)

theorem mem_journal_settle (k : SlotId) (o : Outcome Value) {n : Note Value Deferral}
    (h : n ∈ s.journal.toList) : n ∈ (s.settle k o).journal.toList := by
  refine mem_journal_cascade _ ?_
  rwa [journal_fill]

theorem mem_journal_listen (k : SlotId) (l : Listener Value Deferral) {n : Note Value Deferral}
    (h : n ∈ s.journal.toList) : n ∈ (s.listen k l).journal.toList := by
  obtain he | ⟨c, -, -, he⟩ | ⟨o, -, he⟩ := s.listen_cases k l <;> rw [he]
  · exact h
  · exact h
  · exact mem_journal_cascade _ h

theorem Met.perform (h : s.Met D j) (t : Task Value Deferral) : (s.perform t).1.Met D j :=
  h.of_keeps (keeps_perform s t) fun _ => mem_journal_perform t

theorem Met.settle (h : s.Met D j) (k : SlotId) (o : Outcome Value) : (s.settle k o).Met D j :=
  h.of_keeps (keeps_settle s k o) fun _ => mem_journal_settle k o

theorem Met.listen (h : s.Met D j) (k : SlotId) (l : Listener Value Deferral) :
    (s.listen k l).Met D j := h.of_keeps (keeps_listen s k l) fun _ => mem_journal_listen k l

/-! ### Cascades -/

/-- A listener that sees to a slot has done so when it has been told. -/
theorem met_perform {t : Task Value Deferral} (ht : t.SeesTo D j) (hj : j < s.cells.size) :
    (s.perform t).1.Met D j := by
  have hfill (o : Outcome Value) : (s.fill j o).slots.Met D j := Or.inl (isDone_fill hj o)
  cases t with
  | note n => cases ht
  | complete target o =>
    obtain rfl : target = j := ht
    exact hfill _
  | tell l o =>
    cases l with
    | relay target image =>
      obtain rfl : target = j := ht
      exact hfill _
    | settle target value name =>
      obtain rfl : target = j := ht
      exact hfill _
    | report name | spread targets => cases ht
    | hold d target =>
      obtain ⟨hd, rfl⟩ : D d ∧ target = some j := ht
      cases o with
      | ok v => exact Or.inr ⟨d, v, hd, mem_journal_note _⟩
      | error e => exact hfill _

theorem Hooks.fill (h : s.Hooks D i j) (k : SlotId) (o : Outcome Value) :
    (s.fill k o).slots.Hooks D i j ∨ ∃ t ∈ (s.fill k o).tasks, t.SeesTo D j := by
  obtain ⟨c, hc, hp, l, hl, hs⟩ := h
  by_cases hk : k = i
  · subst hk
    rw [fill_of_pending hc hp]
    exact Or.inr ⟨.tell l o, List.mem_append_left _ (List.mem_map_of_mem hl), hs⟩
  · obtain he | ⟨d, -, -, he⟩ := s.fill_cases k o
    · rw [he]
      exact Or.inl ⟨c, hc, hp, l, hl, hs⟩
    · rw [he]
      refine Or.inl ⟨c, ?_, hp, l, hl, hs⟩
      rwa [Array.getElem?_setIfInBounds_ne hk]

theorem Hooks.perform (h : s.Hooks D i j) (t : Task Value Deferral) :
    (s.perform t).1.Hooks D i j ∨ ∃ u ∈ (s.perform t).2, u.SeesTo D j := by
  obtain ⟨us, he, -⟩ | ⟨n, he, -⟩ | ⟨k, o, us, -, he, -⟩ := s.perform_cases t
  · rw [he]
    exact Or.inl h
  · rw [he]
    exact Or.inl h
  · rw [he]
    refine (h.fill k o).imp_right fun hu => ?_
    obtain ⟨u, hu, hs⟩ := hu
    exact ⟨u, List.mem_append_left _ hu, hs⟩

/-- A cascade leaves a listener where it is, or tells it. -/
theorem hooks_or_met_cascade {ts : List (Task Value Deferral)} (hj : j < s.cells.size)
    (h : s.Hooks D i j ∨ s.Met D j ∨ ∃ t ∈ ts, t.SeesTo D j) :
    (s.cascade ts).Hooks D i j ∨ (s.cascade ts).Met D j := by
  induction s, ts using cascade.induct with
  | case1 s =>
    rw [cascade_nil]
    obtain h | h | ⟨t, ht, -⟩ := h
    · exact Or.inl h
    · exact Or.inr h
    · cases ht
  | case2 s t ts ih =>
    rw [cascade_cons]
    have hsize : (s.perform t).1.cells.size = s.cells.size := size_perform s t
    refine ih (by rwa [hsize]) ?_
    obtain h | h | ⟨u, hu, hs⟩ := h
    · refine (h.perform t).imp_right fun hu => Or.inr ?_
      obtain ⟨u, hu, hs⟩ := hu
      exact ⟨u, List.mem_append_left _ hu, hs⟩
    · exact Or.inr (Or.inl (h.perform t))
    · obtain rfl | hu := List.mem_cons.1 hu
      · exact Or.inr (Or.inl (met_perform hs hj))
      · exact Or.inr (Or.inr ⟨u, List.mem_append_right _ hu, hs⟩)

/-! ### Single operations -/

theorem Hooks.settle (h : s.Hooks D i j) (hj : j < s.cells.size) (k : SlotId) (o : Outcome Value) :
    (s.settle k o).Hooks D i j ∨ (s.settle k o).Met D j := by
  refine hooks_or_met_cascade (s := (s.fill k o).slots) (by rwa [size_fill]) ?_
  exact (h.fill k o).imp_right Or.inr

/-- Completing the slot on which a listener waits that sees to `j`. -/
theorem Hooks.settle_self (h : s.Hooks D i j) (hj : j < s.cells.size) (o : Outcome Value) :
    (s.settle i o).Met D j := by
  obtain ⟨c, hc, -⟩ := id h
  obtain hh | hm := h.settle hj i o
  · have hd := isDone_settle (Array.getElem?_eq_some_iff.1 hc).1 o
    rw [hh.not_isDone] at hd
    cases hd
  · exact hm

/-- A listener that sees to `j` is hooked onto a slot. -/
theorem hooks_or_met_listen {l : Listener Value Deferral} (hi : i < s.cells.size)
    (hj : j < s.cells.size) (hl : l.SeesTo D j) :
    (s.listen i l).Hooks D i j ∨ (s.listen i l).Met D j := by
  cases ho : s.outcome? i with
  | none =>
    obtain ⟨c, hc, hp⟩ := exists_cell_of_isPending (isPending_iff.2 ⟨hi, ho⟩)
    rw [listen_of_pending hc hp]
    refine Or.inl ⟨_, Array.getElem?_setIfInBounds_self_of_lt hi, hp, l, ?_, hl⟩
    exact List.mem_append_right _ (List.mem_singleton_self l)
  | some o =>
    rw [listen_of_outcome? ho]
    exact hooks_or_met_cascade hj (Or.inr (Or.inr ⟨_, List.mem_singleton_self _, hl⟩))

theorem Hooks.listen (h : s.Hooks D i j) (hj : j < s.cells.size) (k : SlotId)
    (l : Listener Value Deferral) : (s.listen k l).Hooks D i j ∨ (s.listen k l).Met D j := by
  obtain he | ⟨d, hd, -, he⟩ | ⟨o, -, he⟩ := s.listen_cases k l <;> rw [he]
  · exact Or.inl h
  · obtain ⟨c, hc, hp, m, hm, hs⟩ := h
    refine Or.inl ?_
    by_cases hk : k = i
    · subst hk
      obtain rfl := Option.some.inj (hc.symm.trans hd)
      obtain ⟨hlt, -⟩ := Array.getElem?_eq_some_iff.1 hc
      exact ⟨_, Array.getElem?_setIfInBounds_self_of_lt hlt, hp, m, List.mem_append_left _ hm, hs⟩
    · exact ⟨c, by rwa [Array.getElem?_setIfInBounds_ne hk], hp, m, hm, hs⟩
  · exact hooks_or_met_cascade hj (Or.inl h)

theorem Hooks.fresh (h : s.Hooks D i j) : s.fresh.1.Hooks D i j := by
  obtain ⟨c, hc, hp, l, hl, hs⟩ := h
  exact ⟨c, getElem?_fresh hc, hp, l, hl, hs⟩

end Slots

end GroupConsumer
