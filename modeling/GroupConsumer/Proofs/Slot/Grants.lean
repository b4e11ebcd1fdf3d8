import GroupConsumer.Proofs.Slot.Leads

/-!
# Slots that only successes are passed on to

Completing a slot completes those that are linked to it. If the one is completed with success and a
slot `i` is linked to nothing else, `i` either keeps the outcome that it has or is completed with
success as well (`LedBy.grants_settle`).
-/

namespace GroupConsumer

/-- If the step aims at a slot, all it does is to pass a success on. -/
def Task.Blesses (t : Task Value Deferral) (i : SlotId) : Prop :=
  i ∈ t.aimed → ∃ image v, t = .tell (.relay i image) (.ok v)

theorem Task.blesses_of_not_mem {t : Task Value Deferral} {i : SlotId} (h : i ∉ t.aimed) :
    t.Blesses i := fun hi => absurd hi h

namespace Slots

variable {s t u : Slots Value Deferral} {i k : SlotId}

/-- From `s` to `t` the slot `i` keeps its outcome, or it is completed with success. -/
def Grants (s t : Slots Value Deferral) (i : SlotId) : Prop :=
  t.outcome? i = s.outcome? i ∨ ∃ v, t.outcome? i = some (.ok v)

theorem Grants.trans (h : s.Grants t i) (h' : t.Grants u i) : s.Grants u i := by
  obtain h' | h' := h'
  · rw [Grants, h']
    exact h
  · exact Or.inr h'

/-- A slot that was pending and is complete now has succeeded. -/
theorem Grants.isOk (h : s.Grants t i) (hs : s.outcome? i = none) {o : Outcome Value}
    (ht : t.outcome? i = some o) : o.isOk = true := by
  obtain h | ⟨v, h⟩ := h
  · cases ht.symm.trans (h.trans hs)
  · obtain rfl := Option.some.inj (ht.symm.trans h)
    rfl

/-- A success completes a slot well. -/
theorem grants_fill_ok (s : Slots Value Deferral) (i : SlotId) (v : Value) :
    s.Grants (s.fill i (.ok v)).slots i := by
  obtain he | ⟨c, hc, -, he⟩ := s.fill_cases i (.ok v)
  · rw [he]
    exact Or.inl rfl
  · rw [he]
    exact Or.inr ⟨v, outcome?_fill_self hc _⟩

/-- Completing a slot to which nothing is linked from there sets off nothing that aims at it. -/
theorem LedBy.not_mem_tasks (h : s.LedBy (fun _ => False) i) (k : SlotId) (o : Outcome Value) :
    ∀ t ∈ (s.fill k o).tasks, i ∉ t.aimed := h.tasks_fill fun _ => False.elim

/-- A step that passes at most a success on to a slot to which no other slot is linked. -/
theorem LedBy.grants_perform {t : Task Value Deferral} (h : s.LedBy (fun _ => False) i)
    (ht : t.Blesses i) :
    s.Grants (s.perform t).1 i ∧ ∀ u ∈ (s.perform t).2, i ∉ u.aimed := by
  by_cases hi : i ∈ t.aimed
  · obtain ⟨image, v, rfl⟩ := ht hi
    exact ⟨s.grants_fill_ok i (image v), h.not_mem_tasks i (.ok (image v))⟩
  · obtain ⟨us, he, hus⟩ | ⟨n, he, -⟩ | ⟨k, o, us, hk, he, hus⟩ := s.perform_cases t
    · rw [he]
      exact ⟨Or.inl rfl, hus i (Task.relays_of_not_mem hi)⟩
    · rw [he]
      exact ⟨Or.inl rfl, fun u hu => absurd hu List.not_mem_nil⟩
    · have hne : k ≠ i := by
        rintro rfl
        exact hi hk
      rw [he]
      refine ⟨Or.inl (outcome?_fill_of_ne hne o), fun u hu => ?_⟩
      obtain hu | hu := List.mem_append.1 hu
      · exact h.not_mem_tasks k o u hu
      · simp [hus u hu]

/-- A cascade that passes nothing but successes on to a slot to which no other slot is linked. -/
theorem LedBy.grants_cascade {ts : List (Task Value Deferral)} (h : s.LedBy (fun _ => False) i)
    (ht : ∀ t ∈ ts, t.Blesses i) : s.Grants (s.cascade ts) i := by
  induction s, ts using cascade.induct with
  | case1 s =>
    rw [cascade_nil]
    exact Or.inl rfl
  | case2 s t ts ih =>
    rw [cascade_cons]
    have hblesses := ht t List.mem_cons_self
    obtain ⟨hg, hu⟩ := h.grants_perform hblesses
    have hrelays : t.Relays i := by
      intro hi
      obtain ⟨image, v, he⟩ := hblesses hi
      exact ⟨image, _, he⟩
    refine hg.trans (ih (h.perform hrelays).1 fun u hm => ?_)
    obtain hm | hm := List.mem_append.1 hm
    · exact Task.blesses_of_not_mem (hu u hm)
    · exact ht u (List.mem_cons_of_mem _ hm)

/-- The only slot that `i` is linked to is completed with success. -/
theorem LedBy.grants_settle (h : s.LedBy (· = k) i) (hk : s.isPending k = true) (hne : k ≠ i)
    (v : Value) : s.Grants (s.settle k (.ok v)) i := by
  obtain ⟨hlt, hp⟩ := isPending_iff.1 hk
  obtain ⟨c, hc, hn⟩ := exists_cell_of_isPending hk
  have he := fill_of_pending hc hn (.ok v)
  have hled : (s.fill k (.ok v)).slots.LedBy (fun _ => False) i := h.fill_source hlt hp _
  have hfill : s.Grants (s.fill k (.ok v)).slots i := Or.inl (outcome?_fill_of_ne hne _)
  refine hfill.trans (hled.grants_cascade fun t ht hi => ?_)
  rw [he] at ht
  obtain ⟨l, hl, rfl, hi⟩ := mem_tasks ht hi
  obtain ⟨image, rfl⟩ := (h.listeners k _ hc l hl hi).2 hi
  exact ⟨image, v, rfl⟩

/-- A slot is linked to one that has succeeded. -/
theorem LedBy.grants_listen (h : s.LedBy (fun _ => False) i) {v : Value}
    (hk : s.outcome? k = some (.ok v)) (j : SlotId) (image : Value → Value) :
    s.Grants (s.listen k (.relay j image)) i := by
  rw [listen_of_outcome? hk]
  refine h.grants_cascade fun t ht hi => ?_
  obtain rfl := List.mem_singleton.1 ht
  obtain rfl := List.mem_singleton.1 hi
  exact ⟨image, v, rfl⟩

end Slots

end GroupConsumer
