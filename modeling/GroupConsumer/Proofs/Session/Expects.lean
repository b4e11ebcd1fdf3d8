import GroupConsumer.Proofs.Session.Proceeds

/-!
# Lookups under way

A lookup is under way while a listener waits to keep its answer, and while an answer that has been kept
has not been taken. `Session.expected` lists the lookups under way. A cascade turns the one into the
other and starts no lookup, so that elementary steps have only those under way that were so before and
those that they start themselves (`Proceeds.mem_expected`).
-/

namespace GroupConsumer

/-- The lookup whose answer a listener is to keep. -/
def Listener.kept? : Listener Value Deferral → Option Deferral
  | hold d _ => some d
  | relay .. | settle .. | report _ | spread _ => none

/-- The lookup whose answer a note keeps. -/
def Note.kept? : Note Value Deferral → Option Deferral
  | held d _ => some d
  | reported .. | attempted .. | woken _ => none

/-- The lookup whose answer a step of a cascade may keep. -/
def Task.kept? : Task Value Deferral → Option Deferral
  | tell l _ => l.kept?
  | complete .. => none
  | note n => n.kept?

namespace Slots

variable {s : Slots Value Deferral} {D : Deferral → Prop}

/-- All answers that have been kept, or that listeners are to keep, are those to lookups in `D`. -/
structure Within (s : Slots Value Deferral) (D : Deferral → Prop) : Prop where
  listeners : ∀ (i : SlotId) c, s.cells[i]? = some c → ∀ l ∈ c.listeners, ∀ d, l.kept? = some d → D d
  journal : ∀ n ∈ s.journal.toList, ∀ d, n.kept? = some d → D d

theorem Within.set (h : s.Within D) (k : SlotId) {c : Slot Value Deferral}
    (hc : ∀ l ∈ c.listeners, ∀ d, l.kept? = some d → D d) :
    Within ⟨s.cells.setIfInBounds k c, s.journal⟩ D where
  listeners i c' hc' := by
    rw [Array.getElem?_setIfInBounds] at hc'
    split at hc'
    · split at hc'
      · obtain rfl := Option.some.inj hc'
        exact hc
      · cases hc'
    · exact h.listeners i c' hc'
  journal := h.journal

theorem Within.note (h : s.Within D) {n : Note Value Deferral} (hn : ∀ d, n.kept? = some d → D d) :
    (s.note n).Within D where
  listeners := h.listeners
  journal m hm := by
    simp only [Slots.note, Array.toList_push, List.mem_append, List.mem_singleton] at hm
    obtain hm | rfl := hm
    · exact h.journal m hm
    · exact hn

theorem Within.fill (h : s.Within D) (k : SlotId) (o : Outcome Value) :
    (s.fill k o).slots.Within D ∧ ∀ t ∈ (s.fill k o).tasks, ∀ d, t.kept? = some d → D d := by
  obtain he | ⟨c, hc, -, he⟩ := s.fill_cases k o
  · rw [he]
    exact ⟨h, fun t ht => absurd ht List.not_mem_nil⟩
  · rw [he]
    refine ⟨h.set k fun l hl => absurd hl List.not_mem_nil, fun t ht d hd => ?_⟩
    simp only [Slot.tasks, List.mem_append, List.mem_map] at ht
    obtain ⟨l, hl, rfl⟩ | ⟨w, -, rfl⟩ := ht
    · exact h.listeners k c hc l hl d hd
    · cases hd

/-- A step of a cascade keeps the answer that it is to keep, and no other. -/
theorem Within.perform (h : s.Within D) {t : Task Value Deferral}
    (ht : ∀ d, t.kept? = some d → D d) :
    (s.perform t).1.Within D ∧ ∀ u ∈ (s.perform t).2, ∀ d, u.kept? = some d → D d := by
  have hnone {s' : Slots Value Deferral} (hs : s'.Within D) :
      s'.Within D ∧ ∀ u ∈ ([] : List (Task Value Deferral)), ∀ d, u.kept? = some d → D d :=
    ⟨hs, fun u hu => absurd hu List.not_mem_nil⟩
  unfold Slots.perform
  split
  · exact hnone (h.note ht)
  · exact h.fill _ _
  · exact h.fill _ _
  · rename_i target value name _
    refine ⟨(h.fill target _).1, fun u hu d hd => ?_⟩
    obtain hu | hu := List.mem_append.1 hu
    · exact (h.fill target _).2 u hu d hd
    · rw [List.mem_singleton.1 hu] at hd
      cases hd
  · exact hnone (h.note fun d hd => by cases hd)
  · exact hnone (h.note ht)
  · exact h.fill _ _
  · exact hnone h
  · refine ⟨h, fun u hu d hd => ?_⟩
    obtain ⟨k, -, rfl⟩ := List.mem_map.1 hu
    cases hd

theorem Within.cascade {ts : List (Task Value Deferral)} (h : s.Within D)
    (ht : ∀ t ∈ ts, ∀ d, t.kept? = some d → D d) : (s.cascade ts).Within D := by
  induction s, ts using cascade.induct with
  | case1 s => rwa [cascade_nil]
  | case2 s t ts ih =>
    rw [cascade_cons]
    obtain ⟨hs, hu⟩ := h.perform (ht t List.mem_cons_self)
    refine ih hs fun u hm => ?_
    obtain hm | hm := List.mem_append.1 hm
    · exact hu u hm
    · exact ht u (List.mem_cons_of_mem _ hm)

theorem Within.settle (h : s.Within D) (k : SlotId) (o : Outcome Value) :
    (s.settle k o).Within D := (h.fill k o).1.cascade (h.fill k o).2

theorem Within.listen (h : s.Within D) (k : SlotId) {l : Listener Value Deferral}
    (hl : ∀ d, l.kept? = some d → D d) : (s.listen k l).Within D := by
  obtain he | ⟨c, hc, -, he⟩ | ⟨o, -, he⟩ := s.listen_cases k l <;> rw [he]
  · exact h
  · refine h.set k fun l' hl' => ?_
    obtain hl' | hl' := List.mem_append.1 hl'
    · exact h.listeners k c hc l' hl'
    · rwa [List.mem_singleton.1 hl']
  · refine h.cascade fun t ht => ?_
    rwa [List.mem_singleton.1 ht]

theorem Within.fresh (h : s.Within D) : s.fresh.1.Within D where
  listeners i c hc := by
    obtain ⟨-, he⟩ | he := s.fresh_cases i
    · obtain rfl := Option.some.inj (hc.symm.trans he)
      exact fun l hl => absurd hl List.not_mem_nil
    · exact h.listeners i c (he.symm.trans hc)
  journal := h.journal

end Slots

namespace Session

variable {s t : Session} {I : SlotId → Prop} {D E : Deferral → Prop} {d : Deferral}

/-- The lookups under way: those whose answers are waited for, and those whose answers have been kept
and not been taken. -/
def expected (s : Session) : List Deferral :=
  s.slots.cells.toList.flatMap (fun c => c.listeners.filterMap Listener.kept?) ++
    s.slots.journal.toList.filterMap Note.kept?

theorem within_iff : s.slots.Within D ↔ ∀ d ∈ s.expected, D d := by
  constructor
  · intro h d hd
    obtain hd | hd := List.mem_append.1 hd
    · obtain ⟨c, hc, hd⟩ := List.mem_flatMap.1 hd
      obtain ⟨l, hl, hd⟩ := List.mem_filterMap.1 hd
      obtain ⟨i, hi⟩ := Array.mem_iff_getElem?.1 (Array.mem_toList_iff.1 hc)
      exact h.listeners i c hi l hl d hd
    · obtain ⟨n, hn, hd⟩ := List.mem_filterMap.1 hd
      exact h.journal n hn d hd
  · intro h
    refine ⟨fun i c hi l hl d hd => h d ?_, fun n hn d hd => h d ?_⟩
    · have hc : c ∈ s.slots.cells.toList := Array.mem_toList_iff.2 (Array.mem_of_getElem? hi)
      exact List.mem_append_left _ (List.mem_flatMap.2 ⟨c, hc, List.mem_filterMap.2 ⟨l, hl, hd⟩⟩)
    · exact List.mem_append_right _ (List.mem_filterMap.2 ⟨n, hn, hd⟩)

theorem Proceeds.within (h : Proceeds I E s t) (hs : s.slots.Within D) (hE : ∀ d, E d → D d) :
    t.slots.Within D := by
  induction h with
  | rest => exact hs
  | fresh _ ih => exact ih.fresh
  | completed _ _ o ih => exact ih.settle _ o
  | @listened t _ i l _ hD ih =>
    refine ih.listen i fun d hd => ?_
    cases l with
    | hold d' target =>
      obtain rfl := Option.some.inj hd
      exact hE _ (hD _ _ rfl)
    | _ => cases hd
  | changed _ hslots _ _ ih => rwa [hslots]

/-- Elementary steps start no lookups but those whose answers they keep. -/
theorem Proceeds.mem_expected (h : Proceeds I E s t) (hd : d ∈ t.expected) :
    d ∈ s.expected ∨ E d := by
  have hs : s.slots.Within fun d => d ∈ s.expected ∨ E d := within_iff.2 fun _ => Or.inl
  exact within_iff.1 (h.within hs fun _ => Or.inr) d hd

/-- A lookup that has left a value is under way. -/
theorem mem_expected_of_deferred {v : Value} (h : (d, v) ∈ s.deferred) : d ∈ s.expected := by
  exact List.mem_append_right _ (List.mem_filterMap.2 ⟨_, mem_deferred.1 h, rfl⟩)

/-- Taking what lookups have left starts none. -/
theorem mem_expected_takeDeferred (h : d ∈ s.takeDeferred.1.expected) : d ∈ s.expected := by
  obtain h | h := List.mem_append.1 h
  · exact List.mem_append_left _ h
  · cases h

end Session

end GroupConsumer
