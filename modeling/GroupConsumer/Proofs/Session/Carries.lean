import GroupConsumer.Proofs.Session.Proceeds
import GroupConsumer.Proofs.Slot.Hooks

/-!
# Sessions that carry a slot

A session carries the slot `j` if `j` is complete, if a value has been kept for a lookup that is made
for it, or if a listener that sees to it waits on the answer of a collaborator. Elementary steps keep
it so (`Proceeds.carries`), and asking a collaborator for the sake of `j` makes it so (`carries_ask`).
-/

namespace GroupConsumer.Session

variable {s t : Session} {I : SlotId → Prop} {D D' E : Deferral → Prop} {i j : SlotId}

theorem Proceeds.met (h : Proceeds I E s t) (hm : s.slots.Met D j) : t.slots.Met D j := by
  induction h with
  | rest => exact hm
  | fresh _ ih => exact ih.of_keeps (Slots.keeps_fresh _) fun _ => id
  | completed _ _ o ih => exact ih.settle _ o
  | listened _ i _ _ ih => exact ih.listen i _
  | changed _ hs _ _ ih => rwa [hs]

theorem Proceeds.hooks (h : Proceeds I E s t) (hj : j < s.slots.cells.size)
    (hh : s.slots.Hooks D i j) : t.slots.Hooks D i j ∨ t.slots.Met D j := by
  induction h with
  | rest => exact Or.inl hh
  | fresh h ih =>
    obtain ih | ih := ih
    · exact Or.inl ih.fresh
    · exact Or.inr ((proceeds_fresh _ I E).met ih)
  | completed h _ o ih =>
    obtain ih | ih := ih
    · exact ih.settle (Nat.lt_of_lt_of_le hj h.size) _ o
    · exact Or.inr (ih.settle _ o)
  | listened h i _ _ ih =>
    obtain ih | ih := ih
    · exact ih.listen (Nat.lt_of_lt_of_le hj h.size) i _
    · exact Or.inr (ih.listen i _)
  | changed _ hs _ _ ih => rwa [hs]

/-- The slot is complete, a value has been kept for a lookup in `D`, or a listener that sees to the slot
waits on the answer of a collaborator. -/
def Carries (s : Session) (D : Deferral → Prop) (j : SlotId) : Prop :=
  s.slots.Met D j ∨ ∃ f ∈ s.futures.toList, s.slots.Hooks D f.2 j

theorem Carries.mono (h : s.Carries D j) (hD : ∀ d, D d → D' d) : s.Carries D' j := by
  obtain h | ⟨f, hf, h⟩ := h
  · exact Or.inl (h.mono hD)
  · exact Or.inr ⟨f, hf, h.mono hD⟩

theorem Proceeds.carries (h : Proceeds I E s t) (hj : j < s.slots.cells.size)
    (hc : s.Carries D j) : t.Carries D j := by
  obtain hm | ⟨f, hf, hh⟩ := hc
  · exact Or.inl (h.met hm)
  · obtain hh | hm := h.hooks hj hh
    · exact Or.inr ⟨f, h.futures f hf, hh⟩
    · exact Or.inl hm

/-- A slot that was completed is carried. -/
theorem carries_complete (hj : j < s.slots.cells.size) (D : Deferral → Prop) (o : Outcome Value) :
    (s.complete j o).Carries D j := Or.inl (Or.inl (Slots.isDone_settle hj o))

/-- A listener that sees to the slot is hooked onto the answer of a collaborator. -/
theorem carries_ask (hs : s.Filed) (hj : j < s.slots.cells.size) (m : Method) (call : Nat → Call)
    {l : Listener Value Deferral} (hl : l.SeesTo D j) :
    Carries { (s.ask m call).1 with
      slots := (s.ask m call).1.slots.listen (s.ask m call).2 l } D j := by
  have hask := proceeds_ask s (fun _ => True) (fun _ => True) m call
  have hfile := mem_futures_ask s m call
  have hi : (s.ask m call).2 < (s.ask m call).1.slots.cells.size :=
    hask.filed hs _ hfile
  have hj' : j < (s.ask m call).1.slots.cells.size := Nat.lt_of_lt_of_le hj hask.size
  obtain hh | hm := Slots.hooks_or_met_listen hi hj' hl
  · exact Or.inr ⟨_, hfile, hh⟩
  · exact Or.inl hm

end GroupConsumer.Session
