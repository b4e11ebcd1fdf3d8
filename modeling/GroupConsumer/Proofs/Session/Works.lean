import GroupConsumer.Proofs.Session.Grows
import GroupConsumer.Proofs.Slot.Leads

/-!
# Which slots a session works on

Each operation by which the loop acts on the world works on the slots that it is given, and on those
alone.
-/

namespace GroupConsumer.Session

/-- The slots of the session are worked on in `I` alone, apart from new ones. -/
def WorksOn (s : Session) (I : SlotId → Prop) (t : Session) : Prop := s.slots.WorksOn I t.slots

variable {s t u : Session} {I I' : SlotId → Prop}

theorem WorksOn.refl (s : Session) (I : SlotId → Prop) : s.WorksOn I s := Slots.WorksOn.refl _ I

theorem WorksOn.trans (h : s.WorksOn I t) (h' : t.WorksOn I u) : s.WorksOn I u :=
  Slots.WorksOn.trans h h'

theorem WorksOn.mono (h : s.WorksOn I t) (hI : ∀ i, I i → I' i) : s.WorksOn I' t :=
  Slots.WorksOn.mono h hI

theorem worksOn_of_slots (I : SlotId → Prop) (h : t.slots = s.slots) : s.WorksOn I t := by
  rw [WorksOn, h]
  exact Slots.WorksOn.refl _ I

theorem worksOn_complete (s : Session) (i : SlotId) (o : Outcome Value) :
    s.WorksOn (· = i) (s.complete i o) := Slots.worksOn_settle _ _ _

theorem worksOn_completeUnit (s : Session) (i : SlotId) (r : Except Fault Unit) :
    s.WorksOn (· = i) (s.completeUnit i r) := worksOn_complete s i _

theorem worksOn_chain (s : Session) (source target : SlotId) :
    s.WorksOn (· = target) (s.chain source target) :=
  Slots.WorksOn.mono (Slots.worksOn_listen _ source _) fun _ hi => List.mem_singleton.1 hi

theorem worksOn_fresh (s : Session) (I : SlotId → Prop) : s.WorksOn I s.fresh.1 :=
  Slots.worksOn_fresh _ I

theorem worksOn_takeDeferred (s : Session) (I : SlotId → Prop) : s.WorksOn I s.takeDeferred.1 :=
  Slots.worksOn_journal _ I

/-- What the journal keeps is what the next round takes. -/
theorem mem_deferred {d : Deferral} {v : Value} :
    (d, v) ∈ s.deferred ↔ Note.held d v ∈ s.slots.journal.toList := by
  rw [Session.deferred, List.mem_filterMap]
  constructor
  · rintro ⟨n, hn, he⟩
    cases n with
    | held d' v' =>
      cases he
      exact hn
    | _ => cases he
  · exact fun h => ⟨_, h, rfl⟩

@[simp] theorem slots_report (s : Session) (fs : List Fault) : (s.report fs).slots = s.slots := by
  induction fs generalizing s with
  | nil => rfl
  | cons f fs ih => exact ih (s.publish (.fault f))

@[simp] theorem slots_giveSnapshot (s : Session) (snap : MemberSnapshot) :
    (s.giveSnapshot snap).slots = s.slots := by
  obtain ⟨ms, delays, he⟩ := giveSnapshot_eq s snap
  rw [he]
  split <;> rfl

end GroupConsumer.Session
