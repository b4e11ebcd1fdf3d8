import GroupConsumer.Proofs.Slot.Keeps

/-!
# What the steps of a cascade deliver

A listener that is told an outcome delivers outcomes of its own to further slots. A step of a cascade
either makes one delivery, by completing the slot if it is pending, or leaves all its deliveries to
further steps; there is nothing else that it does to the slots (`perform_of_attempt?_eq_some`,
`perform_of_attempt?_eq_none`).
-/

namespace GroupConsumer

variable {V N : Type}

/-- What a listener completes that is told an outcome, and with what, in this order. -/
def Listener.deliveries : Listener V N → Outcome V → List (SlotId × Outcome V)
  | relay target image, o => [(target, o.map image)]
  | settle target value _, _ => [(target, .ok value)]
  | report _, _ => []
  | hold _ _, .ok _ => []
  | hold _ target, .error e => target.toList.map (·, .error e)
  | spread targets, o => shares targets o

namespace Task

/-- What a step of a cascade is to complete, and with what. -/
def deliveries : Task V N → List (SlotId × Outcome V)
  | tell l o => l.deliveries o
  | complete target o => [(target, o)]
  | note _ => []

/-- The delivery that a step of a cascade makes itself. -/
def attempt? : Task V N → Option (SlotId × Outcome V)
  | tell (.spread _) _ => none
  | t => t.deliveries.head?

/-- A step that only notes whether an attempt came first. -/
def IsRemark (t : Task V N) : Prop := ∃ name first, t = .note (.attempted name first)

theorem IsRemark.deliveries {t : Task V N} (h : t.IsRemark) : t.deliveries = [] := by
  obtain ⟨name, first, rfl⟩ := h
  rfl

end Task

namespace Slots

variable {s : Slots V N} {t : Task V N} {k : SlotId} {o : Outcome V}

/-- A step that makes a delivery completes the slot, and may leave a remark once this is over. -/
theorem perform_of_attempt?_eq_some (h : t.attempt? = some (k, o)) :
    t.deliveries = [(k, o)] ∧ ∃ us : List (Task V N), (∀ u ∈ us, u.IsRemark) ∧
      s.perform t = ((s.fill k o).slots, (s.fill k o).tasks ++ us) := by
  have hnil {r : Filled V N} (he : s.perform t = (r.slots, r.tasks)) :
      ∃ us : List (Task V N), (∀ u ∈ us, u.IsRemark) ∧ s.perform t = (r.slots, r.tasks ++ us) :=
    ⟨[], by simp, by simpa using he⟩
  cases t with
  | note n => cases h
  | complete target o' =>
    obtain ⟨rfl, rfl⟩ := Prod.mk.inj (Option.some.inj h)
    exact ⟨rfl, hnil rfl⟩
  | tell l o' =>
    cases l with
    | relay target image =>
      obtain ⟨rfl, rfl⟩ := Prod.mk.inj (Option.some.inj h)
      exact ⟨rfl, hnil rfl⟩
    | settle target value name =>
      obtain ⟨rfl, rfl⟩ := Prod.mk.inj (Option.some.inj h)
      exact ⟨rfl, _, fun u hu => ⟨_, _, List.mem_singleton.1 hu⟩, rfl⟩
    | report name | spread targets => cases h
    | hold name target =>
      cases o' with
      | ok v => cases h
      | error e =>
        cases target with
        | none => cases h
        | some target =>
          obtain ⟨rfl, rfl⟩ := Prod.mk.inj (Option.some.inj h)
          exact ⟨rfl, hnil rfl⟩

/-- Any other step leaves the slots alone, and its deliveries to further steps. -/
theorem perform_of_attempt?_eq_none (h : t.attempt? = none) :
    ∃ j, s.perform t = (⟨s.cells, j⟩, t.deliveries.map fun k => .complete k.1 k.2) := by
  cases t with
  | note n => exact ⟨_, rfl⟩
  | complete target o' => cases h
  | tell l o' =>
    cases l with
    | relay target image | settle target value name => cases h
    | report name | spread targets => exact ⟨_, rfl⟩
    | hold name target =>
      cases o' with
      | ok v => exact ⟨_, rfl⟩
      | error e =>
        cases target with
        | none => exact ⟨_, rfl⟩
        | some target => cases h

/-- Completing a slot is a cascade of its own. -/
theorem settle_eq_cascade (s : Slots V N) (k : SlotId) (o : Outcome V) :
    s.settle k o = s.cascade [.complete k o] := by
  rw [cascade_cons, perform, List.append_nil]
  rfl

/-! ### Sizes -/

theorem size_perform (s : Slots V N) (t : Task V N) : (s.perform t).1.cells.size = s.cells.size := by
  cases ha : t.attempt? with
  | none =>
    obtain ⟨j, he⟩ := perform_of_attempt?_eq_none (s := s) ha
    rw [he]
  | some x =>
    obtain ⟨-, us, -, he⟩ := perform_of_attempt?_eq_some (s := s) ha
    rw [he]
    exact size_fill s x.1 x.2

theorem size_cascade (s : Slots V N) (ts : List (Task V N)) :
    (s.cascade ts).cells.size = s.cells.size := by
  induction s, ts using cascade.induct with
  | case1 s => rw [cascade_nil]
  | case2 s t ts ih => rw [cascade_cons, ih, size_perform]

theorem size_settle (s : Slots V N) (k : SlotId) (o : Outcome V) :
    (s.settle k o).cells.size = s.cells.size :=
  (size_cascade _ _).trans (size_fill s k o)

theorem size_listen (s : Slots V N) (k : SlotId) (l : Listener V N) :
    (s.listen k l).cells.size = s.cells.size := by
  obtain he | ⟨c, -, -, he⟩ | ⟨o, -, he⟩ := s.listen_cases k l <;> rw [he]
  · exact Array.size_setIfInBounds
  · exact size_cascade s _

end Slots

end GroupConsumer
