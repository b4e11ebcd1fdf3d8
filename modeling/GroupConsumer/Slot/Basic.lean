import GroupConsumer.Fault

/-!
# Result slots

A slot holds the outcome of something that is still going on. It is completed at most once, by
whoever comes first, and then tells its listeners in the order in which they registered, and after
them the wakers that asked for it. A listener may complete further slots, so that one completion
can set off a cascade; each listener's part of the cascade ends before the next listener is told.

Slots live in a store and are named by their number. What listeners note down is appended to the
journal of the store. `fill` completes one slot and hands back what is to be done next, `perform`
does one such task, and `cascade` does them all; it ends because every task uses up a registration.
-/

namespace GroupConsumer

/-- The number of a slot in its store. -/
abbrev SlotId := Nat

/-- What a slot is completed with. -/
abbrev Outcome (V : Type) := Except Fault V

/-- What is to be done when a slot is completed; `N` are the names listeners go by. No listener here
registers another one or links slots: what waits for a slot is settled before its cascade begins. -/
inductive Listener (V N : Type) where
  /-- Complete `target` with the outcome, its value replaced by its image. -/
  | relay (target : SlotId) (image : V → V)
  /-- Complete `target` with `value` whatever the outcome, then note whether that came first. -/
  | settle (target : SlotId) (value : V) (name : N)
  /-- Note the outcome. -/
  | report (name : N)
  /-- Note a value for later; a fault completes `target`, if there is one. -/
  | hold (name : N) (target : Option SlotId)
  /-- Complete further slots in turn, each with what its function makes of the outcome, if anything. -/
  | spread (targets : List (SlotId × (Outcome V → Option (Outcome V))))

/-- What listeners and wakers leave behind. -/
inductive Note (V N : Type) where
  | reported (name : N) (outcome : Outcome V)
  | attempted (name : N) (first : Bool)
  | held (name : N) (value : V)
  | woken (waker : Nat)

/-- A slot: its outcome, or who waits for it. -/
structure Slot (V N : Type) where
  outcome : Option (Outcome V) := none
  listeners : List (Listener V N) := []
  wakers : List Nat := []

/-- A store of slots and its journal. -/
structure Slots (V N : Type) where
  cells : Array (Slot V N) := #[]
  journal : Array (Note V N) := #[]

/-- A step of a cascade. -/
inductive Task (V N : Type) where
  | tell (listener : Listener V N) (outcome : Outcome V)
  | complete (target : SlotId) (outcome : Outcome V)
  | note (entry : Note V N)

/-- What completing one slot gives: the store, the tasks it sets off, and whether it came first. -/
structure Filled (V N : Type) where
  slots : Slots V N
  tasks : List (Task V N)
  first : Bool

/-- What the slots get to which an outcome is spread. -/
def shares {V : Type} (targets : List (SlotId × (Outcome V → Option (Outcome V)))) (o : Outcome V) :
    List (SlotId × Outcome V) :=
  targets.filterMap fun k => (k.2 o).map (k.1, ·)

/-- The measure by which cascades end: telling a listener may leave tasks to be done. -/
def Listener.weight {V N : Type} : Listener V N → Nat
  | spread targets => targets.length + 1
  | relay .. | settle .. | report _ | hold .. => 2

/-- How much of a cascade some listeners can set off together. -/
def Listener.total {V N : Type} : List (Listener V N) → Nat
  | [] => 0
  | l :: ls => l.weight + total ls

namespace Slot

variable {V N : Type}

/-- How much of a cascade a slot can still set off. -/
def weight (c : Slot V N) : Nat := Listener.total c.listeners + c.wakers.length

/-- How much of a cascade some slots can still set off together. -/
def total : List (Slot V N) → Nat
  | [] => 0
  | c :: cs => c.weight + total cs

theorem total_set (cs : List (Slot V N)) (i : Nat) (c : Slot V N) (h : i < cs.length) :
    total (cs.set i c) + cs[i].weight = total cs + c.weight := by
  induction cs generalizing i with
  | nil => cases h
  | cons d cs ih =>
    cases i with
    | zero =>
      simp only [List.set_cons_zero, total, List.getElem_cons_zero]
      omega
    | succ i =>
      have := ih i (Nat.lt_of_succ_lt_succ h)
      simp only [List.set_cons_succ, total, List.getElem_cons_succ]
      omega

/-- The tasks that completing a slot sets off, in order. -/
def tasks (c : Slot V N) (o : Outcome V) : List (Task V N) :=
  c.listeners.map (.tell · o) ++ c.wakers.map fun w => .note (.woken w)

end Slot

namespace Task

variable {V N : Type}

/-- How much of a cascade a task is worth by itself. -/
def weight : Task V N → Nat
  | tell l _ => l.weight
  | complete .. | note _ => 1

/-- The measure of a list of tasks. -/
def total : List (Task V N) → Nat
  | [] => 0
  | t :: ts => t.weight + total ts

@[simp] theorem total_nil : total ([] : List (Task V N)) = 0 := rfl

@[simp] theorem total_cons (t : Task V N) (ts : List (Task V N)) :
    total (t :: ts) = t.weight + total ts := rfl

@[simp] theorem total_append (ts us : List (Task V N)) : total (ts ++ us) = total ts + total us := by
  induction ts with
  | nil => simp
  | cons t ts ih =>
    simp only [List.cons_append, total_cons, ih]
    omega

theorem total_tasks (c : Slot V N) (o : Outcome V) : total (c.tasks o) = c.weight := by
  have h₁ : ∀ l : List (Listener V N),
      total (l.map (.tell · o)) = Listener.total l := by
    intro l
    induction l with
    | nil => rfl
    | cons a l ih => simp only [List.map_cons, total_cons, ih, weight, Listener.total]
  have h₂ : ∀ l : List Nat, total (l.map fun w => (.note (.woken w) : Task V N)) = l.length := by
    intro l
    induction l with
    | nil => rfl
    | cons a l ih =>
      simp only [List.map_cons, total_cons, ih, weight, List.length_cons]
      omega
  simp [Slot.tasks, Slot.weight, h₁, h₂]

theorem total_map_complete (l : List (SlotId × Outcome V)) :
    total (l.map fun k => (.complete k.1 k.2 : Task V N)) = l.length := by
  induction l with
  | nil => rfl
  | cons a l ih =>
    simp only [List.map_cons, total_cons, ih, weight, List.length_cons]
    omega

end Task

namespace Slots

variable {V N : Type}

/-- The outcome of a slot that is complete. -/
def outcome? (s : Slots V N) (i : SlotId) : Option (Outcome V) := s.cells[i]?.bind (·.outcome)

/-- Whether a slot is complete. -/
def isDone (s : Slots V N) (i : SlotId) : Bool := (s.outcome? i).isSome

/-- Whether a slot exists and is not complete. -/
def isPending (s : Slots V N) (i : SlotId) : Bool := s.cells[i]?.any (·.outcome.isNone)

/-- A store with a new slot, and the new slot's number. -/
def fresh (s : Slots V N) : Slots V N × SlotId :=
  ({ s with cells := s.cells.push {} }, s.cells.size)

/-- An entry appended to the journal. -/
def note (s : Slots V N) (n : Note V N) : Slots V N := { s with journal := s.journal.push n }

/-- How much of a cascade the whole store can still set off. -/
def weight (s : Slots V N) : Nat := Slot.total s.cells.toList

/-- Completes a slot that is pending, and nothing else yet. -/
def fill (s : Slots V N) (i : SlotId) (o : Outcome V) : Filled V N :=
  match s.cells[i]? with
  | some c =>
    match c.outcome with
    | none => ⟨{ s with cells := s.cells.setIfInBounds i { outcome := some o } }, c.tasks o, true⟩
    | some _ => ⟨s, [], false⟩
  | none => ⟨s, [], false⟩

/-- One step of a cascade, and the tasks it sets off. -/
def perform (s : Slots V N) : Task V N → Slots V N × List (Task V N)
  | .note n => (s.note n, [])
  | .complete target o =>
    let r := s.fill target o
    (r.slots, r.tasks)
  | .tell (.relay target image) o =>
    let r := s.fill target (o.map image)
    (r.slots, r.tasks)
  | .tell (.settle target value name) _ =>
    let r := s.fill target (.ok value)
    (r.slots, r.tasks ++ [.note (.attempted name r.first)])
  | .tell (.report name) o => (s.note (.reported name o), [])
  | .tell (.hold name _) (.ok v) => (s.note (.held name v), [])
  | .tell (.hold _ (some target)) (.error e) =>
    let r := s.fill target (.error e)
    (r.slots, r.tasks)
  | .tell (.hold _ none) (.error _) => (s, [])
  | .tell (.spread targets) o => (s, (shares targets o).map fun k => .complete k.1 k.2)

@[simp] theorem weight_note (s : Slots V N) (n : Note V N) : (s.note n).weight = s.weight := rfl

/-- Completing a slot turns its registrations into tasks and loses nothing. -/
theorem weight_fill (s : Slots V N) (i : SlotId) (o : Outcome V) :
    (s.fill i o).slots.weight + Task.total (s.fill i o).tasks = s.weight := by
  unfold fill
  split
  · rename_i c hc
    split
    · obtain ⟨hi, rfl⟩ := Array.getElem?_eq_some_iff.1 hc
      have := Slot.total_set s.cells.toList i { outcome := some o } (by simpa using hi)
      simp only [Array.getElem_toList] at this
      simp only [weight, Array.toList_setIfInBounds, Task.total_tasks]
      simpa [Slot.weight, Listener.total] using this
    · simp
  · simp

theorem weight_perform (s : Slots V N) (t : Task V N) :
    (s.perform t).1.weight + Task.total (s.perform t).2 < s.weight + t.weight := by
  unfold perform
  split
  · simp [Task.weight]
  · rename_i target o
    have := weight_fill s target o
    simp only [Task.weight]
    omega
  · have := weight_fill s ‹_› (Except.map ‹_› ‹_›)
    simp only [Task.weight, Listener.weight]
    omega
  · rename_i target value name o
    have := weight_fill s target (.ok value)
    simp only [Task.weight, Listener.weight, Task.total_append, Task.total_cons, Task.total_nil]
    omega
  · simp [Task.weight, Listener.weight]
  · simp [Task.weight, Listener.weight]
  · rename_i target e
    have := weight_fill s target (.error e)
    simp only [Task.weight, Listener.weight]
    omega
  · simp [Task.weight, Listener.weight]
  · rename_i targets o
    have : (shares targets o).length ≤ targets.length := List.length_filterMap_le _ _
    simp only [Task.total_map_complete, Task.weight, Listener.weight]
    omega

/-- Does the tasks in order, the tasks that one sets off before the next. -/
def cascade (s : Slots V N) : List (Task V N) → Slots V N
  | [] => s
  | t :: ts => (s.perform t).1.cascade ((s.perform t).2 ++ ts)
termination_by ts => s.weight + Task.total ts
decreasing_by
  have := weight_perform s t
  simp only [Task.total_append, Task.total_cons]
  omega

@[simp] theorem cascade_nil (s : Slots V N) : s.cascade [] = s := by rw [cascade]

theorem cascade_cons (s : Slots V N) (t : Task V N) (ts : List (Task V N)) :
    s.cascade (t :: ts) = (s.perform t).1.cascade ((s.perform t).2 ++ ts) := by rw [cascade]

/-- Completes a slot, with all that this sets off; also says whether the slot was pending. -/
def complete (s : Slots V N) (i : SlotId) (o : Outcome V) : Slots V N × Bool :=
  let r := s.fill i o
  (r.slots.cascade r.tasks, r.first)

/-- Completes a slot, if it is pending. -/
def settle (s : Slots V N) (i : SlotId) (o : Outcome V) : Slots V N := (s.complete i o).1

/-- Registers a listener; on a complete slot it is told at once. -/
def listen (s : Slots V N) (i : SlotId) (l : Listener V N) : Slots V N :=
  match s.cells[i]? with
  | some c =>
    match c.outcome with
    | none => { s with cells := s.cells.setIfInBounds i { c with listeners := c.listeners ++ [l] } }
    | some o => s.cascade [.tell l o]
  | none => s

/-- Links `source` to `target`: the outcome of the one completes the other. -/
def chain (s : Slots V N) (source target : SlotId) : Slots V N := s.listen source (.relay target id)

/-- A new slot that gets the outcome of `source`, its value replaced by its image. -/
def map (s : Slots V N) (source : SlotId) (image : V → V) : Slots V N × SlotId :=
  let (s, i) := s.fresh
  (s.listen source (.relay i image), i)

/-- The outcome of a slot; while it is pending, the waker is registered once. -/
def poll (s : Slots V N) (i : SlotId) (waker : Nat) : Slots V N × Option (Outcome V) :=
  match s.cells[i]? with
  | some c =>
    match c.outcome with
    | some o => (s, some o)
    | none =>
      if c.wakers.contains waker then (s, none)
      else
        ({ s with cells := s.cells.setIfInBounds i { c with wakers := c.wakers ++ [waker] } }, none)
  | none => (s, none)

/-- A new slot that is complete from the start. -/
def freshWith (s : Slots V N) (o : Outcome V) : Slots V N × SlotId :=
  let (s, i) := s.fresh
  (s.settle i o, i)

/-- The outcomes of those of some slots that were not complete in an earlier state of the store, each
with the place of its slot among them. -/
def completedSince (s earlier : Slots V N) (slots : List SlotId) : List (Nat × Outcome V) :=
  slots.zipIdx.filterMap fun (i, k) =>
    if earlier.isDone i then none else (s.outcome? i).map (k, ·)

/-- How far a slot is. -/
def status (s : Slots V N) (i : SlotId) : String :=
  match s.outcome? i with
  | none => "pending"
  | some (.ok _) => "completed"
  | some (.error _) => "failed"

end Slots

end GroupConsumer
