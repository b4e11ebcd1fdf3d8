import GroupConsumer.Proofs.Slot.Delivery

/-!
# Histories of a store

A history is any row of operations on a store. Its log has an entry for every attempt to complete a slot,
for everything that registers with a slot, and for every listener told and every waker woken, in the order
in which they happen, those inside a cascade included. What listeners and wakers leave in the journal of
the store is what the log says (`heard_after`).

A listener that is told an outcome may complete any slots that it likes. In a given history it is told
once, and all that counts of it is which slots it then completes and with what; `spread` takes any such row.
-/

namespace GroupConsumer

variable {V N : Type}

namespace Slots

/-- What can be done to a store from outside. -/
inductive Operation (V N : Type) where
  | fresh
  | complete (slot : SlotId) (outcome : Outcome V)
  | chain (source target : SlotId)
  | map (source : SlotId) (image : V → V)
  | listen (slot : SlotId) (listener : Listener V N)
  | poll (slot : SlotId) (waker : Nat)
  | get (slot : SlotId)

/-- What can happen to a slot. -/
inductive Event (V N : Type) where
  /-- Somebody tries to complete it, and comes first or not. -/
  | attempted (outcome : Outcome V) (first : Bool)
  | registered (listener : Listener V N)
  | told (listener : Listener V N) (outcome : Outcome V)
  /-- Somebody asks for its outcome and may get it. -/
  | asked (waker : Nat) (answer : Option (Outcome V))
  | woken (waker : Nat)

/-- An entry of the log. -/
structure Happening (V N : Type) where
  slot : SlotId
  event : Event V N

/-- A step of a cascade, and the slot whose completion set it off. -/
structure Duty (V N : Type) where
  slot : SlotId
  task : Task V N

/-- The part of a log that is about a slot. -/
def about (i : SlotId) (log : List (Happening V N)) : List (Event V N) :=
  log.filterMap fun h => if h.slot = i then some h.event else none

namespace Event

/-- The outcome that a slot gets. -/
def won? : Event V N → Option (Outcome V)
  | attempted o true => some o
  | _ => none

def registered? : Event V N → Option (Listener V N)
  | registered l => some l
  | _ => none

def told? : Event V N → Option (Listener V N × Outcome V)
  | told l o => some (l, o)
  | _ => none

/-- The waker of somebody who asks in vain. -/
def asked? : Event V N → Option Nat
  | asked w none => some w
  | _ => none

def woken? : Event V N → Option Nat
  | woken w => some w
  | _ => none

end Event

namespace Duty

/-- What is logged as soon as it is the duty's turn. -/
def heard (d : Duty V N) : List (Happening V N) :=
  match d.task with
  | .tell l o => [⟨d.slot, .told l o⟩]
  | .note (.woken w) => [⟨d.slot, .woken w⟩]
  | .note _ | .complete .. => []

/-- The duties that it leads to if it sets off some tasks. -/
def leadsTo (d : Duty V N) (us : List (Task V N)) : List (Duty V N) :=
  us.map fun u => ⟨(d.task.attempt?.map (·.1)).getD d.slot, u⟩

theorem map_task_leadsTo (d : Duty V N) (us : List (Task V N)) : (d.leadsTo us).map (·.task) = us := by
  rw [leadsTo, List.map_map]
  exact List.map_id' us

end Duty

/-- The store after an operation. -/
def operate (s : Slots V N) : Operation V N → Slots V N
  | .fresh => s.fresh.1
  | .complete i o => (s.complete i o).1
  | .chain source target => s.chain source target
  | .map source image => (s.map source image).1
  | .listen i l => s.listen i l
  | .poll i w => (s.poll i w).1
  | .get _ => s

/-- The store after a row of operations. -/
def after (s : Slots V N) (ops : List (Operation V N)) : Slots V N := ops.foldl operate s

/-- The attempt that a step of a cascade makes, if it does. -/
def tried (s : Slots V N) (t : Task V N) : List (Happening V N) :=
  t.attempt?.toList.map fun k => ⟨k.1, .attempted k.2 (s.fill k.1 k.2).first⟩

/-- What happens in a cascade. -/
def deeds (s : Slots V N) : List (Duty V N) → List (Happening V N)
  | [] => []
  | d :: ds =>
    d.heard ++ s.tried d.task ++ (s.perform d.task).1.deeds (d.leadsTo (s.perform d.task).2 ++ ds)
termination_by ds => s.weight + Task.total (ds.map (·.task))
decreasing_by
  have := weight_perform s d.task
  simp only [List.map_append, Duty.map_task_leadsTo, Task.total_append, List.map_cons, Task.total_cons]
  omega

/-- What happens when a listener is registered. -/
def hearing (s : Slots V N) (i : SlotId) (l : Listener V N) : List (Happening V N) :=
  match s.cells[i]? with
  | some c => ⟨i, .registered l⟩ :: s.deeds (c.outcome.toList.map fun o => ⟨i, .tell l o⟩)
  | none => []

/-- What happens in an operation. -/
def happenings (s : Slots V N) : Operation V N → List (Happening V N)
  | .fresh | .get _ => []
  | .complete i o => s.deeds [⟨i, .complete i o⟩]
  | .chain source target => s.hearing source (.relay target id)
  | .map source image => s.fresh.1.hearing source (.relay s.fresh.2 image)
  | .listen i l => s.hearing i l
  | .poll i w => if i < s.cells.size then [⟨i, .asked w (s.poll i w).2⟩] else []

/-- What happens in a row of operations. -/
def log (s : Slots V N) : List (Operation V N) → List (Happening V N)
  | [] => []
  | op :: ops => s.happenings op ++ (s.operate op).log ops

theorem hearing_of_some {s : Slots V N} {k : SlotId} {c : Slot V N} (hc : s.cells[k]? = some c)
    (l : Listener V N) :
    s.hearing k l = ⟨k, .registered l⟩ :: s.deeds (c.outcome.toList.map fun o => ⟨k, .tell l o⟩) := by
  rw [hearing, hc]

/-- The first entry for a completion is about itself, and says what it answers. -/
theorem head?_happenings_complete (s : Slots V N) (i : SlotId) (o : Outcome V) :
    (s.happenings (.complete i o)).head? = some ⟨i, .attempted o (s.complete i o).2⟩ := by
  rw [happenings, deeds]
  rfl

theorem keeps_operate (s : Slots V N) (op : Operation V N) : Keeps s (s.operate op) := by
  cases op with
  | fresh => exact keeps_fresh s
  | complete i o => exact keeps_settle s i o
  | chain source target => exact keeps_listen s source _
  | map source image => exact (keeps_fresh s).trans (keeps_listen _ source _)
  | listen i l => exact keeps_listen s i l
  | poll i w => exact keeps_poll s i w
  | get i => exact Keeps.refl s

theorem keeps_after (s : Slots V N) (ops : List (Operation V N)) : Keeps s (s.after ops) := by
  induction ops generalizing s with
  | nil => exact Keeps.refl s
  | cons op ops ih => exact (keeps_operate s op).trans (ih _)

theorem after_append (s : Slots V N) (ops ops' : List (Operation V N)) :
    s.after (ops ++ ops') = (s.after ops).after ops' := List.foldl_append

/-! ### Sizes -/

theorem size_poll (s : Slots V N) (k : SlotId) (w : Nat) : (s.poll k w).1.cells.size = s.cells.size := by
  cases hc : s.cells[k]? with
  | none => rw [Slots.poll, hc]
  | some c =>
    cases ho : c.outcome with
    | none =>
      rw [poll_of_pending hc ho]
      split
      · rfl
      · exact Array.size_setIfInBounds
    | some o => rw [poll_of_outcome? (outcome?_eq_some.2 ⟨c, hc, ho⟩)]

theorem size_map (s : Slots V N) (k : SlotId) (f : V → V) :
    (s.map k f).1.cells.size = s.cells.size + 1 :=
  (size_listen s.fresh.1 k _).trans s.size_fresh

theorem size_operate (s : Slots V N) (op : Operation V N) :
    s.cells.size ≤ (s.operate op).cells.size := by
  have hnew {n : Nat} (hn : n = s.cells.size + 1) : s.cells.size ≤ n := hn ▸ Nat.le_succ _
  cases op with
  | fresh => exact hnew s.size_fresh
  | complete i o => exact Nat.le_of_eq (s.size_settle i o).symm
  | chain source target => exact Nat.le_of_eq (s.size_listen source _).symm
  | map source image => exact hnew (s.size_map source image)
  | listen i l => exact Nat.le_of_eq (s.size_listen i l).symm
  | poll i w => exact Nat.le_of_eq (s.size_poll i w).symm
  | get i => exact Nat.le_refl _

/-- Slots are never taken away. -/
theorem size_after (s : Slots V N) (ops : List (Operation V N)) :
    s.cells.size ≤ (s.after ops).cells.size := by
  induction ops generalizing s with
  | nil => exact Nat.le_refl _
  | cons op ops ih => exact Nat.le_trans (s.size_operate op) (ih _)

end Slots

/-! ### The journal of the store -/

/-- A note of what reaches a listener or a waker. -/
def Note.isHeard : Note V N → Bool
  | reported .. | woken _ => true
  | attempted .. | held .. => false

/-- The step does not report anything itself. -/
def Task.Unsaid (t : Task V N) : Prop := ∀ name o, t ≠ .note (.reported name o)

namespace Slots

variable {s : Slots V N}

/-- The note that is left of what happens, if it leaves one when it does. -/
def Event.note? : Event V N → Option (Note V N)
  | told (.report name) o => some (.reported name o)
  | woken w => some (.woken w)
  | _ => none

/-- The notes of the store of what reaches listeners and wakers. -/
def heard (s : Slots V N) : List (Note V N) := s.journal.toList.filter (·.isHeard)

/-- The notes that a log says there are. -/
def notes (log : List (Happening V N)) : List (Note V N) := log.filterMap (·.event.note?)

theorem heard_of_journal {t : Slots V N} (h : t.journal = s.journal) : t.heard = s.heard := by
  rw [heard, heard, h]

theorem heard_note (s : Slots V N) (n : Note V N) :
    (s.note n).heard = s.heard ++ [n].filter (·.isHeard) := by
  rw [heard, note, Array.toList_push, List.filter_append]
  rfl

theorem notes_append (log log' : List (Happening V N)) :
    notes (log ++ log') = notes log ++ notes log' := List.filterMap_append

theorem notes_tried (s : Slots V N) (t : Task V N) : notes (s.tried t) = [] := by
  rw [tried, notes, List.filterMap_map]
  exact List.filterMap_eq_nil_iff.2 fun _ _ => rfl

/-- A cascade leaves reporting to the listeners. -/
theorem unsaid_perform {t u : Task V N} (h : u ∈ (s.perform t).2) : u.Unsaid := by
  cases ha : t.attempt? with
  | none =>
    obtain ⟨j, he⟩ := perform_of_attempt?_eq_none (s := s) ha
    rw [he] at h
    obtain ⟨x, -, rfl⟩ := List.mem_map.1 h
    intro name o hn
    cases hn
  | some x =>
    obtain ⟨-, us, hus, he⟩ := perform_of_attempt?_eq_some (s := s) ha
    rw [he] at h
    obtain h | h := List.mem_append.1 h
    · obtain he | ⟨c, -, -, he⟩ := s.fill_cases x.1 x.2
      · rw [he] at h
        cases h
      · rw [he] at h
        obtain h | h := List.mem_append.1 h
        · obtain ⟨l, -, rfl⟩ := List.mem_map.1 h
          intro name o hn
          cases hn
        · obtain ⟨w, -, rfl⟩ := List.mem_map.1 h
          intro name o hn
          cases hn
    · obtain ⟨name, first, rfl⟩ := hus u h
      intro name' o hn
      cases hn

theorem heard_perform (s : Slots V N) {d : Duty V N} (hd : d.task.Unsaid) :
    (s.perform d.task).1.heard = s.heard ++ notes d.heard := by
  obtain ⟨i, t⟩ := d
  have hkeep {u : Slots V N} (h : u.journal = s.journal) : u.heard = s.heard ++ [] := by
    rw [heard_of_journal h, List.append_nil]
  cases t with
  | note n =>
    cases n with
    | reported name o => cases hd name o rfl
    | attempted | held | woken => exact s.heard_note _
  | complete k o => exact hkeep (s.journal_fill k o)
  | tell l o =>
    cases l with
    | relay k image => exact hkeep (s.journal_fill k _)
    | settle k v name => exact hkeep (s.journal_fill k _)
    | report name => exact s.heard_note _
    | hold name target =>
      cases o with
      | ok v => exact s.heard_note _
      | error e =>
        cases target with
        | none => exact hkeep rfl
        | some k => exact hkeep (s.journal_fill k _)
    | spread targets => exact hkeep rfl

theorem heard_cascade (s : Slots V N) (ds : List (Duty V N)) (hds : ∀ d ∈ ds, d.task.Unsaid) :
    (s.cascade (ds.map (·.task))).heard = s.heard ++ notes (s.deeds ds) := by
  induction s, ds using Slots.deeds.induct with
  | case1 s => rw [Slots.deeds, List.map_nil, cascade_nil, notes, List.filterMap_nil, List.append_nil]
  | case2 s d ds ih =>
    have hnext : ∀ e ∈ d.leadsTo (s.perform d.task).2 ++ ds, e.task.Unsaid := by
      intro e he
      obtain he | he := List.mem_append.1 he
      · obtain ⟨u, hu, rfl⟩ := List.mem_map.1 he
        exact unsaid_perform hu
      · exact hds e (List.mem_cons_of_mem _ he)
    have ih := ih hnext
    rw [List.map_append, Duty.map_task_leadsTo] at ih
    rw [Slots.deeds, List.map_cons, cascade_cons, ih, s.heard_perform (hds d List.mem_cons_self),
      notes_append, notes_append, notes_tried, List.append_nil, List.append_assoc]

theorem heard_listen (s : Slots V N) (k : SlotId) (l : Listener V N) :
    (s.listen k l).heard = s.heard ++ notes (s.hearing k l) := by
  cases hc : s.cells[k]? with
  | none =>
    rw [Slots.listen, hearing, hc, notes, List.filterMap_nil, List.append_nil]
  | some c =>
    rw [hearing_of_some hc]
    cases ho : c.outcome with
    | none =>
      rw [listen_of_pending hc ho, Option.toList_none, List.map_nil, Slots.deeds]
      exact (heard_of_journal rfl).trans (List.append_nil _).symm
    | some o =>
      rw [listen_of_outcome? (outcome?_eq_some.2 ⟨c, hc, ho⟩)]
      exact s.heard_cascade [⟨k, .tell l o⟩] (by simp [Task.Unsaid])

theorem heard_operate (s : Slots V N) (op : Operation V N) :
    (s.operate op).heard = s.heard ++ notes (s.happenings op) := by
  cases op with
  | fresh => exact (heard_of_journal rfl).trans (List.append_nil _).symm
  | complete k o =>
    have := s.heard_cascade [⟨k, .complete k o⟩] (by simp [Task.Unsaid])
    rwa [List.map_singleton, ← settle_eq_cascade] at this
  | chain source target => exact s.heard_listen source _
  | map source image => exact s.fresh.1.heard_listen source _
  | listen k l => exact s.heard_listen k l
  | poll k w =>
    have hnil : notes (s.happenings (.poll k w)) = [] := by
      rw [happenings]
      split <;> rfl
    rw [hnil, List.append_nil]
    exact heard_of_journal (s.journal_poll k w)
  | get k => exact (List.append_nil _).symm

/-- Who is told and woken in a history is also in the journal of the store, in the same order. -/
theorem heard_after (s : Slots V N) (ops : List (Operation V N)) :
    (s.after ops).heard = s.heard ++ notes (s.log ops) := by
  induction ops generalizing s with
  | nil => exact (List.append_nil _).symm
  | cons op ops ih =>
    rw [Slots.log, notes_append, ← List.append_assoc, ← heard_operate]
    exact ih _

end Slots

end GroupConsumer
