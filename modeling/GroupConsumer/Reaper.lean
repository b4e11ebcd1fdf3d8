import GroupConsumer.Ticket

/-!
# The reaper

The reaper keeps the tickets whose results are still awaited. A sweep drops the tickets that are
complete and fails those that are due; the final sweep fails all that are left. Both count the
slots on which the reaper itself came first.
-/

namespace GroupConsumer

/-- Tickets under watch, in the order in which they came. -/
structure Reaper where
  tracked : List Ticket := []

namespace Reaper

variable {V N : Type}

/-- Puts a ticket under watch. -/
def track (r : Reaper) (t : Ticket) : Reaper := ⟨r.tracked ++ [t]⟩

/-- What a sweep leaves: the tickets still under watch, the slots, and how many slots it failed. -/
structure Swept (V N : Type) where
  kept : List Ticket
  slots : Slots V N
  count : Nat

/-- Visits the tickets in order: a complete one is dropped, one that is due is failed and dropped. -/
def sweepList (now : Int64) : List Ticket → Slots V N → Swept V N
  | [], s => ⟨[], s, 0⟩
  | t :: ts, s =>
    if s.isDone t.slot then sweepList now ts s
    else if t.isDue now then
      let (s, first) := s.complete t.slot (.error (.expired t.describe now t.deadline))
      let r := sweepList now ts s
      { r with count := r.count + if first then 1 else 0 }
    else
      let r := sweepList now ts s
      { r with kept := t :: r.kept }

/-- Fails the tickets in order; counted are those that were pending. -/
def expireList : List Ticket → Slots V N → Slots V N × Nat
  | [], s => (s, 0)
  | t :: ts, s =>
    if s.isDone t.slot then expireList ts s
    else
      let (s, first) := s.complete t.slot (.error (.shutdownForced t.describe))
      let (s, n) := expireList ts s
      (s, n + if first then 1 else 0)

/-- One sweep at `now`. -/
def sweep (r : Reaper) (now : Int64) (s : Slots V N) : Reaper × Slots V N × Nat :=
  let w := sweepList now r.tracked s
  (⟨w.kept⟩, w.slots, w.count)

/-- The final sweep, over the tickets under watch and then those of items that are still queued. -/
def expireAll (r : Reaper) (queued : List Ticket) (s : Slots V N) : Reaper × Slots V N × Nat :=
  let (s, n) := expireList (r.tracked ++ queued) s
  ({}, s, n)

/-- How many tickets are under watch. -/
def size (r : Reaper) : Nat := r.tracked.length

/-- Whether a ticket is under watch. -/
def contains (r : Reaper) (t : Ticket) : Bool := r.tracked.any (·.slot = t.slot)

/-- The tickets under watch that are not complete. -/
def uncompleted (r : Reaper) (s : Slots V N) : List Ticket :=
  r.tracked.filter fun t => !s.isDone t.slot

end Reaper

end GroupConsumer
