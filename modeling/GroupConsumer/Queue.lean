import GroupConsumer.Time

/-!
# Queues between the caller and the background loop

First in, first out; every item is stamped with the time at which it was added. A drain looks up how
many items wait and then receives that many one by one, so that an item added meanwhile waits for
the next drain.
-/

namespace GroupConsumer

/-- An item and the time at which it was queued. -/
structure Queued (α : Type) where
  item : α
  enqueued : Int64
deriving DecidableEq, Repr

/-- Items that wait, the oldest first. -/
structure Queue (α : Type) where
  waiting : List (Queued α) := []

namespace Queue

variable {α : Type}

/-- How many items wait. -/
def depth (q : Queue α) : Nat := q.waiting.length

/-- Whether no item waits. -/
def isEmpty (q : Queue α) : Bool := q.waiting.isEmpty

/-- The queue with an item added behind the others. -/
def add (q : Queue α) (a : α) (now : Int64) : Queue α := ⟨q.waiting ++ [⟨a, now⟩]⟩

/-- The oldest item, if any waits, and the queue without it. -/
def receive (q : Queue α) : Option (Queued α) × Queue α := (q.waiting.head?, ⟨q.waiting.tail⟩)

/-- The `n` oldest items, or all that wait if they are fewer, and the queue without them. -/
def receiveUpTo : Nat → Queue α → List (Queued α) × Queue α
  | 0, q => ([], q)
  | n + 1, q =>
    match q.receive with
    | (none, q) => ([], q)
    | (some i, q) =>
      let (is, q) := receiveUpTo n q
      (i :: is, q)

/-- All that waits now, and the queue without it. -/
def drain (q : Queue α) : List (Queued α) × Queue α := q.receiveUpTo q.depth

@[simp] theorem waiting_add (q : Queue α) (a : α) (now : Int64) :
    (q.add a now).waiting = q.waiting ++ [⟨a, now⟩] := rfl

@[simp] theorem depth_add (q : Queue α) (a : α) (now : Int64) :
    (q.add a now).depth = q.depth + 1 := by
  simp [depth]

theorem receiveUpTo_eq (n : Nat) (q : Queue α) :
    q.receiveUpTo n = (q.waiting.take n, ⟨q.waiting.drop n⟩) := by
  induction n generalizing q with
  | zero => rfl
  | succ n ih =>
    obtain ⟨waiting⟩ := q
    cases waiting with
    | nil => rfl
    | cons i is => simp [receiveUpTo, receive, ih]

@[simp] theorem drain_fst (q : Queue α) : q.drain.1 = q.waiting := by
  simp [drain, receiveUpTo_eq, depth]

@[simp] theorem drain_snd (q : Queue α) : q.drain.2 = {} := by
  simp [drain, receiveUpTo_eq, depth]

end Queue

end GroupConsumer
