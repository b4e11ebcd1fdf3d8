import GroupConsumer.Collection.SortedMap
import GroupConsumer.Time

/-!
# Partitions, offsets and how they are asked for

The partitions of topics, the offsets committed for or looked up in them, and the two settings that
decide where reading starts and ends: the reset strategy and the isolation level. Partitions are
ordered by topic and then by number, which is the order in which sets and maps of them are shown.
-/

namespace GroupConsumer

/-- One partition of a topic. -/
structure TopicPartition where
  topic : String
  number : Int
deriving DecidableEq, Repr

namespace TopicPartition

/-- By topic, then by number. -/
instance : Ord TopicPartition := ⟨compareLex (compareOn topic) (compareOn number)⟩

instance : Std.TransOrd TopicPartition :=
  inferInstanceAs (Std.TransCmp (compareLex (compareOn topic) (compareOn number)))

instance : Std.LawfulEqOrd TopicPartition where
  eq_of_compare {a b} h := by
    have h' : (compare a.topic b.topic).then (compare a.number b.number) = .eq := h
    rw [Ordering.then_eq_eq] at h'
    cases a
    cases b
    simp only [TopicPartition.mk.injEq]
    exact ⟨Std.LawfulEqOrd.eq_of_compare h'.1, Std.LawfulEqOrd.eq_of_compare h'.2⟩

/-- The topic and the number, joined by a hyphen. -/
def text (tp : TopicPartition) : String := tp.topic ++ "-" ++ toString tp.number

end TopicPartition

/-- A finite set of partitions. -/
abbrev PartitionSet := SortedSet TopicPartition

/-- An offset to resume from, with the epoch of the leader it was read from and a free text. -/
structure CommittedOffset where
  offset : Int64
  leaderEpoch : Option Int
  metadata : String
deriving DecidableEq, Repr

/-- Offsets to commit or committed, by partition. -/
abbrev OffsetMap := SortedMap TopicPartition CommittedOffset

/-- An offset found by its time. -/
structure FoundOffset where
  offset : Int64
  timestamp : Int64
  leaderEpoch : Option Int
deriving DecidableEq, Repr

/-- Looked-up offsets by partition; nothing where no offset was found. -/
abbrev LookupMap := SortedMap TopicPartition (Option FoundOffset)

/-- Positions, or times to look up, by partition. -/
abbrev PositionMap := SortedMap TopicPartition Int64

/-- Which records a reader sees: all, or those of finished transactions. -/
inductive IsolationLevel where
  | readUncommitted
  | readCommitted
deriving DecidableEq, Repr

namespace IsolationLevel

/-- The level with a number; numbers without a level of their own mean the weaker one. -/
def ofNumber (n : Int) : IsolationLevel := if n = 1 then readCommitted else readUncommitted

/-- The number of a level. -/
def number : IsolationLevel → Nat
  | readUncommitted => 0
  | readCommitted => 1

theorem ofNumber_number (l : IsolationLevel) : ofNumber l.number = l := by cases l <;> rfl

/-- The name of a level in the text form of a configuration. -/
def text : IsolationLevel → String
  | readUncommitted => "ReadUncommitted"
  | readCommitted => "ReadCommitted"

end IsolationLevel

/-- Where reading starts in a partition without a committed offset. -/
inductive ResetStrategy where
  | earliest
  | latest
  | none
deriving DecidableEq, Repr

namespace ResetStrategy

/-- The name of a strategy. -/
def name : ResetStrategy → String
  | earliest => "earliest"
  | latest => "latest"
  | none => "none"

/-- The strategy with a name, in upper or lower case. Only ASCII letters need folding, since no other
character has a letter of a name as its lower case. -/
def ofName? (s : String) : Option ResetStrategy :=
  match s.map Char.toLower with
  | "earliest" => some earliest
  | "latest" => some latest
  | "none" => some none
  | _ => Option.none

theorem ofName?_name (s : ResetStrategy) : ofName? s.name = some s := by
  cases s <;> decide +kernel

end ResetStrategy

/-- The time that asks for the end of a partition. -/
def latestTimestamp : Int64 := -1

/-- The time that asks for the beginning of a partition. -/
def earliestTimestamp : Int64 := -2

end GroupConsumer
