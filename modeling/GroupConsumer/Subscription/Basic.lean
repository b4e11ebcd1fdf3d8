import GroupConsumer.Pattern.Basic

/-!
# What a consumer reads

The subscription of a consumer: the form it has, the topics or the pattern behind it, and for each
assigned partition how far it has been read. Operations that do not fit the form, or that name a
partition that is not assigned, are refused and change nothing.
-/

namespace GroupConsumer

/-- How far an assigned partition has been read. -/
structure PartitionState where
  position : Option Int64 := none
  leaderEpoch : Option Int := none
  highWatermark : Option Int64 := none
  lastStableOffset : Option Int64 := none
  pendingReset : Option ResetStrategy := none
  paused : Bool := false
deriving DecidableEq, Repr

/-- What a consumer reads. -/
structure Subscription where
  form : SubscriptionForm := .none
  topics : SortedSet String := ∅
  pattern : Option Pattern := none
  assignment : SortedMap TopicPartition PartitionState := ∅
  defaultReset : ResetStrategy := .latest
deriving DecidableEq

namespace Subscription

/-- The assigned partitions. -/
def assigned (s : Subscription) : PartitionSet := s.assignment.keys

/-- Whether a partition is assigned. -/
def isAssigned (s : Subscription) (tp : TopicPartition) : Bool := s.assignment.contains tp

/-- Whether the group assigns the partitions. -/
def isAuto (s : Subscription) : Bool := s.form.isAuto

/-- Takes on a form; one form cannot follow another. -/
def withForm (s : Subscription) (form : SubscriptionForm) : Except Fault Subscription :=
  if s.form = .none ∨ s.form = form then .ok { s with form }
  else .error (.subscriptionConflict s.form.name form.name)

/-- Subscribes to topics. Also given is whether the topics changed. -/
def subscribe (s : Subscription) (topics : SortedSet String) : Except Fault (Subscription × Bool) :=
  if topics.toList.any Text.blank then .error (.invalidArgument .emptyTopicInCollection)
  else do
    let s ← s.withForm .autoTopics
    return ({ s with topics }, decide (s.topics ≠ topics))

/-- Subscribes to a pattern; the topics of another pattern are dropped. -/
def subscribePattern (s : Subscription) (source : String) : Except Fault Subscription := do
  let p ← Pattern.ofSource source
  let s ← s.withForm .autoPattern
  return { s with
    topics := if s.pattern = some p then s.topics else ∅
    pattern := some p }

/-- The topics among the given ones that the pattern picks. -/
def matching (s : Subscription) (topics : List String) : SortedSet String :=
  match s.pattern with
  | some p => SortedSet.ofList (topics.filter p.picks)
  | none => ∅

/-- Replaces the topics that the pattern picks. Also given is whether they changed. -/
def subscribeMatched (s : Subscription) (topics : SortedSet String) :
    Except Fault (Subscription × Bool) :=
  if s.form = .autoPattern then .ok ({ s with topics }, decide (s.topics ≠ topics))
  else .error (.illegalState (.patternTopicsOf s.form))

/-- Makes the assignment hold exactly the given partitions: one that was assigned keeps its state, a
new one starts with none. -/
def reassign (s : Subscription) (parts : PartitionSet) : Subscription :=
  { s with assignment :=
      SortedMap.ofList (parts.toList.map fun tp => (tp, (s.assignment.get? tp).getD {})) }

/-- Assigns partitions picked by the caller. Also given is whether the assignment changed. -/
def assignFromUser (s : Subscription) (parts : PartitionSet) : Except Fault (Subscription × Bool) :=
  match parts.toList.find? fun tp => Text.blank tp.topic with
  | some tp => .error (.invalidArgument (.emptyTopicOf tp))
  | none => do
    let s ← s.withForm .userAssigned
    return (s.reassign parts, decide (s.assigned ≠ parts))

/-- Assigns partitions given by the group. Also given is whether the assignment changed. -/
def assignFromGroup (s : Subscription) (parts : PartitionSet) :
    Except Fault (Subscription × Bool) :=
  if s.isAuto then .ok (s.reassign parts, decide (s.assigned ≠ parts))
  else .error (.illegalState (.groupAssignmentOf s.form))

/-- Drops the form and all that goes with it. -/
def unsubscribe (s : Subscription) : Subscription := { defaultReset := s.defaultReset }

/-- Changes the state of an assigned partition. -/
def adjust (s : Subscription) (tp : TopicPartition) (f : PartitionState → PartitionState) :
    Subscription :=
  { s with assignment := s.assignment.adjust tp f }

/-- Changes the state of a partition that has to be assigned. -/
def adjustAssigned (s : Subscription) (tp : TopicPartition) (f : PartitionState → PartitionState) :
    Except Fault Subscription :=
  if s.isAssigned tp then .ok (s.adjust tp f) else .error (.illegalState (.notAssigned tp))

/-- Moves to an offset, which ends a pending reset. -/
def seek (s : Subscription) (tp : TopicPartition) (offset : Int64) (leaderEpoch : Option Int) :
    Except Fault Subscription :=
  s.adjustAssigned tp fun p =>
    { p with position := some offset, leaderEpoch, pendingReset := none }

/-- Gives up the positions of partitions, to be found anew by a strategy; all or none. -/
def requestReset (s : Subscription) (parts : PartitionSet) (strategy : ResetStrategy) :
    Except Fault Subscription :=
  match parts.toList.find? fun tp => !s.isAssigned tp with
  | some tp => .error (.illegalState (.notAssigned tp))
  | none =>
    .ok { s with assignment := s.assignment.mapValues fun tp p =>
      if tp ∈ parts then { p with position := none, pendingReset := some strategy } else p }

/-- The partitions without a position, with the reset each waits for, if it was asked for one. -/
def needingPosition (s : Subscription) : List (TopicPartition × Option ResetStrategy) :=
  (s.assignment.entries.filter (·.2.position.isNone)).map fun e => (e.1, e.2.pendingReset)

/-- Whether every assigned partition has a position. -/
def hasAllPositions (s : Subscription) : Bool := s.assignment.values.all (·.position.isSome)

/-- Sets the position of a partition, if it is assigned, which ends a pending reset. -/
def updatePosition (s : Subscription) (tp : TopicPartition) (offset : Int64) : Subscription :=
  s.adjust tp fun p => { p with position := some offset, pendingReset := none }

/-- Sets the high watermark of a partition, if it is assigned. -/
def updateHighWatermark (s : Subscription) (tp : TopicPartition) (offset : Int64) : Subscription :=
  s.adjust tp fun p => { p with highWatermark := some offset }

/-- Sets the last stable offset of a partition, if it is assigned. -/
def updateLastStableOffset (s : Subscription) (tp : TopicPartition) (offset : Int64) :
    Subscription :=
  s.adjust tp fun p => { p with lastStableOffset := some offset }

/-- How far the position of a partition lies behind the end its reader may see, if both are known. -/
def lag (s : Subscription) (tp : TopicPartition) (isolation : IsolationLevel) : Option Int64 := do
  let p ← s.assignment.get? tp
  let position ← p.position
  let last ← match isolation with
    | .readUncommitted => p.highWatermark
    | .readCommitted => p.lastStableOffset
  return last - position

/-- The positions reached, as offsets to commit. -/
def consumed (s : Subscription) : OffsetMap :=
  s.assignment.filterMapValues fun _ p => p.position.map fun offset => ⟨offset, p.leaderEpoch, ""⟩

/-- The partitions to fetch from, with their positions. -/
def fetchable (s : Subscription) : List (TopicPartition × Int64) :=
  s.assignment.entries.filterMap fun e =>
    if e.2.paused then none else e.2.position.map (e.1, ·)

/-- Stops fetching from a partition. -/
def pause (s : Subscription) (tp : TopicPartition) : Except Fault Subscription :=
  s.adjustAssigned tp fun p => { p with paused := true }

/-- Goes on fetching from a partition. -/
def resume (s : Subscription) (tp : TopicPartition) : Except Fault Subscription :=
  s.adjustAssigned tp fun p => { p with paused := false }

end Subscription

end GroupConsumer
