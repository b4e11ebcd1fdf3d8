import GroupConsumer.Processor.Basic

/-!
# Commits, lookups and positions

Events about offsets. A partition without a position gets one from the offset committed for it, if
there is one and no reset was asked for, and otherwise from a reset. Both are looked up by
collaborators; what they find is applied in a later round (`applyDeferred`).
-/

namespace GroupConsumer

namespace Processor

/-- Commits offsets, by default those consumed; nothing to commit is committed at once. -/
def commit (p : Processor) (t : Ticket) (offsets : Option OffsetMap) (kind : AppEvent.Kind)
    (m : Method) (call : OffsetMap → Nat → Call) : Processor :=
  if p.has .commit then
    let offsets := offsets.getD p.subscription.consumed
    if offsets.isEmpty then p.complete t (.ok (.offsets ∅))
    else p.delegate t m (call offsets)
  else p.failMissing t .commit kind

/-- Commits without waiting. -/
def commitAsync (p : Processor) (t : Ticket) (offsets : Option OffsetMap) : Processor :=
  p.commit t offsets .commitAsync .commitAsync fun o i => .commitAsync o i

/-- Commits for a caller that waits. -/
def commitSync (p : Processor) (t : Ticket) (offsets : Option OffsetMap) : Processor :=
  p.commit t offsets .commitSync .commitSync fun o i => .commitSync o t.deadline i

/-- Looks up committed offsets. -/
def fetchCommitted (p : Processor) (t : Ticket) (parts : PartitionSet) : Processor :=
  if p.has .commit then
    if parts.isEmpty then p.complete t (.ok (.offsets ∅))
    else p.delegate t .fetchCommitted (.fetchCommitted parts t.deadline ·)
  else p.failMissing t .commit .fetchCommitted

/-- Looks up offsets by time. -/
def listOffsets (p : Processor) (t : Ticket) (times : PositionMap) (requireTimes : Bool) :
    Processor :=
  if p.has .offsets then
    if times.isEmpty then p.complete t (.ok (.lookups ∅))
    else p.delegate t .lookUpOffsets (.lookUpOffsets times requireTimes ·)
  else p.failMissing t .offsets .listOffsets

/-- The resets to ask for, or the first partition for which there is no policy. -/
def resetsFor (default : ResetStrategy) :
    List (TopicPartition × Option ResetStrategy) →
      Except TopicPartition (List (TopicPartition × ResetStrategy))
  | [] => .ok []
  | (tp, s) :: rest =>
    let s := s.getD default
    if s = .none then .error tp else (resetsFor default rest).map ((tp, s) :: ·)

/-- Resets the partitions that still have no position. -/
def resetPositions (p : Processor) (t : Ticket) : Processor :=
  let needing := p.subscription.needingPosition
  if needing.isEmpty then p.complete t (.ok (.flag true))
  else
    match resetsFor p.subscription.defaultReset needing with
    | .error tp => p.fail t (.illegalState (.noResetPolicy tp))
    | .ok resets =>
      if p.has .offsets then
        let (session, i) := p.session.ask .resolveResets (.resolveResets resets t.deadline ·)
        { p with session := session.holdFor i (.positions t) (some t.slot) }
      else p.failMissing t .offsets .checkPositions

/-- Sees to it that every assigned partition gets a position. -/
def checkPositions (p : Processor) (t : Ticket) : Processor :=
  let needing := p.subscription.needingPosition
  if needing.isEmpty then p.complete t (.ok (.flag true))
  else
    let uncommitted := SortedSet.ofList ((needing.filter (·.2.isNone)).map (·.1))
    if p.has .commit && !uncommitted.isEmpty then
      let (session, i) := p.session.ask .fetchCommitted (.fetchCommitted uncommitted t.deadline ·)
      { p with session := session.holdFor i (.committed t) (some t.slot) }
    else p.resetPositions t

/-- Tells the lag of a partition; where the end is not known, it is looked up for the next time. -/
def currentLag (p : Processor) (t : Ticket) (tp : TopicPartition) (isolation : IsolationLevel) :
    Processor :=
  let lag := p.subscription.lag tp isolation
  let p :=
    if lag.isNone && p.subscription.isAssigned tp && p.has .offsets then
      let times := SortedMap.singleton tp latestTimestamp
      let (session, i) := p.session.ask .lookUpOffsets (.lookUpOffsets times false ·)
      { p with session := session.holdFor i (.endOffsets isolation) none }
    else p
  p.complete t (.ok (.lag lag))

/-- Fetches from the partitions that have a position and are not paused. -/
def createFetches (p : Processor) (t : Ticket) : Processor :=
  if p.has .fetch then
    p.delegate t .createFetches (.createFetches p.subscription.fetchable ·)
  else p.failMissing t .fetch .createFetches

/-! ### Values that lookups have left -/

/-- The positions in a value; other values hold none. -/
def positionsOf : Value → PositionMap
  | .positions m => m
  | _ => ∅

/-- The committed offsets in a value; other values hold none. -/
def offsetsOf : Value → OffsetMap
  | .offsets m => m
  | _ => ∅

/-- The looked-up offsets in a value; other values hold none. -/
def lookupsOf : Value → LookupMap
  | .lookups m => m
  | _ => ∅

/-- Takes over positions found by a reset. -/
def takePositions (s : Subscription) (m : PositionMap) : Subscription :=
  m.entries.foldl (fun s e => s.updatePosition e.1 e.2) s

/-- Takes over committed offsets where there is no position yet. -/
def takeCommitted (s : Subscription) (m : OffsetMap) : Subscription :=
  m.entries.foldl (fun s e =>
    if (s.assignment.get? e.1).any (·.position.isNone) then s.updatePosition e.1 e.2.offset else s) s

/-- Takes over the ends of partitions. -/
def takeEnds (isolation : IsolationLevel) (s : Subscription) (m : LookupMap) : Subscription :=
  m.entries.foldl (fun s e =>
    match e.2, isolation with
    | none, _ => s
    | some found, .readUncommitted => s.updateHighWatermark e.1 found.offset
    | some found, .readCommitted => s.updateLastStableOffset e.1 found.offset) s

/-- Applies a value that a lookup has left. -/
def applyDeferred (p : Processor) : Deferral × Value → Processor
  | (.positions t, v) =>
    let p := p.withSubscription (takePositions · (positionsOf v))
    p.complete t (.ok (.flag p.subscription.hasAllPositions))
  | (.committed t, v) => (p.withSubscription (takeCommitted · (offsetsOf v))).resetPositions t
  | (.endOffsets isolation, v) => p.withSubscription (takeEnds isolation · (lookupsOf v))

end Processor

end GroupConsumer
