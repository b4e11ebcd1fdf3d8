import GroupConsumer.Client.Basic

/-!
# The calls of a consumer

What a caller can ask a consumer to do. A call is refused once the consumer is closed; arguments are
checked before anything is queued.
-/

namespace GroupConsumer

namespace Client

/-- Sets the listener for stream tasks. -/
def setStreamsListener (c : Client) (listener : StreamsListener) : Client :=
  { c with streamsListener := some listener }

/-- Forgets the value of an answer. -/
def Answered.unit {α : Type} (r : Answered α) : Answered Unit := (r.1, r.2.map fun _ => ())

/-- The first of some topics that has no name. -/
def checkTopics (topics : List String) : Except Fault Unit :=
  if topics.any Text.blank then .error (.invalidArgument .emptyTopicName) else .ok ()

/-! ### Subscription -/

/-- Drops the subscription, and leaves the group if there is one. -/
def unsubscribe (c : Client) : Answered Unit :=
  c.ifOpen fun c =>
    let (c, t) := c.issue .unsubscribe c.apiDeadline
    match c.submit (.unsubscribe t) with
    | (c, .ok _) => Answered.unit (waitHandling t mostHandlings c)
    | (c, .error f) => (c, .error f)

/-- Calls, and keeps the listener of a subscription that was accepted. -/
def callListening (c : Client) (listener : Option RebalanceListener) (kind : AppEvent.Kind)
    (event : Ticket → AppEvent) : Answered Unit :=
  match c.call kind c.apiDeadline event with
  | (c, .ok _) => ({ c with listener }, .ok ())
  | (c, .error f) => (c, .error f)

/-- Subscribes to topics; without topics the subscription is dropped. -/
def subscribe (c : Client) (topics : SortedSet String) (listener : Option RebalanceListener) :
    Answered Unit :=
  c.ifOpen fun c =>
    if topics.isEmpty then c.unsubscribe
    else
      match checkTopics topics.toList with
      | .error f => (c, .error f)
      | .ok _ => c.callListening listener .subscribeTopics (.subscribeTopics · topics)

/-- Subscribes to the topics that a pattern picks. -/
def subscribePattern (c : Client) (pattern : String) (listener : Option RebalanceListener) :
    Answered Unit :=
  c.ifOpen (·.callListening listener .subscribePattern (.subscribePattern · pattern))

/-- Evaluates the pattern against the latest metadata. -/
def refreshPattern (c : Client) : Answered Unit :=
  c.ifOpen fun c => Answered.unit (c.call .refreshPattern c.apiDeadline .refreshPattern)

/-- Assigns partitions; without partitions the subscription is dropped. -/
def assign (c : Client) (parts : PartitionSet) : Answered Unit :=
  c.ifOpen fun c =>
    if parts.isEmpty then c.unsubscribe
    else
      match checkTopics (parts.toList.map (·.topic)) with
      | .error f => (c, .error f)
      | .ok _ =>
        Answered.unit (c.call .assign c.apiDeadline (.assign · c.session.clock parts))

/-! ### Commits and offsets -/

/-- Commits offsets, by default those consumed, and waits until a deadline. -/
def commitSyncUntil (c : Client) (offsets : Option OffsetMap) (deadline : Int64) : Answered Unit :=
  Answered.unit (c.call .commitSync deadline (.commitSync · offsets))

/-- Commits offsets, by default those consumed, and waits. -/
def commitSync (c : Client) (offsets : Option OffsetMap) (timeout : Int64) : Answered Unit :=
  c.ifOpen fun c => c.commitSyncUntil offsets (c.deadlineIn timeout)

/-- Commits offsets, by default those consumed. Given is the slot of the result. -/
def commitAsync (c : Client) (offsets : Option OffsetMap) : Answered SlotId :=
  c.ifOpen fun c =>
    let (c, t) := c.issue .commitAsync Int64.maxValue
    let (c, r) := c.submit (.commitAsync t offsets)
    (c, r.map fun _ => t.slot)

/-- Looks up committed offsets. -/
def committed (c : Client) (parts : PartitionSet) (timeout : Int64) : Answered Value :=
  c.ifOpen fun c => c.call .fetchCommitted (c.deadlineIn timeout) (.fetchCommitted · parts)

/-- Looks up offsets by time. -/
def listOffsets (c : Client) (times : PositionMap) (requireTimes : Bool) (timeout : Int64) :
    Answered Value :=
  c.call .listOffsets (c.deadlineIn timeout) (.listOffsets · times requireTimes)

/-- Looks up offsets by time; times are never negative. -/
def offsetsForTimes (c : Client) (times : PositionMap) (timeout : Int64) : Answered Value :=
  c.ifOpen fun c =>
    match times.entries.find? (·.2 < 0) with
    | some (tp, ts) => (c, .error (.invalidArgument (.negativeTimestamp tp ts)))
    | none => c.listOffsets times true timeout

/-- The offsets that were found. -/
def foundOffsets (m : LookupMap) : PositionMap := m.filterMapValues fun _ o => o.map (·.offset)

/-- Looks up one end of partitions. -/
def boundaryOffsets (c : Client) (parts : PartitionSet) (boundary : Int64) (timeout : Int64) :
    Answered PositionMap :=
  c.ifOpen fun c =>
    let (c, r) := c.listOffsets (SortedMap.ofKeys parts boundary) false timeout
    (c, r.map fun v => foundOffsets (Processor.lookupsOf v))

/-- Looks up where partitions begin. -/
def beginningOffsets (c : Client) (parts : PartitionSet) (timeout : Int64) : Answered PositionMap :=
  c.boundaryOffsets parts earliestTimestamp timeout

/-- Looks up where partitions end. -/
def endOffsets (c : Client) (parts : PartitionSet) (timeout : Int64) : Answered PositionMap :=
  c.boundaryOffsets parts latestTimestamp timeout

/-- Moves to an offset. -/
def seek (c : Client) (tp : TopicPartition) (offset : Int64) : Answered Unit :=
  c.ifOpen fun c =>
    if offset < 0 then (c, .error (.invalidArgument (.negativeSeek offset)))
    else Answered.unit (c.call .seek c.apiDeadline (.seek · tp offset none))

/-- Gives up positions, to be found anew by a strategy. -/
def resetOffsets (c : Client) (parts : PartitionSet) (strategy : ResetStrategy) : Answered Unit :=
  c.ifOpen fun c =>
    Answered.unit (c.call .resetOffset c.apiDeadline (.resetOffset · parts strategy))

/-- Tells the lag of a partition, if it is known. -/
def currentLag (c : Client) (tp : TopicPartition) : Answered Value :=
  c.ifOpen fun c => c.call .currentLag c.apiDeadline (.currentLag · tp c.config.isolation)

/-! ### Polling and closing -/

/-- A timeout that a poll does not report. -/
def passesPoll : Fault → Bool := Fault.isTimeout

/-- Queues the event that creates fetches, once the gate of the poll is open. -/
def createFetchesAfter (c : Client) (gate : SlotId) (deadline : Int64) : Answered Unit :=
  let (c, t) := c.issue .createFetches deadline
  let c :=
    if c.session.slots.isDone gate || remaining c.session.clock deadline = 0 then c else c.settle
  let (loop, r) := c.loop.submitAfter gate (.createFetches t) deadline
  ({ c with loop }, r)

/-- Queues the events of a poll: the poll itself, a check of the positions, and the fetches. -/
def pollEvents (c : Client) (timeout : Int64) : Answered Unit :=
  let now := c.session.clock
  let deadline := deadlineAfter now timeout
  let (s, gate) := c.session.fresh
  let c := c.withSession fun _ => s
  match c.submit (.poll now gate) with
  | (c, .error f) => (c, .error f)
  | (c, .ok _) =>
    let fetch (c : Client) : Answered Unit :=
      match c.createFetchesAfter gate deadline with
      | (c, .error f) => if passesPoll f then (c, .ok ()) else (c, .error f)
      | (c, .ok _) => (c, .ok ())
    match c.call .checkPositions deadline .checkPositions with
    | (c, .error f) => if passesPoll f then fetch c else (c, .error f)
    | (c, .ok _) => fetch c

/-- Polls: handles background events, before and after the events of the poll. -/
def poll (c : Client) (timeout : Int64) : Answered Unit :=
  c.ifOpen fun c =>
    match c.processBackground with
    | (c, .error f) => (c, .error f)
    | (c, .ok _) =>
      match c.pollEvents timeout with
      | (c, .error f) => (c, .error f)
      | (c, .ok _) => c.processBackground

/-- The first of two faults. -/
def firstOf (first : Option Fault) : Except Fault Unit → Option Fault
  | .ok _ => first
  | .error f => some (first.getD f)

/-- Commits what was consumed before closing. A missing commit manager is no fault here. -/
def commitOnClose (c : Client) (deadline : Int64) : Client × Option Fault :=
  if c.config.autoCommitEnabled then
    match c.commitSyncUntil none deadline with
    | (c, .error (.missingCollaborator ..)) => (c, none)
    | (c, r) => (c, firstOf none r)
  else (c, none)

/-- Leaves the group before closing, and waits for that. -/
def leaveOnClose (c : Client) (deadline : Int64) : Answered Unit :=
  if c.config.hasGroup then
    let (c, t) := c.issue .leaveOnClose deadline
    match c.submit (.leaveOnClose t) with
    | (c, .ok _) => Answered.unit (waitHandling t mostHandlings c)
    | (c, .error f) => (c, .error f)
  else (c, .ok ())

/-- Stops the loop, which fails all that is left. -/
def stopLoop (c : Client) (timeout : Int64) : Client :=
  if c.running then { c.settle with running := false, loop := c.settle.loop.cleanUp timeout } else c

/-- Fails the requests to run the listener that are left. -/
def failCallbacks (c : Client) : Client :=
  let (s, events) := c.session.drainBackground
  let (s, reaper, _) := s.expireAll c.reaper (events.filterMap (·.ticket?))
  { c.withSession (fun _ => s) with reaper }

/-- Closes the consumer: commits, leaves the group, stops the loop and fails what is left. Reported is
the first fault; a second close does nothing. -/
def close (c : Client) (timeout : Int64) : Answered Unit :=
  if c.closed then (c, .ok ())
  else
    let c := { c with closed := true }
    let deadline := c.deadlineIn timeout
    let (c, first) := c.commitOnClose deadline
    let (c, r) := c.submit .commitOnClose
    let first := firstOf first r
    let (c, r) := c.leaveOnClose deadline
    let first := firstOf first r
    let (c, r) := c.submit .stopCoordinatorOnClose
    let first := firstOf first r
    let c := { c with loop := c.loop.refuse }
    let c := (c.stopLoop (remaining c.session.clock deadline)).failCallbacks
    (c, match first with | some f => .error f | none => .ok ())

/-- Closes a consumer that is given up. -/
def drop (c : Client) : Client := (c.close (max c.config.closeTimeout 0)).1

end Client

end GroupConsumer
