import GroupConsumer.Ticket

/-!
# Events

The caller and the background loop of a consumer talk in events. An `AppEvent` goes from the caller
to the loop, a `BackgroundEvent` the other way. Events that have a result carry a ticket.
-/

namespace GroupConsumer

/-- Which method of a rebalance listener is meant. -/
inductive ListenerMethod where
  | partitionsRevoked
  | partitionsAssigned
  | partitionsLost
deriving DecidableEq, Repr

/-- The name of a listener method. -/
def ListenerMethod.name : ListenerMethod → String
  | partitionsRevoked => "onPartitionsRevoked"
  | partitionsAssigned => "onPartitionsAssigned"
  | partitionsLost => "onPartitionsLost"

/-- What has happened to the partitions that a listener method is told of. -/
def ListenerMethod.change : ListenerMethod → String
  | partitionsRevoked => "revoked"
  | partitionsAssigned => "assigned"
  | partitionsLost => "lost"

/-- All listener methods. -/
def ListenerMethod.all : List ListenerMethod :=
  [partitionsRevoked, partitionsAssigned, partitionsLost]

/-- The listener method with a name. -/
def ListenerMethod.ofName? (s : String) : Option ListenerMethod := all.find? (·.name = s)

/-- Which callback about stream tasks is meant. -/
inductive TasksCallback where
  | assigned
  | revoked
  | allLost
deriving DecidableEq, Repr

/-- The name of a callback about stream tasks. -/
def TasksCallback.name : TasksCallback → String
  | assigned => "TasksAssigned"
  | revoked => "TasksRevoked"
  | allLost => "AllTasksLost"

/-- All callbacks about stream tasks. -/
def TasksCallback.all : List TasksCallback := [assigned, revoked, allLost]

/-- The callback about stream tasks with a name. -/
def TasksCallback.ofName? (s : String) : Option TasksCallback := all.find? (·.name = s)

/-- A request to run a method of the rebalance listener. -/
structure CallbackRequest where
  ticket : Ticket
  method : ListenerMethod
  partitions : PartitionSet
deriving DecidableEq

/-- A request to run a callback about stream tasks. -/
structure TasksRequest where
  ticket : Ticket
  callback : TasksCallback
  tasks : SortedSet String
deriving DecidableEq

/-- What the background loop tells the caller. -/
inductive BackgroundEvent where
  | fault (fault : Fault)
  | callbackNeeded (request : CallbackRequest)
  | tasksCallbackNeeded (request : TasksRequest)
  | groupMetadata (memberId : String) (memberEpoch : Int)
deriving DecidableEq

namespace BackgroundEvent

/-- The kind of a request to run the rebalance listener. -/
def callbackNeededKind : String := "CONSUMER_REBALANCE_LISTENER_CALLBACK_NEEDED"

/-- The kind of a request to run a callback about stream tasks. -/
def tasksCallbackNeededKind : String := "STREAMS_TASKS_CALLBACK_NEEDED"

/-- The kind of an event. -/
def kind : BackgroundEvent → String
  | fault _ => "ERROR"
  | callbackNeeded _ => callbackNeededKind
  | tasksCallbackNeeded _ => tasksCallbackNeededKind
  | groupMetadata .. => "GROUP_METADATA_UPDATE"

/-- The ticket of an event that has a result. -/
def ticket? : BackgroundEvent → Option Ticket
  | callbackNeeded r => some r.ticket
  | tasksCallbackNeeded r => some r.ticket
  | fault _ | groupMetadata .. => none

end BackgroundEvent

/-- What the caller asks of the background loop. -/
inductive AppEvent where
  /-- The caller polled; `gate` opens once all commits of this poll are under way. -/
  | poll (time : Int64) (gate : SlotId)
  | commitAsync (ticket : Ticket) (offsets : Option OffsetMap)
  | commitSync (ticket : Ticket) (offsets : Option OffsetMap)
  | commitOnClose
  | fetchCommitted (ticket : Ticket) (partitions : PartitionSet)
  | listOffsets (ticket : Ticket) (times : PositionMap) (requireTimes : Bool)
  | checkPositions (ticket : Ticket)
  | resetOffset (ticket : Ticket) (partitions : PartitionSet) (strategy : ResetStrategy)
  | subscribeTopics (ticket : Ticket) (topics : SortedSet String)
  | subscribePattern (ticket : Ticket) (pattern : String)
  | refreshPattern (ticket : Ticket)
  | unsubscribe (ticket : Ticket)
  | assign (ticket : Ticket) (time : Int64) (partitions : PartitionSet)
  | seek (ticket : Ticket) (partition : TopicPartition) (offset : Int64) (leaderEpoch : Option Int)
  | currentLag (ticket : Ticket) (partition : TopicPartition) (isolation : IsolationLevel)
  | createFetches (ticket : Ticket)
  | leaveOnClose (ticket : Ticket)
  | stopCoordinatorOnClose
  | callbackDone (method : ListenerMethod) (slot : SlotId) (fault : Option Fault)
  | tasksCallbackDone (callback : TasksCallback) (slot : SlotId) (fault : Option Fault)

namespace AppEvent

/-- The kinds of events from the caller, by name. -/
inductive Kind where
  | poll
  | commitAsync
  | commitSync
  | commitOnClose
  | fetchCommitted
  | listOffsets
  | checkPositions
  | resetOffset
  | subscribeTopics
  | subscribePattern
  | refreshPattern
  | unsubscribe
  | assign
  | seek
  | currentLag
  | createFetches
  | leaveOnClose
  | stopCoordinatorOnClose
  | callbackDone
  | tasksCallbackDone (callback : TasksCallback)
deriving DecidableEq, Repr

/-- The name of a kind. -/
def Kind.name : Kind → String
  | poll => "POLL"
  | commitAsync => "COMMIT_ASYNC"
  | commitSync => "COMMIT_SYNC"
  | commitOnClose => "COMMIT_ON_CLOSE"
  | fetchCommitted => "FETCH_COMMITTED_OFFSETS"
  | listOffsets => "LIST_OFFSETS"
  | checkPositions => "CHECK_AND_UPDATE_POSITIONS"
  | resetOffset => "RESET_OFFSET"
  | subscribeTopics => "TOPIC_SUBSCRIPTION_CHANGE"
  | subscribePattern => "TOPIC_PATTERN_SUBSCRIPTION_CHANGE"
  | refreshPattern => "UPDATE_SUBSCRIPTION_METADATA"
  | unsubscribe => "UNSUBSCRIBE"
  | assign => "ASSIGNMENT_CHANGE"
  | seek => "SEEK_UNVALIDATED"
  | currentLag => "CURRENT_LAG"
  | createFetches => "CREATE_FETCH_REQUESTS"
  | leaveOnClose => "LEAVE_GROUP_ON_CLOSE"
  | stopCoordinatorOnClose => "STOP_FIND_COORDINATOR_ON_CLOSE"
  | callbackDone => "CONSUMER_REBALANCE_LISTENER_CALLBACK_COMPLETED"
  | tasksCallbackDone .assigned => "STREAMS_ON_TASKS_ASSIGNED_CALLBACK_COMPLETED"
  | tasksCallbackDone .revoked => "STREAMS_ON_TASKS_REVOKED_CALLBACK_COMPLETED"
  | tasksCallbackDone .allLost => "STREAMS_ON_ALL_TASKS_LOST_CALLBACK_COMPLETED"

/-- All kinds. -/
def Kind.all : List Kind :=
  [poll, commitAsync, commitSync, commitOnClose, fetchCommitted, listOffsets, checkPositions,
    resetOffset, subscribeTopics, subscribePattern, refreshPattern, unsubscribe, assign, seek,
    currentLag, createFetches, leaveOnClose, stopCoordinatorOnClose, callbackDone,
    tasksCallbackDone .assigned, tasksCallbackDone .revoked, tasksCallbackDone .allLost]

/-- The kind with a name. -/
def Kind.ofName? (s : String) : Option Kind := Kind.all.find? (·.name = s)

/-- The kind of an event. -/
def kind : AppEvent → Kind
  | poll .. => .poll
  | commitAsync .. => .commitAsync
  | commitSync .. => .commitSync
  | commitOnClose => .commitOnClose
  | fetchCommitted .. => .fetchCommitted
  | listOffsets .. => .listOffsets
  | checkPositions _ => .checkPositions
  | resetOffset .. => .resetOffset
  | subscribeTopics .. => .subscribeTopics
  | subscribePattern .. => .subscribePattern
  | refreshPattern _ => .refreshPattern
  | unsubscribe _ => .unsubscribe
  | assign .. => .assign
  | seek .. => .seek
  | currentLag .. => .currentLag
  | createFetches _ => .createFetches
  | leaveOnClose _ => .leaveOnClose
  | stopCoordinatorOnClose => .stopCoordinatorOnClose
  | callbackDone .. => .callbackDone
  | tasksCallbackDone c .. => .tasksCallbackDone c

/-- The ticket of an event that has a result. -/
def ticket? : AppEvent → Option Ticket
  | commitAsync t _ | commitSync t _ | fetchCommitted t _ | listOffsets t .. | checkPositions t
  | resetOffset t .. | subscribeTopics t _ | subscribePattern t _ | refreshPattern t | unsubscribe t
  | assign t .. | seek t .. | currentLag t .. | createFetches t | leaveOnClose t => some t
  | poll .. | commitOnClose | stopCoordinatorOnClose | callbackDone .. | tasksCallbackDone .. => none

end AppEvent

end GroupConsumer
