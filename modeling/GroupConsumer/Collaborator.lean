import GroupConsumer.Event
import GroupConsumer.Subscription.Basic
import GroupConsumer.Wire

/-!
# The collaborators of the background loop

The loop does not commit, fetch or send by itself. It asks request managers, the cluster metadata
and the network client, and what they do is up to them. Here they are a `Script`: which of them exist,
what they have been told, and what they will do. Every call is recorded as a `Call`.

A collaborator that is asked for something answers with a slot, by what it is asked for. When it is
polled it can also do things of itself (`Stir`): complete what it has answered with earlier, take its
time, hear of heartbeats, learn of topics. What comes of each poll and each call is up to the script, so
that a statement about all scripts is one about all collaborators that act at these points. While one
is told or asked something it does no more than answer, and time may pass.
-/

namespace GroupConsumer

/-- The request managers, in the order in which they are polled. -/
inductive Manager where
  | coordinator
  | commit
  | heartbeat
  | offsets
  | fetch
deriving DecidableEq, Repr

/-- All request managers, in order. -/
def Manager.all : List Manager := [coordinator, commit, heartbeat, offsets, fetch]

/-- The name of a request manager. -/
def Manager.name : Manager → String
  | coordinator => "coordinator"
  | commit => "commit"
  | heartbeat => "heartbeat"
  | offsets => "offsets"
  | fetch => "fetch"

/-- The request manager with a name. -/
def Manager.ofName? (s : String) : Option Manager := all.find? (·.name = s)

/-- The calls that are answered through a slot. -/
inductive Method where
  | commitAsync
  | commitSync
  | fetchCommitted
  | commitBeforeRevocation
  | lookUpOffsets
  | resolveResets
  | createFetches
deriving DecidableEq, Repr

/-- All calls that are answered through a slot. -/
def Method.all : List Method :=
  [commitAsync, commitSync, fetchCommitted, commitBeforeRevocation, lookUpOffsets, resolveResets,
    createFetches]

/-- The name of a call that is answered through a slot, behind that of the manager. -/
def Method.name : Method → String
  | commitAsync => "commit.commit_async"
  | commitSync => "commit.commit_sync"
  | fetchCommitted => "commit.fetch_offsets"
  | commitBeforeRevocation => "commit.before_revocation"
  | lookUpOffsets => "offsets.fetch_offsets"
  | resolveResets => "offsets.update_fetch_positions"
  | createFetches => "fetch.create"

/-- The call with a name. -/
def Method.ofName? (s : String) : Option Method := all.find? (·.name = s)

/-- What a slot of the loop can be completed with. -/
inductive Value where
  | done
  | flag (b : Bool)
  | lag (n : Option Int64)
  | offsets (m : OffsetMap)
  | lookups (m : LookupMap)
  | positions (m : PositionMap)
deriving DecidableEq

/-- What the member tells the heartbeat manager to send. -/
structure MemberSnapshot where
  memberId : String
  memberEpoch : Int
  state : MemberState
  topics : SortedSet String
  pattern : Option String
  owned : PartitionSet
deriving DecidableEq

/-- What came of a heartbeat. -/
inductive HeartbeatOutcome where
  | success (memberId : String) (memberEpoch : Int) (assignment : Option PartitionSet)
  | fenced
  | fatal (fault : Fault)
  | requestSent (memberEpoch : Int)
deriving DecidableEq

/-- A call of a collaborator; `future` is the number of the slot it was answered with. -/
inductive Call where
  | commitAsync (offsets : OffsetMap) (future : Nat)
  | commitSync (offsets : OffsetMap) (deadline : Int64) (future : Nat)
  | fetchCommitted (partitions : PartitionSet) (deadline : Int64) (future : Nat)
  | commitBeforeRevocation (offsets : OffsetMap) (deadline : Int64) (future : Nat)
  | lookUpOffsets (times : PositionMap) (requireTimes : Bool) (future : Nat)
  | resolveResets (partitions : List (TopicPartition × ResetStrategy)) (deadline : Int64)
      (future : Nat)
  | createFetches (partitions : List (TopicPartition × Int64)) (future : Nat)
  | updateCommitTimer (now : Int64) (consumed : OffsetMap)
  | resetPollTimer (now : Int64)
  | updateMembership (snapshot : MemberSnapshot)
  | signalClose (manager : Manager)
  | tasksCallbackDone (callback : TasksCallback) (fault : Option Fault)
  | listTopics
  | requestMetadata
  | send (request : UnsentRequest)
deriving DecidableEq

namespace Call

/-- The call and the number of its slot, if it is answered through one. -/
def future? : Call → Option (Method × Nat)
  | commitAsync _ n => some (.commitAsync, n)
  | commitSync _ _ n => some (.commitSync, n)
  | fetchCommitted _ _ n => some (.fetchCommitted, n)
  | commitBeforeRevocation _ _ n => some (.commitBeforeRevocation, n)
  | lookUpOffsets _ _ n => some (.lookUpOffsets, n)
  | resolveResets _ _ n => some (.resolveResets, n)
  | createFetches _ n => some (.createFetches, n)
  | _ => none

/-- The name of a call, behind that of the collaborator. -/
def name : Call → String
  | updateCommitTimer .. => "commit.update_timer"
  | resetPollTimer _ => "heartbeat.reset_poll_timer"
  | updateMembership _ => "heartbeat.update_membership"
  | signalClose m => m.name ++ ".signal_close"
  | tasksCallbackDone .. => "streams.completed"
  | listTopics => "metadata.topics"
  | requestMetadata => "metadata.request_update"
  | send _ => "network.send"
  | commitAsync .. => Method.commitAsync.name
  | commitSync .. => Method.commitSync.name
  | fetchCommitted .. => Method.fetchCommitted.name
  | commitBeforeRevocation .. => Method.commitBeforeRevocation.name
  | lookUpOffsets .. => Method.lookUpOffsets.name
  | resolveResets .. => Method.resolveResets.name
  | createFetches .. => Method.createFetches.name

/-- Whether a call tells a manager that the consumer closes. -/
def isSignal : Call → Bool
  | signalClose _ => true
  | _ => false

end Call

/-- How a call is answered. -/
inductive Answer where
  /-- With a new slot that is pending. -/
  | pending
  /-- With a slot that has a given outcome. -/
  | settled (outcome : Outcome Value)
  /-- With the slot of an earlier answer, given by its number, if there is one. -/
  | again (future : Nat)

/-- How a call is answered, and how far the clock moves before. -/
structure Reply where
  advance : Option Int64 := none
  answer : Answer := .pending

/-- What a collaborator does of itself. -/
inductive Stir where
  /-- It completes the slot of an earlier answer, given by its number, if there is one. -/
  | complete (future : Nat) (outcome : Outcome Value)
  /-- Time passes. -/
  | advance (ms : Int64)
  /-- Heartbeats come back. -/
  | hear (outcomes : List HeartbeatOutcome)
  /-- The cluster tells of its topics. -/
  | learn (version : UInt64) (topics : List String)

/-- What comes of polling a manager. -/
structure ManagerPoll where
  /-- What happens before the manager has its result. -/
  stirs : List Stir := []
  result : PollResult := {}

/-- What comes of driving the network. -/
structure NetworkPoll where
  stirs : List Stir := []
  /-- Whether requests are in flight afterwards. -/
  pending : Bool := false

/-- What the collaborators will do and what they have been told. -/
structure Script where
  managers : List Manager := []
  hasMetadata : Bool := false
  hasTasks : Bool := false
  /-- The replies to come, by method, to what is asked for; the last one is given ever after. -/
  replies : Method → List (Call → Reply) := fun _ => []
  /-- What will come of polling a manager at some time; the last one comes ever after. -/
  polls : Manager → List (Int64 → ManagerPoll) := fun _ => []
  /-- What will come of polling a manager when the loop closes; the last one comes ever after. -/
  closePolls : Manager → List (Int64 → ManagerPoll) := fun _ => []
  /-- How long the loop may wait, by manager and time. -/
  maxWaits : Manager → Int64 → Int64 := fun _ _ => Int64.maxValue
  /-- What will come of driving the network at some time; the last one comes ever after. -/
  network : List (Int64 → NetworkPoll) := []
  /-- What came of heartbeats since the last time. -/
  outcomes : List HeartbeatOutcome := []
  lastSnapshot : Option MemberSnapshot := none
  /-- What else the heartbeat manager reports, judged by the last snapshot it was given. -/
  ownOutcomes : Option MemberSnapshot → List HeartbeatOutcome := fun _ => []
  /-- How far the clock moves when the heartbeat manager is given a snapshot. Each waits for a snapshot
  that it says something of. -/
  delays : List (MemberSnapshot → Option Int64) := []
  metadataVersion : UInt64 := 0
  metadataTopics : List String := []

/-- The next item of a row of which the last one comes ever after, and the row that is left. -/
def takeNext {α : Type} (default : α) : List α → α × List α
  | [] => (default, [])
  | [a] => (a, [a])
  | a :: as => (a, as)

namespace Script

/-- Whether a manager exists. -/
def has (s : Script) (m : Manager) : Bool := s.managers.contains m

/-- Sets the replies to come to a method. -/
def setReplies (s : Script) (m : Method) (rs : List (Call → Reply)) : Script :=
  { s with replies := fun m' => if m' = m then rs else s.replies m' }

/-- Sets what will come of polling a manager. -/
def setPolls (s : Script) (m : Manager) (ps : List (Int64 → ManagerPoll)) : Script :=
  { s with polls := fun m' => if m' = m then ps else s.polls m' }

/-- Sets what will come of polling a manager when the loop closes. -/
def setClosePolls (s : Script) (m : Manager) (ps : List (Int64 → ManagerPoll)) : Script :=
  { s with closePolls := fun m' => if m' = m then ps else s.closePolls m' }

/-- Sets how long a manager lets the loop wait. -/
def setMaxWait (s : Script) (m : Manager) (wait : Int64 → Int64) : Script :=
  { s with maxWaits := fun m' => if m' = m then wait else s.maxWaits m' }

/-- The next reply to a method, and the script without it. -/
def nextReply (s : Script) (m : Method) : (Call → Reply) × Script :=
  let (reply, rest) := takeNext (fun _ => {}) (s.replies m)
  (reply, s.setReplies m rest)

/-- What comes of polling a manager, and the script after it. -/
def nextPoll (s : Script) (m : Manager) (now : Int64) : ManagerPoll × Script :=
  let (poll, rest) := takeNext (fun _ => {}) (s.polls m)
  (poll now, s.setPolls m rest)

/-- What comes of polling a manager when the loop closes, and the script after it. -/
def nextClosePoll (s : Script) (m : Manager) (now : Int64) : ManagerPoll × Script :=
  let (poll, rest) := takeNext (fun _ => {}) (s.closePolls m)
  (poll now, s.setClosePolls m rest)

/-- What comes of driving the network, and the script after it. -/
def nextNetworkPoll (s : Script) (now : Int64) : NetworkPoll × Script :=
  let (poll, network) := takeNext (fun _ => {}) s.network
  (poll now, { s with network })

/-- How far the clock moves when the heartbeat manager is given a snapshot, and the script after it. -/
def nextDelay (s : Script) (snap : MemberSnapshot) : Int64 × Script :=
  match s.delays with
  | [] => (0, s)
  | delay :: delays =>
    match delay snap with
    | some ms => (ms, { s with delays })
    | none => (0, s)

/-- The outcomes of heartbeats since the last time, and the script without them. -/
def drainOutcomes (s : Script) : List HeartbeatOutcome × Script :=
  (s.outcomes ++ s.ownOutcomes s.lastSnapshot, { s with outcomes := [] })

end Script

end GroupConsumer
