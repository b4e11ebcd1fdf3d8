import GroupConsumer.Processor.Positions

/-!
# Processing events and background progress

`process` applies one event of the caller. `progress` is done once in every round of the loop: it
applies what lookups have left and what came of heartbeats, lets the member go on with
reconciliation, and tells the heartbeat manager where the member stands.
-/

namespace GroupConsumer

namespace Processor

/-- The caller polled. The gate opens when every commit that this poll can lead to is under way. -/
def poll (p : Processor) (time : Int64) (gate : SlotId) : Processor :=
  let p := if p.has .heartbeat then p.withSession (·.record (.resetPollTimer time)) else p
  let (p, fs) := p.onMember (·.onPoll)
  let (p, gs) := p.reconcile time
  let p := p.updateCommitTimer time
  (p.withSession (·.completeUnit gate (.ok ()))).report (fs ++ gs)

/-- Lets the member know that the subscription changed. -/
def subscriptionUpdated (p : Processor) : Processor :=
  p.withMember fun x => { x with subscriptionUpdated := true }

/-- Asks for new metadata, if there are any. -/
def requestMetadata (p : Processor) : Processor :=
  if p.session.script.hasMetadata then p.withSession (·.record .requestMetadata) else p

/-- Subscribes to topics. -/
def subscribeTopics (p : Processor) (t : Ticket) (topics : SortedSet String) : Processor :=
  if p.member.isNone then p.failMissing t .membership .subscribeTopics
  else
    match p.subscription.subscribe topics with
    | .ok (s, changed) =>
      let p := p.withSubscription fun _ => s
      let p := if changed then p.requestMetadata else p
      p.subscriptionUpdated.succeed t
    | .error f => p.fail t f

/-- Evaluates the pattern against the metadata, unless that was done at this version already. Also
given is whether the topics changed. -/
def evaluatePattern (p : Processor) : Processor × Bool :=
  let script := p.session.script
  let known := p.evaluated.any fun last => script.metadataVersion ≤ last
  if p.subscription.form ≠ .autoPattern ∨ !script.hasMetadata ∨ known then (p, false)
  else
    let p := p.withSession (·.record .listTopics)
    let matched := p.subscription.matching script.metadataTopics
    let p := { p with evaluated := some script.metadataVersion }
    match p.subscription.subscribeMatched matched with
    | .ok (s, changed) => (p.withSubscription fun _ => s, changed)
    | .error _ => (p, false)

/-- Subscribes to a pattern. -/
def subscribePattern (p : Processor) (t : Ticket) (source : String) : Processor :=
  if p.member.isNone then p.failMissing t .membership .subscribePattern
  else
    match p.subscription.subscribePattern source with
    | .error f => p.fail t f
    | .ok s =>
      let p := { p.withSubscription fun _ => s with evaluated := none }
      p.evaluatePattern.1.requestMetadata.subscriptionUpdated.succeed t

/-- Evaluates the pattern again, if there are newer metadata. -/
def refreshPattern (p : Processor) (t : Ticket) : Processor :=
  if p.session.script.hasMetadata then
    let (p, changed) := p.evaluatePattern
    (if changed then p.subscriptionUpdated else p).succeed t
  else p.failMissing t .metadata .refreshPattern

/-- Leaves the group, if there is one; the ticket is completed when the leave is over. -/
def leave (p : Processor) (t : Ticket) (f : Membership → Membership × SlotId) : Option Processor :=
  p.membership?.map fun m =>
    let (m, i) := f m
    (p.withMembership m).withSession (·.chain i t.slot)

/-- Drops the subscription and leaves the group. -/
def unsubscribe (p : Processor) (t : Ticket) : Processor :=
  let p := { p with evaluated := none }
  (p.leave t (·.leave)).getD ((p.withSubscription (·.unsubscribe)).succeed t)

/-- Leaves the group because the consumer closes. -/
def leaveOnClose (p : Processor) (t : Ticket) : Processor :=
  (p.leave t (·.leaveOnClose)).getD (p.succeed t)

/-- Assigns partitions picked by the caller. -/
def assign (p : Processor) (t : Ticket) (time : Int64) (parts : PartitionSet) : Processor :=
  let p := p.updateCommitTimer time
  p.completeWith t ((p.subscription.assignFromUser parts).map (·.1))

/-- Lets a manager know that the consumer closes. -/
def signalManager (p : Processor) (m : Manager) : Processor :=
  if p.has m then p.withSession (·.record (.signalClose m)) else p

/-- The caller ran a method of its listener; the member goes on. -/
def callbackDone (p : Processor) (slot : SlotId) (fault : Option Fault) : Processor :=
  match p.membership? with
  | none => p
  | some m =>
    let p := p.withMembership (m.onCallbackDone slot fault)
    let (p, fs) := p.reconcile p.session.clock
    p.report fs

/-- The caller ran a callback about stream tasks. -/
def tasksCallbackDone (p : Processor) (c : TasksCallback) (slot : SlotId) (fault : Option Fault) :
    Processor :=
  if p.session.script.hasTasks then
    p.withSession fun s => (s.record (.tasksCallbackDone c fault)).completeUnit slot
      (match fault with | some f => .error f | none => .ok ())
  else p

/-- Applies one event of the caller. -/
def process (p : Processor) : AppEvent → Processor
  | .poll time gate => p.poll time gate
  | .commitAsync t offsets => p.commitAsync t offsets
  | .commitSync t offsets => p.commitSync t offsets
  | .commitOnClose => p.signalManager .commit
  | .fetchCommitted t parts => p.fetchCommitted t parts
  | .listOffsets t times requireTimes => p.listOffsets t times requireTimes
  | .checkPositions t => p.checkPositions t
  | .resetOffset t parts strategy => p.completeWith t (p.subscription.requestReset parts strategy)
  | .subscribeTopics t topics => p.subscribeTopics t topics
  | .subscribePattern t source => p.subscribePattern t source
  | .refreshPattern t => p.refreshPattern t
  | .unsubscribe t => p.unsubscribe t
  | .assign t time parts => p.assign t time parts
  | .seek t tp offset epoch => p.completeWith t (p.subscription.seek tp offset epoch)
  | .currentLag t tp isolation => p.currentLag t tp isolation
  | .createFetches t => p.createFetches t
  | .leaveOnClose t => p.leaveOnClose t
  | .stopCoordinatorOnClose => p.signalManager .coordinator
  | .callbackDone _ slot fault => p.callbackDone slot fault
  | .tasksCallbackDone c slot fault => p.tasksCallbackDone c slot fault

/-- Applies the outcomes of heartbeats, in order. Given are the faults they led to. -/
def applyHeartbeats (p : Processor) : List HeartbeatOutcome → Processor × List Fault
  | [] => (p, [])
  | o :: os =>
    let (p, fs) := p.onMember (·.onHeartbeat o)
    let (p, gs) := p.applyHeartbeats os
    (p, fs ++ gs)

/-- Takes the outcomes of heartbeats, if there is a heartbeat manager. -/
def drainOutcomes (p : Processor) : Processor × List HeartbeatOutcome :=
  if p.has .heartbeat then
    let (os, script) := p.session.script.drainOutcomes
    (p.withSession fun s => { s with script }, os)
  else (p, [])

/-- Tells the heartbeat manager where the member stands. -/
def publishSnapshot (p : Processor) : Processor :=
  match p.membership? with
  | some m => if p.has .heartbeat then p.withSession (·.giveSnapshot m.snapshot) else p
  | none => p

/-- One round of background progress. -/
def progress (p : Processor) (now : Int64) : Processor :=
  let (session, updates) := p.session.takeDeferred
  let p := updates.foldl applyDeferred { p with session }
  let (p, outcomes) := p.drainOutcomes
  let (p, fs) := p.applyHeartbeats outcomes
  let (p, gs) := p.reconcile now
  p.publishSnapshot.report (fs ++ gs)

/-- Lets every manager know that the consumer closes. -/
def signalClose (p : Processor) : Processor := Manager.all.foldl signalManager p

end Processor

end GroupConsumer
