import GroupConsumer.Loop

/-!
# The consumer, seen by its caller

A `Client` is what the caller holds: the configuration, its end of the background loop, and what is
done on the caller's own thread, which is to run the listeners and to keep the first fault for the next
call that can report it.

The caller and the loop run side by side. Here the loop runs whenever the caller waits, and then
until it has nothing more to do (`BackgroundLoop.settle`).
-/

namespace GroupConsumer

namespace BackgroundLoop

/-- What shows that a round did something: calls, outcomes and the snapshot of the member. -/
def trace (l : BackgroundLoop) : Nat × Nat × Option MemberSnapshot :=
  let s := l.session
  (s.calls.size, s.slots.cells.foldl (fun n c => if c.outcome.isSome then n + 1 else n) 0,
    s.script.lastSnapshot)

/-- Runs rounds until `quiet` of them in a row have done nothing, at most `fuel`. -/
def settleWithin (quiet : Nat) : Nat → Nat → BackgroundLoop → BackgroundLoop
  | 0, _, l => l
  | _ + 1, 0, l => l
  | fuel + 1, left + 1, l =>
    let l' := l.runOnce.1
    let left := if l'.trace = l.trace ∧ l.queue.isEmpty then left else quiet
    settleWithin quiet fuel left l'

/-- Runs the loop until it has nothing more to do. -/
def settle (l : BackgroundLoop) : BackgroundLoop := settleWithin 4 1000 4 l

end BackgroundLoop

/-- A method of a listener that was run. -/
structure CallbackRun where
  label : String
  method : ListenerMethod
  partitions : PartitionSet

/-- Methods to run when the group moves partitions; each may fail, depending on what was run before.
One that does not define what to do about lost partitions treats them as revoked. -/
structure RebalanceListener where
  label : String
  definesLost : Bool := true
  fails : List CallbackRun → CallbackRun → Option Fault := fun _ _ => none

namespace RebalanceListener

/-- The method of a listener that is run when a method is asked for. -/
def resolve (l : RebalanceListener) : ListenerMethod → ListenerMethod
  | .partitionsLost => if l.definesLost then .partitionsLost else .partitionsRevoked
  | m => m

/-- The run of a listener that is asked for. -/
def run (l : RebalanceListener) (r : CallbackRequest) : CallbackRun :=
  ⟨l.label, l.resolve r.method, r.partitions⟩

end RebalanceListener

/-- A callback about stream tasks that was run; one about the loss of all tasks names none. -/
structure TasksRun where
  callback : TasksCallback
  tasks : SortedSet String
deriving DecidableEq

/-- Callbacks to run when the group moves stream tasks; each may fail, depending on what was run
before. -/
structure StreamsListener where
  fails : List TasksRun → TasksRun → Option Fault := fun _ _ => none

/-- The run of a callback about stream tasks that is asked for. -/
def TasksRequest.run (r : TasksRequest) : TasksRun :=
  ⟨r.callback, if r.callback = .allLost then ∅ else r.tasks⟩

/-- The identity of a member in its group. -/
structure GroupMetadata where
  groupId : String
  memberId : String := ""
  memberEpoch : Int := 0
deriving DecidableEq

/-- What the caller of a consumer holds. -/
structure Client where
  config : Config
  loop : BackgroundLoop
  /-- Watches the requests to run a listener. -/
  reaper : Reaper := {}
  listener : Option RebalanceListener := none
  streamsListener : Option StreamsListener := none
  groupMetadata : Option GroupMetadata := none
  /-- A fault that was met while another call was waiting. -/
  heldFault : Option Fault := none
  closed : Bool := false
  /-- Whether the background loop runs. -/
  running : Bool := true
  /-- The methods of listeners that were run, in order. -/
  ran : Array CallbackRun := #[]
  /-- The callbacks about stream tasks that were run, in order. -/
  tasksRan : Array TasksRun := #[]

/-- The state a call leaves and what it answers. -/
abbrev Answered (α : Type) := Client × Except Fault α

namespace Client

/-- A consumer that has just started. -/
def start (config : Config) (script : Script) (clock : Int64) : Except Fault Client := do
  config.validate
  let session : Session := { clock, script, subscription := { defaultReset := config.autoOffsetReset } }
  let member := config.groupId.map fun groupId =>
    ({ groupId, callbackTimeout := config.defaultApiTimeout } : Member)
  return {
    config
    loop := { processor := { session, member }, maxPollWait := config.maxPollWait }
    groupMetadata := config.groupId.map fun groupId => { groupId } }

/-- The session of the loop. -/
def session (c : Client) : Session := c.loop.session

/-- Changes the session. -/
def withSession (c : Client) (f : Session → Session) : Client := { c with loop := c.loop.withSession f }

/-- The loop runs until it has nothing more to do. -/
def settle (c : Client) : Client := if c.running then { c with loop := c.loop.settle } else c

/-- The deadline of a call with a timeout. -/
def deadlineIn (c : Client) (timeout : Int64) : Int64 := deadlineAfter c.session.clock timeout

/-- The deadline of a call without a timeout of its own. -/
def apiDeadline (c : Client) : Int64 := c.deadlineIn c.config.defaultApiTimeout

/-- A new ticket. -/
def issue (c : Client) (kind : AppEvent.Kind) (deadline : Int64) : Client × Ticket :=
  let (s, t) := c.session.issue kind.name c.session.clock deadline
  (c.withSession fun _ => s, t)

/-- Queues an event. -/
def submit (c : Client) (e : AppEvent) : Answered Unit :=
  let (loop, r) := c.loop.submit e
  ({ c with loop }, r)

/-- Waits for a ticket, as long as its deadline allows. -/
def wait (c : Client) (t : Ticket) : Answered Value :=
  let c := if remaining c.session.clock t.deadline = 0 then c else c.settle
  (c, c.loop.outcomeOrTimeout t)

/-- Queues an event made for a new ticket and waits for the ticket. -/
def call (c : Client) (kind : AppEvent.Kind) (deadline : Int64) (event : Ticket → AppEvent) :
    Answered Value :=
  let (c, t) := c.issue kind deadline
  match c.submit (event t) with
  | (c, .ok _) => c.wait t
  | (c, .error f) => (c, .error f)

/-- Runs `f` unless the consumer is closed. -/
def ifOpen {α : Type} (c : Client) (f : Client → Answered α) : Answered α :=
  if c.closed then (c, .error .closed) else f c

/-! ### Background events -/

/-- Runs a method of the listener, if there is one, and lets the loop know. -/
def runCallback (c : Client) (r : CallbackRequest) : Client :=
  let (c, fault) := match c.listener with
    | some l => ({ c with ran := c.ran.push (l.run r) }, l.fails c.ran.toList (l.run r))
    | none => (c, none)
  (c.submit (.callbackDone r.method r.ticket.slot fault)).1

/-- Runs a callback about stream tasks, if there is a listener, and lets the loop know. -/
def runTasksCallback (c : Client) (r : TasksRequest) : Client :=
  let (c, fault) := match c.streamsListener with
    | some l => ({ c with tasksRan := c.tasksRan.push r.run }, l.fails c.tasksRan.toList r.run)
    | none => (c, none)
  (c.submit (.tasksCallbackDone r.callback r.ticket.slot fault)).1

/-- Handles one background event; `first` is the first fault so far. -/
def handleBackground (cf : Client × Option Fault) (e : BackgroundEvent) : Client × Option Fault :=
  let (c, first) := cf
  let c := match e.ticket? with
    | some t => { c with reaper := c.reaper.track t }
    | none => c
  match e with
  | .fault f => (c, some (first.getD f))
  | .callbackNeeded r => (c.runCallback r, first)
  | .tasksCallbackNeeded r => (c.runTasksCallback r, first)
  | .groupMetadata memberId memberEpoch =>
    ({ c with groupMetadata := c.groupMetadata.map fun g => { g with memberId, memberEpoch } }, first)

/-- Handles all background events, and reports the first fault. -/
def processBackground (c : Client) : Answered Unit :=
  let (s, events) := c.session.drainBackground
  let held := c.heldFault
  let c := { c.withSession (fun _ => s) with heldFault := none }
  let (c, first) := events.foldl handleBackground (c, held)
  let (s, reaper, _) := c.session.sweep c.reaper
  ({ c.withSession (fun _ => s) with reaper }, match first with | some f => .error f | none => .ok ())

/-- Handles background events and keeps the first fault for a later call. -/
def processAndHold (c : Client) : Client :=
  match c.processBackground with
  | (c, .ok _) => c
  | (c, .error f) => { c with heldFault := some (c.heldFault.getD f) }

/-- Waits for a ticket and handles background events meanwhile. A wait in which nothing happens any
more ends like one that has run out of time; `fuel` bounds how often something may happen. -/
def waitHandling (t : Ticket) : Nat → Client → Answered Value
  | 0, c => (c, c.loop.outcomeOrTimeout t)
  | fuel + 1, c =>
    let c := c.processAndHold
    let slots := c.session.slots
    if slots.isDone t.slot || remaining c.session.clock t.deadline = 0 then
      (c, c.loop.outcomeOrTimeout t)
    else
      let c := c.settle
      if c.session.slots.isDone t.slot then (c, c.loop.outcomeOrTimeout t)
      else if c.session.background.isEmpty && remaining c.session.clock t.deadline != 0 then
        (c, c.loop.outcomeOrTimeout t)
      else waitHandling t fuel c

/-- How often a waiting caller handles background events at most. -/
def mostHandlings : Nat := 1000

end Client

end GroupConsumer
