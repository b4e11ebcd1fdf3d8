import GroupConsumer.Config
import GroupConsumer.Processor.Process

/-!
# The background loop

The loop takes the events that the caller has queued, processes them, makes background progress,
sends what the managers want sent, and fails what is overdue (`runOnce`). When it is asked to close
it signals the managers, flushes their last requests and fails all that is left (`cleanUp`).

The caller's end of the queue is here too: `submit` queues an event unless the consumer has closed.
-/

namespace GroupConsumer

/-- The background loop, with the queue between the caller and it. -/
structure BackgroundLoop where
  processor : Processor := {}
  queue : Queue AppEvent := {}
  reaper : Reaper := {}
  /-- Whether a wakeup waits for the loop; there is room for one. -/
  wakeup : Bool := false
  /-- Whether further events are refused. -/
  refusing : Bool := false
  maxPollWait : Int64 := Defaults.maxPollWait

namespace BackgroundLoop

/-- The session of the processor. -/
def session (l : BackgroundLoop) : Session := l.processor.session

/-- Changes the processor. -/
def withProcessor (l : BackgroundLoop) (f : Processor → Processor) : BackgroundLoop :=
  { l with processor := f l.processor }

/-- Changes the session. -/
def withSession (l : BackgroundLoop) (f : Session → Session) : BackgroundLoop :=
  l.withProcessor (·.withSession f)

/-- Fails the ticket of an event, if it has one. -/
def failEvent (l : BackgroundLoop) (e : AppEvent) (f : Fault) : BackgroundLoop :=
  match e.ticket? with
  | some t => l.withSession (·.complete t.slot (.error f))
  | none => l

/-! ### The caller's end -/

/-- Queues an event and wakes the loop. Once events are refused, the event fails instead. -/
def submit (l : BackgroundLoop) (e : AppEvent) : BackgroundLoop × Except Fault Unit :=
  if l.refusing then (l.failEvent e .closed, .error .closed)
  else
    let queue := l.queue.add e l.session.clock
    let l := l.withSession fun s => { s with metrics := s.metrics.withApplicationSize queue.depth }
    ({ l with queue, wakeup := true }, .ok ())

/-- Refuses further events. -/
def refuse (l : BackgroundLoop) : BackgroundLoop := { l with refusing := true }

/-- What a wait for a ticket ends with, when the wait itself changes nothing. -/
def outcomeOrTimeout (l : BackgroundLoop) (t : Ticket) : Outcome Value :=
  (l.session.slots.outcome? t.slot).getD
    (.error (.expired t.describe l.session.clock t.deadline))

/-- Queues an event once its gate is open. If the gate failed, or is still closed when the wait for
it is over, the event fails and is not queued. -/
def submitAfter (l : BackgroundLoop) (gate : SlotId) (e : AppEvent) (deadline : Int64) :
    BackgroundLoop × Except Fault Unit :=
  match l.session.slots.outcome? gate with
  | some (.ok _) => l.submit e
  | some (.error f) => (l.failEvent e f, .error f)
  | none =>
    let f := Fault.expired (e.kind.name ++ " gate") l.session.clock deadline
    (l.failEvent e f, .error f)

/-! ### The loop's end -/

/-- Puts the ticket of an event under watch, if it has one, and processes the event. -/
def handle (now : Int64) (l : BackgroundLoop) (q : Queued AppEvent) : BackgroundLoop :=
  let l := l.withSession fun s =>
    { s with metrics := s.metrics.addApplicationTime (now - q.enqueued) }
  let l := match q.item.ticket? with
    | some t => { l with reaper := l.reaper.track t }
    | none => l
  l.withProcessor (·.process q.item)

/-- Processes all that is queued. -/
def processQueued (l : BackgroundLoop) : BackgroundLoop :=
  let now := l.session.clock
  let (events, queue) := l.queue.drain
  let l := { l with queue }
  let l := l.withSession fun s => { s with metrics := s.metrics.withApplicationSize 0 }
  let l := events.foldl (handle now) l
  l.withSession fun s => { s with metrics := s.metrics.addProcessed events.length }

/-- Sends what the managers want sent, in order. -/
def send (s : Session) (results : List PollResult) : Session :=
  (results.flatMap (·.requests)).foldl (fun s r => s.record (.send r)) s

/-- Polls the managers that exist, each by `poll`, in order. Given are their results. -/
def pollManagers (poll : Session → Manager → Session × PollResult) (s : Session) :
    List Manager → Session × List PollResult
  | [] => (s, [])
  | m :: ms =>
    if s.script.has m then
      let (s, r) := poll s m
      let (s, rs) := pollManagers poll s ms
      (s, r :: rs)
    else pollManagers poll s ms

/-- How long the loop may wait as far as the managers are concerned. -/
def managersWait (s : Session) (now : Int64) : Int64 :=
  (Manager.all.filter s.script.has).foldl (fun w m => min w (s.script.maxWaits m now)) Int64.maxValue

/-- Polls the managers and sends what they want sent. Given is how long the loop may wait. -/
def sendAll (l : BackgroundLoop) (now : Int64) : BackgroundLoop × Int64 :=
  let (s, results) := pollManagers (·.pollManager now) l.session Manager.all
  let wait := results.foldl (fun w r => min w r.wait) Int64.maxValue
  let wait := min (min wait l.maxPollWait) (managersWait s now)
  (l.withSession fun _ => send s results, wait)

/-- Drives the network once. Given is whether requests are in flight afterwards. -/
def driveNetwork (l : BackgroundLoop) (now : Int64) : BackgroundLoop × Bool :=
  let (s, pending) := l.session.pollNetwork now
  (l.withSession fun _ => s, pending)

/-- Fails what is overdue, and counts it. -/
def sweep (l : BackgroundLoop) : BackgroundLoop :=
  let (s, reaper, n) := l.session.sweep l.reaper
  { l with reaper }.withSession fun _ => { s with metrics := s.metrics.addExpired n }

/-- One round of the loop. Given is how long it may then wait. -/
def runOnce (l : BackgroundLoop) : BackgroundLoop × Int64 :=
  let l := l.processQueued.withProcessor (·.progress l.session.clock)
  let now := l.session.clock
  let (l, wait) := l.sendAll now
  let (l, pending) := l.driveNetwork now
  let wait := if pending then min wait Defaults.pendingRequestPollInterval else wait
  (l.sweep, max wait 0)

/-- How often the network is driven at most while the loop closes: at once, and then in regular
intervals until the timeout has passed. -/
def closingRounds (timeout : Int64) : Nat :=
  let ms := timeout.toInt.toNat
  let interval := Defaults.pendingRequestPollInterval.toInt.toNat
  1 + (ms + interval - 1) / interval

/-- Drives the network until no request is in flight, at most `n` times. -/
def flushNetwork : Nat → Session → Session
  | 0, s => s
  | n + 1, s =>
    let (s, pending) := s.pollNetwork s.clock
    if pending then flushNetwork n s else s

/-- Closes the loop: the last requests are sent and flushed, and what is still queued or under watch
fails. -/
def cleanUp (l : BackgroundLoop) (timeout : Int64) : BackgroundLoop :=
  let l := l.withProcessor (·.signalClose)
  let (s, results) := pollManagers (·.pollManagerOnClose l.session.clock) l.session Manager.all
  let l := l.withSession fun _ => flushNetwork (closingRounds timeout) (send s results)
  let (events, queue) := l.queue.drain
  let (s, reaper, n) := l.session.expireAll l.reaper (events.filterMap (·.item.ticket?))
  { l with queue, reaper }.withSession fun _ =>
    { s with metrics := s.metrics.addShutdownExpired n }

end BackgroundLoop

end GroupConsumer
