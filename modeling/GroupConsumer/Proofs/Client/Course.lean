import GroupConsumer.Proofs.Client.Deeds
import GroupConsumer.Proofs.Shutdown

/-!
# Poll cycles and the loop take turns

A `Course` is a loop with the poll cycles that callers have begun. It goes on in small steps: a cycle
does what comes next, the loop takes what is queued, handles one event, or does another part of a
round, and anything else happens outside of the two. So the steps of any number of cycles fall anywhere
between those of the loop. The rounds of the loop are rows of such steps (`exists_run_round`), and so
is what a consumer does that polls (`exists_run_pollEvents`).
-/

namespace GroupConsumer

/-- How far a poll cycle has come. -/
inductive PollStage where
  /-- Its poll is queued. -/
  | polled
  /-- It waits until the positions are checked. -/
  | checking (t : Ticket)
  /-- It is about to ask for fetches. -/
  | checked
  /-- It has a ticket for its fetches and waits for its gate. -/
  | waiting (t : Ticket)
  /-- Its fetches are queued. -/
  | fetching (t : Ticket)
  /-- Its fetches have failed, and are not queued. -/
  | refused (t : Ticket) (f : Fault)
  /-- It has ended before there was a ticket for fetches. -/
  | ended (f : Fault)
deriving DecidableEq

/-- Where a cycle goes when its check is over. A timeout does not end it. -/
def PollStage.afterCheck : Outcome Value → PollStage
  | .ok _ => .checked
  | .error f => if Client.passesPoll f then .checked else .ended f

/-- The ticket for the fetches of a cycle. -/
def PollStage.fetch? : PollStage → Option Ticket
  | waiting t | fetching t | refused t _ => some t
  | polled | checking _ | checked | ended _ => none

/-- A poll cycle: the time of its poll, its deadline, and the gate that its fetches wait for. -/
structure PollCycle where
  time : Int64
  deadline : Int64
  gate : SlotId
  stage : PollStage
deriving DecidableEq

/-- An event that the loop has processed, and the processor that it found. -/
structure Handling where
  before : Processor
  event : AppEvent

/-- The processor that the event left. -/
def Handling.after (h : Handling) : Processor := h.before.process h.event

/-- A loop, what it has taken from its queue and not handled yet, the cycles that were begun, and what
it has handled so far, the latest first. -/
structure Course where
  loop : BackgroundLoop
  taken : List (Queued AppEvent) := []
  cycles : List PollCycle := []
  past : List Handling := []

/-- What happens at once. -/
inductive Happening where
  /-- A caller begins a cycle. -/
  | poll (timeout : Int64)
  /-- The cycle with the given number goes on; a wait may end at any time. -/
  | advance (n : Nat)
  /-- A caller queues an event that belongs to no cycle. -/
  | submit (e : AppEvent)
  /-- Further events are refused. -/
  | refuse
  /-- Something happens outside of the loop. -/
  | outside (o : Outside)
  /-- The loop takes what is queued. -/
  | take
  /-- The loop handles the next event that it has taken. -/
  | handle (now : Int64)
  /-- The loop counts what it has handled and makes background progress. -/
  | progress (now : Int64) (handled : Nat)
  /-- The loop sends what the managers want sent. -/
  | send (now : Int64)
  /-- The loop drives the network. -/
  | drive (now : Int64)
  /-- The loop fails what is overdue. -/
  | sweep
  /-- The loop closes, within a timeout. -/
  | stop (timeout : Int64)

namespace BackgroundLoop

/-- A new ticket. -/
def issue (l : BackgroundLoop) (kind : AppEvent.Kind) (deadline : Int64) : BackgroundLoop × Ticket :=
  let (s, t) := l.session.issue kind.name l.session.clock deadline
  (l.withSession fun _ => s, t)

/-- Begins a cycle: its poll is queued, with a new gate. -/
def beginCycle (l : BackgroundLoop) (timeout : Int64) : BackgroundLoop × PollCycle :=
  let now := l.session.clock
  let (s, gate) := l.session.fresh
  let (l, r) := (l.withSession fun _ => s).submit (.poll now gate)
  (l, { time := now, deadline := deadlineAfter now timeout, gate,
        stage := match r with | .ok _ => .polled | .error f => .ended f })

/-- Does what comes next in a cycle. -/
def advanceCycle (l : BackgroundLoop) (y : PollCycle) : BackgroundLoop × PollStage :=
  match y.stage with
  | .polled =>
    let (l, t) := l.issue .checkPositions y.deadline
    match l.submit (.checkPositions t) with
    | (l, .ok _) => (l, .checking t)
    | (l, .error f) => (l, .ended f)
  | .checking t => (l, .afterCheck (l.outcomeOrTimeout t))
  | .checked =>
    let (l, t) := l.issue .createFetches y.deadline
    (l, .waiting t)
  | .waiting t =>
    match l.submitAfter y.gate (.createFetches t) y.deadline with
    | (l, .ok _) => (l, .fetching t)
    | (l, .error f) => (l, .refused t f)
  | stage => (l, stage)

/-- An event is refused for one reason alone. -/
theorem submit_eq_error {l : BackgroundLoop} {e : AppEvent} {f : Fault}
    (h : (l.submit e).2 = .error f) : f = .closed := by
  unfold submit at h
  split at h
  · exact (Except.error.inj h).symm
  · cases h

/-- The loop counts what it has handled and makes background progress. -/
def progressed (l : BackgroundLoop) (now : Int64) (handled : Nat) : BackgroundLoop :=
  (l.withSession fun s => { s with metrics := s.metrics.addProcessed handled }).withProcessor
    (·.progress now)

end BackgroundLoop

/-- A wait answers with the outcome of its ticket, or with a timeout. -/
theorem Client.snd_wait (k : Client) (t : Ticket) :
    (k.wait t).2 = (k.wait t).1.loop.outcomeOrTimeout t := by
  simp only [Client.wait]

/-- A consumer that queues an event lets its loop do so. -/
theorem Client.submit_eq {k d : Client} {e : AppEvent} {r : Except Fault Unit}
    (h : k.submit e = (d, r)) : k.loop.submit e = (d.loop, r) := by
  have hl : (k.loop.submit e).1 = d.loop := congrArg (fun x => x.1.loop) h
  have hr : (k.loop.submit e).2 = r := congrArg Prod.snd h
  exact Prod.ext hl hr

namespace Course

/-- Whether somebody outside may make use of a slot: it exists, and it is not the gate of a cycle. -/
def admits (c : Course) (i : SlotId) : Bool :=
  decide (i < c.loop.session.slots.cells.size) && c.cycles.all fun y => decide (y.gate ≠ i)

/-- Whether the fetches of a cycle have a ticket with this slot. -/
def awaitsFetch (c : Course) (i : SlotId) : Bool :=
  c.cycles.any fun y => decide (y.stage.fetch?.map (·.slot) = some i)

/-- The course after something has happened. Only cycles make use of their gates and queue their
fetches; what makes other use of them is left out. -/
def act (c : Course) : Happening → Course
  | .poll timeout =>
    { c with
      loop := (c.loop.beginCycle timeout).1
      cycles := c.cycles ++ [(c.loop.beginCycle timeout).2] }
  | .advance n =>
    match c.cycles[n]? with
    | some y =>
      { c with
        loop := (c.loop.advanceCycle y).1
        cycles := c.cycles.set n { y with stage := (c.loop.advanceCycle y).2 } }
    | none => c
  | .submit e =>
    if e.names.all fun i => c.admits i && !c.awaitsFetch i then
      { c with loop := (c.loop.submit e).1 }
    else c
  | .refuse => { c with loop := c.loop.refuse }
  | .outside o =>
    if o.names.all c.admits then { c with loop := c.loop.withSession (·.undergo o) } else c
  | .take =>
    { c with loop := c.loop.emptied, taken := c.taken ++ c.loop.queue.waiting }
  | .handle now =>
    match c.taken with
    | q :: rest =>
      { c with
        loop := BackgroundLoop.handle now c.loop q
        taken := rest
        past := ⟨(c.loop.watching now q).processor, q.item⟩ :: c.past }
    | [] => c
  | .progress now handled => { c with loop := c.loop.progressed now handled }
  | .send now => { c with loop := (c.loop.sendAll now).1 }
  | .drive now => { c with loop := (c.loop.driveNetwork now).1 }
  | .sweep => { c with loop := c.loop.sweep }
  | .stop timeout => { c with loop := c.loop.cleanUp timeout }

/-- The course after a row of happenings. -/
def run (c : Course) (hs : List Happening) : Course := hs.foldl act c

@[simp] theorem run_nil (c : Course) : c.run [] = c := rfl

@[simp] theorem run_cons (c : Course) (h : Happening) (hs : List Happening) :
    c.run (h :: hs) = (c.act h).run hs := rfl

@[simp] theorem run_append (c : Course) (hs hs' : List Happening) :
    c.run (hs ++ hs') = (c.run hs).run hs' := List.foldl_append

/-- What holds of a course and is kept by whatever happens holds after a row of happenings. -/
theorem run_induction {P : Course → Prop} (step : ∀ c h, P c → P (c.act h)) {c : Course} (hc : P c)
    (hs : List Happening) : P (c.run hs) := by
  induction hs generalizing c with
  | nil => exact hc
  | cons h hs ih => exact ih (step c h hc)

/-! ### Rounds -/

/-- The loop has become `l`, and nothing is left of what it has taken. -/
def Rests (c : Course) (l : BackgroundLoop) (cycles : List PollCycle) : Prop :=
  ∃ hs, (c.run hs).loop = l ∧ (c.run hs).taken = [] ∧ (c.run hs).cycles = cycles

variable {c : Course}

theorem Rests.refl (h : c.taken = []) : c.Rests c.loop c.cycles := ⟨[], rfl, h, rfl⟩

theorem run_handles (now : Int64) (qs : List (Queued AppEvent)) (h : c.taken = qs) :
    let d := c.run (List.replicate qs.length (.handle now))
    d.loop = qs.foldl (BackgroundLoop.handle now) c.loop ∧ d.taken = [] ∧ d.cycles = c.cycles := by
  induction qs generalizing c with
  | nil => exact ⟨rfl, h, rfl⟩
  | cons q qs ih =>
    have ha : c.act (.handle now) =
        { c with
          loop := BackgroundLoop.handle now c.loop q
          taken := qs
          past := ⟨(c.loop.watching now q).processor, q.item⟩ :: c.past } := by
      simp only [act, h]
    rw [List.length_cons, List.replicate_succ, run_cons, ha]
    exact ih rfl

/-- A round of the loop is a row of happenings. -/
theorem exists_run_round (c : Course) (h : c.taken = []) : c.Rests c.loop.runOnce.1 c.cycles := by
  let now := c.loop.session.clock
  let qs := c.loop.queue.waiting
  have htaken : (c.act .take).taken = qs := by
    show c.taken ++ qs = qs
    rw [h]
    rfl
  have hprogress : (qs.foldl (BackgroundLoop.handle now) c.loop.emptied).progressed now qs.length =
      c.loop.processQueued.withProcessor (·.progress now) := by
    rw [BackgroundLoop.processQueued_eq]
    rfl
  obtain ⟨hloop, hrest, hcycles⟩ := run_handles now qs htaken
  -- The clock is read once more before the managers are polled.
  let later := (c.loop.processQueued.withProcessor (·.progress now)).session.clock
  refine ⟨.take :: List.replicate qs.length (.handle now) ++
    [.progress now qs.length, .send later, .drive later, .sweep], ?_⟩
  rw [List.cons_append, run_cons, run_append, BackgroundLoop.runOnce_eq, BackgroundLoop.beforeSweep]
  simp only [later, now, ← hprogress]
  generalize (c.act .take).run (List.replicate qs.length (.handle now)) = d at hloop hrest hcycles
  simp only [run_cons, run_nil, act]
  exact ⟨by rw [hloop]; rfl, hrest, hcycles⟩

theorem Rests.trans {l l' : BackgroundLoop} {ys ys' : List PollCycle} (h : c.Rests l ys)
    (h' : ∀ d : Course, d.loop = l → d.taken = [] → d.cycles = ys → d.Rests l' ys') :
    c.Rests l' ys' := by
  obtain ⟨hs, hl, ht, hy⟩ := h
  obtain ⟨hs', h'⟩ := h' _ hl ht hy
  exact ⟨hs ++ hs', by rw [run_append]; exact h'⟩

theorem Rests.settleWithin {ys : List PollCycle} (quiet fuel left : Nat) {l : BackgroundLoop}
    (h : c.Rests l ys) : c.Rests (BackgroundLoop.settleWithin quiet fuel left l) ys := by
  induction fuel generalizing left l with
  | zero => exact h
  | succ fuel ih =>
    cases left with
    | zero => exact h
    | succ left =>
      simp only [BackgroundLoop.settleWithin]
      refine ih _ (h.trans fun d hl ht hy => ?_)
      have hround := d.exists_run_round ht
      rwa [hl, hy] at hround

/-- A caller that waits lets the loop do rounds. -/
theorem Rests.settle {ys : List PollCycle} {k : Client} (h : c.Rests k.loop ys) :
    c.Rests k.settle.loop ys := by
  unfold Client.settle
  split
  · simp only [BackgroundLoop.settle]
    exact h.settleWithin _ _ _
  · exact h

/-! ### Cycles -/

variable {ys : List PollCycle} {y : PollCycle} {k : Client}

/-- The last cycle goes on. -/
theorem Rests.advance {l : BackgroundLoop} (h : c.Rests l (ys ++ [y])) :
    c.Rests (l.advanceCycle y).1 (ys ++ [{ y with stage := (l.advanceCycle y).2 }]) := by
  refine h.trans fun d hl ht hy => ⟨[.advance ys.length], ?_⟩
  have hn : d.cycles[ys.length]? = some y := by simp [hy]
  simp only [run_cons, run_nil, act, hl, ht, hy]
  simp

theorem Rests.wait (h : c.Rests k.loop ys) (t : Ticket) : c.Rests (k.wait t).1.loop ys := by
  unfold Client.wait
  simp only
  split
  · exact h
  · exact h.settle

/-- A check of the positions is a row of happenings. -/
theorem Rests.check (h : c.Rests k.loop (ys ++ [y])) (hy : y.stage = .polled) :
    c.Rests (k.call .checkPositions y.deadline .checkPositions).1.loop (ys ++ [{ y with
      stage := .afterCheck (k.call .checkPositions y.deadline .checkPositions).2 }]) := by
  have hsubmit := h.advance
  simp only [BackgroundLoop.advanceCycle, hy] at hsubmit
  rcases hr : (k.issue .checkPositions y.deadline).1.submit
    (.checkPositions (k.issue .checkPositions y.deadline).2) with ⟨d, f | _⟩
  · -- The check is refused, which is no timeout.
    have hl : (k.loop.issue .checkPositions y.deadline).1.submit
        (.checkPositions (k.loop.issue .checkPositions y.deadline).2) = (d.loop, .error f) :=
      Client.submit_eq hr
    obtain rfl : f = .closed := BackgroundLoop.submit_eq_error (congrArg Prod.snd hl)
    rw [hl] at hsubmit
    have hcall : k.call .checkPositions y.deadline .checkPositions = (d, .error .closed) := by
      simp only [Client.call]
      rw [hr]
    rw [hcall]
    exact hsubmit
  · have hl : (k.loop.issue .checkPositions y.deadline).1.submit
        (.checkPositions (k.loop.issue .checkPositions y.deadline).2) = (d.loop, .ok ()) :=
      Client.submit_eq hr
    rw [hl] at hsubmit
    have hcall : k.call .checkPositions y.deadline .checkPositions =
        d.wait (k.issue .checkPositions y.deadline).2 := by
      simp only [Client.call]
      rw [hr]
    have hwait := (Rests.wait (k := d) hsubmit (k.issue .checkPositions y.deadline).2).advance
    simp only [BackgroundLoop.advanceCycle] at hwait
    rw [hcall, Client.snd_wait]
    generalize (d.wait _).1 = e at hwait ⊢
    exact hwait

/-- The queueing of fetches is a row of happenings. -/
theorem Rests.fetch (h : c.Rests k.loop (ys ++ [y])) (hy : y.stage = .checked) :
    ∃ stage, c.Rests (k.createFetchesAfter y.gate y.deadline).1.loop
      (ys ++ [{ y with stage }]) := by
  have hissue := h.advance
  simp only [BackgroundLoop.advanceCycle, hy] at hissue
  let k' := (k.issue .createFetches y.deadline).1
  let t := (k.issue .createFetches y.deadline).2
  let z : PollCycle := { y with stage := .waiting t }
  have hk : c.Rests k'.loop (ys ++ [z]) := hissue
  have hwait : ∀ k'' : Client, c.Rests k''.loop (ys ++ [z]) → ∃ stage,
      c.Rests (k''.loop.submitAfter y.gate (.createFetches t) y.deadline).1
        (ys ++ [{ y with stage }]) := by
    intro k'' hk''
    have hlast := hk''.advance
    simp only [BackgroundLoop.advanceCycle, z] at hlast
    generalize k''.loop.submitAfter y.gate (.createFetches t) y.deadline = r at hlast ⊢
    obtain ⟨l, _ | _⟩ := r
    · exact ⟨_, hlast⟩
    · exact ⟨_, hlast⟩
  unfold Client.createFetchesAfter
  simp only
  split
  · exact hwait k' hk
  · exact hwait k'.settle hk.settle

/-- A timeout that a poll does not report changes nothing. -/
theorem Rests.fetchPassing (h : c.Rests k.loop (ys ++ [y])) (hy : y.stage = .checked) :
    ∃ z, c.Rests (match k.createFetchesAfter y.gate y.deadline with
      | (c, .error f) => if Client.passesPoll f then (c, .ok ()) else (c, .error f)
      | (c, .ok _) => (c, .ok ()) : Answered Unit).1.loop (ys ++ [z]) := by
  obtain ⟨stage, hfetch⟩ := h.fetch hy
  refine ⟨{ y with stage }, ?_⟩
  generalize k.createFetchesAfter y.gate y.deadline = r at hfetch ⊢
  obtain ⟨d, f | _⟩ := r
  · simp only
    split <;> exact hfetch
  · exact hfetch

/-- What a consumer does that polls is a row of happenings, by which one more cycle is begun. -/
theorem exists_run_pollEvents (k : Client) (timeout : Int64) (hl : c.loop = k.loop)
    (ht : c.taken = []) : ∃ y, c.Rests (k.pollEvents timeout).1.loop (c.cycles ++ [y]) := by
  have hbegin : c.Rests (k.loop.beginCycle timeout).1
      (c.cycles ++ [(k.loop.beginCycle timeout).2]) := by
    refine ⟨[.poll timeout], ?_⟩
    simp [act, hl, ht]
  let gate := k.session.fresh.2
  let deadline := deadlineAfter k.session.clock timeout
  rcases hr : (k.withSession fun _ => k.session.fresh.1).submit
    (.poll k.session.clock gate) with ⟨d, f | _⟩
  · have hl : (k.loop.withSession fun _ => k.session.fresh.1).submit (.poll k.session.clock gate) =
        (d.loop, .error f) := Client.submit_eq hr
    have hb : (k.loop.beginCycle timeout).1 = d.loop := congrArg Prod.fst hl
    have hpoll : k.pollEvents timeout = (d, .error f) := by
      simp only [Client.pollEvents]
      rw [hr]
    rw [hb] at hbegin
    rw [hpoll]
    exact ⟨_, hbegin⟩
  · let y : PollCycle := { time := k.session.clock, deadline, gate, stage := .polled }
    have hl : (k.loop.withSession fun _ => k.session.fresh.1).submit (.poll k.session.clock gate) =
        (d.loop, .ok ()) := Client.submit_eq hr
    have hb : k.loop.beginCycle timeout = (d.loop, y) := by
      simp only [BackgroundLoop.beginCycle]
      rw [show k.loop.session = k.session from rfl, hl]
    rw [hb] at hbegin
    have hcheck := Rests.check (k := d) hbegin rfl
    change c.Rests (d.call .checkPositions deadline .checkPositions).1.loop (c.cycles ++ [{ y with
      stage := .afterCheck (d.call .checkPositions deadline .checkPositions).2 }]) at hcheck
    simp only [Client.pollEvents]
    rw [hr]
    simp only
    change ∃ z, c.Rests _ _
    rcases hc : d.call .checkPositions deadline .checkPositions with ⟨e, f | v⟩
    · rw [hc] at hcheck
      simp only at hcheck ⊢
      cases hp : Client.passesPoll f with
      | true =>
        rw [if_pos rfl]
        simp only [PollStage.afterCheck, hp] at hcheck
        obtain ⟨z, hz⟩ := Rests.fetchPassing (k := e) hcheck rfl
        exact ⟨z, hz⟩
      | false => exact ⟨_, hcheck⟩
    · rw [hc] at hcheck
      simp only [PollStage.afterCheck] at hcheck ⊢
      obtain ⟨z, hz⟩ := Rests.fetchPassing (k := e) hcheck rfl
      exact ⟨z, hz⟩

end Course

end GroupConsumer
