import GroupConsumer.Proofs.Session.Converses
import GroupConsumer.Proofs.Sweep

/-!
# Deadlines

An event that the loop has accepted is never out of sight: its ticket is complete, under watch, or
still in the queue (`InSight`). Every step of a run keeps it so, since a round puts the ticket of an
event under watch before it processes the event. When the round ends with its sweep, nothing is
queued, so the ticket is complete or it is under watch and has time left (`done_or_awaited`).
-/

namespace GroupConsumer

/-- What a run of the loop is made of. -/
inductive LoopAction where
  /-- The caller queues an event. -/
  | submit (e : AppEvent)
  /-- The caller refuses further events. -/
  | refuse
  /-- Something happens outside of the loop. -/
  | outside (o : Outside)
  /-- The loop does one round. -/
  | round

theorem Processor.Steady.of_subscription {p q : Processor} (hp : p.Steady)
    (hm : q.member = p.member) (hs : q.session.subscription = p.session.subscription) : q.Steady := by
  intro x hx
  have hpx := hp x (hm.symm.trans hx)
  exact ⟨hx, hpx.coherent, hpx.agrees.congr hs rfl⟩

/-- How many slots the sweeps of the loop have failed, and how many its last one. -/
def Session.reaped (s : Session) : UInt64 × UInt64 := (s.metrics.expired, s.metrics.shutdownExpired)

theorem Session.reaped_of_tally {s t : Session} (h : t.tally = s.tally) : t.reaped = s.reaped := by
  have hexpired : t.tally.expired = s.tally.expired := by rw [h]
  have hshut : t.tally.shutdownExpired = s.tally.shutdownExpired := by rw [h]
  exact Prod.ext hexpired hshut

namespace BackgroundLoop

/-- The loop after an action. -/
def act (l : BackgroundLoop) : LoopAction → BackgroundLoop
  | .submit e => (l.submit e).1
  | .refuse => l.refuse
  | .outside o => l.withSession (·.undergo o)
  | .round => l.runOnce.1

theorem act_round (l : BackgroundLoop) : l.act .round = l.runOnce.1 := by
  simp only [act]

/-- The loop after a row of actions. -/
def run (l : BackgroundLoop) (as : List LoopAction) : BackgroundLoop := as.foldl act l

/-- The loop that has taken what was queued. -/
def emptied (l : BackgroundLoop) : BackgroundLoop :=
  { l with queue := {} }.withSession fun s => { s with metrics := s.metrics.withApplicationSize 0 }

theorem processQueued_eq (l : BackgroundLoop) :
    l.processQueued = (l.queue.waiting.foldl (handle l.session.clock) l.emptied).withSession fun s =>
      { s with metrics := s.metrics.addProcessed l.queue.waiting.length } := by
  simp only [processQueued, Queue.drain_fst, Queue.drain_snd]
  rfl

/-- The loop that is about to process an event: its ticket, if it has one, is under watch. -/
def watching (l : BackgroundLoop) (now : Int64) (q : Queued AppEvent) : BackgroundLoop :=
  let l := l.withSession fun s =>
    { s with metrics := s.metrics.addApplicationTime (now - q.enqueued) }
  match q.item.ticket? with
  | some t => { l with reaper := l.reaper.track t }
  | none => l

theorem handle_eq (l : BackgroundLoop) (now : Int64) (q : Queued AppEvent) :
    handle now l q = (l.watching now q).withProcessor (·.process q.item) := rfl

@[simp] theorem queue_watching (l : BackgroundLoop) (now : Int64) (q : Queued AppEvent) :
    (l.watching now q).queue = l.queue := by
  unfold watching
  split <;> rfl

/-- A round as far as its sweep. -/
def beforeSweep (l : BackgroundLoop) : BackgroundLoop :=
  let k := l.processQueued.withProcessor (·.progress l.session.clock)
  ((k.sendAll k.session.clock).1.driveNetwork k.session.clock).1

/-- A round ends with a sweep. -/
theorem runOnce_eq (l : BackgroundLoop) : l.runOnce.1 = l.beforeSweep.sweep := by
  simp only [runOnce, beforeSweep]

/-- A sweep fails what is pending and due, and does nothing else to the slots. -/
theorem expires_sweep (l : BackgroundLoop) :
    Reaper.Expires l.session.clock l.reaper.tracked l.session.slots l.sweep.session.slots :=
  Reaper.expires_sweep l.reaper l.session.clock l.session.slots

theorem size_sweep (l : BackgroundLoop) :
    l.sweep.session.slots.cells.size = l.session.slots.cells.size := l.expires_sweep.size

/-- The ticket has a slot, and is complete, under watch or queued. -/
structure InSight (l : BackgroundLoop) (t : Ticket) : Prop where
  slot : t.slot < l.session.slots.cells.size
  place : l.session.slots.isDone t.slot = true ∨ t ∈ l.reaper.tracked ∨
    ∃ q ∈ l.queue.waiting, q.item.ticket? = some t

/-- What every part of the loop's work comes to, apart from sweeps: the processor stays sound, no slot
is lost, outcomes stay, events are only added for the caller, nothing is reaped, and what is under watch
remains so. -/
structure Extends (l l' : BackgroundLoop) : Prop where
  steady : l'.processor.Steady
  works : l.session.Publishes l'.session
  reaped : l'.session.reaped = l.session.reaped
  tracked : ∀ t ∈ l.reaper.tracked, t ∈ l'.reaper.tracked

variable {l l' l'' : BackgroundLoop} {t : Ticket}

theorem Extends.refl (hl : l.processor.Steady) : l.Extends l :=
  ⟨hl, .refl _, rfl, fun _ => id⟩

theorem Extends.trans (h : l.Extends l') (h' : l'.Extends l'') : l.Extends l'' :=
  ⟨h'.steady, h.works.trans h'.works, h'.reaped.trans h.reaped,
    fun t ht => h'.tracked t (h.tracked t ht)⟩

theorem Extends.isDone (h : l.Extends l') {i : SlotId} (hi : l.session.slots.isDone i = true) :
    l'.session.slots.isDone i = true := h.works.keeps.isDone hi

/-! ### Parts of the loop's work -/

section Parts

variable (l) (hl : l.processor.Steady)

include hl

/-- The session changes, and the loop counts nothing. -/
theorem extends_of_spares {s : Session} (hs : l.session.Spares s)
    (hsub : s.subscription = l.session.subscription) : l.Extends (l.withSession fun _ => s) :=
  ⟨hl.of_subscription rfl hsub, hs.toPublishes, Session.reaped_of_tally hs.tally, fun _ => id⟩

/-- A change of neither the slots nor the subscription, nor of what waits for the caller or is
reaped. -/
theorem extends_withSession {f : Session → Session} (hs : (f l.session).slots = l.session.slots)
    (hsub : (f l.session).subscription = l.session.subscription)
    (he : (f l.session).background = l.session.background)
    (hr : (f l.session).reaped = l.session.reaped) : l.Extends (l.withSession f) := by
  refine ⟨hl.of_subscription rfl hsub, ?_, hr, fun _ => id⟩
  refine Session.publishes_of_slots (Nat.le_of_eq (congrArg (·.cells.size) hs.symm)) ?_ he
  exact Slots.keeps_of_cells (congrArg (·.cells) hs)

theorem extends_of_converses {s : Session} (h : l.session.Converses s) :
    l.Extends (l.withSession fun _ => s) := extends_of_spares l hl h.spares h.subscription

/-- The processor acts. -/
theorem extends_act {a : Action} (ha : ∀ o, a ≠ .outside o) :
    l.Extends (l.withProcessor (·.act a)) := by
  have hs := hl.spares_act ha
  exact ⟨hl.act a, hs.toPublishes, Session.reaped_of_tally hs.tally, fun _ => id⟩

/-- An event fails. -/
theorem extends_failEvent (e : AppEvent) (f : Fault) : l.Extends (l.failEvent e f) := by
  unfold failEvent
  split
  · rename_i t _
    exact extends_of_spares l hl (Session.grows_complete l.session t.slot _).spares rfl
  · exact .refl hl

/-- The ticket of an event is under watch before the event is processed. -/
theorem extends_watching (now : Int64) (q : Queued AppEvent) :
    l.Extends (l.watching now q) ∧
      ∀ t, q.item.ticket? = some t → t ∈ (l.watching now q).reaper.tracked := by
  have htimed := extends_withSession l hl
    (f := fun s => { s with metrics := s.metrics.addApplicationTime (now - q.enqueued) })
    rfl rfl rfl rfl
  unfold watching
  split
  · rename_i t ht
    refine ⟨⟨htimed.steady, htimed.works, htimed.reaped, fun r hr => List.mem_append_left _ hr⟩,
      fun r hr => ?_⟩
    obtain rfl := Option.some.inj (ht.symm.trans hr)
    exact List.mem_append_right _ (List.mem_singleton_self t)
  · rename_i ht
    exact ⟨htimed, fun r hr => by cases ht.symm.trans hr⟩

/-- Handling an event puts its ticket under watch. -/
theorem extends_handle (now : Int64) (q : Queued AppEvent) :
    l.Extends (handle now l q) ∧
      ∀ t, q.item.ticket? = some t → t ∈ (handle now l q).reaper.tracked := by
  obtain ⟨hwatching, hwatched⟩ := extends_watching l hl now q
  have hact := extends_act (l.watching now q) hwatching.steady (a := .process q.item) (by simp)
  rw [handle_eq]
  exact ⟨hwatching.trans hact, fun t ht => hact.tracked t (hwatched t ht)⟩

/-- Handling events one after the other puts all their tickets under watch. -/
theorem extends_foldl_handle (now : Int64) (qs : List (Queued AppEvent)) :
    l.Extends (qs.foldl (handle now) l) ∧
      ∀ q ∈ qs, ∀ t, q.item.ticket? = some t → t ∈ (qs.foldl (handle now) l).reaper.tracked := by
  induction qs generalizing l with
  | nil => exact ⟨.refl hl, fun q hq => absurd hq List.not_mem_nil⟩
  | cons q qs ih =>
    obtain ⟨hfirst, hwatch⟩ := extends_handle l hl now q
    obtain ⟨hrest, hwatched⟩ := ih (handle now l q) hfirst.steady
    refine ⟨hfirst.trans hrest, fun r hr t ht => ?_⟩
    obtain rfl | hr := List.mem_cons.1 hr
    · exact hrest.tracked t (hwatch t ht)
    · exact hwatched r hr t ht

/-- What was queued is under watch afterwards. -/
theorem extends_processQueued :
    l.Extends l.processQueued ∧
      ∀ q ∈ l.queue.waiting, ∀ t, q.item.ticket? = some t → t ∈ l.processQueued.reaper.tracked := by
  have hstart : l.Extends l.emptied := by
    refine ⟨hl.of_subscription rfl rfl, ?_, rfl, fun _ => id⟩
    exact Session.publishes_of_slots (Nat.le_refl _) (Slots.Keeps.refl _) rfl
  obtain ⟨hfold, hwatch⟩ :=
    extends_foldl_handle l.emptied hstart.steady l.session.clock l.queue.waiting
  have hlast := extends_withSession _ hfold.steady
    (f := fun s => { s with metrics := s.metrics.addProcessed l.queue.waiting.length }) rfl rfl rfl rfl
  rw [processQueued_eq]
  exact ⟨(hstart.trans hfold).trans hlast, fun q hq t ht => hlast.tracked t (hwatch q hq t ht)⟩

end Parts

theorem extends_driveNetwork (l : BackgroundLoop) (hl : l.processor.Steady) (now : Int64) :
    l.Extends (l.driveNetwork now).1 :=
  extends_of_converses l hl (l.session.converses_pollNetwork now)

/-- Sending is a conversation with the collaborators. -/
theorem converses_sendAll (s : Session) (now : Int64) :
    s.Converses (send (pollManagers (·.pollManager now) s Manager.all).1
      (pollManagers (·.pollManager now) s Manager.all).2) :=
  (converses_pollManagers (·.converses_pollManager now) s _).trans (converses_send _ _)

theorem extends_sendAll (l : BackgroundLoop) (hl : l.processor.Steady) (now : Int64) :
    l.Extends (l.sendAll now).1 :=
  extends_of_converses l hl (converses_sendAll l.session now)

/-- Before its sweep a round leaves nothing queued that is not under watch. -/
theorem extends_beforeSweep (l : BackgroundLoop) (hl : l.processor.Steady) :
    l.Extends l.beforeSweep ∧
      ∀ q ∈ l.queue.waiting, ∀ t, q.item.ticket? = some t → t ∈ l.beforeSweep.reaper.tracked := by
  obtain ⟨hqueued, hwatch⟩ := extends_processQueued l hl
  let k := l.processQueued.withProcessor (·.progress l.session.clock)
  have hprogress : l.processQueued.Extends k :=
    extends_act l.processQueued hqueued.steady (a := .progress l.session.clock) (by simp)
  have hsend := extends_sendAll k hprogress.steady k.session.clock
  have hdrive := extends_driveNetwork (k.sendAll k.session.clock).1 hsend.steady k.session.clock
  have hrest := (hprogress.trans hsend).trans hdrive
  have hk : l.beforeSweep = ((k.sendAll k.session.clock).1.driveNetwork k.session.clock).1 := by
    rw [beforeSweep]
  rw [hk]
  exact ⟨hqueued.trans hrest, fun q hq t ht => hrest.tracked t (hwatch q hq t ht)⟩

/-! ### Steps of a run -/

theorem InSight.mono (h : l.InSight t)
    (hsize : l.session.slots.cells.size ≤ l'.session.slots.cells.size)
    (hkeeps : l.session.slots.Keeps l'.session.slots)
    (htracked : ∀ t ∈ l.reaper.tracked, t ∈ l'.reaper.tracked)
    (hq : ∀ q ∈ l.queue.waiting, q ∈ l'.queue.waiting) : l'.InSight t := by
  refine ⟨Nat.lt_of_lt_of_le h.slot hsize, ?_⟩
  obtain hd | ht | ⟨q, hm, hq'⟩ := h.place
  · exact Or.inl (hkeeps.isDone hd)
  · exact Or.inr (Or.inl (htracked t ht))
  · exact Or.inr (Or.inr ⟨q, hq q hm, hq'⟩)

theorem InSight.of_extends (h : l.InSight t) (he : l.Extends l')
    (hq : ∀ q ∈ l.queue.waiting, q ∈ l'.queue.waiting) : l'.InSight t :=
  h.mono he.works.size he.works.keeps he.tracked hq

/-- When the sweep of a round begins, the ticket is complete or under watch. -/
theorem InSight.beforeSweep (h : l.InSight t) (hl : l.processor.Steady) :
    t.slot < l.beforeSweep.session.slots.cells.size ∧
      (l.beforeSweep.session.slots.isDone t.slot = true ∨ t ∈ l.beforeSweep.reaper.tracked) := by
  obtain ⟨he, hwatch⟩ := extends_beforeSweep l hl
  refine ⟨Nat.lt_of_lt_of_le h.slot he.works.size, ?_⟩
  obtain hd | ht | ⟨q, hm, hq⟩ := h.place
  · exact Or.inl (he.isDone hd)
  · exact Or.inr (he.tracked t ht)
  · exact Or.inr (hwatch q hm t hq)

/-- After a sweep a ticket that was complete or under watch is complete, or it is under watch and has
time left. -/
theorem done_or_awaited_sweep (hs : t.slot < l.session.slots.cells.size)
    (hp : l.session.slots.isDone t.slot = true ∨ t ∈ l.reaper.tracked) :
    l.sweep.session.slots.isDone t.slot = true ∨
      t ∈ l.sweep.reaper.tracked ∧ l.session.clock < t.deadline := by
  obtain hd | ht := hp
  · exact Or.inl (l.expires_sweep.keeps.isDone hd)
  · exact Reaper.isDone_or_mem_sweep ht hs

/-- A sweep is no business of the processor but for the slots. -/
theorem steady_sweep (hl : l.processor.Steady) : l.sweep.processor.Steady :=
  hl.of_subscription rfl rfl

theorem steady_act (hl : l.processor.Steady) (a : LoopAction) : (l.act a).processor.Steady := by
  cases a with
  | submit e =>
    show (l.submit e).1.processor.Steady
    unfold submit
    split
    · exact (extends_failEvent l hl e .closed).steady
    · exact hl.of_subscription rfl rfl
  | refuse => exact hl
  | outside o => exact hl.act (.outside o)
  | round =>
    rw [act_round, runOnce_eq]
    exact steady_sweep (extends_beforeSweep l hl).1.steady

/-- What every action keeps holds after a row of actions. -/
theorem run_induction {P : BackgroundLoop → Prop} (step : ∀ l a, P l → P (l.act a)) (hl : P l)
    (as : List LoopAction) : P (l.run as) := by
  induction as generalizing l with
  | nil => exact hl
  | cons a as ih => exact ih (step l a hl)

theorem steady_run (hl : l.processor.Steady) (as : List LoopAction) :
    (l.run as).processor.Steady :=
  run_induction (P := fun l => l.processor.Steady) (fun _ a h => steady_act h a) hl as

/-- Whatever happens, a ticket stays in sight. -/
theorem InSight.act (h : l.InSight t) (hl : l.processor.Steady) (a : LoopAction) :
    (l.act a).InSight t := by
  cases a with
  | submit e =>
    show (l.submit e).1.InSight t
    unfold submit
    split
    · refine h.of_extends (extends_failEvent l hl e .closed) fun q hq => ?_
      unfold failEvent
      split <;> exact hq
    · exact h.mono (Nat.le_refl _) (Slots.Keeps.refl _) (fun _ => id)
        fun q hq => List.mem_append_left _ hq
  | refuse => exact ⟨h.slot, h.place⟩
  | outside o =>
    have hw := hl.worksOn_act (.outside o)
    exact h.mono hw.size hw.keeps (fun _ => id) fun _ => id
  | round =>
    obtain ⟨hslot, hplace⟩ := h.beforeSweep hl
    rw [act_round, runOnce_eq]
    generalize l.beforeSweep = k at hslot hplace ⊢
    refine ⟨by rwa [size_sweep], ?_⟩
    exact (done_or_awaited_sweep hslot hplace).imp_right fun hk => Or.inl hk.1

theorem InSight.run (h : l.InSight t) (hl : l.processor.Steady) (as : List LoopAction) :
    (l.run as).InSight t := by
  have hboth : (l.run as).processor.Steady ∧ (l.run as).InSight t :=
    run_induction (P := fun k => k.processor.Steady ∧ k.InSight t)
      (fun _ a hk => ⟨steady_act hk.1 a, hk.2.act hk.1 a⟩) ⟨hl, h⟩ as
  exact hboth.2

/-- When a round ends, a ticket that was in sight is complete, or it is under watch and has time left. -/
theorem InSight.round (h : l.InSight t) (hl : l.processor.Steady) :
    l.runOnce.1 = l.beforeSweep.sweep ∧
      (l.runOnce.1.session.slots.isDone t.slot = true ∨
        t ∈ l.runOnce.1.reaper.tracked ∧ l.beforeSweep.session.clock < t.deadline) ∧
      Reaper.Expires l.beforeSweep.session.clock l.beforeSweep.reaper.tracked
        l.beforeSweep.session.slots l.runOnce.1.session.slots ∧
      l.session.slots.Keeps l.beforeSweep.session.slots ∧
      l.beforeSweep.session.slots.Keeps l.runOnce.1.session.slots := by
  have hkeeps := (extends_beforeSweep l hl).1.works.keeps
  obtain ⟨hslot, hplace⟩ := h.beforeSweep hl
  rw [runOnce_eq]
  generalize l.beforeSweep = k at hkeeps hslot hplace ⊢
  exact ⟨rfl, done_or_awaited_sweep hslot hplace, k.expires_sweep, hkeeps, k.expires_sweep.keeps⟩

/-- An event that is accepted is in sight. -/
theorem inSight_submit {e : AppEvent} (ht : e.ticket? = some t)
    (hs : t.slot < l.session.slots.cells.size) (ha : (l.submit e).2 = .ok ()) :
    (l.submit e).1.InSight t := by
  unfold submit at ha ⊢
  split
  · rename_i hr
    rw [if_pos hr] at ha
    cases ha
  · exact ⟨hs, Or.inr (Or.inr ⟨⟨e, l.session.clock⟩,
      List.mem_append_right _ (List.mem_singleton_self _), ht⟩)⟩

end BackgroundLoop

namespace Setup

/-- A loop that has just started. -/
def loop (u : Setup) (inGroup : Bool) (maxPollWait : Int64) : BackgroundLoop :=
  { processor := u.begin inGroup, maxPollWait }

/-- Whenever a round ends, every event that was accepted before it began is complete, or it is under
watch and its deadline lies behind the reading of the sweep. The sweep fails nothing but what is due at
that reading and pending, and what was complete keeps its outcome. -/
theorem done_or_awaited (u : Setup) (inGroup : Bool) (maxPollWait : Int64)
    (before between : List LoopAction) {e : AppEvent} {t : Ticket} (ht : e.ticket? = some t)
    (hs : t.slot < ((u.loop inGroup maxPollWait).run before).session.slots.cells.size)
    (ha : (((u.loop inGroup maxPollWait).run before).submit e).2 = .ok ()) :
    let l := (u.loop inGroup maxPollWait).run (before ++ .submit e :: between)
    let k := l.beforeSweep
    let r := l.runOnce.1
    r = k.sweep ∧
      (r.session.slots.isDone t.slot = true ∨
        t ∈ r.reaper.tracked ∧ k.session.clock < t.deadline) ∧
      Reaper.Expires k.session.clock k.reaper.tracked k.session.slots r.session.slots ∧
      l.session.slots.Keeps k.session.slots ∧ k.session.slots.Keeps r.session.slots := by
  have hstart : (u.loop inGroup maxPollWait).processor.Steady := u.steady inGroup
  have hbefore := BackgroundLoop.steady_run hstart before
  have haccepted := BackgroundLoop.inSight_submit ht hs ha
  have hsteady := BackgroundLoop.steady_run hstart (before ++ .submit e :: between)
  have hrun : (u.loop inGroup maxPollWait).run (before ++ .submit e :: between) =
      (((u.loop inGroup maxPollWait).run before).submit e).1.run between := List.foldl_append
  have hsight := haccepted.run (BackgroundLoop.steady_act hbefore (.submit e)) between
  rw [← hrun] at hsight
  exact hsight.round hsteady

/-- A fetch that nobody answers fails in the round at its deadline. -/
theorem done_or_awaited_at_deadline :
    let u : Setup := { script := { managers := [.fetch] }, clock := 1000 }
    let t : Ticket := { kind := "", created := 1000, deadline := 1500, slot := 0 }
    let before := [.outside .fresh]
    let between := [.round, .outside (.clock 500)]
    ((u.loop true 0).run (before ++ .submit (.createFetches t) :: between)).runOnce.1.session.slots.isDone
      0 = true := by
  intro u t before between
  have hs : 0 < ((u.loop true 0).run before).session.slots.cells.size := by decide +kernel
  obtain ⟨-, hd | ⟨-, hlate⟩, -⟩ :=
    done_or_awaited u true 0 before between (e := .createFetches t) rfl hs rfl
  · exact hd
  · have hclock : ¬ ((u.loop true 0).run
        (before ++ .submit (.createFetches t) :: between)).beforeSweep.session.clock < 1500 := by
      decide +kernel
    exact absurd hlate hclock

end Setup

end GroupConsumer
