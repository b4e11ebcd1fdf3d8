import GroupConsumer.Proofs.Deadlines
import GroupConsumer.Proofs.Reaped

/-!
# Closing the loop

Only the sweeps of the rounds and the final sweep count what was reaped. So the two counters together
say on how many slots the reaper itself came first in the whole life of the loop: a slot that it has
written is complete from then on, and is not written again (`exists_written_run`). The final sweep fails
all that is under watch or queued, and every event that was accepted is one or the other unless it is
complete, so that nothing is left open (`settled_and_counted`).
-/

namespace GroupConsumer

/-- The managers hear that the consumer closes, and nothing else changes. -/
theorem Processor.signalClose_eq (p : Processor) :
    ∃ s, p.session.Converses s ∧ p.signalClose = { p with session := s } := by
  suffices h : ∀ ms : List Manager, ∃ s, p.session.Converses s ∧
      ms.foldl signalManager p = { p with session := s } from h Manager.all
  intro ms
  induction ms generalizing p with
  | nil => exact ⟨p.session, .refl _, rfl⟩
  | cons m ms ih =>
    obtain ⟨s, hs, hm⟩ : ∃ s, p.session.Converses s ∧ p.signalManager m = { p with session := s } := by
      unfold signalManager
      split
      · exact ⟨_, p.session.converses_record _, rfl⟩
      · exact ⟨_, .refl _, rfl⟩
    obtain ⟨t, ht, hms⟩ := ih (p.signalManager m)
    rw [hm] at ht hms
    rw [List.foldl_cons, hm]
    exact ⟨t, hs.trans ht, hms⟩

namespace BackgroundLoop

/-- The tickets under watch, and then those of the events that are still queued. -/
def outstanding (l : BackgroundLoop) : List Ticket :=
  l.reaper.tracked ++ l.queue.waiting.filterMap (·.item.ticket?)

/-- The closing of the loop as far as its final sweep: the managers hear of it, and their last requests
are sent and flushed. -/
def flushed (l : BackgroundLoop) (timeout : Int64) : BackgroundLoop :=
  let k := l.withProcessor (·.signalClose)
  let polled := pollManagers (·.pollManagerOnClose k.session.clock) k.session Manager.all
  k.withSession fun _ => flushNetwork (closingRounds timeout) (send polled.1 polled.2)

/-- Fails all that is outstanding, and counts it. -/
def finalSweep (l : BackgroundLoop) : BackgroundLoop :=
  let (events, queue) := l.queue.drain
  let (s, reaper, n) := l.session.expireAll l.reaper (events.filterMap (·.item.ticket?))
  { l with queue, reaper }.withSession fun _ =>
    { s with metrics := s.metrics.addShutdownExpired n }

/-- The loop closes with a final sweep. -/
theorem cleanUp_eq (l : BackgroundLoop) (timeout : Int64) :
    l.cleanUp timeout = (l.flushed timeout).finalSweep := by
  simp only [cleanUp, flushed, finalSweep]

/-- If the loop sweeps now, the reaper writes the slot `i`. -/
def Sweeps (l : BackgroundLoop) (i : SlotId) (f : Fault) : Prop :=
  Reaper.Writes (Reaper.overdueFault? l.session.clock) l.reaper.tracked l.session.slots i f

/-- If the loop does its final sweep now, the reaper writes the slot `i`. -/
def Forces (l : BackgroundLoop) (i : SlotId) (f : Fault) : Prop :=
  Reaper.Writes Reaper.shutdownFault? l.outstanding l.session.slots i f

/-- In some round of a run the reaper writes the slot `i`. -/
def SweepsIn (l : BackgroundLoop) (as : List LoopAction) (i : SlotId) (f : Fault) : Prop :=
  ∃ before after, as = before ++ .round :: after ∧ (l.run before).beforeSweep.Sweeps i f

variable {l : BackgroundLoop} {i : SlotId} {f : Fault} {t : Ticket}

theorem sweepsIn_cons {a : LoopAction} {as : List LoopAction} :
    l.SweepsIn (a :: as) i f ↔
      (a = .round ∧ l.beforeSweep.Sweeps i f) ∨ (l.act a).SweepsIn as i f := by
  constructor
  · rintro ⟨before, after, h, hs⟩
    cases before with
    | nil =>
      obtain ⟨rfl, rfl⟩ := List.cons.inj h
      exact Or.inl ⟨rfl, hs⟩
    | cons b before =>
      obtain ⟨rfl, rfl⟩ := List.cons.inj h
      exact Or.inr ⟨before, after, rfl, hs⟩
  · rintro (⟨rfl, hs⟩ | ⟨before, after, rfl, hs⟩)
    · exact ⟨[], as, rfl, hs⟩
    · exact ⟨a :: before, after, rfl, hs⟩

/-! ### What the rounds write -/

/-- A sweep counts what it writes. -/
theorem wrote_sweep (l : BackgroundLoop) :
    ∃ ws : List (SlotId × Fault), (∀ i f, (i, f) ∈ ws ↔ l.Sweeps i f) ∧
      Reaper.Wrote l.session.slots l.sweep.session.slots ws ∧
      l.sweep.session.reaped =
        (l.session.reaped.1 + UInt64.ofNat ws.length, l.session.reaped.2) := by
  let fault? := Reaper.overdueFault? l.session.clock
  obtain ⟨hslots, hcount⟩ := Reaper.sweepList_eq l.session.clock l.reaper.tracked l.session.slots
  refine ⟨Reaper.written fault? l.reaper.tracked l.session.slots, fun i f => Reaper.mem_written, ?_, ?_⟩
  · have hs : l.sweep.session.slots = Reaper.pass fault? l.reaper.tracked l.session.slots := hslots
    rw [hs]
    exact Reaper.wrote_pass _ _ _
  · rw [← hcount]
    rfl

/-- Unless events are refused, an event is accepted. -/
theorem accepted_of_not_refusing (h : l.refusing = false) (e : AppEvent) :
    (l.submit e).2 = .ok () := by
  simp [submit, h]

/-- Nothing but a sweep counts as reaped. -/
theorem reaped_act (l : BackgroundLoop) {a : LoopAction} (ha : a ≠ .round) :
    l.session.slots.Keeps (l.act a).session.slots ∧ (l.act a).session.reaped = l.session.reaped := by
  cases a with
  | submit e =>
    show l.session.slots.Keeps (l.submit e).1.session.slots ∧ (l.submit e).1.session.reaped = _
    unfold submit
    split
    · unfold failEvent
      split
      · exact ⟨Slots.keeps_settle _ _ _, rfl⟩
      · exact ⟨.refl _, rfl⟩
    · exact ⟨.refl _, rfl⟩
  | refuse => exact ⟨.refl _, rfl⟩
  | outside o =>
    have hfollows := Session.follows_undergo l.session o
    exact ⟨hfollows.slots, Session.reaped_of_tally hfollows.tally⟩
  | round => exact absurd rfl ha

/-- A round writes and counts what its sweep does. -/
theorem wrote_round (hl : l.processor.Steady) :
    ∃ ws : List (SlotId × Fault), (∀ i f, (i, f) ∈ ws ↔ l.beforeSweep.Sweeps i f) ∧
      Reaper.Wrote l.session.slots (l.act .round).session.slots ws ∧
      (l.act .round).session.reaped =
        (l.session.reaped.1 + UInt64.ofNat ws.length, l.session.reaped.2) := by
  have hbefore := (extends_beforeSweep l hl).1
  rw [act_round, runOnce_eq]
  generalize l.beforeSweep = k at hbefore ⊢
  obtain ⟨ws, hmem, hwrote, hcount⟩ := k.wrote_sweep
  rw [hbefore.reaped] at hcount
  exact ⟨ws, hmem, (Reaper.Wrote.of_keeps hbefore.works.keeps).trans hwrote, hcount⟩

/-- What the rounds of a run write, each slot once, is what they count. -/
theorem exists_written_run (hl : l.processor.Steady) (as : List LoopAction) :
    ∃ ws : List (SlotId × Fault), (∀ i f, (i, f) ∈ ws ↔ l.SweepsIn as i f) ∧
      Reaper.Wrote l.session.slots (l.run as).session.slots ws ∧
      (l.run as).session.reaped =
        (l.session.reaped.1 + UInt64.ofNat ws.length, l.session.reaped.2) := by
  induction as generalizing l with
  | nil =>
    refine ⟨[], fun i f => ?_, .of_keeps (Slots.Keeps.refl _), ?_⟩
    · simp [SweepsIn]
    · simp [run]
  | cons a as ih =>
    obtain ⟨later, hlater, hwrote, hcount⟩ := ih (steady_act hl a)
    -- The action itself writes the slots `now`.
    obtain ⟨now, hnow, hfirst, hfirstCount⟩ : ∃ ws : List (SlotId × Fault),
        (∀ i f, (i, f) ∈ ws ↔ a = .round ∧ l.beforeSweep.Sweeps i f) ∧
        Reaper.Wrote l.session.slots (l.act a).session.slots ws ∧
        (l.act a).session.reaped =
          (l.session.reaped.1 + UInt64.ofNat ws.length, l.session.reaped.2) := by
      by_cases ha : a = .round
      · subst ha
        simpa only [true_and] using wrote_round hl
      · obtain ⟨hkeeps, hreaped⟩ := l.reaped_act ha
        refine ⟨[], fun i f => by simp [ha], .of_keeps hkeeps, ?_⟩
        simp [hreaped]
    refine ⟨now ++ later, fun i f => ?_, hfirst.trans hwrote, ?_⟩
    · rw [List.mem_append, hnow, hlater, sweepsIn_cons]
    · rw [List.length_append, UInt64.ofNat_add, ← UInt64.add_assoc]
      rw [hfirstCount] at hcount
      exact hcount

/-! ### What the final sweep writes -/

/-- Before its final sweep the loop only talks to the collaborators. -/
theorem flushed_eq (l : BackgroundLoop) (timeout : Int64) :
    ∃ s, l.session.Converses s ∧ l.flushed timeout = l.withSession fun _ => s := by
  obtain ⟨s, hs, hp⟩ := l.processor.signalClose_eq
  have hk : l.withProcessor (·.signalClose) = l.withSession fun _ => s := by
    rw [withProcessor, hp]
    rfl
  have hpoll := converses_pollManagers (·.converses_pollManagerOnClose s.clock) s Manager.all
  have hsend := hpoll.trans (converses_send _
    (pollManagers (·.pollManagerOnClose s.clock) s Manager.all).2)
  refine ⟨_, (hs.trans hsend).trans (converses_flushNetwork (closingRounds timeout) _), ?_⟩
  simp only [flushed, hk]
  rfl

/-- The final sweep passes over all that is outstanding and leaves nothing queued or under watch. -/
theorem finalSweep_eq (l : BackgroundLoop) :
    l.finalSweep = { l with queue := {}, reaper := {} }.withSession fun s =>
      { s with
        slots := Reaper.pass Reaper.shutdownFault? l.outstanding s.slots
        metrics := s.metrics.addShutdownExpired
          (Reaper.written Reaper.shutdownFault? l.outstanding s.slots).length } := by
  have hr : l.finalSweep = { l with queue := {}, reaper := {} }.withSession fun s =>
      let w := Reaper.expireList l.outstanding s.slots
      { s with slots := w.1, metrics := s.metrics.addShutdownExpired w.2 } := by
    simp only [finalSweep, Queue.drain_fst, Queue.drain_snd]
    rfl
  rw [hr]
  simp only [Reaper.expireList_eq]

/-- The closing writes and counts what its final sweep does. -/
theorem wrote_cleanUp (l : BackgroundLoop) (timeout : Int64) :
    ∃ ws : List (SlotId × Fault), (∀ i f, (i, f) ∈ ws ↔ (l.flushed timeout).Forces i f) ∧
      Reaper.Wrote l.session.slots (l.cleanUp timeout).session.slots ws ∧
      (l.cleanUp timeout).session.reaped =
        (l.session.reaped.1, l.session.reaped.2 + UInt64.ofNat ws.length) := by
  obtain ⟨s, hs, hk⟩ := l.flushed_eq timeout
  rw [cleanUp_eq, finalSweep_eq, hk]
  refine ⟨_, fun i f => Reaper.mem_written,
    (Reaper.Wrote.of_keeps hs.worksOn.keeps).trans (Reaper.wrote_pass _ _ _), ?_⟩
  exact congrArg (fun r => (r.1, r.2 + _)) (Session.reaped_of_tally hs.spares.tally)

/-- An event that is in sight is complete once the loop has closed. -/
theorem InSight.isDone_cleanUp (h : l.InSight t) (timeout : Int64) :
    (l.cleanUp timeout).session.slots.isDone t.slot = true := by
  obtain ⟨s, hs, hk⟩ := l.flushed_eq timeout
  rw [cleanUp_eq, finalSweep_eq, hk]
  have hplace : s.slots.isDone t.slot = true ∨ t ∈ l.outstanding := by
    obtain hd | ht | ⟨q, hq, ht⟩ := h.place
    · exact Or.inl (hs.worksOn.keeps.isDone hd)
    · exact Or.inr (List.mem_append_left _ ht)
    · exact Or.inr (List.mem_append_right _ (List.mem_filterMap.2 ⟨q, hq, ht⟩))
  exact Reaper.isDone_pass_shutdownFault? hplace (Nat.lt_of_lt_of_le h.slot hs.worksOn.size)

end BackgroundLoop

namespace Setup

open BackgroundLoop

/-- However a loop has been run, closing it leaves nothing queued or under watch, and every event that
was accepted is complete. The two counters add up to the number of slots that the reaper has written,
each of them once, in a round or at the end; what it wrote is what they are complete with. -/
theorem settled_and_counted (u : Setup) (inGroup : Bool) (maxPollWait timeout : Int64) (as : List LoopAction) :
    let start := u.loop inGroup maxPollWait
    let r := (start.run as).cleanUp timeout
    r.queue.waiting = [] ∧ r.reaper.tracked = [] ∧
      (∀ before e after t, as = before ++ .submit e :: after → e.ticket? = some t →
        t.slot < (start.run before).session.slots.cells.size →
        ((start.run before).submit e).2 = .ok () → r.session.slots.isDone t.slot = true) ∧
      ∃ ws : List (SlotId × Fault),
        (∀ i f, (i, f) ∈ ws ↔ start.SweepsIn as i f ∨ ((start.run as).flushed timeout).Forces i f) ∧
        (ws.map Prod.fst).Nodup ∧
        (∀ i f, (i, f) ∈ ws → r.session.slots.outcome? i = some (.error f)) ∧
        r.session.metrics.expired + r.session.metrics.shutdownExpired = UInt64.ofNat ws.length := by
  intro start r
  have hstart : start.processor.Steady := u.steady inGroup
  obtain ⟨swept, hswept, hwrote, hcount⟩ := exists_written_run hstart as
  have hzero : start.session.reaped = (0, 0) := rfl
  rw [hzero] at hcount
  obtain ⟨forced, hforced, hlast, hlastCount⟩ := (start.run as).wrote_cleanUp timeout
  rw [hcount] at hlastCount
  have hr : r = ((start.run as).flushed timeout).finalSweep := cleanUp_eq _ _
  rw [finalSweep_eq] at hr
  refine ⟨by rw [hr]; rfl, by rw [hr]; rfl, ?_, swept ++ forced, ?_, ?_⟩
  · intro before e after t has ht hslot hok
    have hbefore := steady_run hstart before
    have hrun : start.run as = ((start.run before).submit e).1.run after := by
      rw [has]
      exact List.foldl_append
    have hsight := (inSight_submit ht hslot hok).run (steady_act hbefore (.submit e)) after
    rw [← hrun] at hsight
    exact hsight.isDone_cleanUp timeout
  · intro i f
    rw [List.mem_append, hswept, hforced]
  · have hall := hwrote.trans hlast
    refine ⟨hall.nodup, hall.recorded, ?_⟩
    obtain ⟨hexpired, hshut⟩ := Prod.mk.inj hlastCount
    rw [hexpired, hshut, List.length_append, UInt64.ofNat_add, UInt64.zero_add, UInt64.zero_add]

/-- A fetch is overdue in a round. Another, which is under watch twice and queued once more, fails when
the loop closes, and counts once. -/
theorem settled_and_counted_once :
    let u : Setup := { script := { managers := [.fetch] }, clock := 1000 }
    let soon : Ticket := { kind := "", created := 1000, deadline := 1500, slot := 0 }
    let late : Ticket := { kind := "", created := 1000, deadline := 9000, slot := 1 }
    let before := [.outside .fresh, .outside .fresh, .submit (.createFetches soon),
      .submit (.createFetches late), .submit (.createFetches late), .outside (.clock 500), .round]
    let r := ((u.loop true 0).run (before ++ [.submit (.createFetches late)])).cleanUp 0
    r.session.slots.isDone 1 = true ∧ r.session.metrics.expired = 1 ∧
      r.session.metrics.shutdownExpired = 1 ∧
      ∃ ws : List (SlotId × Fault), (ws.map Prod.fst).Nodup ∧ UInt64.ofNat ws.length = 2 := by
  intro u soon late before r
  have hslot : 1 < ((u.loop true 0).run before).session.slots.cells.size := by decide +kernel
  obtain ⟨-, -, hdone, ws, -, hnodup, -, hcount⟩ :=
    settled_and_counted u true 0 0 (before ++ [.submit (.createFetches late)])
  have hopen : ((u.loop true 0).run before).refusing = false := by decide +kernel
  have hlate : r.session.slots.isDone late.slot = true :=
    hdone before (.createFetches late) [] late rfl rfl hslot (accepted_of_not_refusing hopen _)
  have hexpired : r.session.metrics.expired = 1 := by decide +kernel
  have hshut : r.session.metrics.shutdownExpired = 1 := by decide +kernel
  exact ⟨hlate, hexpired, hshut, ws, hnodup, hcount.symm.trans (by rw [hexpired, hshut]; rfl)⟩

end Setup

end GroupConsumer
