import GroupConsumer.Proofs.Shutdown

/-!
# The gauge of the application queue

A gauge is to show how many application events wait. The caller sets it when it queues an event, and a
round sets it when it takes what is queued; nothing else in a round touches the queue or the gauge
(`SameBacklog`). So the gauge is right at every point of a run (`shows_run`). Closing the loop empties the
queue, too, but does not set the gauge (`backlog_cleanUp`).
-/

namespace GroupConsumer.BackgroundLoop

/-- What the gauge of the application queue shows. -/
def gauge (l : BackgroundLoop) : UInt64 := l.session.metrics.applicationSize

/-- The gauge shows how many events wait. -/
def Shows (l : BackgroundLoop) : Prop := l.gauge = UInt64.ofNat l.queue.depth

/-- The same events wait, and the gauge shows the same. -/
structure SameBacklog (l l' : BackgroundLoop) : Prop where
  queue : l'.queue = l.queue
  gauge : l'.gauge = l.gauge

variable {l l' l'' : BackgroundLoop}

theorem SameBacklog.trans (h : l.SameBacklog l') (h' : l'.SameBacklog l'') : l.SameBacklog l'' :=
  ⟨h'.queue.trans h.queue, h'.gauge.trans h.gauge⟩

theorem SameBacklog.shows (h : l.SameBacklog l') (hl : l.Shows) : l'.Shows := by
  rw [Shows, h.gauge, h.queue]
  exact hl

/-! ### A round -/

/-- Only the loop itself writes the gauge. -/
theorem sameBacklog_of_tally (hq : l'.queue = l.queue) (ht : l'.session.tally = l.session.tally) :
    l.SameBacklog l' := by
  have hgauge : l'.session.tally.applicationSize = l.session.tally.applicationSize := by rw [ht]
  exact ⟨hq, hgauge⟩

theorem sameBacklog_act (hl : l.processor.Steady) {a : Action} (ha : ∀ o, a ≠ .outside o) :
    l.SameBacklog (l.withProcessor (·.act a)) := sameBacklog_of_tally rfl (hl.spares_act ha).tally

theorem sameBacklog_of_converses {s : Session} (h : l.session.Converses s) :
    l.SameBacklog (l.withSession fun _ => s) := sameBacklog_of_tally rfl h.spares.tally

theorem sameBacklog_sendAll (l : BackgroundLoop) (now : Int64) : l.SameBacklog (l.sendAll now).1 :=
  sameBacklog_of_converses (converses_sendAll l.session now)

theorem sameBacklog_driveNetwork (l : BackgroundLoop) (now : Int64) :
    l.SameBacklog (l.driveNetwork now).1 :=
  sameBacklog_of_converses (l.session.converses_pollNetwork now)

theorem sameBacklog_watching (l : BackgroundLoop) (now : Int64) (q : Queued AppEvent) :
    l.SameBacklog (l.watching now q) := by
  unfold watching
  split <;> exact ⟨rfl, rfl⟩

theorem sameBacklog_handle (hl : l.processor.Steady) (now : Int64) (q : Queued AppEvent) :
    l.SameBacklog (handle now l q) := by
  have hprocess := sameBacklog_act (extends_watching l hl now q).1.steady (a := .process q.item)
    (by simp)
  rw [handle_eq]
  exact (sameBacklog_watching l now q).trans hprocess

theorem sameBacklog_foldl_handle (hl : l.processor.Steady) (now : Int64)
    (qs : List (Queued AppEvent)) : l.SameBacklog (qs.foldl (handle now) l) := by
  induction qs generalizing l with
  | nil => exact ⟨rfl, rfl⟩
  | cons q qs ih =>
    exact (sameBacklog_handle hl now q).trans (ih (extends_handle l hl now q).1.steady)

/-- Once a round has taken what was queued, it leaves the queue and the gauge alone as far as its
sweep. -/
theorem sameBacklog_beforeSweep (hl : l.processor.Steady) : l.emptied.SameBacklog l.beforeSweep := by
  have hqueued : l.emptied.SameBacklog l.processQueued := by
    have hfold := sameBacklog_foldl_handle (l := l.emptied) (hl.of_subscription rfl rfl)
      l.session.clock l.queue.waiting
    rw [processQueued_eq]
    exact hfold.trans ⟨rfl, rfl⟩
  let k := l.processQueued.withProcessor (·.progress l.session.clock)
  have hprogress : l.processQueued.SameBacklog k :=
    sameBacklog_act (extends_processQueued l hl).1.steady (a := .progress l.session.clock) (by simp)
  have hsend := k.sameBacklog_sendAll k.session.clock
  have hdrive := (k.sendAll k.session.clock).1.sameBacklog_driveNetwork k.session.clock
  have hk : l.beforeSweep = ((k.sendAll k.session.clock).1.driveNetwork k.session.clock).1 := by
    rw [beforeSweep]
  rw [hk]
  exact ((hqueued.trans hprogress).trans hsend).trans hdrive

/-! ### A run -/

theorem shows_act (h : l.Shows) (hl : l.processor.Steady) (a : LoopAction) : (l.act a).Shows := by
  cases a with
  | submit e =>
    show (l.submit e).1.Shows
    unfold submit
    split
    · have hfail : l.SameBacklog (l.failEvent e .closed) := by
        unfold failEvent
        split <;> exact ⟨rfl, rfl⟩
      exact hfail.shows h
    · rfl
  | refuse => exact h
  | outside o =>
    have hsame : l.SameBacklog (l.withSession (·.undergo o)) :=
      sameBacklog_of_tally rfl (Session.follows_undergo l.session o).tally
    exact hsame.shows h
  | round =>
    have hbefore : l.beforeSweep.Shows := (sameBacklog_beforeSweep hl).shows rfl
    rw [act_round, runOnce_eq]
    generalize l.beforeSweep = k at hbefore ⊢
    have hsweep : k.SameBacklog k.sweep := ⟨rfl, rfl⟩
    exact hsweep.shows hbefore

/-- At every point of a run the gauge shows how many events wait. -/
theorem shows_run (h : l.Shows) (hl : l.processor.Steady) (as : List LoopAction) :
    (l.run as).Shows := by
  have hboth : (l.run as).processor.Steady ∧ (l.run as).Shows :=
    run_induction (P := fun k => k.processor.Steady ∧ k.Shows)
      (fun _ a hk => ⟨steady_act hk.1 a, shows_act hk.2 hk.1 a⟩) ⟨hl, h⟩ as
  exact hboth.2

/-! ### Closing -/

/-- Closing empties the queue, and the gauge shows what it has shown before. -/
theorem backlog_cleanUp (l : BackgroundLoop) (timeout : Int64) :
    (l.cleanUp timeout).queue.waiting = [] ∧ (l.cleanUp timeout).gauge = l.gauge := by
  obtain ⟨s, hs, hk⟩ := l.flushed_eq timeout
  rw [cleanUp_eq, finalSweep_eq, hk]
  have hgauge : s.metrics.applicationSize = l.session.metrics.applicationSize := by rw [hs.metrics]
  exact ⟨rfl, hgauge⟩

end GroupConsumer.BackgroundLoop
