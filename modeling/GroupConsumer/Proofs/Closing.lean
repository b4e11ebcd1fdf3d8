import GroupConsumer.Proofs.Client.Dealings
import GroupConsumer.Proofs.Shutdown

/-!
# Closing the consumer

Two reapers and two queues share what is outstanding. An event of the caller is in sight of the loop
until its ticket is complete (`InSight`). A request to run the listener is in sight of the caller: it
still waits to be handled, or the caller's own reaper watches it (`Awaits`). No deed loses either of
them (`upholds_does`), whoever's turn it is. Stopping the loop completes all that is in the loop's
sight, also what no deadline limits, and after that nothing is published any more, so that what fails
last is all that is left of the requests (`closed_for_good`).
-/

namespace GroupConsumer

namespace BackgroundLoop

variable {l : BackgroundLoop}

/-- Unless the caller takes them, events are only added for the caller. -/
theorem publishes_act (hl : l.processor.Steady) {a : LoopAction} (ha : a ≠ .outside .drain) :
    l.session.Publishes (l.act a).session := by
  cases a with
  | submit e =>
    show l.session.Publishes (l.submit e).1.session
    unfold submit
    split
    · exact (extends_failEvent l hl e .closed).works
    · exact Session.publishes_of_slots (Nat.le_refl _) (Slots.Keeps.refl _) rfl
  | refuse => exact .refl _
  | outside o =>
    show l.session.Publishes (l.session.undergo o)
    cases o with
    | fresh => exact (Session.grows_fresh _).spares.toPublishes
    | settle i o => exact (Session.grows_complete _ i o).spares.toPublishes
    | listen i h => exact (Session.grows_listen _ i h).spares.toPublishes
    | drain => exact absurd rfl ha
    | clock | script =>
      exact Session.publishes_of_slots (Nat.le_refl _) (Slots.Keeps.refl _) rfl
  | round =>
    have hbefore := (extends_beforeSweep l hl).1.works
    rw [act_round, runOnce_eq]
    generalize l.beforeSweep = k at hbefore ⊢
    have hsweep : k.session.Publishes k.sweep.session :=
      Session.publishes_of_slots (Nat.le_of_eq k.size_sweep.symm) k.expires_sweep.keeps rfl
    exact hbefore.trans hsweep

/-- Closing the loop publishes nothing. -/
theorem publishes_cleanUp (l : BackgroundLoop) (timeout : Int64) :
    l.session.Publishes (l.cleanUp timeout).session := by
  obtain ⟨s, hs, hk⟩ := l.flushed_eq timeout
  rw [cleanUp_eq, finalSweep_eq, hk]
  exact hs.spares.toPublishes.trans (Session.publishes_of_slots
    (Nat.le_of_eq (Reaper.size_pass _ _ _).symm) (Reaper.wrote_pass _ _ _).keeps rfl)

theorem steady_cleanUp (hl : l.processor.Steady) (timeout : Int64) :
    (l.cleanUp timeout).processor.Steady := by
  obtain ⟨s, hs, hk⟩ := l.flushed_eq timeout
  rw [cleanUp_eq, finalSweep_eq, hk]
  exact hl.of_subscription rfl hs.subscription

end BackgroundLoop

namespace Client

open Deed

variable {c d e : Client} {t : Ticket}

/-- A request with the ticket `t` is complete, or the caller has it under watch or has not handled it
yet. -/
structure Awaits (c : Client) (t : Ticket) : Prop where
  slot : t.slot < c.session.slots.cells.size
  place : c.session.slots.isDone t.slot = true ∨ t ∈ c.reaper.tracked ∨
    ∃ e ∈ c.session.events, e.ticket? = some t

/-- The loop's processor is sound, and what was published has slots. -/
structure Sound (c : Client) : Prop where
  steady : c.loop.processor.Steady
  ticketed : c.session.Ticketed c.session.events

/-- What was published and not handled yet is awaited. -/
theorem Sound.awaits (hc : c.Sound) {e : BackgroundEvent} (he : e ∈ c.session.events)
    (ht : e.ticket? = some t) : c.Awaits t :=
  ⟨hc.ticketed e he t ht, Or.inr (Or.inr ⟨e, he, ht⟩)⟩

/-- The consumer goes on without handling anything: events are only added for the caller, and what
either reaper watches stays in sight. -/
structure Extends (c d : Client) : Prop where
  steady : d.loop.processor.Steady
  works : c.session.Publishes d.session
  inSight : ∀ t, c.loop.InSight t → d.loop.InSight t
  tracked : ∀ t ∈ c.reaper.tracked, t ∈ d.reaper.tracked

/-- What every deed comes to: nothing is lost of what is complete, in sight of the loop or awaited by
the caller. -/
structure Upholds (c d : Client) : Prop where
  sound : d.Sound
  keeps : c.session.slots.Keeps d.session.slots
  inSight : ∀ t, c.loop.InSight t → d.loop.InSight t
  awaits : ∀ t, c.Awaits t → d.Awaits t

theorem Extends.refl (hc : c.loop.processor.Steady) : c.Extends c :=
  ⟨hc, .refl _, fun _ => id, fun _ => id⟩

theorem Extends.trans (h : c.Extends d) (h' : d.Extends e) : c.Extends e :=
  ⟨h'.steady, h.works.trans h'.works, fun t ht => h'.inSight t (h.inSight t ht),
    fun t ht => h'.tracked t (h.tracked t ht)⟩

theorem Upholds.refl (hc : c.Sound) : c.Upholds c :=
  ⟨hc, Slots.Keeps.refl _, fun _ => id, fun _ => id⟩

theorem Upholds.trans (h : c.Upholds d) (h' : d.Upholds e) : c.Upholds e :=
  ⟨h'.sound, h.keeps.trans h'.keeps, fun t ht => h'.inSight t (h.inSight t ht),
    fun t ht => h'.awaits t (h.awaits t ht)⟩

theorem Extends.upholds (h : c.Extends d) (hc : c.Sound) : c.Upholds d := by
  obtain ⟨es, he, ht⟩ := h.works.events
  refine ⟨⟨h.steady, ?_⟩, h.works.keeps, h.inSight, fun t ha => ?_⟩
  · rw [he]
    exact (hc.ticketed.mono h.works.size).append ht
  · refine ⟨Nat.lt_of_lt_of_le ha.slot h.works.size, ?_⟩
    rcases ha.place with hd | ht | ⟨e, hm, ht⟩
    · exact Or.inl (h.works.keeps.isDone hd)
    · exact Or.inr (Or.inl (h.tracked t ht))
    · exact Or.inr (Or.inr ⟨e, he ▸ List.mem_append_left es hm, ht⟩)

/-- The loop acts, and the caller's reaper does not forget anything. -/
theorem extends_of_act (hc : c.loop.processor.Steady) {a : LoopAction} (ha : a ≠ .outside .drain)
    (hl : d.loop = c.loop.act a) (hr : ∀ t ∈ c.reaper.tracked, t ∈ d.reaper.tracked) :
    c.Extends d := by
  refine ⟨?_, ?_, fun t ht => ?_, hr⟩
  · rw [hl]
    exact BackgroundLoop.steady_act hc a
  · show c.loop.session.Publishes d.loop.session
    rw [hl]
    exact BackgroundLoop.publishes_act hc ha
  · rw [hl]
    exact ht.act hc a

/-! ### Handling what was published -/

/-- The caller runs the listener, if there is one, and tells the loop. -/
theorem runCallback_eq (c : Client) (r : CallbackRequest) :
    ∃ fault, (c.runCallback r).loop =
        (c.loop.submit (.callbackDone r.method r.ticket.slot fault)).1 ∧
      (c.runCallback r).reaper = c.reaper := by
  unfold runCallback
  cases c.listener with
  | none => exact ⟨none, rfl, rfl⟩
  | some l => exact ⟨l.fails c.ran.toList (l.run r), rfl, rfl⟩

/-- The caller runs a callback about stream tasks, if there is a listener, and tells the loop. -/
theorem runTasksCallback_eq (c : Client) (r : TasksRequest) :
    ∃ fault, (c.runTasksCallback r).loop =
        (c.loop.submit (.tasksCallbackDone r.callback r.ticket.slot fault)).1 ∧
      (c.runTasksCallback r).reaper = c.reaper := by
  unfold runTasksCallback
  cases c.streamsListener with
  | none => exact ⟨none, rfl, rfl⟩
  | some l => exact ⟨l.fails c.tasksRan.toList r.run, rfl, rfl⟩

/-- The caller puts a ticket under watch and queues an event. -/
theorem extends_of_submit (hc : c.loop.processor.Steady) (e : AppEvent)
    (hloop : d.loop = (c.loop.submit e).1) (hreaper : d.reaper = c.reaper.track t) :
    c.Extends d ∧ ∀ r, some t = some r → r ∈ d.reaper.tracked := by
  refine ⟨extends_of_act (a := .submit e) hc (by simp) hloop fun r hr => ?_, fun r hr => ?_⟩
  · rw [hreaper]
    exact List.mem_append_left _ hr
  · obtain rfl := Option.some.inj hr
    rw [hreaper]
    exact List.mem_append_right _ (List.mem_singleton_self _)

/-- Handling an event puts its ticket under the caller's watch. -/
theorem extends_handleBackground {cf : Client × Option Fault} (hc : cf.1.loop.processor.Steady)
    (e : BackgroundEvent) :
    cf.1.Extends (handleBackground cf e).1 ∧
      ∀ t, e.ticket? = some t → t ∈ (handleBackground cf e).1.reaper.tracked := by
  obtain ⟨c, first⟩ := cf
  cases e with
  | fault f => exact ⟨.refl hc, nofun⟩
  | groupMetadata memberId memberEpoch =>
    exact ⟨⟨hc, .refl _, fun _ => id, fun _ => id⟩, nofun⟩
  | callbackNeeded r =>
    let watching : Client := { c with reaper := c.reaper.track r.ticket }
    have hd : (handleBackground (c, first) (.callbackNeeded r)).1 = watching.runCallback r := rfl
    obtain ⟨fault, hloop, hreaper⟩ := watching.runCallback_eq r
    rw [hd]
    exact extends_of_submit hc _ hloop hreaper
  | tasksCallbackNeeded r =>
    let watching : Client := { c with reaper := c.reaper.track r.ticket }
    have hd : (handleBackground (c, first) (.tasksCallbackNeeded r)).1 =
        watching.runTasksCallback r := rfl
    obtain ⟨fault, hloop, hreaper⟩ := watching.runTasksCallback_eq r
    rw [hd]
    exact extends_of_submit hc _ hloop hreaper

theorem extends_foldl_handleBackground (es : List BackgroundEvent) (cf : Client × Option Fault)
    (hc : cf.1.loop.processor.Steady) :
    cf.1.Extends (es.foldl handleBackground cf).1 ∧
      ∀ e ∈ es, ∀ t, e.ticket? = some t → t ∈ (es.foldl handleBackground cf).1.reaper.tracked := by
  induction es generalizing cf with
  | nil => exact ⟨.refl hc, fun e he => absurd he List.not_mem_nil⟩
  | cons e es ih =>
    obtain ⟨hfirst, hwatch⟩ := extends_handleBackground hc e
    obtain ⟨hrest, hwatched⟩ := ih (handleBackground cf e) hfirst.steady
    refine ⟨hfirst.trans hrest, fun r hr t ht => ?_⟩
    rcases List.mem_cons.1 hr with rfl | hr
    · exact hrest.tracked t (hwatch t ht)
    · exact hwatched r hr t ht

/-- The caller takes what was published. -/
def drained (c : Client) : Client :=
  { c.withSession (·.undergo .drain) with heldFault := none }

/-- The caller has handled what was published. -/
def handled (c : Client) : Client :=
  (c.session.events.foldl handleBackground (c.drained, c.heldFault)).1

/-- The caller's reaper has swept. -/
def swept (c : Client) : Client :=
  let w := c.session.sweep c.reaper
  { c.withSession fun _ => w.1 with reaper := w.2.1 }

theorem drainBackground_snd (s : Session) : s.drainBackground.2 = s.events := by
  simp only [Session.drainBackground, Queue.drain_fst, Session.events]

theorem processBackground_fst (c : Client) : c.processBackground.1 = c.handled.swept := by
  have hd : ({ c.withSession fun _ => c.session.drainBackground.1 with heldFault := none } : Client) =
      c.drained := rfl
  simp only [processBackground, handled, swept, drainBackground_snd, hd]

theorem extends_handled (hc : c.Sound) :
    c.drained.Extends c.handled ∧
      ∀ e ∈ c.session.events, ∀ t, e.ticket? = some t → t ∈ c.handled.reaper.tracked :=
  extends_foldl_handleBackground c.session.events (c.drained, c.heldFault)
    (BackgroundLoop.steady_act hc.steady (.outside .drain))

theorem events_drained (c : Client) : c.drained.session.events = [] := by
  show c.session.drainBackground.1.events = []
  simp only [Session.drainBackground, Queue.drain_snd, Session.events]
  rfl

/-- What the caller's reaper drops is complete. -/
theorem upholds_swept (hc : c.Sound) : c.Upholds c.swept := by
  let now := c.session.clock
  have hexpires : Reaper.Expires now c.reaper.tracked c.session.slots c.swept.session.slots :=
    Reaper.expires_sweep c.reaper now c.session.slots
  have hsize := hexpires.size
  refine ⟨⟨hc.steady.of_subscription rfl rfl, ?_⟩, hexpires.keeps, fun t ht => ?_, fun t ha => ?_⟩
  · exact Session.Ticketed.mono hc.ticketed (Nat.le_of_eq hsize.symm)
  · exact ht.mono (Nat.le_of_eq hsize.symm) hexpires.keeps (fun _ => id) fun _ => id
  · refine ⟨Nat.lt_of_lt_of_eq ha.slot hsize.symm, ?_⟩
    rcases ha.place with hd | ht | he
    · exact Or.inl (hexpires.keeps.isDone hd)
    · have hsweep : c.swept.session.slots.isDone t.slot = true ∨
          t ∈ c.swept.reaper.tracked ∧ now < t.deadline := Reaper.isDone_or_mem_sweep ht ha.slot
      rcases hsweep with hd | ⟨hk, -⟩
      · exact Or.inl hd
      · exact Or.inr (Or.inl hk)
    · exact Or.inr (Or.inr he)

/-- What is taken to be handled comes under the caller's watch before the caller's reaper sweeps. -/
theorem upholds_handle (hc : c.Sound) : c.Upholds (c.deed .handle) := by
  obtain ⟨hextends, hwatch⟩ := extends_handled hc
  have hdrained : c.drained.Sound := by
    refine ⟨BackgroundLoop.steady_act hc.steady (.outside .drain), ?_⟩
    rw [events_drained]
    exact Session.ticketed_nil _
  have hhandled := hextends.upholds hdrained
  have hupholds : c.Upholds c.handled := by
    refine ⟨hhandled.sound, hhandled.keeps, fun t ht => ?_, fun t ha => ?_⟩
    · exact hhandled.inSight t (ht.act hc.steady (.outside .drain))
    · have hslot : t.slot < c.handled.session.slots.cells.size :=
        Nat.lt_of_lt_of_le ha.slot hextends.works.size
      refine ⟨hslot, ?_⟩
      rcases ha.place with hd | ht | ⟨e, he, ht⟩
      · exact Or.inl (hextends.works.keeps.isDone hd)
      · exact Or.inr (Or.inl (hextends.tracked t ht))
      · exact Or.inr (Or.inl (hwatch e he t ht))
  have hlast := hupholds.trans (upholds_swept hhandled.sound)
  rw [← processBackground_fst] at hlast
  exact hlast

/-! ### Failing what is left -/

/-- The tickets under the caller's watch, and then those of the requests that were not handled. -/
def requests (c : Client) : List Ticket :=
  c.reaper.tracked ++ c.session.events.filterMap (·.ticket?)

theorem failCallbacks_eq (c : Client) :
    c.failCallbacks = { c.withSession fun s =>
      { s.drainBackground.1 with slots := Reaper.pass Reaper.shutdownFault? c.requests s.slots } with
      reaper := {} } := by
  simp only [failCallbacks, Session.expireAll, Reaper.expireAll, Reaper.expireList_eq,
    drainBackground_snd]
  rfl

theorem isDone_failCallbacks (h : c.Awaits t) : c.failCallbacks.session.slots.isDone t.slot = true := by
  rw [failCallbacks_eq]
  have hplace : c.session.slots.isDone t.slot = true ∨ t ∈ c.requests := by
    rcases h.place with hd | ht | ⟨e, he, ht⟩
    · exact Or.inl hd
    · exact Or.inr (List.mem_append_left _ ht)
    · exact Or.inr (List.mem_append_right _ (List.mem_filterMap.2 ⟨e, he, ht⟩))
  exact Reaper.isDone_pass_shutdownFault? hplace h.slot

theorem events_failCallbacks (c : Client) : c.failCallbacks.session.events = [] := by
  rw [failCallbacks_eq]
  exact c.events_drained

theorem upholds_failCallbacks (hc : c.Sound) : c.Upholds c.failCallbacks := by
  have hsize : c.failCallbacks.session.slots.cells.size = c.session.slots.cells.size := by
    rw [failCallbacks_eq]
    exact Reaper.size_pass _ _ _
  have hkeeps : c.session.slots.Keeps c.failCallbacks.session.slots := by
    rw [failCallbacks_eq]
    exact (Reaper.wrote_pass _ _ _).keeps
  refine ⟨⟨?_, ?_⟩, hkeeps, fun t ht => ?_, fun t ha => ?_⟩
  · rw [failCallbacks_eq]
    exact hc.steady.of_subscription rfl rfl
  · rw [events_failCallbacks]
    exact Session.ticketed_nil _
  · refine ht.mono (Nat.le_of_eq hsize.symm) hkeeps (fun _ => ?_) fun _ => ?_
    · rw [failCallbacks_eq]
      exact id
    · rw [failCallbacks_eq]
      exact id
  · exact ⟨Nat.lt_of_lt_of_eq ha.slot hsize.symm, Or.inl (isDone_failCallbacks ha)⟩

/-! ### Deeds -/

/-- The caller commits without waiting, and the event is in sight if it was accepted. -/
theorem extends_commitAsync (hc : c.Sound) (offsets : Option OffsetMap) :
    c.Extends (c.commitAsync offsets).1 ∧
      ∀ i, (c.commitAsync offsets).2 = .ok i →
        ∃ t : Ticket, t.slot = i ∧ (c.commitAsync offsets).1.loop.InSight t := by
  unfold commitAsync ifOpen
  split
  · exact ⟨.refl hc.steady, nofun⟩
  · let issued := c.withSession (·.undergo .fresh)
    let t : Ticket :=
      { kind := AppEvent.Kind.commitAsync.name, created := c.session.clock,
        deadline := Int64.maxValue, slot := c.session.slots.cells.size }
    let e := AppEvent.commitAsync t offsets
    have hissue : c.Extends issued :=
      extends_of_act (a := .outside .fresh) hc.steady (by simp) rfl fun _ => id
    have hsubmit : issued.Extends (issued.submit e).1 :=
      extends_of_act (a := .submit e) hissue.steady (by simp) rfl fun _ => id
    refine ⟨hissue.trans hsubmit, fun i hi => ?_⟩
    have hi' : ((issued.submit e).2.map fun _ => t.slot) = .ok i := hi
    cases hr : (issued.submit e).2 with
    | error f =>
      rw [hr] at hi'
      cases hi'
    | ok u =>
      rw [hr] at hi'
      have hslot : t.slot < issued.loop.session.slots.cells.size := by
        show _ < (c.session.slots.cells.push {}).size
        simp [t]
      exact ⟨t, Except.ok.inj hi', BackgroundLoop.inSight_submit (e := e) rfl hslot hr⟩

/-- Quiet deeds handle nothing. -/
theorem extends_deed (hc : c.Sound) {x : Deed} (hx : x.quiet = true) : c.Extends (c.deed x) := by
  cases x with
  | handle | hold | close | refuse | stop | failCallbacks => cases hx
  | submit e => exact extends_of_act (a := .submit e) hc.steady (by simp) rfl fun _ => id
  | commitAsync offsets => exact (extends_commitAsync hc offsets).1
  | listen => exact ⟨hc.steady, .refl _, fun _ => id, fun _ => id⟩
  | round =>
    rw [deed]
    split
    · have hround := BackgroundLoop.act_round c.loop
      generalize c.loop.runOnce.1 = l at hround ⊢
      exact extends_of_act (a := .round) hc.steady (by simp) hround.symm fun _ => id
    · exact .refl hc.steady
  | outside o =>
    refine extends_of_act (a := .outside o) hc.steady ?_ rfl fun _ => id
    rintro ⟨⟩
    cases hx

/-- No deed loses anything, unless the caller takes what was published and does not handle it. -/
theorem upholds_deed (hc : c.Sound) {x : Deed} (hx : x ≠ .outside .drain) : c.Upholds (c.deed x) := by
  cases x with
  | submit | commitAsync | listen | round => exact (extends_deed hc rfl).upholds hc
  | outside o =>
    have ho : (Deed.outside o).quiet = true := by
      cases o with
      | drain => exact absurd rfl hx
      | _ => rfl
    exact (extends_deed hc ho).upholds hc
  | handle => exact upholds_handle hc
  | hold | close =>
    exact Extends.upholds ⟨hc.steady, .refl _, fun _ => id, fun _ => id⟩ hc
  | refuse =>
    have hrefuse : c.Extends (c.deed .refuse) :=
      extends_of_act (a := .refuse) hc.steady (by simp) rfl fun _ => id
    exact hrefuse.upholds hc
  | stop timeout =>
    have hp := c.loop.publishes_cleanUp timeout
    have hsight (t : Ticket) (ht : c.loop.InSight t) : (c.loop.cleanUp timeout).InSight t :=
      ⟨Nat.lt_of_lt_of_le ht.slot hp.size, Or.inl (ht.isDone_cleanUp timeout)⟩
    exact Extends.upholds
      ⟨BackgroundLoop.steady_cleanUp hc.steady timeout, hp, hsight, fun _ => id⟩ hc
  | failCallbacks => exact upholds_failCallbacks hc

theorem upholds_does (hc : c.Sound) {ds : List Deed} (hds : .outside .drain ∉ ds) :
    c.Upholds (c.does ds) := by
  induction ds generalizing c with
  | nil => exact .refl hc
  | cons x ds ih =>
    obtain ⟨hx, hds⟩ := List.ne_and_not_mem_of_not_mem_cons hds
    have hfirst := upholds_deed hc (Ne.symm hx)
    exact hfirst.trans (ih hfirst.sound hds)

/-! ### A whole life -/

theorem sound_start {config : Config} {script : Script} {clock : Int64}
    (h : start config script clock = .ok c) : c.Sound ∧ c.closed = false ∧ c.running = true := by
  unfold start at h
  cases hv : config.validate with
  | error f =>
    rw [hv] at h
    cases h
  | ok u =>
    rw [hv] at h
    obtain rfl := Except.ok.inj h
    refine ⟨⟨?_, Session.ticketed_nil _⟩, rfl, rfl⟩
    cases hg : config.groupId with
    | none =>
      intro x hx
      cases hx
    | some groupId =>
      let u : Setup := { groupId, callbackTimeout := config.defaultApiTimeout }
      let v : Setup := { u with reset := config.autoOffsetReset }
      exact (v.steady true).of_subscription rfl rfl

theorem not_mem_of_ordinary {ds : List Deed} (h : Ordinary ds) : .outside .drain ∉ ds := by
  intro hd
  cases h _ hd

theorem not_mem_of_closing {ds : List Deed} (h : Closing ds) : .outside .drain ∉ ds := by
  obtain ⟨before, between, timeout, hbefore, hbetween, rfl⟩ := h
  simp [not_mem_of_ordinary hbefore, not_mem_of_ordinary hbetween]

/-- The last deeds of closing. -/
theorem does_closing (c : Client) (ds : List Deed) (timeout : Int64) :
    c.does (ds ++ [.stop timeout, .failCallbacks]) =
      ((c.does ds).deed (.stop timeout)).failCallbacks := by
  rw [does_append]
  rfl

theorem closed_of_closing {ds : List Deed} (h : Closing ds) : (c.does ds).closed = true := by
  obtain ⟨before, between, timeout, hbefore, hbetween, rfl⟩ := h
  have hbetween' := (((c.deed .close).does before).deed .refuse).closed_does hbetween
  have hclosed : (c.does (.close :: before ++ .refuse :: between)).closed = true := by
    rw [does_append]
    exact hbetween'.1.trans ((c.deed .close).closed_does hbefore).1
  rw [does_closing, failCallbacks_eq]
  exact hclosed

/-- What is in sight of the loop when a consumer begins to close is complete when it has closed. -/
theorem isDone_of_closing (hc : c.Sound) {ds : List Deed} (h : Closing ds) (ht : c.loop.InSight t) :
    (c.does ds).session.slots.isDone t.slot = true := by
  obtain ⟨before, between, timeout, hbefore, hbetween, rfl⟩ := h
  have hrow : .outside .drain ∉ .close :: before ++ .refuse :: between := by
    simp [not_mem_of_ordinary hbefore, not_mem_of_ordinary hbetween]
  have hu := upholds_does hc hrow
  have hstop := upholds_deed hu.sound (x := .stop timeout) (by simp)
  have hdone := (hu.inSight t ht).isDone_cleanUp timeout
  rw [does_closing]
  exact (upholds_failCallbacks hstop.sound).keeps.isDone hdone

/-- What was published at any time until a consumer has closed is complete when it has. -/
theorem isDone_of_published (hc : c.Sound) {ds before after : List Deed}
    (hds : .outside .drain ∉ ds) (hsplit : ds ++ [.failCallbacks] = before ++ after)
    {e : BackgroundEvent} (he : e ∈ (c.does before).session.events) (ht : e.ticket? = some t) :
    (c.does (ds ++ [.failCallbacks])).session.slots.isDone t.slot = true := by
  have hlast : c.does (ds ++ [.failCallbacks]) = (c.does ds).failCallbacks := does_append c ds _
  rcases after.eq_nil_or_concat with rfl | ⟨after, x, rfl⟩
  · -- In the end nothing is left that could be published.
    rw [List.append_nil] at hsplit
    rw [← hsplit, hlast, events_failCallbacks] at he
    cases he
  · rw [List.concat_eq_append, ← List.append_assoc] at hsplit
    obtain rfl := List.append_inj_left' hsplit rfl
    rw [List.mem_append, not_or] at hds
    obtain ⟨hbefore, hafter⟩ := hds
    have hu := upholds_does hc hbefore
    have ha := (upholds_does hu.sound hafter).awaits t (hu.sound.awaits he ht)
    rw [← does_append] at ha
    rw [hlast]
    exact isDone_failCallbacks ha

/-- Every call is a row of ordinary deeds, and closing is a closing row, whatever the timeout is and
whatever is waited for in vain. However the rounds of the loop lie in between: after a row of ordinary
deeds and a closing row, every commit that was not waited for is complete, and so is everything that was
ever published and has a ticket. From then on every call is refused, and neither a call nor closing once
more changes anything. -/
theorem closed_for_good {config : Config} {script : Script} {clock : Int64} {start : Client}
    (hstart : Client.start config script clock = .ok start) {ds : List Deed} (hds : Ordinary ds)
    (timeout : Int64) :
    let c := start.does ds
    (∀ q, ∃ es, Ordinary es ∧ (c.answer q).1 = c.does es) ∧
      (∃ es, Closing es ∧ (c.close timeout).1 = c.does es) ∧
      ∀ es, Closing es → ∀ later, Ordinary later →
        let d := (c.does es).does later
        (∀ before offsets after i, ds = before ++ .commitAsync offsets :: after →
          ((start.does before).commitAsync offsets).2 = .ok i → d.session.slots.isDone i = true) ∧
        (∀ before after, ds ++ es = before ++ after →
          ∀ e ∈ (start.does before).session.events, ∀ t, e.ticket? = some t →
            d.session.slots.isDone t.slot = true) ∧
        (∀ q, d.answer q = (d, some .closed)) ∧ ∀ timeout, d.close timeout = (d, .ok ()) := by
  intro c
  obtain ⟨hsound, hopen, hrunning⟩ := sound_start hstart
  have hnot := not_mem_of_ordinary hds
  have hc : c.Sound := (upholds_does hsound hnot).sound
  obtain ⟨hclosed, hrun⟩ := start.closed_does hds
  refine ⟨c.leads_answer, exists_closing (hclosed.trans hopen) (hrun.trans hrunning) timeout, ?_⟩
  intro es hes later hlater d
  have hafter := upholds_does hc (not_mem_of_closing hes)
  have hkeeps := (upholds_does hafter.sound (not_mem_of_ordinary hlater)).keeps
  have hd : d.closed = true := ((c.does es).closed_does hlater).1.trans (closed_of_closing hes)
  refine ⟨fun before offsets after i hsplit hi => ?_, fun before after hsplit e he t ht => ?_,
    d.answer_of_closed hd, d.close_of_closed hd⟩
  · subst hsplit
    rw [List.mem_append, List.mem_cons, not_or, not_or] at hnot
    obtain ⟨hbefore, -, hrest⟩ := hnot
    have hpast := upholds_does hsound hbefore
    obtain ⟨t, rfl, hsight⟩ := (extends_commitAsync hpast.sound offsets).2 i hi
    have hcommit := upholds_deed hpast.sound (x := .commitAsync offsets) (by simp)
    have hkept := (upholds_does hcommit.sound hrest).inSight t hsight
    have hc' : c = ((start.does before).deed (.commitAsync offsets)).does after :=
      does_append start before _
    rw [← hc'] at hkept
    exact hkeeps.isDone (isDone_of_closing hc hes hkept)
  · obtain ⟨first, second, rest, hfirst, hsecond, hrow⟩ := hes
    let body := ds ++ (.close :: first ++ .refuse :: second ++ [.stop rest])
    have hbody : ds ++ es = body ++ [.failCallbacks] := by
      simp [body, hrow]
    have hnone : .outside .drain ∉ body := by
      simp [body, hnot, not_mem_of_ordinary hfirst, not_mem_of_ordinary hsecond]
    have hdone := isDone_of_published hsound hnone (hbody.symm.trans hsplit) he ht
    rw [← hbody, does_append] at hdone
    exact hkeeps.isDone hdone

/-- A member subscribes, commits without waiting, and is given a partition that its listener is to hear
of. -/
def busyDeeds (offsets : OffsetMap) : List Deed :=
  [.outside .fresh, .submit (.subscribeTopics (ticketAt 0) (.ofList ["t"])), .outside .fresh,
    .submit (.poll 0 1), .commitAsync (some offsets),
    .outside (.script
      { outcomes := [.success "m" 1 (some (.ofList [{ topic := "t", number := 0 }]))] }), .round]

/-- Closing at once completes the commit and the request to run the listener. -/
theorem closed_while_busy :
    let offsets : OffsetMap :=
      .ofList [({ topic := "t", number := 0 }, { offset := 5, leaderEpoch := none, metadata := "" })]
    ∃ start,
      Client.start { groupId := some "g" } { managers := [.heartbeat, .commit] } 0 = .ok start ∧
      let c := start.does (busyDeeds offsets)
      let d := (c.close 0).1
      (∀ i ∈ [2, 4], c.session.slots.isPending i = true ∧ d.session.slots.isDone i = true) ∧
        d.answer (.poll 0) = (d, some .closed) := by
  intro offsets
  have hstart :
      Client.start { groupId := some "g" } { managers := [.heartbeat, .commit] } 0 = .ok _ := rfl
  refine ⟨_, hstart, ?_⟩
  intro c d
  have hds : Ordinary (busyDeeds offsets) := by
    intro x hx
    simp only [busyDeeds, List.mem_cons, List.not_mem_nil, or_false] at hx
    rcases hx with rfl | rfl | rfl | rfl | rfl | rfl | rfl <;> rfl
  obtain ⟨-, ⟨es, hes, hclose⟩, hall⟩ := closed_for_good hstart hds 0
  have hlater : Ordinary [] := fun _ hx => absurd hx List.not_mem_nil
  obtain ⟨hcommits, hpublished, hanswer, -⟩ := hall es hes [] hlater
  have hpending : ∀ i ∈ [2, 4], c.session.slots.isPending i = true := by decide +kernel
  have hrequest : c.session.events.filterMap (·.ticket?.map (·.slot)) = [4] := by decide +kernel
  have hd : d = (c.does es).does [] := hclose.trans (does_nil _).symm
  rw [← hd] at hcommits hpublished hanswer
  refine ⟨fun i hi => ⟨hpending i hi, ?_⟩, hanswer (.poll 0)⟩
  rcases List.mem_cons.1 hi with rfl | hi
  · exact hcommits ((busyDeeds offsets).take 4) (some offsets) ((busyDeeds offsets).drop 5) 2 rfl rfl
  · obtain rfl := List.mem_singleton.1 hi
    have hmem : 4 ∈ c.session.events.filterMap (·.ticket?.map (·.slot)) := by
      rw [hrequest]
      exact List.mem_singleton_self 4
    obtain ⟨e, he, ht⟩ := List.mem_filterMap.1 hmem
    obtain ⟨t, ht, hslot⟩ := Option.map_eq_some_iff.1 ht
    have hdone := hpublished (busyDeeds offsets) es rfl e he t ht
    rwa [hslot] at hdone

end Client

end GroupConsumer
