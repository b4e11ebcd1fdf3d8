import GroupConsumer.Proofs.Client.Course
import GroupConsumer.Proofs.Run.Secluded

/-!
# What the loop leaves alone

Every step of the loop leaves secluded slots as they are, unless the step is given their numbers: a
sweep those of the tickets under watch, the closing also those of the tickets that are queued, and an
event that is refused that of its ticket. `Moves` says so, along with what comes under watch and what
is queued.
-/

namespace GroupConsumer

/-- A pass works on the slots of the tickets that it visits. -/
theorem Reaper.worksOn_pass (fault? : Ticket → Option Fault) (ts : List Ticket)
    (s : Slots Value Deferral) : s.WorksOn (· ∈ ts.map (·.slot)) (pass fault? ts s) := by
  induction ts generalizing s with
  | nil => exact .refl s _
  | cons t ts ih =>
    have hvisit : s.WorksOn (· = t.slot) (visit fault? s t) := by
      unfold visit
      split
      · exact Slots.worksOn_settle s _ _
      · exact .refl s _
    refine (hvisit.mono fun i hi => ?_).trans ((ih (visit fault? s t)).mono fun i hi => ?_)
    · rw [hi]
      exact List.mem_cons_self
    · exact List.mem_cons_of_mem _ hi

namespace BackgroundLoop

/-- From `l` to `l'` secluded slots that are not in `I` stay as they are, nothing new is under watch,
and only the events in `es` are queued. -/
structure Moves (l : BackgroundLoop) (I : List SlotId) (es : List AppEvent) (l' : BackgroundLoop) :
    Prop where
  confined : l.processor.Confined I l'.processor
  tracked : ∀ t ∈ l'.reaper.tracked, t ∈ l.reaper.tracked
  queued : ∀ q ∈ l'.queue.waiting, q ∈ l.queue.waiting ∨ q.item ∈ es

variable {l k m : BackgroundLoop} {I : List SlotId} {es : List AppEvent} {e : AppEvent} {t : Ticket}

theorem Moves.trans (h : l.Moves I es k) (h' : k.Moves I es m) : l.Moves I es m where
  confined := h.confined.trans h'.confined
  tracked r hr := h.tracked r (h'.tracked r hr)
  queued q hq := by
    rcases h'.queued q hq with hq | hq
    · exact h.queued q hq
    · exact Or.inr hq

/-- A change of the processor alone. -/
theorem moves_of_confined {f : Processor → Processor} (h : l.processor.Confined I (f l.processor)) :
    l.Moves I es (l.withProcessor f) :=
  ⟨h, fun _ => id, fun _ => Or.inl⟩

/-- A change of the slots in `I` alone. -/
theorem moves_of_worksOn (hl : l.processor.Tidy) (hI : ∀ i ∈ I, i < l.session.slots.cells.size)
    {f : Session → Session} (hw : l.session.WorksOn (· ∈ I) (f l.session))
    (hs : (f l.session).subscription = l.session.subscription)
    (hf : (f l.session).futures = l.session.futures) : l.Moves I es (l.withSession f) :=
  moves_of_confined (hl.confined_of_worksOn hI hw rfl hs hf)

/-- A change of the session that concerns no slot. -/
theorem moves_of_slots (hl : l.processor.Tidy) {f : Session → Session}
    (hs : (f l.session).subscription = l.session.subscription)
    (hslots : (f l.session).slots = l.session.slots)
    (hf : (f l.session).futures = l.session.futures) : l.Moves I es (l.withSession f) := by
  have hnil : l.processor.Confined [] (l.withSession f).processor :=
    hl.confined_of_slots rfl hs hslots hf
  exact moves_of_confined (hnil.of_nil I)

theorem moves_of_converses (hl : l.processor.Tidy) {s : Session} (h : l.session.Converses s) :
    l.Moves I es (l.withSession fun _ => s) := by
  have hnil : l.processor.Confined [] (l.withSession fun _ => s).processor := hl.converses rfl h
  exact moves_of_confined (hnil.of_nil I)

theorem moves_fresh (hl : l.processor.Tidy) : l.Moves [] es (l.withSession fun s => s.fresh.1) :=
  moves_of_worksOn hl (fun _ hi => absurd hi List.not_mem_nil) (Session.worksOn_fresh _ _) rfl rfl

/-! ### Events -/

theorem moves_failEvent (hl : l.processor.Tidy) (hI : ∀ i ∈ I, i < l.session.slots.cells.size)
    (ht : ∀ t, e.ticket? = some t → t.slot ∈ I) (f : Fault) : l.Moves I es (l.failEvent e f) := by
  unfold failEvent
  split
  · rename_i t he
    refine moves_of_worksOn hl hI ?_ rfl rfl
    refine (Session.worksOn_complete l.session t.slot _).mono fun j hj => ?_
    rw [hj]
    exact ht t he
  · exact ⟨.refl hl I, fun _ => id, fun _ => Or.inl⟩

/-- An event is queued, or refused and fails. -/
theorem moves_submit (hl : l.processor.Tidy) (hI : ∀ i ∈ I, i < l.session.slots.cells.size)
    (ht : ∀ t, e.ticket? = some t → t.slot ∈ I) : l.Moves I [e] (l.submit e).1 := by
  unfold submit
  split
  · exact moves_failEvent hl hI ht .closed
  · have hmetrics : l.Moves I [e] (l.withSession fun s => { s with
        metrics := s.metrics.withApplicationSize (l.queue.add e l.session.clock).depth }) :=
      moves_of_slots hl rfl rfl rfl
    refine ⟨hmetrics.confined, hmetrics.tracked, fun q hq => ?_⟩
    rcases List.mem_append.1 hq with hq | hq
    · exact Or.inl hq
    · rw [List.mem_singleton.1 hq]
      exact Or.inr List.mem_cons_self

/-- Events are refused, or the gate has failed or is not open. -/
def Bars (l : BackgroundLoop) (gate : SlotId) : Prop :=
  l.refusing = true ∨ (∃ f, l.session.slots.outcome? gate = some (.error f)) ∨
    l.session.slots.outcome? gate = none

/-- An event that does not get through fails with the fault that is answered. -/
theorem submitAfter_eq_error {gate : SlotId} (h : l.Bars gate) (e : AppEvent) (deadline : Int64) :
    ∃ f, l.submitAfter gate e deadline = (l.failEvent e f, .error f) := by
  unfold submitAfter
  split
  · rename_i v hv
    refine ⟨.closed, ?_⟩
    rcases h with hr | ⟨f, hf⟩ | hnone
    · simp only [submit, hr, if_true]
    · cases hf.symm.trans hv
    · cases hnone.symm.trans hv
  · exact ⟨_, rfl⟩
  · exact ⟨_, rfl⟩

/-- An event that gets through is queued behind an open gate. -/
theorem submitAfter_of_not_bars {gate : SlotId} (h : ¬ l.Bars gate) (e : AppEvent) (deadline : Int64) :
    (∃ v, l.session.slots.outcome? gate = some (.ok v)) ∧
      l.submitAfter gate e deadline = ((l.submit e).1, .ok ()) := by
  rw [Bars, not_or, not_or] at h
  obtain ⟨hr, herror, hnone⟩ := h
  have hok := accepted_of_not_refusing (Bool.eq_false_iff.2 hr) e
  rcases ho : l.session.slots.outcome? gate with _ | f | v
  · exact absurd ho hnone
  · exact absurd ⟨f, ho⟩ herror
  · simp only [submitAfter, ho]
    exact ⟨⟨v, rfl⟩, Prod.ext rfl hok⟩

/-- Before it processes an event the loop changes no slot. -/
theorem confined_watching (hl : l.processor.Tidy) (now : Int64) (q : Queued AppEvent) :
    l.processor.Confined [] (l.watching now q).processor := by
  unfold watching
  split <;> exact hl.confined_of_slots rfl rfl rfl rfl

theorem mem_tracked_watching {now : Int64} {q : Queued AppEvent}
    (h : t ∈ (l.watching now q).reaper.tracked) :
    t ∈ l.reaper.tracked ∨ q.item.ticket? = some t := by
  unfold watching at h
  split at h
  · rename_i r hr
    rcases List.mem_append.1 h with h | h
    · exact Or.inl h
    · rw [List.mem_singleton.1 h]
      exact Or.inr hr
  · exact Or.inl h

/-! ### Parts of a round -/

theorem moves_sendAll (hl : l.processor.Tidy) (now : Int64) : l.Moves [] es (l.sendAll now).1 :=
  moves_of_converses hl (converses_sendAll l.session now)

theorem moves_driveNetwork (hl : l.processor.Tidy) (now : Int64) :
    l.Moves [] es (l.driveNetwork now).1 :=
  moves_of_converses hl (l.session.converses_pollNetwork now)

theorem moves_progressed (hl : l.processor.Tidy) (now : Int64) (handled : Nat) :
    l.Moves [] es (l.progressed now handled) := by
  have hcount : l.Moves [] es
      (l.withSession fun s => { s with metrics := s.metrics.addProcessed handled }) :=
    moves_of_slots hl rfl rfl rfl
  exact hcount.trans (moves_of_confined (hcount.confined.tidy.progress now))

/-- A pass over tickets with slots that exist. -/
theorem confined_pass {p q : Processor} (hp : p.Tidy) {ts : List Ticket}
    (h : ∀ t ∈ ts, t.slot < p.session.slots.cells.size) {fault? : Ticket → Option Fault}
    (hslots : q.session.slots = Reaper.pass fault? ts p.session.slots) (hm : q.member = p.member)
    (hs : q.session.subscription = p.session.subscription)
    (hf : q.session.futures = p.session.futures) : p.Confined (ts.map (·.slot)) q := by
  refine hp.confined_of_worksOn (fun i hi => ?_) ?_ hm hs hf
  · obtain ⟨t, ht, rfl⟩ := List.mem_map.1 hi
    exact h t ht
  · rw [Session.WorksOn, hslots]
    exact Reaper.worksOn_pass _ _ _

/-- A sweep completes tickets that are under watch. -/
theorem moves_sweep (hl : l.processor.Tidy)
    (h : ∀ t ∈ l.reaper.tracked, t.slot < l.session.slots.cells.size) :
    l.Moves (l.reaper.tracked.map (·.slot)) es l.sweep where
  confined := by
    have hslots := (Reaper.sweepList_eq l.session.clock l.reaper.tracked l.session.slots).1
    exact confined_pass hl h hslots rfl rfl rfl
  tracked t ht := (Reaper.mem_kept_sweepList ht).1
  queued q hq := Or.inl hq

/-- The closing completes tickets that are under watch or queued. -/
theorem moves_cleanUp (hl : l.processor.Tidy)
    (h : ∀ t ∈ l.outstanding, t.slot < l.session.slots.cells.size) (timeout : Int64) :
    l.Moves (l.outstanding.map (·.slot)) es (l.cleanUp timeout) := by
  obtain ⟨s, hs, hflushed⟩ := l.flushed_eq timeout
  have htalk : l.Moves (l.outstanding.map (·.slot)) es (l.withSession fun _ => s) :=
    moves_of_converses hl hs
  rw [cleanUp_eq, finalSweep_eq, hflushed]
  refine ⟨htalk.confined.trans (confined_pass htalk.confined.tidy (fun t ht => ?_) rfl rfl rfl rfl),
    ?_, ?_⟩
  · exact Nat.lt_of_lt_of_le (h t ht) htalk.confined.size
  · exact fun t ht => absurd ht List.not_mem_nil
  · exact fun q hq => absurd hq List.not_mem_nil

end BackgroundLoop

end GroupConsumer
