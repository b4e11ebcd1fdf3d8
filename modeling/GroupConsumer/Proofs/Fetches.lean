import GroupConsumer.Proofs.Client.Orderly

/-!
# Fetches follow their poll

A cycle queues its fetches behind the gate that its poll opens. So they are handled when the poll has
been processed to its end, however many cycles overlap (`Setup.fetches_follow_poll`). Fetches that do
not get through fail with the fault that the cycle is answered with, and are never queued
(`Orderly.refuses`).
-/

namespace GroupConsumer

namespace BackgroundLoop

variable {l : BackgroundLoop} {e : AppEvent} {t : Ticket}

/-- A ticket that fails keeps the outcome that it had, and gets the fault if it had none. -/
theorem outcome?_failEvent (ht : e.ticket? = some t) (hlt : t.slot < l.session.slots.cells.size)
    (f : Fault) : (l.failEvent e f).session.slots.outcome? t.slot =
      some ((l.session.slots.outcome? t.slot).getD (.error f)) := by
  have he : l.failEvent e f = l.withSession (·.complete t.slot (.error f)) := by
    simp only [failEvent, ht]
  rw [he]
  show (l.session.slots.settle t.slot (.error f)).outcome? t.slot = _
  cases ho : l.session.slots.outcome? t.slot with
  | none => exact Slots.outcome?_settle_self (Slots.isPending_iff.2 ⟨hlt, ho⟩) _
  | some o => exact Slots.keeps_settle _ _ _ _ _ ho

theorem queue_failEvent (l : BackgroundLoop) (e : AppEvent) (f : Fault) :
    (l.failEvent e f).queue = l.queue := by
  unfold failEvent
  split <;> rfl

/-- An event that does not get through is not queued, and fails with the fault that is answered unless
it is complete. -/
theorem submitAfter_of_bars {gate : SlotId} (h : l.Bars gate) (ht : e.ticket? = some t)
    (hlt : t.slot < l.session.slots.cells.size) (deadline : Int64) :
    ∃ f, l.submitAfter gate e deadline = (l.failEvent e f, .error f) ∧
      (l.failEvent e f).queue = l.queue ∧
      (l.failEvent e f).session.slots.outcome? t.slot =
        some ((l.session.slots.outcome? t.slot).getD (.error f)) := by
  obtain ⟨f, hf⟩ := submitAfter_eq_error h e deadline
  exact ⟨f, hf, l.queue_failEvent e f, outcome?_failEvent ht hlt f⟩

end BackgroundLoop

namespace Course

variable {c : Course} {y : PollCycle} {t : Ticket} {n : Nat} {f : Fault}

theorem Orderly.run (h : c.Orderly) (hs : List Happening) : c.Leads (c.run hs) := by
  refine run_induction (P := c.Leads) (fun d a hd => ?_) h.leads hs
  have hact := hd.orderly.act a
  exact ⟨hact.orderly, hd.keeps.trans hact.keeps⟩

/-- Fetches that were refused stay refused. -/
theorem act_refused (hn : c.cycles[n]? = some y) (hy : y.stage = .refused t f)
    (a : Happening) : (c.act a).cycles[n]? = some y := by
  cases a with
  | poll timeout =>
    show (c.cycles ++ _)[n]? = _
    rw [List.getElem?_append_left (List.getElem?_eq_some_iff.1 hn).1]
    exact hn
  | advance m =>
    cases hm : c.cycles[m]? with
    | none =>
      simp only [act, hm]
      exact hn
    | some x =>
      simp only [act, hm]
      by_cases hmn : m = n
      · subst hmn
        obtain rfl := Option.some.inj (hn.symm.trans hm)
        rw [getElem?_set_cycle hn]
        simp only [BackgroundLoop.advanceCycle, hy]
        rw [← hy]
      · rw [List.getElem?_set_ne hmn]
        exact hn
  | submit e | outside o =>
    simp only [act]
    split <;> exact hn
  | handle now =>
    simp only [act]
    split <;> exact hn
  | refuse | take | progress | send | drive | sweep | stop => exact hn

theorem run_refused (hn : c.cycles[n]? = some y) (hy : y.stage = .refused t f) (hs : List Happening) :
    (c.run hs).cycles[n]? = some y :=
  run_induction (P := fun d => d.cycles[n]? = some y) (fun _ a hd => act_refused hd hy a) hn hs

/-- Fetches that were refused have not been queued. -/
theorem Orderly.not_mem_events (h : c.Orderly) (hy : y ∈ c.cycles) (hs : y.stage = .refused t f) :
    .createFetches t ∉ c.events := by
  intro he
  have hfetch : y.stage.fetch? = some t := congrArg PollStage.fetch? hs
  have hasks := (h.events _ he).asked y hy _ (PollCycle.slot_mem_slots hfetch)
    (List.mem_singleton_self _)
  cases hasks with
  | fetches hstage => cases hs.symm.trans hstage

/-- If a cycle cannot get its fetches through, they are refused for good and never queued, and their
ticket is complete. -/
theorem Orderly.refuses (h : c.Orderly) (hn : c.cycles[n]? = some y) (hy : y.stage = .waiting t)
    (hb : c.loop.Bars y.gate) :
    ∃ f, (c.loop.submitAfter y.gate (.createFetches t) y.deadline).2 = .error f ∧
      ∀ hs, .createFetches t ∉ ((c.act (.advance n)).run hs).events ∧
        ((c.act (.advance n)).run hs).outcome? t.slot =
          some ((c.outcome? t.slot).getD (.error f)) := by
  have hslot := (h.cycles y (List.mem_of_getElem? hn)).slots _
    (PollCycle.slot_mem_slots (PollCycle.fetch?_of_waiting hy))
  obtain ⟨f, hf, -, ho⟩ := BackgroundLoop.submitAfter_of_bars (e := .createFetches t) hb rfl hslot
    y.deadline
  refine ⟨f, by rw [hf], fun hs => ?_⟩
  let z : PollCycle := { y with stage := .refused t f }
  have hact : c.act (.advance n) = { c with
      loop := c.loop.failEvent (.createFetches t) f
      cycles := c.cycles.set n z } := by
    simp only [Course.act, hn, BackgroundLoop.advanceCycle, hy, hf, z]
  have hrun := (h.advance n).orderly.run hs
  rw [hact] at hrun ⊢
  have hstays := run_refused (c := { c with
      loop := c.loop.failEvent (.createFetches t) f
      cycles := c.cycles.set n z }) (getElem?_set_cycle hn z) rfl hs
  exact ⟨hrun.orderly.not_mem_events (List.mem_of_getElem? hstays) rfl, hrun.keeps _ _ ho⟩

end Course

namespace Setup

/-- A course on which no cycle has been begun yet. -/
def course (u : Setup) (inGroup : Bool) (maxPollWait : Int64) : Course :=
  { loop := u.loop inGroup maxPollWait }

theorem orderly_course (u : Setup) (inGroup : Bool) (maxPollWait : Int64) :
    (u.course inGroup maxPollWait).Orderly where
  tidy := u.tidy_begin inGroup
  cycles _ hy := absurd hy List.not_mem_nil
  apart m n y z hm := by cases hm
  tracked _ ht := absurd ht List.not_mem_nil
  events _ he := absurd he List.not_mem_nil

/-- However the steps of poll cycles and of the loop fall together, the fetches of a cycle are handled
only after its poll has been processed to the end, with reconciliation attempted, the commit manager
called and the gate open. If events are refused by then, or the gate is not open, the fetches are never
queued and their ticket is complete, with the fault that is answered unless it was complete before;
nor is any other event queued behind a gate that failed or is not open. -/
theorem fetches_follow_poll (u : Setup) (inGroup : Bool) (maxPollWait : Int64)
    (hs : List Happening) :
    let c := (u.course inGroup maxPollWait).run hs
    (∀ y ∈ c.cycles, ∀ t, y.stage.fetch? = some t → ∀ later h earlier,
      c.past = later ++ h :: earlier → h.event = .createFetches t → y.PolledIn earlier) ∧
    (∀ n y t, c.cycles[n]? = some y → y.stage = .waiting t → c.loop.Bars y.gate →
      ∃ f, (c.loop.submitAfter y.gate (.createFetches t) y.deadline).2 = .error f ∧
        ∀ hs', let d := (c.act (.advance n)).run hs'
          .createFetches t ∉ d.events ∧
          d.outcome? t.slot = some ((c.outcome? t.slot).getD (.error f))) ∧
    ∀ (l : BackgroundLoop) gate deadline e t, l.Bars gate → e.ticket? = some t →
      t.slot < l.session.slots.cells.size →
      ∃ f, (l.submitAfter gate e deadline).2 = .error f ∧
        (l.submitAfter gate e deadline).1.queue = l.queue ∧
        (l.submitAfter gate e deadline).1.session.slots.outcome? t.slot =
          some ((l.session.slots.outcome? t.slot).getD (.error f)) := by
  intro c
  have hc : c.Orderly := ((u.orderly_course inGroup maxPollWait).run hs).orderly
  refine ⟨fun y hy t ht later h earlier hp he => ?_, fun n y t => hc.refuses, ?_⟩
  · exact (hc.cycles y hy).order later h earlier hp t ht he
  · intro l gate deadline e t hb ht hlt
    obtain ⟨f, hf, hqueue, ho⟩ := BackgroundLoop.submitAfter_of_bars hb ht hlt deadline
    rw [hf]
    exact ⟨f, rfl, hqueue, ho⟩

/-- Two cycles overlap. The first gets its fetches through; the second is about to queue its own when
events are refused. -/
def overlappingCycles : List Happening :=
  [.poll 500, .poll 500, .advance 0, .take, .handle 1000, .handle 1000, .handle 1000,
    .progress 1000 3, .send 1000, .drive 1000, .sweep, .advance 1, .advance 0, .advance 0,
    .advance 0, .take, .handle 1000, .handle 1000, .advance 1, .advance 1, .refuse]

theorem fetches_follow_poll_overlapping :
    let u : Setup := { script := { managers := [.commit, .fetch] }, clock := 1000 }
    let c := (u.course false 0).run overlappingCycles
    let ticket (slot : SlotId) : Ticket :=
      { kind := "CREATE_FETCH_REQUESTS", created := 1000, deadline := 1500, slot }
    let failed := (u.loop false 0).withSession fun s =>
      (s.fresh.1.fresh.1).complete 0 (.error (.internal "gate"))
    (∃ y ∈ c.cycles, y.stage = .fetching (ticket 4) ∧ ∃ h earlier, c.past = h :: earlier ∧
      h.event = .createFetches (ticket 4) ∧ y.PolledIn earlier) ∧
    (∃ y, c.cycles[1]? = some y ∧ y.stage = .waiting (ticket 6) ∧ c.loop.Bars y.gate ∧
      .createFetches (ticket 6) ∉ ((c.act (.advance 1)).run [.take, .handle 1000]).events) ∧
    ∃ f, (failed.submitAfter 0 (.createFetches (ticket 1)) 1500).2 = .error f := by
  intro u c ticket failed
  obtain ⟨horder, hrefused, hgate⟩ := fetches_follow_poll u false 0 overlappingCycles
  refine ⟨?_, ?_, ?_⟩
  · have hy : c.cycles[0]? = some ⟨1000, 1500, 0, .fetching (ticket 4)⟩ := by decide +kernel
    have hhead : (c.past.head?.map fun h => (h.event.kind, h.event.ticket?)) =
        some (.createFetches, some (ticket 4)) := by decide +kernel
    obtain ⟨h, hh, he⟩ := Option.map_eq_some_iff.1 hhead
    obtain ⟨earlier, hp⟩ := List.head?_eq_some_iff.1 hh
    have hevent : h.event = .createFetches (ticket 4) := by
      cases hk : h.event <;> rw [hk] at he <;> cases he
      rfl
    have hmem := List.mem_of_getElem? hy
    have hpolled := horder _ hmem (ticket 4) rfl [] h earlier hp hevent
    exact ⟨_, hmem, rfl, h, earlier, hp, hevent, hpolled⟩
  · have hy : c.cycles[1]? = some ⟨1000, 1500, 1, .waiting (ticket 6)⟩ := by decide +kernel
    have hbars : c.loop.Bars 1 := Or.inl (by decide +kernel)
    obtain ⟨f, -, hnever⟩ := hrefused 1 _ (ticket 6) hy rfl hbars
    exact ⟨_, hy, rfl, hbars, (hnever [.take, .handle 1000]).1⟩
  · have hbars : failed.Bars 0 :=
      Or.inr (Or.inl ⟨_, Slots.outcome?_settle_self (by decide +kernel) _⟩)
    have hslot : (ticket 1).slot < failed.session.slots.cells.size := by decide +kernel
    have h := hgate failed 0 1500 (.createFetches (ticket 1)) (ticket 1) hbars rfl hslot
    exact h.imp fun f hf => hf.1

end Setup

end GroupConsumer
