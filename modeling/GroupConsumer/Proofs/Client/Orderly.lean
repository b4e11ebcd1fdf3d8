import GroupConsumer.Proofs.Client.Moves
import GroupConsumer.Proofs.Run.Polled

/-!
# Cycles keep their slots to themselves

Nobody but a cycle and its poll knows of the gate that the cycle has made, and nobody queues an event
for the slot of its fetches but the cycle itself, which does so once the gate is open. So the gate is
pending until the poll has been processed to the end, and fetches are handled after it: a course is
`Orderly`, and stays so whatever happens (`Orderly.act`).
-/

namespace GroupConsumer

namespace PollCycle

/-- The slots that a cycle keeps to itself: its gate, and that of its fetches. -/
def slots (y : PollCycle) : List SlotId := y.gate :: (y.stage.fetch?.map (·.slot)).toList

/-- The events that a cycle has queued for these slots. -/
inductive Asks (y : PollCycle) : AppEvent → Prop
  | poll : y.Asks (.poll y.time y.gate)
  | fetches {t : Ticket} (h : y.stage = .fetching t) : y.Asks (.createFetches t)

/-- The poll of the cycle is among what was handled, and has been processed to its end. -/
def PolledIn (y : PollCycle) (past : List Handling) : Prop :=
  ∃ z ∈ past, z.event = .poll y.time y.gate ∧ z.before.Polled y.time y.gate z.after

variable {y : PollCycle} {i : SlotId} {t : Ticket}

theorem mem_slots : i ∈ y.slots ↔ i = y.gate ∨ ∃ t, y.stage.fetch? = some t ∧ t.slot = i := by
  simp [slots]

theorem gate_mem_slots (y : PollCycle) : y.gate ∈ y.slots := List.mem_cons_self

theorem slot_mem_slots (h : y.stage.fetch? = some t) : t.slot ∈ y.slots :=
  mem_slots.2 (Or.inr ⟨t, h, rfl⟩)

theorem fetch?_of_fetching (h : y.stage = .fetching t) : y.stage.fetch? = some t := by
  rw [h]
  rfl

theorem fetch?_of_waiting (h : y.stage = .waiting t) : y.stage.fetch? = some t := by
  rw [h]
  rfl

end PollCycle

theorem PollStage.fetch?_afterCheck (o : Outcome Value) : (afterCheck o).fetch? = none := by
  unfold afterCheck
  split
  · rfl
  · split <;> rfl

theorem BackgroundLoop.fetch?_beginCycle (l : BackgroundLoop) (timeout : Int64) :
    (l.beginCycle timeout).2.stage.fetch? = none := by
  simp only [beginCycle]
  split <;> rfl

namespace Course

variable {c d : Course} {y z : PollCycle} {x : Handling} {e : AppEvent} {i : SlotId} {t : Ticket}
  {n : Nat}

/-- How many slots there are. -/
def size (c : Course) : Nat := c.loop.session.slots.cells.size

/-- The outcome of a slot, if it is complete. -/
def outcome? (c : Course) (i : SlotId) : Option (Outcome Value) := c.loop.session.slots.outcome? i

/-- The events that the loop has handled or taken, or that are queued. -/
def events (c : Course) : List AppEvent :=
  c.past.map (·.event) ++ (c.taken.map (·.item) ++ c.loop.queue.waiting.map (·.item))

/-- Where the gate of a cycle stands. -/
inductive Gated (c : Course) (y : PollCycle) : Prop
  /-- Nobody has made use of it. -/
  | closed (secluded : c.loop.processor.Secludes y.gate) (pending : c.outcome? y.gate = none)
  /-- Its poll has been processed to the end. -/
  | opened (polled : y.PolledIn c.past) (done : c.outcome? y.gate = some (.ok .done))

/-- The event names slots that exist, and those of a cycle only if the cycle has queued it for
them. -/
structure Welcomes (c : Course) (e : AppEvent) : Prop where
  slots : ∀ i ∈ e.names, i < c.size
  asked : ∀ y ∈ c.cycles, ∀ i ∈ y.slots, i ∈ e.names → y.Asks e

/-- What holds of each cycle by itself. Fetches that were handled had their poll before them. -/
structure Sees (c : Course) (y : PollCycle) : Prop where
  slots : ∀ i ∈ y.slots, i < c.size
  fetch : ∀ t, y.stage.fetch? = some t → t.slot ≠ y.gate
  gated : c.Gated y
  opened : ∀ t, y.stage = .fetching t → c.outcome? y.gate = some (.ok .done)
  order : ∀ later h earlier, c.past = later ++ h :: earlier →
    ∀ t, y.stage.fetch? = some t → h.event = .createFetches t → y.PolledIn earlier

/-- Cycles keep their slots to themselves, and each has its poll processed before its fetches. -/
structure Orderly (c : Course) : Prop where
  tidy : c.loop.processor.Tidy
  cycles : ∀ y ∈ c.cycles, c.Sees y
  apart : ∀ (m n : Nat) (y z : PollCycle), c.cycles[m]? = some y → c.cycles[n]? = some z → m ≠ n →
    ∀ i ∈ y.slots, i ∉ z.slots
  tracked : ∀ t ∈ c.loop.reaper.tracked, c.admits t.slot = true
  events : ∀ e ∈ c.events, c.Welcomes e

/-- The course `d` is orderly, and outcomes have stayed as they were in `c`. -/
structure Leads (c d : Course) : Prop where
  orderly : d.Orderly
  keeps : c.loop.session.slots.Keeps d.loop.session.slots

theorem Orderly.leads (h : c.Orderly) : c.Leads c := ⟨h, .refl _⟩

theorem admits_iff : c.admits i = true ↔ i < c.size ∧ ∀ y ∈ c.cycles, y.gate ≠ i := by
  simp [admits, size]

theorem mem_events : e ∈ c.events ↔
    (∃ h ∈ c.past, h.event = e) ∨ (∃ q ∈ c.taken, q.item = e) ∨
      ∃ q ∈ c.loop.queue.waiting, q.item = e := by
  simp [events]

theorem mem_events_of_past (h : x ∈ c.past) : x.event ∈ c.events :=
  mem_events.2 (Or.inl ⟨x, h, rfl⟩)

theorem mem_events_of_taken {q : Queued AppEvent} (h : q ∈ c.taken) : q.item ∈ c.events :=
  mem_events.2 (Or.inr (Or.inl ⟨q, h, rfl⟩))

theorem mem_events_of_waiting {q : Queued AppEvent} (h : q ∈ c.loop.queue.waiting) :
    q.item ∈ c.events := mem_events.2 (Or.inr (Or.inr ⟨q, h, rfl⟩))

/-- The cycle number `n` is what it was set to. -/
theorem getElem?_set_cycle (hn : c.cycles[n]? = some y) (z : PollCycle) :
    (c.cycles.set n z)[n]? = some z := List.getElem?_set_self (List.getElem?_eq_some_iff.1 hn).1

/-! ### Slots and events of cycles -/

/-- A slot tells the cycle that has it. -/
theorem Orderly.eq_of_mem_slots (h : c.Orderly) (hy : y ∈ c.cycles) (hz : z ∈ c.cycles)
    (hi : i ∈ y.slots) (hi' : i ∈ z.slots) : y = z := by
  obtain ⟨m, hm⟩ := List.mem_iff_getElem?.1 hy
  obtain ⟨n, hn⟩ := List.mem_iff_getElem?.1 hz
  by_cases hmn : m = n
  · subst hmn
    exact Option.some.inj (hm.symm.trans hn)
  · exact absurd hi' (h.apart m n y z hm hn hmn i hi)

/-- The slot for the fetches of a cycle is no gate. -/
theorem Orderly.admits_fetch (h : c.Orderly) (hy : y ∈ c.cycles) (ht : y.stage.fetch? = some t) :
    c.admits t.slot = true := by
  have hmem := PollCycle.slot_mem_slots ht
  refine admits_iff.2 ⟨(h.cycles y hy).slots _ hmem, fun z hz hg => ?_⟩
  obtain rfl : y = z := h.eq_of_mem_slots hy hz hmem (hg ▸ z.gate_mem_slots)
  exact (h.cycles y hy).fetch t ht hg.symm

/-- A slot of a cycle that is no gate is for its fetches. -/
theorem awaitsFetch_of_mem_slots (hy : y ∈ c.cycles) (hi : i ∈ y.slots) (ha : c.admits i = true) :
    c.awaitsFetch i = true := by
  rw [awaitsFetch, List.any_eq_true]
  refine ⟨y, hy, ?_⟩
  obtain rfl | ⟨t, ht, rfl⟩ := PollCycle.mem_slots.1 hi
  · exact absurd rfl ((admits_iff.1 ha).2 y hy)
  · simp [ht]

/-- An event that a cycle has queued for its gate is its poll. -/
theorem Sees.eq_poll (h : c.Sees y) (ha : y.Asks e) (he : y.gate ∈ e.names) :
    e = .poll y.time y.gate := by
  cases ha with
  | poll => rfl
  | fetches ht =>
    exact absurd (List.mem_singleton.1 he).symm (h.fetch _ (PollCycle.fetch?_of_fetching ht))

/-- A ticket that comes with an event has a slot that is no gate. -/
theorem Orderly.admits_of_welcomes (h : c.Orderly) (he : c.Welcomes e) (ht : e.ticket? = some t) :
    c.admits t.slot = true := by
  have hnames := AppEvent.slot_mem_names ht
  refine admits_iff.2 ⟨he.slots _ hnames, fun y hy hg => ?_⟩
  have hgate : y.gate ∈ e.names := hg ▸ hnames
  have hpoll := (h.cycles y hy).eq_poll (he.asked y hy _ y.gate_mem_slots hgate) hgate
  rw [hpoll] at ht
  cases ht

/-- The gate of a cycle can only be opened by its poll. -/
theorem Sees.done (h : c.Sees y) {o : Outcome Value} (ho : c.outcome? y.gate = some o) :
    c.outcome? y.gate = some (.ok .done) := by
  cases h.gated with
  | closed _ pending => cases ho.symm.trans pending
  | opened _ done => exact done

/-- When the loop comes to the fetches of a cycle, its poll has been processed. -/
theorem Orderly.polledIn (h : c.Orderly) (hw : c.Welcomes (.createFetches t)) (hy : y ∈ c.cycles)
    (ht : y.stage.fetch? = some t) : y.PolledIn c.past := by
  have hasks := hw.asked y hy _ (PollCycle.slot_mem_slots ht) (List.mem_singleton_self _)
  cases hasks with
  | fetches hstage =>
    cases (h.cycles y hy).gated with
    | closed _ pending => cases ((h.cycles y hy).opened t hstage).symm.trans pending
    | opened polled _ => exact polled

/-! ### Steps by which no cycle goes on -/

section

variable {I : List SlotId} {es : List AppEvent} {l : BackgroundLoop}

theorem Gated.confined (h : c.Gated y) (hc : c.loop.processor.Confined I d.loop.processor)
    (hI : y.gate ∉ I) (hpast : ∀ z ∈ c.past, z ∈ d.past) : d.Gated y := by
  cases h with
  | closed secluded pending =>
    obtain ⟨hs, ho⟩ := hc.secludes _ hI secluded
    exact .closed hs (ho.trans pending)
  | opened polled done =>
    obtain ⟨z, hz, hp⟩ := polled
    exact .opened ⟨z, hpast z hz, hp⟩ (hc.keeps _ _ done)

theorem Welcomes.mono (h : c.Welcomes e) (hcycles : d.cycles = c.cycles) (hsize : c.size ≤ d.size) :
    d.Welcomes e where
  slots i hi := Nat.lt_of_lt_of_le (h.slots i hi) hsize
  asked := by
    rw [hcycles]
    exact h.asked

theorem admits_mono (h : c.admits i = true) (hcycles : d.cycles = c.cycles)
    (hsize : c.size ≤ d.size) : d.admits i = true := by
  obtain ⟨hlt, hgates⟩ := admits_iff.1 h
  refine admits_iff.2 ⟨Nat.lt_of_lt_of_le hlt hsize, ?_⟩
  rw [hcycles]
  exact hgates

/-- Confined work that leaves the gates alone, and by which nothing comes in but what is welcome. -/
theorem Orderly.confined (h : c.Orderly) (hcycles : d.cycles = c.cycles) (hpast : d.past = c.past)
    (hc : c.loop.processor.Confined I d.loop.processor) (hI : ∀ i ∈ I, c.admits i = true)
    (htracked : ∀ t ∈ d.loop.reaper.tracked, t ∈ c.loop.reaper.tracked)
    (hevents : ∀ e ∈ d.events, e ∈ c.events ∨ c.Welcomes e) : c.Leads d where
  keeps := hc.keeps
  orderly.tidy := hc.tidy
  orderly.cycles := by
    rw [hcycles]
    intro y hy
    have hsees := h.cycles y hy
    refine ⟨fun i hi => Nat.lt_of_lt_of_le (hsees.slots i hi) hc.size, hsees.fetch, ?_, ?_, ?_⟩
    · refine hsees.gated.confined hc (fun hg => (admits_iff.1 (hI _ hg)).2 y hy rfl) fun z hz => ?_
      rwa [hpast]
    · exact fun t ht => hc.keeps _ _ (hsees.opened t ht)
    · rw [hpast]
      exact hsees.order
  orderly.apart := by
    rw [hcycles]
    exact h.apart
  orderly.tracked t ht := admits_mono (h.tracked t (htracked t ht)) hcycles hc.size
  orderly.events e he := by
    have hw : c.Welcomes e := (hevents e he).elim (h.events e) id
    exact hw.mono hcycles hc.size

/-- A step of the loop by which events are queued. -/
theorem Orderly.moves (h : c.Orderly) (hm : c.loop.Moves I es l) (hI : ∀ i ∈ I, c.admits i = true)
    (hes : ∀ e ∈ es, c.Welcomes e) : c.Leads { c with loop := l } := by
  refine h.confined rfl rfl hm.confined hI hm.tracked fun e he => ?_
  rcases mem_events.1 he with ⟨x, hx, rfl⟩ | ⟨q, hq, rfl⟩ | ⟨q, hq, rfl⟩
  · exact Or.inl (mem_events_of_past hx)
  · exact Or.inl (mem_events_of_taken hq)
  · exact (hm.queued q hq).imp mem_events_of_waiting (hes _)

/-- A step of the loop by which no event is queued. -/
theorem Orderly.works (h : c.Orderly) (hm : c.loop.Moves I [] l)
    (hI : ∀ i ∈ I, c.admits i = true) : c.Leads { c with loop := l } :=
  h.moves hm hI fun _ he => absurd he List.not_mem_nil

/-- A step of the loop that works on no slot and queues nothing. -/
theorem Orderly.still (h : c.Orderly) (hm : c.loop.Moves [] [] l) : c.Leads { c with loop := l } :=
  h.works hm fun _ hi => absurd hi List.not_mem_nil

/-- The queueing of an event whose slots are no gates, or that has no ticket. -/
theorem Orderly.submit (h : c.Orderly) (ht : ∀ t, e.ticket? = some t → t.slot ∈ I)
    (hI : ∀ i ∈ I, c.admits i = true) (hw : c.Welcomes e) :
    c.Leads { c with loop := (c.loop.submit e).1 } := by
  refine h.moves (BackgroundLoop.moves_submit h.tidy (fun i hi => ?_) ht) hI fun e' he' => ?_
  · exact (admits_iff.1 (hI i hi)).1
  · rw [List.mem_singleton.1 he']
    exact hw

end

/-! ### Slots that nobody has heard of -/

/-- The slot exists, and nobody has heard of it. -/
structure Unknown (c : Course) (i : SlotId) : Prop where
  slot : i < c.size
  events : ∀ e ∈ c.events, i ∉ e.names
  cycles : ∀ y ∈ c.cycles, i ∉ y.slots
  tracked : ∀ t ∈ c.loop.reaper.tracked, t.slot ≠ i

theorem Unknown.admits (h : c.Unknown i) : c.admits i = true := by
  refine admits_iff.2 ⟨h.slot, ?_⟩
  rintro y hy rfl
  exact h.cycles y hy y.gate_mem_slots

/-- An event that names one slot, of which no cycle has heard. -/
theorem Unknown.welcomes (h : c.Unknown i) (he : e.names = [i]) : c.Welcomes e := by
  constructor <;> rw [he]
  · exact List.forall_mem_singleton.2 h.slot
  · intro y hy j hj hmem
    rw [List.mem_singleton.1 hmem] at hj
    exact absurd hj (h.cycles y hy)

/-- The course after a new slot has been made. -/
def afresh (c : Course) : Course := { c with loop := c.loop.withSession fun s => s.fresh.1 }

theorem Orderly.afresh (h : c.Orderly) : c.Leads c.afresh :=
  h.still (BackgroundLoop.moves_fresh h.tidy)

theorem Orderly.unknown_afresh (h : c.Orderly) : c.afresh.Unknown c.size where
  slot := by
    show c.size < c.loop.session.slots.fresh.1.cells.size
    rw [Slots.size_fresh]
    exact Nat.lt_succ_self _
  events e he hi := Nat.lt_irrefl _ ((h.events e he).slots _ hi)
  cycles y hy hi := Nat.lt_irrefl _ ((h.cycles y hy).slots _ hi)
  tracked t ht hi := Nat.lt_irrefl c.size (hi ▸ (admits_iff.1 (h.tracked t ht)).1)

theorem Orderly.secludes_afresh (h : c.Orderly) :
    c.afresh.loop.processor.Secludes c.size ∧ c.afresh.outcome? c.size = none := by
  refine ⟨⟨h.unknown_afresh.slot, (h.tidy.unborn _ (Nat.le_refl _)).fresh, fun ha => ?_,
    fun hl => ?_⟩, ?_⟩
  · exact Nat.lt_irrefl _ (h.tidy.lt_of_hasAnswer ha)
  · exact Nat.lt_irrefl _ (h.tidy.leave _ hl)
  · show c.loop.session.slots.fresh.1.outcome? c.size = none
    have hnone : c.loop.session.slots.cells[c.size]? = none :=
      Array.getElem?_eq_none (Nat.le_refl _)
    rw [Slots.outcome?_fresh, Slots.outcome?, hnone]
    rfl

/-- A ticket is issued. -/
theorem Orderly.issue (h : c.Orderly) (kind : AppEvent.Kind) (deadline : Int64) :
    let d : Course := { c with loop := (c.loop.issue kind deadline).1 }
    c.Leads d ∧ d.Unknown (c.loop.issue kind deadline).2.slot := ⟨h.afresh, h.unknown_afresh⟩

/-! ### Steps of cycles -/

/-- The cycle number `n` becomes `z`, whose slots it had before if anybody has heard of them. -/
theorem Orderly.recycle {cs : List PollCycle} (h : c.Orderly)
    (hcs : ∀ (m : Nat) (y : PollCycle), cs[m]? = some y →
      (c.cycles[m]? = some y ∧ m ≠ n) ∨ (y = z ∧ m = n))
    (hslots : ∀ i ∈ z.slots, (∃ y, c.cycles[n]? = some y ∧ i ∈ y.slots) ∨ c.Unknown i)
    (hsees : c.Sees z) (hgate : ∀ t ∈ c.loop.reaper.tracked, z.gate ≠ t.slot)
    (hasks : ∀ y, c.cycles[n]? = some y → ∀ e, y.Asks e → z.Asks e) :
    Orderly { c with cycles := cs } := by
  have hmem : ∀ y ∈ cs, y ∈ c.cycles ∨ y = z := by
    intro y hy
    obtain ⟨m, hm⟩ := List.mem_iff_getElem?.1 hy
    exact (hcs m y hm).imp (fun hm => List.mem_of_getElem? hm.1) (·.1)
  have hforeign : ∀ (m : Nat) (y : PollCycle), c.cycles[m]? = some y → m ≠ n →
      ∀ i ∈ z.slots, i ∉ y.slots := by
    intro m y hm hne i hi
    rcases hslots i hi with ⟨w, hn, hi⟩ | hi
    · exact h.apart n m w y hn hm hne.symm i hi
    · exact hi.cycles y (List.mem_of_getElem? hm)
  refine ⟨h.tidy, fun y hy => ?_, fun m k y w hm hk hne i hi hi' => ?_, fun t ht => ?_,
    fun e he => ?_⟩
  · have hy : c.Sees y := by
      rcases hmem y hy with hy | rfl
      · exact h.cycles y hy
      · exact hsees
    exact ⟨hy.slots, hy.fetch, hy.gated.confined (.refl h.tidy []) List.not_mem_nil fun _ => id,
      hy.opened, hy.order⟩
  · rcases hcs m y hm with ⟨hy, hmn⟩ | ⟨rfl, hmn⟩ <;>
      rcases hcs k w hk with ⟨hw, hkn⟩ | ⟨rfl, hkn⟩
    · exact h.apart m k y w hy hw hne i hi hi'
    · exact hforeign m y hy hmn i hi' hi
    · exact hforeign k w hw hkn i hi hi'
    · omega
  · obtain ⟨hlt, hgates⟩ := admits_iff.1 (h.tracked t ht)
    refine admits_iff.2 ⟨hlt, fun y hy => ?_⟩
    rcases hmem y hy with hy | rfl
    · exact hgates y hy
    · exact hgate t ht
  · have hw := h.events e he
    refine ⟨hw.slots, fun y hy i hi hi' => ?_⟩
    rcases hmem y hy with hy | rfl
    · exact hw.asked y hy i hi hi'
    · rcases hslots i hi with ⟨w, hn, hi⟩ | hu
      · exact hasks w hn e (hw.asked w (List.mem_of_getElem? hn) i hi hi')
      · exact absurd hi' (hu.events e he)

/-- A cycle is begun, with a gate of its own. -/
theorem Orderly.begin (h : c.Orderly) (hu : c.Unknown z.gate)
    (hs : c.loop.processor.Secludes z.gate) (ho : c.outcome? z.gate = none)
    (hz : z.stage.fetch? = none) : Orderly { c with cycles := c.cycles ++ [z] } := by
  have hslots : ∀ i ∈ z.slots, c.Unknown i := by
    intro i hi
    obtain rfl | ⟨t, ht, -⟩ := PollCycle.mem_slots.1 hi
    · exact hu
    · cases ht.symm.trans hz
  have hnone : c.cycles[c.cycles.length]? = none := List.getElem?_eq_none (Nat.le_refl _)
  refine h.recycle (n := c.cycles.length) (z := z) (fun m y hm => ?_)
    (fun i hi => Or.inr (hslots i hi)) ?_ (fun t ht => (hu.tracked t ht).symm) fun y hy => ?_
  · rw [List.getElem?_append] at hm
    split at hm
    · rename_i hlt
      exact Or.inl ⟨hm, Nat.ne_of_lt hlt⟩
    · rename_i hlt
      obtain ⟨hm0, hy⟩ := List.getElem?_eq_some_iff.1 hm
      simp only [List.length_singleton] at hm0
      refine Or.inr ⟨?_, by omega⟩
      simpa using hy.symm
  · refine ⟨fun i hi => (hslots i hi).slot, fun t ht => ?_, .closed hs ho, fun t ht => ?_,
      fun _ _ _ _ t ht => ?_⟩
    · cases ht.symm.trans hz
    · cases (PollCycle.fetch?_of_fetching ht).symm.trans hz
    · cases ht.symm.trans hz
  · cases hy.symm.trans hnone

/-- A cycle goes on. It gets no slot but one that nobody has heard of, and its fetches stay queued once
they are, for which its gate has to be open. -/
theorem Orderly.restage (h : c.Orderly) (hn : c.cycles[n]? = some y) {s : PollStage}
    (hfetch : ∀ t, s.fetch? = some t → y.stage.fetch? = some t ∨ c.Unknown t.slot)
    (hasks : ∀ t, y.stage = .fetching t → s = .fetching t)
    (hopen : ∀ t, s = .fetching t → c.outcome? y.gate = some (.ok .done)) :
    Orderly { c with cycles := c.cycles.set n { y with stage := s } } := by
  have hy : y ∈ c.cycles := List.mem_of_getElem? hn
  have hsees := h.cycles y hy
  have hslots : ∀ i ∈ PollCycle.slots { y with stage := s }, i ∈ y.slots ∨ c.Unknown i := by
    intro i hi
    obtain rfl | ⟨t, ht, rfl⟩ := PollCycle.mem_slots.1 hi
    · exact Or.inl y.gate_mem_slots
    · exact (hfetch t ht).imp_left PollCycle.slot_mem_slots
  refine h.recycle (n := n) (z := { y with stage := s }) (fun m w hm => ?_)
    (fun i hi => (hslots i hi).imp_left fun hi => ⟨y, hn, hi⟩) ?_ (fun t ht => ?_) fun w hw e he => ?_
  · by_cases hmn : m = n
    · subst hmn
      exact Or.inr ⟨Option.some.inj (hm.symm.trans (getElem?_set_cycle hn _)), rfl⟩
    · rw [List.getElem?_set_ne (Ne.symm hmn)] at hm
      exact Or.inl ⟨hm, hmn⟩
  · refine ⟨fun i hi => (hslots i hi).elim (hsees.slots i) (·.slot), fun t ht => ?_, ?_, hopen,
      fun later x earlier hp t ht he => ?_⟩
    · rcases hfetch t ht with ht | hu
      · exact hsees.fetch t ht
      · exact ((admits_iff.1 hu.admits).2 y hy).symm
    · cases hsees.gated with
      | closed secluded pending => exact .closed secluded pending
      | opened polled done => exact .opened polled done
    · rcases hfetch t ht with ht | hu
      · exact hsees.order later x earlier hp t ht he
      · -- Fetches that were handled have a slot that somebody has heard of.
        have hx : x ∈ c.past := by
          rw [hp]
          exact List.mem_append_right _ List.mem_cons_self
        refine absurd ?_ (hu.events _ (mem_events_of_past hx))
        rw [he]
        exact List.mem_singleton_self _
  · exact (admits_iff.1 (h.tracked t ht)).2 y hy
  · obtain rfl := Option.some.inj (hn.symm.trans hw)
    cases he with
    | poll => exact .poll
    | fetches ht => exact .fetches (hasks _ ht)

/-- A cycle goes on without a ticket for its fetches. -/
theorem Orderly.restage_of_none (h : c.Orderly) (hn : c.cycles[n]? = some y)
    (hy : y.stage.fetch? = none) {s : PollStage} (hs : s.fetch? = none) :
    Orderly { c with cycles := c.cycles.set n { y with stage := s } } := by
  refine h.restage hn (fun t ht => ?_) (fun t ht => ?_) fun t ht => ?_
  · cases hs.symm.trans ht
  · cases (PollCycle.fetch?_of_fetching ht).symm.trans hy
  · rw [ht] at hs
    cases hs

theorem Orderly.poll (h : c.Orderly) (timeout : Int64) : c.Leads (c.act (.poll timeout)) := by
  let z := (c.loop.beginCycle timeout).2
  have hu : c.afresh.Unknown z.gate := h.unknown_afresh
  obtain ⟨hs, ho⟩ : c.afresh.loop.processor.Secludes z.gate ∧ c.afresh.outcome? z.gate = none :=
    h.secludes_afresh
  have hbegun := h.afresh.orderly.begin hu hs ho (c.loop.fetch?_beginCycle timeout)
  suffices hqueued : Leads { c.afresh with cycles := c.cycles ++ [z] } (c.act (.poll timeout)) from
    ⟨hqueued.orderly, h.afresh.keeps.trans hqueued.keeps⟩
  refine hbegun.submit (I := []) (e := .poll z.time z.gate) (fun t ht => by cases ht)
    (fun i hi => absurd hi List.not_mem_nil) ⟨List.forall_mem_singleton.2 hu.slot, ?_⟩
  intro y hy i hi hi'
  rw [List.mem_singleton.1 hi'] at hi
  rcases List.mem_append.1 hy with hy | hy
  · exact absurd hi (hu.cycles y hy)
  · rw [List.mem_singleton.1 hy]
    exact .poll

/-- A cycle queues its fetches, or fails them. -/
theorem Orderly.queueFetches (h : c.Orderly) (hn : c.cycles[n]? = some y)
    (hy : y.stage = .waiting t) : c.Leads (c.act (.advance n)) := by
  let e : AppEvent := .createFetches t
  let restaged (s : PollStage) : Course := { c with cycles := c.cycles.set n { y with stage := s } }
  have hfetch := PollCycle.fetch?_of_waiting hy
  have hmem : ∀ s, { y with stage := s } ∈ (restaged s).cycles := fun s =>
    List.mem_of_getElem? (getElem?_set_cycle hn _)
  have hstage : ∀ s : PollStage, s.fetch? = some t →
      (∀ r, s = .fetching r → c.outcome? y.gate = some (.ok .done)) →
      (restaged s).Orderly ∧ ∀ i ∈ [t.slot], (restaged s).admits i = true := by
    intro s hs hopen
    have hrestaged := h.restage (s := s) hn (fun r hr => Or.inl (hfetch.trans (hs.symm.trans hr)))
      (fun r hr => by cases hy.symm.trans hr) hopen
    exact ⟨hrestaged, List.forall_mem_singleton.2 (hrestaged.admits_fetch (hmem s) hs)⟩
  have hticket : ∀ r, e.ticket? = some r → r.slot ∈ [t.slot] := by
    intro r hr
    rw [← Option.some.inj hr]
    exact List.mem_singleton_self _
  simp only [act, hn, BackgroundLoop.advanceCycle, hy]
  by_cases hb : c.loop.Bars y.gate
  case pos =>
    obtain ⟨f, hf⟩ := BackgroundLoop.submitAfter_eq_error hb e y.deadline
    rw [hf]
    obtain ⟨hrefused, hslot⟩ := hstage (.refused t f) rfl fun _ hr => by cases hr
    have hfailed := hrefused.works (BackgroundLoop.moves_failEvent h.tidy
      (fun i hi => (admits_iff.1 (hslot i hi)).1) hticket f) hslot
    exact ⟨hfailed.orderly, hfailed.keeps⟩
  case neg =>
    obtain ⟨⟨v, hv⟩, hok⟩ := BackgroundLoop.submitAfter_of_not_bars hb e y.deadline
    rw [hok]
    obtain ⟨hqueued, hslot⟩ := hstage (.fetching t) rfl fun _ _ =>
      (h.cycles y (List.mem_of_getElem? hn)).done hv
    have hw : (restaged (.fetching t)).Welcomes e := by
      refine ⟨fun i hi => (admits_iff.1 (hslot i hi)).1, fun w hw i hi hi' => ?_⟩
      rw [List.mem_singleton.1 hi'] at hi
      obtain rfl := hqueued.eq_of_mem_slots (hmem _) hw (PollCycle.slot_mem_slots rfl) hi
      exact .fetches rfl
    have hsubmit := hqueued.submit hticket hslot hw
    exact ⟨hsubmit.orderly, hsubmit.keeps⟩

theorem Orderly.advance (h : c.Orderly) (n : Nat) : c.Leads (c.act (.advance n)) := by
  cases hn : c.cycles[n]? with
  | none =>
    simp only [act, hn]
    exact h.leads
  | some y =>
    cases hy : y.stage with
    | polled =>
      have hnone : y.stage.fetch? = none := congrArg PollStage.fetch? hy
      obtain ⟨hissued, hu⟩ := h.issue .checkPositions y.deadline
      let t := (c.loop.issue .checkPositions y.deadline).2
      have hsubmit := hissued.orderly.submit (e := .checkPositions t) (I := [t.slot])
        (fun r hr => Option.some.inj hr ▸ List.mem_singleton_self _)
        (List.forall_mem_singleton.2 hu.admits) (hu.welcomes rfl)
      simp only [act, hn, BackgroundLoop.advanceCycle, hy]
      generalize (c.loop.issue .checkPositions y.deadline).1.submit _ = r at hsubmit ⊢
      obtain ⟨l, _ | _⟩ := r
      · exact ⟨hsubmit.orderly.restage_of_none hn hnone rfl, hissued.keeps.trans hsubmit.keeps⟩
      · exact ⟨hsubmit.orderly.restage_of_none hn hnone rfl, hissued.keeps.trans hsubmit.keeps⟩
    | checking t =>
      have hnone : y.stage.fetch? = none := congrArg PollStage.fetch? hy
      simp only [act, hn, BackgroundLoop.advanceCycle, hy]
      exact ⟨h.restage_of_none hn hnone (PollStage.fetch?_afterCheck _), .refl _⟩
    | checked =>
      obtain ⟨hissued, hu⟩ := h.issue .createFetches y.deadline
      simp only [act, hn, BackgroundLoop.advanceCycle, hy]
      refine ⟨hissued.orderly.restage hn (fun t ht => Or.inr ?_) (fun t ht => ?_) fun t ht => ?_,
        hissued.keeps⟩
      · rw [← Option.some.inj ht]
        exact hu
      · cases hy.symm.trans ht
      · cases ht
    | waiting t => exact h.queueFetches hn hy
    | fetching t | refused t f | ended f =>
      have hstay : ∀ s, y.stage = s →
          Orderly { c with cycles := c.cycles.set n { y with stage := s } } := by
        rintro _ rfl
        exact h.restage hn (fun _ => Or.inl) (fun _ => id)
          (h.cycles y (List.mem_of_getElem? hn)).opened
      simp only [act, hn, BackgroundLoop.advanceCycle, hy]
      exact ⟨hstay _ hy, .refl _⟩

/-! ### Steps of the loop -/

/-- The course after the loop has processed an event that it had taken. -/
theorem act_handle {q : Queued AppEvent} {rest : List (Queued AppEvent)} (h : c.taken = q :: rest)
    (now : Int64) : c.act (.handle now) = { c with
      loop := BackgroundLoop.handle now c.loop q
      taken := rest
      past := ⟨(c.loop.watching now q).processor, q.item⟩ :: c.past } := by
  simp only [act, h]

/-- When an event has been processed, a gate is as it was, or the event was the poll that opens it. -/
theorem Sees.gated_handle (h : c.Sees y) (hfirst : c.loop.processor.Confined [] x.before)
    (hprocess : x.before.Confined x.event.names x.after)
    (hasks : y.gate ∈ x.event.names → y.Asks x.event) (hd : d.loop.processor = x.after)
    (hpast : d.past = x :: c.past) : d.Gated y := by
  have hall : c.loop.processor.Confined x.event.names d.loop.processor := by
    rw [hd]
    exact (hfirst.of_nil _).trans hprocess
  have hmem : ∀ z ∈ c.past, z ∈ d.past := by
    rw [hpast]
    exact fun z => List.mem_cons_of_mem x
  by_cases hg : y.gate ∈ x.event.names
  · cases h.gated with
    | closed secluded pending =>
      have hpoll := h.eq_poll (hasks hg) hg
      obtain ⟨hs, ho⟩ := hfirst.secludes _ List.not_mem_nil secluded
      have hpolled : x.before.Polled y.time y.gate x.after := by
        rw [Handling.after, hpoll]
        exact hfirst.tidy.polled hs (ho.trans pending) y.time
      refine .opened ⟨x, ?_, hpoll, hpolled⟩ ?_
      · rw [hpast]
        exact List.mem_cons_self
      · rw [outcome?, BackgroundLoop.session, hd]
        exact hpolled.gate
    | opened polled done =>
      obtain ⟨z, hz, hp⟩ := polled
      exact .opened ⟨z, hmem z hz, hp⟩ (hall.keeps _ _ done)
  · exact h.gated.confined hall hg hmem

/-- The loop processes an event. -/
theorem Orderly.handle (h : c.Orderly) (now : Int64) : c.Leads (c.act (.handle now)) := by
  cases htaken : c.taken with
  | nil =>
    simp only [act, htaken]
    exact h.leads
  | cons q rest =>
    let x : Handling := ⟨(c.loop.watching now q).processor, q.item⟩
    have hq : q ∈ c.taken := by
      rw [htaken]
      exact List.mem_cons_self
    have hw : c.Welcomes q.item := h.events _ (mem_events_of_taken hq)
    have hfirst := BackgroundLoop.confined_watching h.tidy now q
    have hprocess : x.before.Confined q.item.names x.after := hfirst.tidy.process fun i hi =>
      Nat.lt_of_lt_of_le (hw.slots i hi) hfirst.size
    have hall := (hfirst.of_nil _).trans hprocess
    rw [act_handle htaken, BackgroundLoop.handle_eq]
    refine ⟨⟨hall.tidy, fun y hy => ?_, h.apart, fun t ht => ?_, fun e he => ?_⟩, hall.keeps⟩
    · have hsees := h.cycles y hy
      refine ⟨fun i hi => Nat.lt_of_lt_of_le (hsees.slots i hi) hall.size, hsees.fetch,
        hsees.gated_handle hfirst hprocess (hw.asked y hy _ y.gate_mem_slots) rfl rfl,
        fun t ht => hall.keeps _ _ (hsees.opened t ht), fun later w earlier hp t ht he => ?_⟩
      cases later with
      | nil =>
        obtain ⟨rfl, rfl⟩ := List.cons.inj hp
        have hitem : q.item = .createFetches t := he
        rw [hitem] at hw
        exact h.polledIn hw hy ht
      | cons _ later => exact hsees.order later w earlier (List.cons.inj hp).2 t ht he
    · have hadmits : c.admits t.slot = true := by
        rcases BackgroundLoop.mem_tracked_watching ht with ht | ht
        · exact h.tracked t ht
        · exact h.admits_of_welcomes hw ht
      exact admits_mono hadmits rfl hall.size
    · have hc : c.Welcomes e := by
        rcases mem_events.1 he with ⟨w, hmem, rfl⟩ | ⟨r, hr, rfl⟩ | ⟨r, hr, rfl⟩
        · rcases List.mem_cons.1 hmem with rfl | hmem
          · exact hw
          · exact h.events _ (mem_events_of_past hmem)
        · refine h.events _ (mem_events_of_taken ?_)
          rw [htaken]
          exact List.mem_cons_of_mem _ hr
        · have hr : r ∈ (c.loop.watching now q).queue.waiting := hr
          rw [BackgroundLoop.queue_watching] at hr
          exact h.events _ (mem_events_of_waiting hr)
      exact hc.mono rfl hall.size

/-- Whatever happens, cycles keep their slots to themselves, and each has its poll processed before
its fetches. -/
theorem Orderly.act (h : c.Orderly) (a : Happening) : c.Leads (c.act a) := by
  have hmap : ∀ {ts : List Ticket}, (∀ t ∈ ts, c.admits t.slot = true) →
      ∀ i ∈ ts.map (·.slot), c.admits i = true := by
    intro ts hts i hi
    obtain ⟨t, ht, rfl⟩ := List.mem_map.1 hi
    exact hts t ht
  cases a with
  | poll timeout => exact h.poll timeout
  | advance n => exact h.advance n
  | submit e =>
    simp only [Course.act]
    split
    · rename_i hnames
      simp only [List.all_eq_true, Bool.and_eq_true, Bool.not_eq_true'] at hnames
      have hadmits := fun i hi => (hnames i hi).1
      refine h.submit (fun t => AppEvent.slot_mem_names) hadmits
        ⟨fun i hi => (admits_iff.1 (hadmits i hi)).1, fun y hy i hi hi' => ?_⟩
      cases (awaitsFetch_of_mem_slots hy hi (hadmits i hi')).symm.trans (hnames i hi').2
    · exact h.leads
  | refuse => exact h.still ⟨.refl h.tidy [], fun _ => id, fun _ => Or.inl⟩
  | outside o =>
    simp only [Course.act]
    split
    · rename_i hnames
      have hadmits := List.all_eq_true.1 hnames
      exact h.works (BackgroundLoop.moves_of_confined
        (h.tidy.outside fun i hi => (admits_iff.1 (hadmits i hi)).1)) hadmits
    · exact h.leads
  | take =>
    refine h.confined rfl rfl (h.tidy.confined_of_slots rfl rfl rfl rfl)
      (fun _ hi => absurd hi List.not_mem_nil) (fun _ => id) fun e he => Or.inl ?_
    rcases mem_events.1 he with ⟨x, hx, rfl⟩ | ⟨q, hq, rfl⟩ | ⟨q, hq, -⟩
    · exact mem_events_of_past hx
    · rcases List.mem_append.1 hq with hq | hq
      · exact mem_events_of_taken hq
      · exact mem_events_of_waiting hq
    · cases hq
  | handle now => exact h.handle now
  | progress now handled => exact h.still (BackgroundLoop.moves_progressed h.tidy now handled)
  | send now => exact h.still (BackgroundLoop.moves_sendAll h.tidy now)
  | drive now => exact h.still (BackgroundLoop.moves_driveNetwork h.tidy now)
  | sweep =>
    exact h.works (BackgroundLoop.moves_sweep h.tidy fun t ht => (admits_iff.1 (h.tracked t ht)).1)
      (hmap h.tracked)
  | stop timeout =>
    have hadmits : ∀ t ∈ c.loop.outstanding, c.admits t.slot = true := by
      intro t ht
      rcases List.mem_append.1 ht with ht | ht
      · exact h.tracked t ht
      · obtain ⟨q, hq, ht⟩ := List.mem_filterMap.1 ht
        exact h.admits_of_welcomes (h.events _ (mem_events_of_waiting hq)) ht
    exact h.works (BackgroundLoop.moves_cleanUp h.tidy
      (fun t ht => (admits_iff.1 (hadmits t ht)).1) timeout) (hmap hadmits)

end Course

end GroupConsumer
