import GroupConsumer.Proofs.Shutdown
import GroupConsumer.Proofs.Slot.Reach
import Mathlib.Data.Set.Card

/-!
# Both sweeps are exact

The failure of one ticket may complete the slots of others, before or after their turn, so that what a
sweep does to a ticket depends on the slots as they are when it gets there (`turns`). A sweep keeps the
tickets that it finds open with time left, in order, and one with time left that it does not find open any
more is linked to a ticket that it has failed before (`SweepsTo`). The final sweep keeps none
(`ShutsDown`). Either counts the slots on which its own failure has come first, each of them once.
-/

namespace GroupConsumer

namespace Slots

variable {s u : Slots Value Deferral} {f i : SlotId} {o : Outcome Value}

/-- A slot that is complete once another one has been completed is linked to that one. -/
theorem reaches_of_isDone_settle (hi : s.isPending i = true) (hd : (s.settle f o).isDone i = true) :
    s.Reaches (s.settle f o) f i := by
  have hm := s.marked_settle f o
  obtain ⟨o', ho⟩ := Option.isSome_iff_exists.1 hd
  have hfound : (i, o') ∈ s.search [] [(f, o)] := hm.mem_of_outcome? hi ho
  refine reaches_of_mem_search hfound (fun y hy => hm.outcome?_of_mem hy) (by simp) ?_
  intro y hy _
  rw [List.mem_singleton.1 hy]
  exact .start

theorem isPending_of_not_isDone (hp : s.isPending i = true) (hsize : u.cells.size = s.cells.size)
    (hd : u.isDone i = false) : u.isPending i = true := by
  rw [isPending_iff] at hp ⊢
  rw [isDone, Option.isSome_eq_false_iff, Option.isNone_iff_eq_none] at hd
  exact ⟨hsize ▸ hp.1, hd⟩

end Slots

/-- How far a deadline that has passed lies back, up to the largest number there is. -/
theorem toInt_overdue_of_le {now deadline : Int64} (h : deadline ≤ now) :
    (overdue now deadline).toInt = min (now.toInt - deadline.toInt) Int64.maxValue.toInt := by
  have hmin : Int64.minValue.toInt < 0 := by decide
  have hmax : 0 < Int64.maxValue.toInt := by decide
  rw [Int64.le_iff_toInt_le] at h
  rw [overdue, toInt_clamp]
  omega

namespace BackgroundLoop

/-- A loop that has nothing queued or under watch is not changed by a final sweep. -/
theorem finalSweep_of_empty {l : BackgroundLoop} (hq : l.queue = {}) (hr : l.reaper = {}) :
    l.finalSweep = l := by
  have hout : l.outstanding = [] := by
    rw [outstanding, hq, hr]
    rfl
  have hzero (m : Metrics) : m.addShutdownExpired 0 = m := by simp [Metrics.addShutdownExpired]
  rw [finalSweep_eq, hout, ← hq, ← hr]
  simp only [Reaper.written, Reaper.pass, List.foldl_nil, List.length_nil, hzero]
  rfl

end BackgroundLoop

namespace Reaper

/-- The tickets that a pass visits, each with the slots as they are when it gets there. -/
def turns (fault? : Ticket → Option Fault) :
    List Ticket → Slots Value Deferral → List (Ticket × Slots Value Deferral)
  | [], _ => []
  | t :: ts, s => (t, s) :: turns fault? ts (visit fault? s t)

/-- When a pass gets to the ticket `t`, it fails it with `f`, and comes first. -/
def Fails (fault? : Ticket → Option Fault) (ts : List Ticket) (s : Slots Value Deferral) (t : Ticket)
    (f : Fault) : Prop :=
  ∃ earlier later, ts = earlier ++ t :: later ∧ fault? t = some f ∧
    ((pass fault? earlier s).complete t.slot (.error f)).2 = true

/-- The slots on which a pass comes first. -/
def failed (fault? : Ticket → Option Fault) (ts : List Ticket) (s : Slots Value Deferral) : Set SlotId :=
  {i | ∃ t f, Fails fault? ts s t f ∧ t.slot = i}

variable {fault? : Ticket → Option Fault} {now : Int64} {ts : List Ticket} {t : Ticket}
  {s u : Slots Value Deferral} {i : SlotId} {f : Fault}

/-! ### What a pass does -/

theorem exists_fails_iff : (∃ t, Fails fault? ts s t f ∧ t.slot = i) ↔ Writes fault? ts s i f := by
  constructor
  · rintro ⟨t, ⟨earlier, later, hts, hf, hfirst⟩, rfl⟩
    rw [Slots.complete_snd] at hfirst
    exact ⟨earlier, t, later, hts, rfl, hf, hfirst⟩
  · rintro ⟨earlier, t, later, hts, rfl, hf, hp⟩
    refine ⟨t, ⟨earlier, later, hts, hf, ?_⟩, rfl⟩
    rwa [Slots.complete_snd]

/-- Whom a pass fails was open, and ends with that failure. -/
theorem Fails.outcome (h : Fails fault? ts s t f) :
    t ∈ ts ∧ s.outcome? t.slot = none ∧ (pass fault? ts s).outcome? t.slot = some (.error f) := by
  have hmem := mem_written.2 (exists_fails_iff.1 ⟨t, h, rfl⟩)
  have hwrote := wrote_pass fault? ts s
  obtain ⟨earlier, later, rfl, -, -⟩ := h
  exact ⟨by simp, hwrote.open_before _ _ hmem, hwrote.recorded _ _ hmem⟩

/-- As many slots are failed as there are entries in the list of what is written. -/
theorem ncard_failed (fault? : Ticket → Option Fault) (ts : List Ticket) (s : Slots Value Deferral) :
    (failed fault? ts s).ncard = (written fault? ts s).length := by
  have hset : failed fault? ts s = (((written fault? ts s).map Prod.fst).toFinset : Set SlotId) := by
    ext i
    have hi : i ∈ failed fault? ts s ↔ ∃ f, Writes fault? ts s i f := by
      simp only [← exists_fails_iff]
      exact exists_comm
    simp [hi, mem_written]
  rw [hset, Set.ncard_coe_finset, List.toFinset_card_of_nodup (wrote_pass fault? ts s).nodup,
    List.length_map]

theorem keeps_pass (fault? : Ticket → Option Fault) (ts : List Ticket) (s : Slots Value Deferral) :
    s.Keeps (pass fault? ts s) := (wrote_pass fault? ts s).keeps

theorem keeps_of_mem_turns (h : (t, u) ∈ turns fault? ts s) : s.Keeps u := by
  induction ts generalizing s with
  | nil => cases h
  | cons r ts ih =>
    obtain h | h := List.mem_cons.1 h
    · obtain ⟨rfl, rfl⟩ := Prod.mk.inj h
      exact Slots.Keeps.refl u
    · exact (keeps_pass fault? [r] s).trans (ih h)

/-- A slot that a pass completes is linked to the slot of a ticket that it has failed. -/
theorem exists_reaches_of_isDone_pass (hp : s.isPending i = true)
    (hd : (pass fault? ts s).isDone i = true) :
    ∃ before r after f, ts = before ++ r :: after ∧ Fails fault? ts s r f ∧
      (pass fault? before s).Reaches (pass fault? (before ++ [r]) s) r.slot i := by
  induction ts generalizing s with
  | nil =>
    rw [pass, List.foldl_nil] at hd
    rw [Slots.not_isPending_of_isDone hd] at hp
    cases hp
  | cons r ts ih =>
    by_cases hv : (visit fault? s r).isDone i = true
    · -- The first ticket completes it, so that its own slot was open.
      have hne : visit fault? s r ≠ s := by
        intro he
        rw [he] at hv
        rw [Slots.not_isPending_of_isDone hv] at hp
        cases hp
      have hopen : s.isPending r.slot = true := by
        by_contra hn
        exact hne (visit_of_not_isPending (Bool.eq_false_iff.2 hn))
      cases hf : fault? r with
      | none => exact absurd (visit_of_none hf) hne
      | some f =>
        refine ⟨[], r, ts, f, rfl, ⟨[], ts, rfl, hf, ?_⟩, ?_⟩
        · rw [Slots.complete_snd]
          exact hopen
        · show s.Reaches (visit fault? s r) r.slot i
          rw [visit_of_some hf] at hv ⊢
          exact Slots.reaches_of_isDone_settle hp hv
    · have hp' : (visit fault? s r).isPending i = true :=
        Slots.isPending_of_not_isDone hp (size_pass fault? [r] s) (Bool.eq_false_iff.2 hv)
      obtain ⟨before, q, after, f, rfl, ⟨earlier, later, hts, hf, hfirst⟩, hreach⟩ := ih hp' hd
      have hcons : r :: (before ++ q :: after) = (r :: earlier) ++ q :: later := by
        rw [hts, List.cons_append]
      exact ⟨r :: before, q, after, f, rfl, ⟨r :: earlier, later, hcons, hf, hfirst⟩, hreach⟩

/-! ### A sweep -/

/-- A ticket that a sweep keeps if its turn comes with the slots `u`. -/
def stays (now : Int64) (t : Ticket) (u : Slots Value Deferral) : Bool :=
  !u.isDone t.slot && decide (now < t.deadline)

/-- What a sweep at `now` over tickets makes of the slots `s`: the tickets that it keeps, the slots, and
its count. -/
structure SweepsTo (now : Int64) (ts : List Ticket) (s : Slots Value Deferral) (kept : List Ticket)
    (u : Slots Value Deferral) (count : Nat) : Prop where
  /-- What is open and due is complete afterwards, and not under watch any more. -/
  due : ∀ t ∈ ts, s.isPending t.slot = true → t.deadline ≤ now →
    u.isDone t.slot = true ∧ ∀ r ∈ kept, r.slot ≠ t.slot
  /-- What is complete keeps its outcome, and is not under watch any more. -/
  complete : ∀ t ∈ ts, ∀ o, s.outcome? t.slot = some o →
    u.outcome? t.slot = some o ∧ ∀ r ∈ kept, r.slot ≠ t.slot
  /-- What has time left and is open when its turn comes stays under watch, in order. -/
  kept : kept = ((turns (overdueFault? now) ts s).filter fun x => stays now x.1 x.2).map (·.1)
  /-- What has time left and is not open any more when its turn comes is linked to a ticket of another
  slot that the sweep has failed before. -/
  linked : ∀ earlier t later, ts = earlier ++ t :: later → s.isPending t.slot = true →
    now < t.deadline → (pass (overdueFault? now) earlier s).isDone t.slot = true →
    ∃ before r after f, earlier = before ++ r :: after ∧ r.slot ≠ t.slot ∧
      Fails (overdueFault? now) earlier s r f ∧
      (pass (overdueFault? now) before s).Reaches (pass (overdueFault? now) (before ++ [r]) s)
        r.slot t.slot
  counted : count = (failed (overdueFault? now) ts s).ncard
  /-- A failure that comes first says how long ago the deadline of the ticket was. -/
  timeouts : ∀ t f, Fails (overdueFault? now) ts s t f → t ∈ ts ∧ t.deadline ≤ now ∧
    s.outcome? t.slot = none ∧ u.outcome? t.slot = some (.error f) ∧
    ∃ late : Int64, f = .timeout t.describe late t.deadline ∧ 0 ≤ late ∧
      late.toInt = min (now.toInt - t.deadline.toInt) Int64.maxValue.toInt

theorem overdueFault?_of_le (h : t.deadline ≤ now) :
    overdueFault? now t = some (.expired t.describe now t.deadline) :=
  if_pos (Ticket.isDue_iff.2 h)

theorem overdueFault?_of_lt (h : now < t.deadline) : overdueFault? now t = none := by
  refine if_neg fun hdue => ?_
  exact Int64.not_le.2 h (Ticket.isDue_iff.1 hdue)

theorem overdueFault?_eq_some (h : overdueFault? now t = some f) :
    t.deadline ≤ now ∧ f = .expired t.describe now t.deadline := by
  by_cases hle : t.deadline ≤ now
  · rw [overdueFault?_of_le hle] at h
    exact ⟨hle, (Option.some.inj h).symm⟩
  · rw [overdueFault?_of_lt (Int64.not_le.1 hle)] at h
    cases h

/-- What a sweep keeps is decided ticket by ticket, each at its turn. -/
theorem kept_sweepList (now : Int64) (ts : List Ticket) (s : Slots Value Deferral) :
    (sweepList now ts s).kept =
      ((turns (overdueFault? now) ts s).filter fun x => stays now x.1 x.2).map (·.1) := by
  induction ts generalizing s with
  | nil => rfl
  | cons t ts ih =>
    rw [turns, List.filter_cons]
    unfold sweepList
    by_cases hd : s.isDone t.slot = true
    · rw [visit_of_not_isPending (Slots.not_isPending_of_isDone hd)]
      simp [stays, hd, ih]
    · by_cases hdue : t.deadline ≤ now
      · have hlast : ¬ now < t.deadline := Int64.not_lt.2 hdue
        rw [visit_of_some (overdueFault?_of_le hdue)]
        simp only [stays, hd, Ticket.isDue_iff.2 hdue, hlast, ih]
        rfl
      · have hleft : now < t.deadline := Int64.not_le.1 hdue
        rw [visit_of_none (overdueFault?_of_lt hleft)]
        simp [stays, hd, Ticket.isDue_iff, hdue, hleft, ih]

/-- What is complete beforehand is not kept. -/
theorem not_isDone_of_mem_kept (h : t ∈ (sweepList now ts s).kept) : s.isDone t.slot = false := by
  rw [kept_sweepList] at h
  obtain ⟨⟨t, u⟩, hx, rfl⟩ := List.mem_map.1 h
  obtain ⟨hturn, hopen⟩ := List.mem_filter.1 hx
  rw [Bool.eq_false_iff]
  intro hd
  simp [stays, (keeps_of_mem_turns hturn).isDone hd] at hopen

/-- A sweep over tickets of which each has a slot of its own is exact. -/
theorem sweepsTo_sweepList (now : Int64) (s : Slots Value Deferral)
    (hown : ∀ t ∈ ts, ∀ r ∈ ts, t.slot = r.slot → t = r) :
    SweepsTo now ts s (sweepList now ts s).kept (sweepList now ts s).slots (sweepList now ts s).count := by
  obtain ⟨hslots, hcount⟩ := sweepList_eq now ts s
  constructor
  case due =>
    intro t ht hp hdue
    have hkept : t ∉ (sweepList now ts s).kept := by
      intro hk
      exact Int64.not_lt.2 hdue (mem_kept_sweepList hk).2
    refine ⟨(isDone_or_mem_sweepList ht (Slots.isPending_iff.1 hp).1).resolve_right hkept, ?_⟩
    intro r hr hslot
    rw [hown r (mem_kept_sweepList hr).1 t ht hslot] at hr
    exact hkept hr
  case complete =>
    intro t ht o ho
    refine ⟨(expires_sweepList now ts s).keeps _ _ ho, ?_⟩
    intro r hr hslot
    have hopen := not_isDone_of_mem_kept hr
    rw [hslot, Slots.isDone_of_outcome ho] at hopen
    cases hopen
  case kept => exact kept_sweepList now ts s
  case linked =>
    rintro earlier t later rfl hp hleft hd
    obtain ⟨before, r, after, f, rfl, hr, hreach⟩ := exists_reaches_of_isDone_pass hp hd
    refine ⟨before, r, after, f, rfl, ?_, hr, hreach⟩
    intro hslot
    obtain ⟨-, -, -, hf, -⟩ := hr
    have hdue := (overdueFault?_eq_some hf).1
    rw [hown r (by simp) t (by simp) hslot] at hdue
    exact Int64.not_lt.2 hdue hleft
  case counted => rw [hcount, ncard_failed]
  case timeouts =>
    intro t f h
    obtain ⟨ht, hopen, hout⟩ := h.outcome
    obtain ⟨-, -, -, hf, -⟩ := h
    obtain ⟨hdue, rfl⟩ := overdueFault?_eq_some hf
    refine ⟨ht, hdue, hopen, ?_, overdue now t.deadline, rfl, ?_, toInt_overdue_of_le hdue⟩
    · rw [hslots]
      exact hout
    · exact of_decide_eq_true (Ticket.isDue_iff.2 hdue)

/-- A sweep does to each ticket what its deadline and its slot call for, however the slots are linked and
however often a ticket is under watch, and counts the slots that it has failed itself. The loop adds the
count to its metric. -/
theorem sweep_exact (r : Reaper) (now : Int64) (s : Slots Value Deferral)
    (hown : ∀ t ∈ r.tracked, ∀ q ∈ r.tracked, t.slot = q.slot → t = q) :
    let w := r.sweep now s
    SweepsTo now r.tracked s w.1.tracked w.2.1 w.2.2 ∧
      ∀ l : BackgroundLoop, l.reaper = r → l.session.clock = now → l.session.slots = s →
        l.sweep.reaper = w.1 ∧ l.sweep.session.slots = w.2.1 ∧
          l.sweep.session.metrics =
            { l.session.metrics with expired := l.session.metrics.expired + UInt64.ofNat w.2.2 } := by
  intro w
  refine ⟨sweepsTo_sweepList now s hown, ?_⟩
  rintro l rfl rfl rfl
  exact ⟨rfl, rfl, rfl⟩

/-- Slot 1 is complete. Slot 3 is under watch twice, and due; it has links to slot 0, which the sweep has
passed by then, and to slot 2, which it has not. -/
theorem sweep_exact_linked :
    let ticket (slot : SlotId) (deadline : Int64) : Ticket := ⟨"", 0, deadline, slot⟩
    let r : Reaper := ⟨[ticket 0 90, ticket 3 50, ticket 3 50, ticket 2 90, ticket 1 20, ticket 4 90]⟩
    let s : Slots Value Deferral :=
      ⟨#[{}, { outcome := some (.ok .done) }, {}, { listeners := [.relay 0 id, .relay 2 id] }, {}], #[]⟩
    (∀ t ∈ r.tracked, ∀ q ∈ r.tracked, t.slot = q.slot → t = q) ∧
      SweepsTo 50 r.tracked s (r.sweep 50 s).1.tracked (r.sweep 50 s).2.1 (r.sweep 50 s).2.2 ∧
      (r.sweep 50 s).1.tracked = [ticket 0 90, ticket 4 90] ∧ (r.sweep 50 s).2.2 = 1 := by
  intro ticket r s
  have hown : ∀ t ∈ r.tracked, ∀ q ∈ r.tracked, t.slot = q.slot → t = q := by decide
  refine ⟨hown, (sweep_exact r 50 s hown).1, ?_, ?_⟩
  · decide +kernel
  · decide +kernel

/-! ### The final sweep -/

/-- What the final sweep over tickets makes of the slots `s`, and its count. -/
structure ShutsDown (ts : List Ticket) (s u : Slots Value Deferral) (count : Nat) : Prop where
  done : ∀ t ∈ ts, t.slot < s.cells.size → u.isDone t.slot = true
  /-- What is complete keeps its outcome. -/
  keeps : s.Keeps u
  counted : count = (failed shutdownFault? ts s).ncard
  /-- A failure that comes first is that of the ticket. -/
  forced : ∀ t f, Fails shutdownFault? ts s t f → t ∈ ts ∧ s.outcome? t.slot = none ∧
    u.outcome? t.slot = some (.error f) ∧ f = .shutdownForced t.describe

theorem shutsDown_expireList (ts : List Ticket) (s : Slots Value Deferral) :
    ShutsDown ts s (expireList ts s).1 (expireList ts s).2 := by
  rw [expireList_eq]
  constructor
  case done =>
    intro t ht hslot
    exact isDone_pass_shutdownFault? (Or.inr ht) hslot
  case keeps => exact keeps_pass shutdownFault? ts s
  case counted => exact (ncard_failed shutdownFault? ts s).symm
  case forced =>
    intro t f h
    obtain ⟨ht, hopen, hout⟩ := h.outcome
    obtain ⟨-, -, -, hf, -⟩ := h
    exact ⟨ht, hopen, hout, (Option.some.inj hf).symm⟩

/-- Nothing is left to do for a second pass over tickets of which none is open. -/
theorem expireList_of_not_isPending (h : ∀ t ∈ ts, s.isPending t.slot = false) :
    expireList ts s = (s, 0) := by
  induction ts with
  | nil => rfl
  | cons t ts ih =>
    have ht := h t List.mem_cons_self
    have hts := ih fun r hr => h r (List.mem_cons_of_mem t hr)
    rw [expireList_eq, written_of_not_isPending ht, pass, List.foldl_cons, visit_of_not_isPending ht,
      ← pass, ← expireList_eq, hts]

/-- What a shutdown has been through is not open any more. -/
theorem ShutsDown.not_isPending {count : Nat} (h : ShutsDown ts s u count)
    (hsize : u.cells.size = s.cells.size) (ht : t ∈ ts) : u.isPending t.slot = false := by
  rw [Bool.eq_false_iff]
  intro hp
  have hslot : t.slot < s.cells.size := hsize ▸ (Slots.isPending_iff.1 hp).1
  rw [Slots.not_isPending_of_isDone (h.done t ht hslot)] at hp
  cases hp

/-- The final sweep leaves nothing open or under watch, whatever stands in the two lists, and counts the
slots that it has failed itself. A second one has nothing to do, even if it is given all tickets once
more. The loop takes all that is queued with it, and adds the count to its metric. -/
theorem expireAll_exact {E : Type} (ticket? : E → Option Ticket) (r : Reaper) (external : List E)
    (s : Slots Value Deferral) :
    let queued := external.filterMap ticket?
    let w := r.expireAll queued s
    w.1.tracked = [] ∧ ShutsDown (r.tracked ++ queued) s w.2.1 w.2.2 ∧
      w.1.expireAll [] w.2.1 = (w.1, w.2.1, 0) ∧ r.expireAll queued w.2.1 = (w.1, w.2.1, 0) ∧
      ∀ l : BackgroundLoop, l.reaper = r → l.session.slots = s →
        l.queue.waiting.filterMap (·.item.ticket?) = queued →
        l.finalSweep.reaper.tracked = [] ∧ l.finalSweep.queue.waiting = [] ∧
          l.finalSweep.session.slots = w.2.1 ∧
          l.finalSweep.session.metrics = { l.session.metrics with
            shutdownExpired := l.session.metrics.shutdownExpired + UInt64.ofNat w.2.2 } ∧
          l.finalSweep.finalSweep = l.finalSweep := by
  intro queued w
  have hdown : ShutsDown (r.tracked ++ queued) s w.2.1 w.2.2 := shutsDown_expireList _ s
  have hagain : expireList (r.tracked ++ queued) w.2.1 = (w.2.1, 0) := by
    refine expireList_of_not_isPending fun t ht => hdown.not_isPending ?_ ht
    show (expireList (r.tracked ++ queued) s).1.cells.size = s.cells.size
    rw [expireList_eq]
    exact size_pass shutdownFault? _ s
  refine ⟨rfl, hdown, rfl, ?_, ?_⟩
  · show (({}, (expireList (r.tracked ++ queued) w.2.1).1, (expireList (r.tracked ++ queued) w.2.1).2) :
      Reaper × Slots Value Deferral × Nat) = _
    rw [hagain]
    rfl
  · rintro l rfl rfl hqueued
    have hw : w.2 = (pass shutdownFault? l.outstanding l.session.slots,
        (written shutdownFault? l.outstanding l.session.slots).length) := by
      rw [← expireList_eq, BackgroundLoop.outstanding, hqueued]
      rfl
    have hqueue : l.finalSweep.queue = {} := by
      rw [BackgroundLoop.finalSweep_eq]
      rfl
    have hreaper : l.finalSweep.reaper = {} := by
      rw [BackgroundLoop.finalSweep_eq]
      rfl
    refine ⟨?_, ?_, ?_, ?_, BackgroundLoop.finalSweep_of_empty hqueue hreaper⟩
    · rw [hreaper]
    · rw [hqueue]
    · rw [BackgroundLoop.finalSweep_eq, hw]
      rfl
    · rw [BackgroundLoop.finalSweep_eq, hw]
      rfl

/-- Slot 0 is under watch twice and queued once more, and has a link to slot 2, which is queued. Slot 1 is
complete, and two of the events that are queued have no slot. -/
theorem expireAll_exact_overlapping :
    let ticket (slot : SlotId) : Ticket := ⟨"", 0, 9000, slot⟩
    let r : Reaper := ⟨[ticket 0, ticket 1, ticket 0]⟩
    let external : List AppEvent :=
      [.commitOnClose, .checkPositions (ticket 2), .checkPositions (ticket 0), .stopCoordinatorOnClose]
    let s : Slots Value Deferral :=
      ⟨#[{ listeners := [.relay 2 id] }, { outcome := some (.ok .done) }, {}], #[]⟩
    let l : BackgroundLoop :=
      { processor := { session := { slots := s } }, reaper := r, queue := ⟨external.map (⟨·, 0⟩)⟩ }
    let w := r.expireAll (external.filterMap (·.ticket?)) s
    ShutsDown (r.tracked ++ external.filterMap (·.ticket?)) s w.2.1 w.2.2 ∧ w.2.2 = 1 ∧
      l.finalSweep.session.slots = w.2.1 ∧ l.finalSweep.session.slots.isDone 2 = true := by
  intro ticket r external s l w
  obtain ⟨-, hdown, -, -, hloop⟩ := expireAll_exact AppEvent.ticket? r external s
  obtain ⟨-, -, hslots, -, -⟩ := hloop l rfl rfl rfl
  refine ⟨hdown, ?_, hslots, ?_⟩
  · decide +kernel
  · rw [hslots]
    decide +kernel

end Reaper

end GroupConsumer
