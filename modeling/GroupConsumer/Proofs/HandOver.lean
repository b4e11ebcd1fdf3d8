import GroupConsumer.Proofs.Backlog
import GroupConsumer.Proofs.Traffic

/-!
# What is queued is handed over

Nothing that is queued is lost, doubled or overtaken (`Queue.Traffic`). Background events are counted
besides: a gauge is to show how many wait, and a counter adds up how long they have waited. Here the two
threads go step by step (`Handler.Step`), and the metrics are written where the threads write them. An add
sends the event, looks up how many wait and then stores that number; a drain receives what waited when it
started and then stores zero. So the gauge shows what was true when the number was looked up, and is wrong
if items have come or gone between the two; the counter is always right. The gauge of the application
queue is right from one round of the loop to the next, and is not set any more when the loop closes
(`handed_over`). Both gauges can go wrong (`gauges_mislead`).
-/

namespace GroupConsumer

namespace Queued

variable {α : Type}

/-- How long an item has waited by `now`; not at all if the clock has been set back meanwhile. -/
def waited (now : Int64) (q : Queued α) : Nat := (now.toInt - q.enqueued.toInt).toNat

/-- The difference between `now` and the time at which an item was queued is a 64-bit number. -/
def Measured (now : Int64) (q : Queued α) : Prop :=
  Int64.minValue.toInt ≤ now.toInt - q.enqueued.toInt ∧
    now.toInt - q.enqueued.toInt ≤ Int64.maxValue.toInt

instance (now : Int64) (q : Queued α) : Decidable (q.Measured now) :=
  inferInstanceAs (Decidable (_ ∧ _))

end Queued

namespace Metrics

/-- A counter counts what has been added to it, up to whole rounds of 64 bits. -/
theorem toNat_addBackgroundTime {α : Type} {q : Queued α} {now : Int64} (hq : q.Measured now)
    (m : Metrics) : (m.addBackgroundTime (now - q.enqueued)).backgroundTime.toNat =
      (m.backgroundTime.toNat + q.waited now) % UInt64.size := by
  obtain ⟨hlow, hhigh⟩ := hq
  have hmin : Int64.minValue.toInt = -2 ^ 63 := rfl
  have hmax : Int64.maxValue.toInt = 2 ^ 63 - 1 := rfl
  have hsub : (now - q.enqueued).toInt = now.toInt - q.enqueued.toInt := by
    rw [Int64.toInt_sub, Int.bmod_eq_of_le]
    · omega
    · omega
  have hpos : 0 ≤ max (now - q.enqueued) 0 := by
    rw [Int64.le_iff_toInt_le, toInt_max, Int64.toInt_zero]
    omega
  have hwait : (max (now - q.enqueued) 0).toUInt64.toNat = q.waited now := by
    rw [Int64.toNat_toUInt64_of_le hpos, ← Int64.toNat_toInt, toInt_max, hsub, Int64.toInt_zero,
      Queued.waited]
    omega
  rw [addBackgroundTime, UInt64.toNat_add, hwait]

/-- The metrics after background events have been taken at `now`. -/
def countTaken (m : Metrics) (now : Int64) (row : List (Queued BackgroundEvent)) : Metrics :=
  row.foldl (fun m q => m.addBackgroundTime (now - q.enqueued)) m

theorem backgroundSize_countTaken (m : Metrics) (now : Int64) (row : List (Queued BackgroundEvent)) :
    (m.countTaken now row).backgroundSize = m.backgroundSize := by
  induction row generalizing m with
  | nil => rfl
  | cons q row ih => exact ih (m.addBackgroundTime (now - q.enqueued))

end Metrics

/-- The background events on their way from the threads that add them to the one that drains them. -/
structure Handler where
  traffic : Queue.Traffic BackgroundEvent := {}
  clock : Int64 := 0
  metrics : Metrics := {}
  /-- How many items waited when a thread that adds has last looked. -/
  looked : Nat → Nat := fun _ => 0
  /-- How many of the drains that have returned are counted and over. -/
  finished : Nat := 0
  /-- The events of these drains, each with the time at which it was counted. -/
  taken : List (Int64 × Queued BackgroundEvent) := []

namespace Handler

/-- A single step of one of the threads, or of the clock. -/
inductive Step where
  /-- An add stamps an event with the time and sends it. -/
  | send (e : BackgroundEvent)
  /-- The add of a thread looks up how many items wait. -/
  | measure (thread : Nat)
  /-- The add of a thread stores what it has looked up, and is over. -/
  | store (thread : Nat)
  /-- A drain starts and looks up how many items wait. -/
  | look
  /-- The drain under way receives an item. -/
  | receive
  /-- The drain that has received everything reads the clock, stores zero, counts how long its events
  have waited, and is over. -/
  | finish
  | setClock (now : Int64)
deriving DecidableEq

/-- The drain that has returned and is not over yet. -/
def uncounted? (h : Handler) : Option (List (Queued BackgroundEvent)) := h.traffic.returned[h.finished]?

/-- What a step does with the queue. There is one thread that drains, so that a drain is over before the
next one starts. -/
def operation? (h : Handler) : Step → Option (Queue.Operation BackgroundEvent)
  | .send e => some (.add e h.clock)
  | .look => if h.uncounted?.isSome then none else some .look
  | .receive => some .receive
  | .measure _ | .store _ | .finish | .setClock _ => none

/-- The handler after a step. -/
def step (h : Handler) (x : Step) : Handler :=
  let h := { h with traffic := h.traffic.after (h.operation? x).toList }
  match x with
  | .measure k => { h with looked := fun j => if j = k then h.traffic.queue.depth else h.looked j }
  | .store k => { h with metrics := h.metrics.withBackgroundSize (h.looked k) }
  | .finish =>
    match h.uncounted? with
    | some row =>
      { h with
        finished := h.finished + 1
        taken := h.taken ++ row.map (h.clock, ·)
        metrics := (h.metrics.withBackgroundSize 0).countTaken h.clock row }
    | none => h
  | .setClock now => { h with clock := now }
  | .send _ | .look | .receive => h

/-- The handler after a row of steps. -/
def after (h : Handler) (xs : List Step) : Handler := xs.foldl step h

/-- What a row of steps does with the queue. -/
def operations : Handler → List Step → List (Queue.Operation BackgroundEvent)
  | _, [] => []
  | h, x :: xs => (h.operation? x).toList ++ operations (h.step x) xs

/-- The events that a row of steps sends, each with the time at which it is sent. -/
def sent (h : Handler) (xs : List Step) : List (Queued BackgroundEvent) :=
  Queue.added (h.operations xs)

/-- How many items wait. -/
def depth (h : Handler) : Nat := h.traffic.queue.depth

/-- What the gauge shows. -/
def gauge (h : Handler) : UInt64 := h.metrics.backgroundSize

/-- No drain is under way, and all that have returned are over. -/
def Idle (h : Handler) : Prop := h.traffic.underway = none ∧ h.finished = h.traffic.returned.length

instance (h : Handler) : Decidable h.Idle :=
  inferInstanceAs (Decidable (_ ∧ _))

/-- How long events have waited altogether until they were taken. -/
def totalWait : List (Int64 × Queued BackgroundEvent) → Nat
  | [] => 0
  | (now, q) :: es => q.waited now + totalWait es

theorem totalWait_append (es fs : List (Int64 × Queued BackgroundEvent)) :
    totalWait (es ++ fs) = totalWait es + totalWait fs := by
  induction es with
  | nil => simp [totalWait]
  | cons e es ih =>
    simp only [List.cons_append, totalWait, ih]
    omega

variable {h : Handler}

/-! ### The queue of a handler -/

theorem traffic_step (h : Handler) (x : Step) :
    (h.step x).traffic = h.traffic.after (h.operation? x).toList := by
  cases x with
  | finish =>
    unfold step
    simp only
    split
    · rfl
    · rfl
  | send e => rfl
  | measure k => rfl
  | store k => rfl
  | look => rfl
  | receive => rfl
  | setClock now => rfl

/-- The queue goes through the operations that the steps come to. -/
theorem traffic_after (h : Handler) (xs : List Step) :
    (h.after xs).traffic = h.traffic.after (h.operations xs) := by
  induction xs generalizing h with
  | nil => rfl
  | cons x xs ih =>
    show ((h.step x).after xs).traffic = _
    rw [ih, traffic_step, operations, Queue.Traffic.after_append]

/-! ### Drains are counted one by one -/

theorem uncounted?_isSome_iff : h.uncounted?.isSome ↔ h.finished < h.traffic.returned.length := by
  simp [uncounted?]

theorem step_finish {row : List (Queued BackgroundEvent)} (hrow : h.uncounted? = some row) :
    h.step .finish =
      { h with
        finished := h.finished + 1
        taken := h.taken ++ row.map (h.clock, ·)
        metrics := (h.metrics.withBackgroundSize 0).countTaken h.clock row } := by
  show (match h.uncounted? with | some row => _ | none => _) = _
  rw [hrow]
  rfl

theorem step_finish_of_none (hrow : h.uncounted? = none) : h.step .finish = h := by
  show (match h.uncounted? with | some row => _ | none => _) = _
  rw [hrow]
  rfl

/-- A step counts the drain that has returned, or leaves the books alone. -/
theorem step_cases (h : Handler) (x : Step) :
    (∃ row, x = .finish ∧ h.uncounted? = some row) ∨
      ((h.step x).finished = h.finished ∧ (h.step x).taken = h.taken ∧
        (h.step x).metrics.backgroundTime = h.metrics.backgroundTime) := by
  cases x with
  | finish =>
    cases hrow : h.uncounted? with
    | none =>
      rw [step_finish_of_none hrow]
      exact Or.inr ⟨rfl, rfl, rfl⟩
    | some row => exact Or.inl ⟨row, rfl, rfl⟩
  | send e => exact Or.inr ⟨rfl, rfl, rfl⟩
  | measure k => exact Or.inr ⟨rfl, rfl, rfl⟩
  | store k => exact Or.inr ⟨rfl, rfl, rfl⟩
  | look => exact Or.inr ⟨rfl, rfl, rfl⟩
  | receive => exact Or.inr ⟨rfl, rfl, rfl⟩
  | setClock now => exact Or.inr ⟨rfl, rfl, rfl⟩

/-- At most one drain has returned and is not over, and then none is under way. -/
structure Sound (h : Handler) : Prop where
  le : h.finished ≤ h.traffic.returned.length
  le_succ : h.traffic.returned.length ≤ h.finished + 1
  idle : h.finished < h.traffic.returned.length → h.traffic.underway = none

/-- While a drain is to be counted, none is under way and none starts. -/
theorem Sound.step_uncounted (hs : h.Sound) (hlt : h.finished < h.traffic.returned.length) (x : Step) :
    (h.step x).traffic.underway = none ∧ (h.step x).traffic.returned = h.traffic.returned := by
  rw [traffic_step]
  cases hop : h.operation? x with
  | none => exact ⟨hs.idle hlt, rfl⟩
  | some op =>
    refine Queue.Traffic.operate_of_idle (hs.idle hlt) ?_
    rintro rfl
    cases x with
    | look =>
      rw [operation?, if_pos (uncounted?_isSome_iff.2 hlt)] at hop
      cases hop
    | _ => cases hop

theorem Sound.step (hs : h.Sound) (x : Step) : (h.step x).Sound := by
  obtain ⟨row, rfl, hrow⟩ | ⟨hfin, -, -⟩ := h.step_cases x
  · have hlt : h.finished < h.traffic.returned.length := by
      rw [← uncounted?_isSome_iff, hrow]
      rfl
    rw [step_finish hrow]
    exact ⟨hlt, Nat.le_succ_of_le hs.le_succ, fun _ => hs.idle hlt⟩
  · by_cases hlt : h.finished < h.traffic.returned.length
    · obtain ⟨hidle, hret⟩ := hs.step_uncounted hlt x
      refine ⟨?_, ?_, fun _ => hidle⟩
      · rw [hfin, hret]
        exact hs.le
      · rw [hfin, hret]
        exact hs.le_succ
    · have heq : h.finished = h.traffic.returned.length := by have := hs.le; omega
      have hcases : (h.step x).traffic.returned = h.traffic.returned ∨
          (h.step x).traffic.underway = none ∧
            (h.step x).traffic.returned.length = h.traffic.returned.length + 1 := by
        rw [traffic_step]
        cases h.operation? x with
        | none => exact Or.inl rfl
        | some op => exact h.traffic.returned_operate_cases op
      obtain hret | ⟨hidle, hret⟩ := hcases
      · refine ⟨?_, ?_, ?_⟩ <;> rw [hfin, hret] <;> omega
      · refine ⟨?_, ?_, fun _ => hidle⟩ <;> rw [hfin, hret] <;> omega

/-- What every step keeps holds after a row of steps. -/
theorem after_induction {P : Handler → Prop} (step : ∀ h x, P h → P (h.step x)) (hp : P h)
    (xs : List Step) : P (h.after xs) := by
  induction xs generalizing h with
  | nil => exact hp
  | cons x xs ih => exact ih (step h x hp)

theorem Sound.after (hs : h.Sound) (xs : List Step) : (h.after xs).Sound :=
  after_induction (fun _ x hs => hs.step x) hs xs

theorem sound_empty : ({} : Handler).Sound := by
  refine ⟨Nat.le_refl 0, Nat.zero_le 1, ?_⟩
  intro _
  rfl

/-- What is counted is what the drains that are over have returned. -/
def Booked (h : Handler) : Prop :=
  h.taken.map (·.2) = (h.traffic.returned.take h.finished).flatten

theorem Booked.step (hs : h.Sound) (hb : h.Booked) (x : Step) : (h.step x).Booked := by
  obtain ⟨row, rfl, hrow⟩ | ⟨hfin, htaken, -⟩ := h.step_cases x
  · have htake : h.traffic.returned.take (h.finished + 1) =
        h.traffic.returned.take h.finished ++ [row] := by
      rw [uncounted?] at hrow
      rw [List.take_add_one, hrow]
      rfl
    rw [Booked] at hb ⊢
    rw [step_finish hrow, htake]
    simp [hb, Function.comp_def]
  · obtain ⟨later, hlater⟩ : h.traffic.returned <+: (h.step x).traffic.returned := by
      rw [traffic_step]
      exact h.traffic.prefix_returned_after _
    rw [Booked, hfin, htaken, ← hlater, List.take_append_of_le_length hs.le]
    exact hb

theorem Booked.after (hs : h.Sound) (hb : h.Booked) (xs : List Step) : (h.after xs).Booked := by
  have hboth : (h.after xs).Sound ∧ (h.after xs).Booked :=
    after_induction (P := fun u => u.Sound ∧ u.Booked)
      (fun _ x hu => ⟨hu.1.step x, hu.2.step hu.1 x⟩) ⟨hs, hb⟩ xs
  exact hboth.2

/-- The events of the drain that is to be counted. -/
def uncounted (h : Handler) : List (Queued BackgroundEvent) := (h.traffic.returned.drop h.finished).flatten

/-- Every event that is sent is counted, is to be counted, has been received or waits, in this order. -/
theorem taken_append (xs : List Step) :
    let u := ({} : Handler).after xs
    u.taken.map (·.2) ++ u.uncounted ++ u.traffic.received ++ u.traffic.queue.waiting =
      ({} : Handler).sent xs := by
  intro u
  have hbooked : u.Booked := Booked.after sound_empty rfl xs
  have hall : u.traffic.handled = ({} : Handler).sent xs := by
    rw [traffic_after, Queue.Traffic.handled_after]
    rfl
  rw [Booked] at hbooked
  rw [hbooked, uncounted, ← List.flatten_append, List.take_append_drop]
  exact hall

/-! ### The counter -/

/-- The counter after events have been taken. -/
theorem toNat_countTaken {now : Int64} {row : List (Queued BackgroundEvent)}
    (hrow : ∀ q ∈ row, q.Measured now) (m : Metrics) :
    (m.countTaken now row).backgroundTime.toNat =
      (m.backgroundTime.toNat + totalWait (row.map (now, ·))) % UInt64.size := by
  induction row generalizing m with
  | nil =>
    rw [List.map_nil, totalWait, Nat.add_zero, Nat.mod_eq_of_lt m.backgroundTime.toNat_lt]
    rfl
  | cons q row ih =>
    have hq : q.Measured now := hrow q List.mem_cons_self
    have hrest : ∀ r ∈ row, r.Measured now := by
      intro r hr
      exact hrow r (List.mem_cons_of_mem q hr)
    show ((m.addBackgroundTime (now - q.enqueued)).countTaken now row).backgroundTime.toNat = _
    rw [ih hrest, Metrics.toNat_addBackgroundTime hq, List.map_cons, totalWait, Nat.mod_add_mod,
      Nat.add_assoc]

/-- The counter adds up how long the events that are taken have waited. -/
def Counted (h : Handler) : Prop :=
  (∀ e ∈ h.taken, e.2.Measured e.1) →
    h.metrics.backgroundTime.toNat = totalWait h.taken % UInt64.size

theorem Counted.step (hc : h.Counted) (x : Step) : (h.step x).Counted := by
  obtain ⟨row, rfl, hrow⟩ | ⟨-, htaken, htime⟩ := h.step_cases x
  · rw [step_finish hrow]
    intro hm
    have hbefore : ∀ e ∈ h.taken, e.2.Measured e.1 := by
      intro e he
      exact hm e (List.mem_append_left _ he)
    have hnow : ∀ q ∈ row, q.Measured h.clock := by
      intro q hq
      exact hm (h.clock, q) (List.mem_append_right _ (List.mem_map.2 ⟨q, hq, rfl⟩))
    show ((h.metrics.withBackgroundSize 0).countTaken h.clock row).backgroundTime.toNat =
      totalWait (h.taken ++ row.map (h.clock, ·)) % UInt64.size
    rw [toNat_countTaken hnow, totalWait_append]
    show (h.metrics.backgroundTime.toNat + _) % _ = _
    rw [hc hbefore, Nat.mod_add_mod]
  · rw [Counted, htaken, htime]
    exact hc

theorem Counted.after (hc : h.Counted) (xs : List Step) : (h.after xs).Counted :=
  after_induction (fun _ x hc => hc.step x) hc xs

/-! ### The gauge -/

/-- How many items have been received so far. -/
def gone (h : Handler) : Nat := h.traffic.gone

theorem gone_add_depth (h : Handler) (xs : List Step) :
    (h.after xs).gone + (h.after xs).depth = h.gone + h.depth + (h.sent xs).length := by
  rw [gone, depth, traffic_after]
  exact h.traffic.depth_after (h.operations xs)

theorem after_append (h : Handler) (xs ys : List Step) : h.after (xs ++ ys) = (h.after xs).after ys :=
  List.foldl_append

theorem looked_step {k : Nat} {x : Step} (hx : x ≠ .measure k) : (h.step x).looked k = h.looked k := by
  cases x with
  | measure j =>
    have hne : k ≠ j := by
      rintro rfl
      exact hx rfl
    exact if_neg hne
  | finish =>
    cases hrow : h.uncounted? with
    | none => rw [step_finish_of_none hrow]
    | some row => rw [step_finish hrow]
  | send e => rfl
  | store j => rfl
  | look => rfl
  | receive => rfl
  | setClock now => rfl

/-- What a thread has looked up stays until it looks again. -/
theorem looked_after {k : Nat} {xs : List Step} (hxs : .measure k ∉ xs) :
    (h.after xs).looked k = h.looked k := by
  induction xs generalizing h with
  | nil => rfl
  | cons x xs ih =>
    rw [List.mem_cons, not_or] at hxs
    obtain ⟨hx, hrest⟩ := hxs
    exact (ih hrest).trans (looked_step (Ne.symm hx))

/-- An add shows how many items waited when it looked, whatever happens before it stores that number. -/
theorem gauge_of_add {k : Nat} {meanwhile : List Step} (hk : .measure k ∉ meanwhile) :
    (h.after (.measure k :: meanwhile ++ [.store k])).gauge = UInt64.ofNat h.depth := by
  have hlooked : ((h.step (.measure k)).after meanwhile).looked k = h.depth :=
    (looked_after hk).trans (if_pos rfl)
  rw [after_append]
  show UInt64.ofNat (((h.step (.measure k)).after meanwhile).looked k) = _
  rw [hlooked]

theorem finished_after {xs : List Step} (hxs : .finish ∉ xs) : (h.after xs).finished = h.finished := by
  induction xs generalizing h with
  | nil => rfl
  | cons x xs ih =>
    rw [List.mem_cons, not_or] at hxs
    obtain ⟨hx, hrest⟩ := hxs
    refine (ih hrest).trans ?_
    obtain ⟨row, rfl, -⟩ | ⟨hfin, -, -⟩ := h.step_cases x
    · exact absurd rfl hx
    · exact hfin

theorem receipts_operations (h : Handler) (xs : List Step) :
    Queue.receipts (h.operations xs) = xs.count .receive := by
  induction xs generalizing h with
  | nil => rfl
  | cons x xs ih =>
    have hone : Queue.receipts (h.operation? x).toList = [x].count .receive := by
      cases x with
      | look =>
        rw [operation?]
        cases h.uncounted?.isSome <;> rfl
      | _ => rfl
    rw [operations, Queue.receipts, List.countP_append, ← Queue.receipts, ← Queue.receipts, hone, ih,
      ← List.count_append, List.singleton_append]

theorem Idle.sound (hi : h.Idle) : h.Sound := by
  obtain ⟨hidle, hfin⟩ := hi
  exact ⟨Nat.le_of_eq hfin, by omega, fun _ => hidle⟩

theorem Idle.operation?_look (hi : h.Idle) : h.operation? .look = some .look := by
  have hnone : ¬ h.uncounted?.isSome := by
    rw [uncounted?_isSome_iff, hi.2]
    exact Nat.lt_irrefl _
  rw [operation?, if_neg hnone]

theorem Idle.operations_look (hi : h.Idle) (xs : List Step) :
    h.operations (.look :: xs) = .look :: (h.step .look).operations xs := by
  rw [operations, hi.operation?_look]
  rfl

/-- A drain has returned what waited when it started once it has received as many items. -/
theorem Idle.returned_after (hi : h.Idle) {meanwhile : List Step} (hf : .finish ∉ meanwhile)
    (hr : h.depth ≤ meanwhile.count .receive) :
    (h.after (.look :: meanwhile)).finished = h.traffic.returned.length ∧
      (h.after (.look :: meanwhile)).traffic.returned =
        h.traffic.returned ++ [h.traffic.queue.waiting] := by
  have hfin : (h.after (.look :: meanwhile)).finished = h.traffic.returned.length := by
    have hlook : (h.step .look).finished = h.finished := rfl
    exact ((finished_after hf).trans hlook).trans hi.2
  have hcount : h.traffic.queue.depth ≤ Queue.receipts ((h.step .look).operations meanwhile) := by
    rw [receipts_operations]
    exact hr
  obtain ⟨later, hret⟩ := (Queue.Traffic.returned_after_look hi.1 _).2 hcount
  rw [← hi.operations_look, ← traffic_after] at hret
  -- a second drain cannot have started, so that nothing has been returned behind the first one
  have hlast : later = [] := by
    have hlen := (hi.sound.after (.look :: meanwhile)).le_succ
    rw [hfin, hret, List.length_append, List.length_cons] at hlen
    exact List.eq_nil_of_length_eq_zero (by omega)
  rw [hlast] at hret
  exact ⟨hfin, hret⟩

/-- A drain that is over has returned what waited when it started, and the gauge shows zero, although all
that has been sent meanwhile waits. -/
theorem Idle.after_drain (hi : h.Idle) {meanwhile : List Step} (hf : .finish ∉ meanwhile)
    (hr : h.depth ≤ meanwhile.count .receive) :
    let xs := .look :: meanwhile ++ [.finish]
    (h.after xs).Idle ∧ (h.after xs).gauge = 0 ∧ (h.after xs).traffic.queue.waiting = h.sent xs ∧
      (h.after xs).traffic.returned = h.traffic.returned ++ [h.traffic.queue.waiting] := by
  intro xs
  let v := h.after (.look :: meanwhile)
  obtain ⟨hfin, hret⟩ := hi.returned_after hf hr
  have hrow : v.uncounted? = some h.traffic.queue.waiting := by
    rw [uncounted?, hfin, hret]
    exact List.getElem?_concat_length
  have hlt : v.finished < v.traffic.returned.length := by
    rw [← uncounted?_isSome_iff, hrow]
    rfl
  have hover : h.after xs = v.step .finish := h.after_append (.look :: meanwhile) [.finish]
  have htraffic : (h.after xs).traffic = v.traffic := by
    rw [hover, step_finish hrow]
  have hidle : v.traffic.underway = none := (hi.sound.after _).idle hlt
  refine ⟨⟨?_, ?_⟩, ?_, ?_, ?_⟩
  · rw [htraffic]
    exact hidle
  · rw [htraffic, hret, hover, step_finish hrow, List.length_append, List.length_singleton]
    exact congrArg (· + 1) hfin
  · rw [hover, step_finish hrow]
    exact Metrics.backgroundSize_countTaken _ _ _
  · -- what waited before has been returned, so that of all that has been handled this is what is left
    have hall := h.traffic.handled_after (h.operations xs)
    have hbefore : h.traffic.received = [] := by rw [Queue.Traffic.received, hi.1]; rfl
    have hafter : v.traffic.received = [] := by rw [Queue.Traffic.received, hidle]; rfl
    rw [← traffic_after, htraffic, Queue.Traffic.handled, Queue.Traffic.handled, hbefore, hafter, hret,
      List.flatten_append, List.flatten_singleton, List.append_nil, List.append_nil] at hall
    rw [htraffic]
    exact List.append_cancel_left hall
  · rw [htraffic, hret]

/-! ### Without interruption -/

/-- A session with what a handler shares with it. -/
def onto (h : Handler) (s : Session) : Session :=
  { s with background := h.traffic.queue, clock := h.clock, metrics := h.metrics }

/-- An add that nothing interrupts publishes its event. -/
theorem onto_after_add (h : Handler) (s : Session) (e : BackgroundEvent) (k : Nat) :
    (h.after [.send e, .measure k, .store k]).onto s = (h.onto s).publish e := by
  have hadd : (h.after [.send e, .measure k, .store k]).metrics =
      h.metrics.withBackgroundSize (h.traffic.queue.add e h.clock).depth :=
    congrArg h.metrics.withBackgroundSize (if_pos rfl)
  rw [onto, hadd]
  rfl

theorem after_receipts (h : Handler) (n : Nat) :
    h.after (List.replicate n .receive) =
      { h with traffic := h.traffic.after (List.replicate n .receive) } := by
  induction n generalizing h with
  | zero => rfl
  | succ n ih => exact ih (h.step .receive)

theorem Idle.after_look_receipts (hi : h.Idle) :
    h.after (.look :: List.replicate h.depth .receive) =
      { h with traffic :=
        { queue := h.traffic.queue.drain.2
          returned := h.traffic.returned ++ [h.traffic.queue.drain.1] } } := by
  have hlook : h.step .look = { h with traffic := h.traffic.operate .look } := by
    show { h with traffic := h.traffic.after (h.operation? .look).toList } = _
    rw [hi.operation?_look]
    rfl
  show (h.step .look).after (List.replicate h.depth .receive) = _
  rw [hlook, after_receipts]
  exact congrArg (fun traffic => { h with traffic }) (Queue.Traffic.after_drain hi.1)

/-- A drain that nothing interrupts takes what the session drains. -/
theorem Idle.onto_after_drain (hi : h.Idle) (s : Session) :
    let u := h.after (.look :: List.replicate h.depth .receive ++ [.finish])
    u.onto s = (h.onto s).drainBackground.1 ∧
      u.traffic.returned.map (·.map (·.item)) =
        h.traffic.returned.map (·.map (·.item)) ++ [(h.onto s).drainBackground.2] := by
  intro u
  let v := h.after (.look :: List.replicate h.depth .receive)
  have hv : v = { h with traffic := ⟨h.traffic.queue.drain.2, none, _⟩ } := hi.after_look_receipts
  have hrow : v.uncounted? = some h.traffic.queue.drain.1 := by
    rw [uncounted?, hv, hi.2]
    exact List.getElem?_concat_length
  have hu : u = v.step .finish := h.after_append _ [.finish]
  rw [hu, step_finish hrow, hv, List.map_append]
  exact ⟨rfl, rfl⟩

end Handler

/-- However adds, through any clones of a queue, and the steps of a single drainer are interleaved, what
the drains have returned, what the one under way has received and what still waits is, in this order, what
was added. A drain that starts returns what waits then, once it has received as many items, and takes what
the queue gives when nothing interrupts it.

With background events the counter always tells how long all that were taken have waited, up to whole
rounds of 64 bits. The gauge shows after an add how many waited when the add looked, and so how many wait if
as many have been received as sent until it stored the number; after a drain it shows zero, and so how many
wait if none has been sent since the drain has started. Adds and drains that nothing interrupts do what a
session does when it publishes and drains.

However a loop has been run, the gauge of the application queue shows how many events wait; once the loop
has closed none does, and the gauge shows how many did before. -/
theorem handed_over {α : Type} :
    (∀ ops : List (Queue.Operation α),
      let t : Queue.Traffic α := Queue.Traffic.after {} ops
      t.returned.flatten ++ t.received ++ t.queue.waiting = Queue.added ops ∧
        (t.underway = none →
          (∀ more,
            (Queue.receipts more < t.queue.depth →
              (t.after (.look :: more)).returned = t.returned) ∧
            (t.queue.depth ≤ Queue.receipts more → ∃ later,
              (t.after (.look :: more)).returned = t.returned ++ t.queue.waiting :: later)) ∧
          t.after (.look :: List.replicate t.queue.depth .receive) =
            { queue := t.queue.drain.2, returned := t.returned ++ [t.queue.drain.1] })) ∧
    (∀ steps : List Handler.Step,
      let h : Handler := Handler.after {} steps
      h.taken.map (·.2) ++ h.uncounted ++ h.traffic.received ++ h.traffic.queue.waiting =
          Handler.sent {} steps ∧
        ((∀ e ∈ h.taken, e.2.Measured e.1) →
          h.metrics.backgroundTime.toNat = Handler.totalWait h.taken % UInt64.size) ∧
        (∀ k meanwhile, .measure k ∉ meanwhile →
          let xs : List Handler.Step := .measure k :: meanwhile ++ [.store k]
          (h.after xs).gauge = UInt64.ofNat h.depth ∧
            (h.after xs).gone + (h.after xs).depth = h.gone + h.depth + (h.sent xs).length) ∧
        (h.Idle →
          (∀ meanwhile, .finish ∉ meanwhile → h.depth ≤ meanwhile.count .receive →
            let xs : List Handler.Step := .look :: meanwhile ++ [.finish]
            (h.after xs).Idle ∧ (h.after xs).gauge = 0 ∧
              (h.after xs).traffic.queue.waiting = h.sent xs ∧
              (h.after xs).traffic.returned = h.traffic.returned ++ [h.traffic.queue.waiting]) ∧
          ∀ s : Session,
            let xs : List Handler.Step := .look :: List.replicate h.depth .receive ++ [.finish]
            (h.after xs).onto s = (h.onto s).drainBackground.1 ∧
              (h.after xs).traffic.returned.map (·.map (·.item)) =
                h.traffic.returned.map (·.map (·.item)) ++ [(h.onto s).drainBackground.2]) ∧
        ∀ (s : Session) (e : BackgroundEvent) (k : Nat),
          (h.after [.send e, .measure k, .store k]).onto s = (h.onto s).publish e) ∧
    ∀ (u : Setup) (inGroup : Bool) (maxPollWait timeout : Int64) (as : List LoopAction),
      let l := (u.loop inGroup maxPollWait).run as
      l.gauge = UInt64.ofNat l.queue.depth ∧ (l.cleanUp timeout).queue.waiting = [] ∧
        (l.cleanUp timeout).gauge = UInt64.ofNat l.queue.depth := by
  refine ⟨?_, ?_, ?_⟩
  · intro ops t
    have hnil : (({} : Queue.Traffic α).after ops).handled = [] ++ Queue.added ops :=
      Queue.Traffic.handled_after {} ops
    refine ⟨hnil, ?_⟩
    intro hidle
    exact ⟨Queue.Traffic.returned_after_look hidle, Queue.Traffic.after_drain hidle⟩
  · intro steps h
    refine ⟨Handler.taken_append steps, ?_, ?_, ?_, ?_⟩
    · have hcounted : ({} : Handler).Counted := by
        intro _
        rfl
      exact hcounted.after steps
    · intro k meanwhile hk xs
      exact ⟨Handler.gauge_of_add hk, h.gone_add_depth xs⟩
    · intro hi
      refine ⟨?_, hi.onto_after_drain⟩
      intro meanwhile hf hr
      exact hi.after_drain hf hr
    · exact h.onto_after_add
  · intro u inGroup maxPollWait timeout as l
    have hstart : (u.loop inGroup maxPollWait).Shows := rfl
    have hshows : l.Shows := BackgroundLoop.shows_run hstart (u.steady inGroup) as
    obtain ⟨hempty, hgauge⟩ := l.backlog_cleanUp timeout
    exact ⟨hshows, hempty, hgauge.trans hshows⟩

/-- An item comes in while a drain is under way, and waits for the next one. Two events are taken, one
after three milliseconds and the other after the clock has been set back; a third is sent meanwhile, and
waits while the gauge shows zero. -/
theorem handed_over_meanwhile :
    let t : Queue.Traffic Nat :=
      Queue.Traffic.after {} [.add 1 5, .add 2 6, .look, .receive, .add 3 9, .receive]
    let add (e : BackgroundEvent) : List Handler.Step := [.send e, .measure 0, .store 0]
    let steps := .setClock 100 :: add (.fault .closed) ++ .setClock 107 ::
      add (.groupMetadata "member" 4) ++ [.setClock 103]
    let meanwhile : List Handler.Step := [.receive, .send (.fault .closed), .receive]
    let h : Handler := Handler.after {} steps
    let u := h.after (.look :: meanwhile ++ [.finish])
    (t.underway = none ∧
      t.queue.depth ≤ Queue.receipts ([.add 4 9, .receive] : List (Queue.Operation Nat)) ∧
      t.returned = [[⟨1, 5⟩, ⟨2, 6⟩]] ∧
      ∃ later, (t.after [.look, .add 4 9, .receive]).returned = t.returned ++ [⟨3, 9⟩] :: later) ∧
    (.measure 0 ∉ ([] : List Handler.Step) ∧
      (h.after [.measure 0, .store 0]).gauge = 2) ∧
    (h.Idle ∧ .finish ∉ meanwhile ∧ h.depth ≤ meanwhile.count .receive ∧ u.gauge = 0 ∧
      u.traffic.queue.waiting = [⟨.fault .closed, 103⟩]) ∧
    (∀ e ∈ u.taken, e.2.Measured e.1) ∧ u.metrics.backgroundTime.toNat = 3 := by
  intro t add steps meanwhile h u
  obtain ⟨hqueue, hhandler, -⟩ := @handed_over Nat
  obtain ⟨-, -, hadd, hdrain, -⟩ := hhandler steps
  obtain ⟨-, hcount, -⟩ := hhandler (steps ++ (.look :: meanwhile ++ [.finish]))
  have hrun : Handler.after {} (steps ++ (.look :: meanwhile ++ [.finish])) = u :=
    Handler.after_append {} steps _
  rw [hrun] at hcount
  have hidle : h.Idle := by decide +kernel
  have hmeasured : ∀ e ∈ u.taken, e.2.Measured e.1 := by decide +kernel
  obtain ⟨-, hgauge, hwaiting, -⟩ := (hdrain hidle).1 meanwhile (by decide) (by decide +kernel)
  refine ⟨⟨rfl, by decide, rfl, ?_⟩, ⟨by decide, ?_⟩, ⟨hidle, by decide, by decide +kernel, hgauge, ?_⟩,
    hmeasured, ?_⟩
  · have hrest := (hqueue [.add 1 5, .add 2 6, .look, .receive, .add 3 9, .receive]).2 rfl
    exact (hrest.1 [.add 4 9, .receive]).2 (by decide)
  · exact (hadd 0 [] (by decide)).1
  · rw [hwaiting]
    rfl
  · refine (hcount hmeasured).trans ?_
    decide +kernel

/-- One background event waits, and a drain receives it. Another is added before the drain is over: the
add shows one, the drain shows zero, and one waits. One application event waits when the loop closes: the
gauge goes on showing it. -/
theorem gauges_mislead :
    (let add : List Handler.Step := [.send (.fault .closed), .measure 0, .store 0]
      let drained : Handler := Handler.after {} (add ++ [.look, .receive])
      let added := drained.after add
      let ended := added.after [.finish]
      (added.gauge = 1 ∧ added.depth = 1) ∧ ended.Idle ∧
        ended.gauge ≠ UInt64.ofNat ended.depth ∧ ended.gauge = 0 ∧ ended.depth = 1) ∧
    let commit : AppEvent := .commitSync { kind := "", created := 0, deadline := 0, slot := 0 } none
    let l := (({} : Setup).loop false 0).run [.outside .fresh, .submit commit]
    let closed := l.cleanUp 0
    (l.gauge = 1 ∧ l.queue.depth = 1) ∧ closed.gauge ≠ UInt64.ofNat closed.queue.depth ∧
      closed.gauge = 1 ∧ closed.queue.depth = 0 := by
  constructor
  · decide +kernel
  · decide +kernel

end GroupConsumer
