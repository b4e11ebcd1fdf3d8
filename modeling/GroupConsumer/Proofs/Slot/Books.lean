import GroupConsumer.Proofs.Slot.History
import Mathlib.Data.List.Nodup

/-!
# Every outcome is delivered exactly once

In any history of a store that is empty at first, one attempt to complete a slot succeeds, each listener of
the slot is told its outcome once, and the wakers woken are those that asked in vain, each of them once
(`delivered_once`).

In the middle of a cascade listeners and wakers of several slots wait for their turn. What is bound to be
logged for them is known as soon as their slot is completed, so that the books of every slot balance at
every step if these entries are counted as well (`Books.perform`).
-/

namespace GroupConsumer.Slots

variable {V N : Type}

/-! ### The books of one slot -/

/-- The log of a slot that is pending. -/
structure Waits (c : Slot V N) (es : List (Event V N)) : Prop where
  won : es.filterMap (·.won?) = []
  told : es.filterMap (·.told?) = []
  woken : es.filterMap (·.woken?) = []
  listeners : es.filterMap (·.registered?) = c.listeners
  nodup : c.wakers.Nodup
  wakers : ∀ w, w ∈ c.wakers ↔ w ∈ es.filterMap (·.asked?)

/-- The log of a slot that is complete. -/
structure Settled (o : Outcome V) (es : List (Event V N)) : Prop where
  won : es.filterMap (·.won?) = [o]
  told : es.filterMap (·.told?) = (es.filterMap (·.registered?)).map (·, o)
  nodup : (es.filterMap (·.woken?)).Nodup
  woken : ∀ w, w ∈ es.filterMap (·.woken?) ↔ w ∈ es.filterMap (·.asked?)

/-- A slot is as its log says. -/
inductive Balanced (c : Slot V N) (es : List (Event V N)) : Prop
  | pending (hc : c.outcome = none) (h : Waits c es)
  | complete {o : Outcome V} (hc : c.outcome = some o) (h : Settled o es)

/-- The event neither obliges a slot to anything nor meets an obligation. -/
structure Event.Silent (e : Event V N) : Prop where
  won : e.won? = none
  registered : e.registered? = none
  told : e.told? = none
  asked : e.asked? = none
  woken : e.woken? = none

/-- What is logged for a slot that is completed. -/
def entries (c : Slot V N) (o : Outcome V) : List (Event V N) :=
  .attempted o true :: (c.listeners.map (.told · o) ++ c.wakers.map .woken)

section

variable {c : Slot V N} {es es' : List (Event V N)} {o : Outcome V}

theorem filterMap_entries (c : Slot V N) (o : Outcome V) :
    (entries c o).filterMap (·.won?) = [o] ∧
      (entries c o).filterMap (·.told?) = c.listeners.map (·, o) ∧
      (entries c o).filterMap (·.registered?) = [] ∧ (entries c o).filterMap (·.asked?) = [] ∧
      (entries c o).filterMap (·.woken?) = c.wakers := by
  refine ⟨?_, ?_, ?_, ?_, ?_⟩ <;>
    simp [entries, List.filterMap_map, Event.won?, Event.told?, Event.registered?,
      Event.asked?, Event.woken?]

/-- What a question does not ask for makes no difference to the answer. -/
theorem filterMap_skip {α β : Type} {f : α → Option β} {a : α} (h : f a = none) (as bs : List α) :
    (as ++ a :: bs).filterMap f = (as ++ bs).filterMap f := by
  rw [List.filterMap_append, List.filterMap_cons_none h, List.filterMap_append]

theorem filterMap_skip_last {α β : Type} {f : α → Option β} {a : α} (h : f a = none) (as : List α) :
    (as ++ [a]).filterMap f = as.filterMap f := by
  rw [filterMap_skip h, List.append_nil]

/-- What a slot logs besides, of those who come or ask too late, changes nothing. -/
theorem Balanced.skip {e : Event V N} (h : Balanced c (es ++ es')) (he : e.Silent) :
    Balanced c (es ++ e :: es') := by
  cases h with
  | pending hc h =>
    refine .pending hc ⟨?_, ?_, ?_, ?_, h.nodup, ?_⟩
    · rw [filterMap_skip he.won, h.won]
    · rw [filterMap_skip he.told, h.told]
    · rw [filterMap_skip he.woken, h.woken]
    · rw [filterMap_skip he.registered, h.listeners]
    · rw [filterMap_skip he.asked]
      exact h.wakers
  | complete hc h =>
    refine .complete hc ⟨?_, ?_, ?_, ?_⟩
    · rw [filterMap_skip he.won, h.won]
    · rw [filterMap_skip he.told, filterMap_skip he.registered, h.told]
    · rw [filterMap_skip he.woken]
      exact h.nodup
    · rw [filterMap_skip he.woken, filterMap_skip he.asked]
      exact h.woken

/-- Somebody who comes first completes the slot. -/
theorem Waits.first (h : Waits c (es ++ es')) (o : Outcome V) :
    Settled o (es ++ (entries c o ++ es')) := by
  obtain ⟨hwon, htold, hregistered, hasked, hwoken⟩ := filterMap_entries c o
  have ⟨hw₁, hw₂⟩ := List.append_eq_nil_iff.1 (List.filterMap_append.symm.trans h.won)
  have ⟨ht₁, ht₂⟩ := List.append_eq_nil_iff.1 (List.filterMap_append.symm.trans h.told)
  have ⟨hk₁, hk₂⟩ := List.append_eq_nil_iff.1 (List.filterMap_append.symm.trans h.woken)
  have hl := h.listeners
  have ha := h.wakers
  simp only [List.filterMap_append] at hl ha
  refine ⟨?_, ?_, ?_, ?_⟩
  · simp only [List.filterMap_append, hwon, hw₁, hw₂, List.nil_append, List.append_nil]
  · simp only [List.filterMap_append, htold, ht₁, ht₂, hregistered, hl, List.nil_append,
      List.append_nil]
  · simpa only [List.filterMap_append, hwoken, hk₁, hk₂, List.nil_append, List.append_nil]
      using h.nodup
  · simpa only [List.filterMap_append, hwoken, hk₁, hk₂, hasked, List.nil_append, List.append_nil]
      using ha

theorem waits_nil : Waits ({} : Slot V N) [] := by
  constructor <;> simp

theorem Waits.listen (h : Waits c es) (l : Listener V N) :
    Waits { c with listeners := c.listeners ++ [l] } (es ++ [.registered l]) := by
  refine ⟨?_, ?_, ?_, ?_, h.nodup, ?_⟩
  · rw [filterMap_skip_last rfl, h.won]
  · rw [filterMap_skip_last rfl, h.told]
  · rw [filterMap_skip_last rfl, h.woken]
  · rw [List.filterMap_append, h.listeners]
    rfl
  · rw [filterMap_skip_last rfl]
    exact h.wakers

theorem Settled.listen (h : Settled o es) (l : Listener V N) :
    Settled o (es ++ [.registered l, .told l o]) := by
  refine ⟨?_, ?_, ?_, ?_⟩
  · rw [filterMap_skip rfl, filterMap_skip_last rfl, h.won]
  · rw [List.filterMap_append, h.told, List.filterMap_append, List.map_append]
    rfl
  · rw [filterMap_skip rfl, filterMap_skip_last rfl]
    exact h.nodup
  · rw [filterMap_skip rfl, filterMap_skip_last rfl, filterMap_skip rfl, filterMap_skip_last rfl]
    exact h.woken

/-- Whoever asks in vain is among those to be woken. -/
theorem Waits.ask {w : Nat} {ws : List Nat} (h : Waits c es) (hn : ws.Nodup)
    (hws : ∀ v, v ∈ ws ↔ v ∈ c.wakers ∨ v = w) :
    Waits { c with wakers := ws } (es ++ [.asked w none]) := by
  refine ⟨?_, ?_, ?_, ?_, hn, fun v => ?_⟩
  · rw [filterMap_skip_last rfl, h.won]
  · rw [filterMap_skip_last rfl, h.told]
  · rw [filterMap_skip_last rfl, h.woken]
  · rw [filterMap_skip_last rfl, h.listeners]
  · rw [hws, List.filterMap_append, List.mem_append, ← h.wakers, ← List.mem_singleton]
    rfl

end

/-! ### The books of a store -/

variable {s : Slots V N} {i k : SlotId} {log log' : List (Happening V N)} {o : Outcome V}

theorem about_append (i : SlotId) (log log' : List (Happening V N)) :
    about i (log ++ log') = about i log ++ about i log' := List.filterMap_append

theorem about_map_self (k : SlotId) (es : List (Event V N)) :
    about k (es.map (Happening.mk k)) = es := by
  simp [about, List.filterMap_map]

theorem about_map_of_ne (hne : k ≠ i) (es : List (Event V N)) :
    about i (es.map (Happening.mk k)) = [] := by
  simp [about, List.filterMap_map, hne]

/-- A slot, as if all slots were there from the start. -/
def cell (s : Slots V N) (i : SlotId) : Slot V N := s.cells[i]?.getD {}

/-- Every slot is as the log says. -/
def Books (s : Slots V N) (log : List (Happening V N)) : Prop :=
  ∀ i, Balanced (s.cell i) (about i log)

theorem cell_of_some {c : Slot V N} (hc : s.cells[i]? = some c) : s.cell i = c := by
  rw [cell, hc]
  rfl

theorem cell_set_of_ne (hne : k ≠ i) (d : Slot V N) (j : Array (Note V N)) :
    cell ⟨s.cells.setIfInBounds k d, j⟩ i = s.cell i := by
  rw [cell, cell, Array.getElem?_setIfInBounds_ne hne]

theorem cell_set_self {c : Slot V N} (hc : s.cells[k]? = some c) (d : Slot V N)
    (j : Array (Note V N)) : cell ⟨s.cells.setIfInBounds k d, j⟩ k = d := by
  obtain ⟨hk, -⟩ := Array.getElem?_eq_some_iff.1 hc
  rw [cell, Array.getElem?_setIfInBounds_self_of_lt hk]
  rfl

theorem cell_fresh (s : Slots V N) (i : SlotId) : s.fresh.1.cell i = s.cell i := by
  obtain ⟨hn, he⟩ | he := s.fresh_cases i
  · rw [cell, cell, hn, he]
    rfl
  · rw [cell, cell, he]

theorem Books.waits {c : Slot V N} (h : s.Books log) (hc : s.cells[k]? = some c)
    (hn : c.outcome = none) : Waits c (about k log) := by
  have hk := h k
  rw [cell_of_some hc] at hk
  cases hk with
  | pending _ hk => exact hk
  | complete ho _ => cases ho.symm.trans hn

theorem outcome_cell (s : Slots V N) (i : SlotId) : (s.cell i).outcome = s.outcome? i := by
  rw [cell, outcome?]
  cases s.cells[i]? <;> rfl

theorem Books.settled (h : s.Books log) (ho : s.outcome? k = some o) : Settled o (about k log) := by
  rw [← outcome_cell] at ho
  cases h k with
  | pending hn _ => cases ho.symm.trans hn
  | complete ho' hk =>
    obtain rfl := Option.some.inj (ho.symm.trans ho')
    exact hk

/-- The books of a store of which one slot has changed, and its log become longer. -/
theorem Books.insert {t : Slots V N} (h : s.Books (log ++ log')) (es : List (Event V N))
    (ht : ∀ i, k ≠ i → t.cell i = s.cell i)
    (hk : Balanced (t.cell k) (about k log ++ (es ++ about k log'))) :
    t.Books (log ++ (es.map (Happening.mk k) ++ log')) := by
  intro i
  rw [about_append, about_append]
  by_cases hne : k = i
  · subst hne
    rwa [about_map_self]
  · rw [ht i hne, about_map_of_ne hne, List.nil_append, ← about_append]
    exact h i

/-- The same if the change comes last. -/
theorem Books.extend {t : Slots V N} (h : s.Books log) (es : List (Event V N))
    (ht : ∀ i, k ≠ i → t.cell i = s.cell i) (hk : Balanced (t.cell k) (about k log ++ es)) :
    t.Books (log ++ es.map (Happening.mk k)) := by
  rw [← List.append_nil log] at h
  have := h.insert es ht (by simpa [about] using hk)
  rwa [List.append_nil] at this

/-- What is bound to be logged once a slot is completed is known from what waits on it. -/
theorem map_entries (c : Slot V N) (k : SlotId) (o : Outcome V) :
    (entries c o).map (Happening.mk k) =
      ⟨k, .attempted o true⟩ :: ((c.tasks o).map (Duty.mk k)).flatMap (·.heard) := by
  have hl : ∀ ls : List (Listener V N),
      ((ls.map (Task.tell · o)).map (Duty.mk k)).flatMap (·.heard) =
        (ls.map (Event.told · o)).map (Happening.mk k) := by
    intro ls
    rw [List.map_map, List.map_map, List.flatMap_map]
    exact List.map_eq_flatMap.symm
  have hw : ∀ ws : List Nat,
      ((ws.map fun w => (Task.note (.woken w) : Task V N)).map (Duty.mk k)).flatMap (·.heard) =
        (ws.map Event.woken).map (Happening.mk k) := by
    intro ws
    rw [List.map_map, List.map_map, List.flatMap_map]
    exact List.map_eq_flatMap.symm
  rw [entries, List.map_cons, Slot.tasks, List.map_append, List.map_append, List.flatMap_append,
    hl, hw]

/-- Completing a slot enters the attempt, and what is bound to follow from it. -/
theorem Books.fill (h : s.Books (log ++ log')) (k : SlotId) (o : Outcome V) :
    (s.fill k o).slots.Books (log ++ (⟨k, .attempted o (s.fill k o).first⟩ ::
      ((s.fill k o).tasks.map (Duty.mk k)).flatMap (·.heard) ++ log')) := by
  obtain he | ⟨c, hc, hn, he⟩ := s.fill_cases k o
  · rw [he]
    have hk := h k
    rw [about_append] at hk
    exact h.insert [.attempted o false] (fun _ _ => rfl) (hk.skip ⟨rfl, rfl, rfl, rfl, rfl⟩)
  · rw [he, ← map_entries]
    have hk := h.waits hc hn
    rw [about_append] at hk
    refine h.insert (entries c o) (fun i hne => cell_set_of_ne hne _ _) ?_
    rw [cell_set_self hc]
    exact .complete rfl (hk.first o)

/-- Completions and remarks are not logged before it is their turn. -/
theorem heard_eq_nil {ds : List (Duty V N)}
    (h : ∀ d ∈ ds, d.task.IsRemark ∨ ∃ k o, d.task = .complete k o) : ds.flatMap (·.heard) = [] := by
  refine List.flatMap_eq_nil_iff.2 fun d hd => ?_
  obtain ⟨name, first, hn⟩ | ⟨k, o, hk⟩ := h d hd
  · rw [Duty.heard, hn]
  · rw [Duty.heard, hk]

/-- A step of a cascade enters what it does, and what is bound to follow from it. -/
theorem Books.perform (h : s.Books (log ++ log')) (d : Duty V N) :
    (s.perform d.task).1.Books (log ++
      (s.tried d.task ++ (d.leadsTo (s.perform d.task).2).flatMap (·.heard) ++ log')) := by
  cases ha : d.task.attempt? with
  | none =>
    obtain ⟨j, he⟩ := perform_of_attempt?_eq_none (s := s) ha
    have hnil : (d.leadsTo (s.perform d.task).2).flatMap (·.heard) = [] := by
      refine heard_eq_nil fun e hm => ?_
      rw [he, Duty.leadsTo, List.map_map] at hm
      obtain ⟨x, -, rfl⟩ := List.mem_map.1 hm
      exact Or.inr ⟨x.1, x.2, rfl⟩
    rw [hnil, tried, ha, he]
    exact h
  | some x =>
    obtain ⟨k, o⟩ := x
    obtain ⟨-, us, hus, he⟩ := perform_of_attempt?_eq_some (s := s) ha
    have hnil : (us.map (Duty.mk k)).flatMap (·.heard) = [] := by
      refine heard_eq_nil fun e hm => ?_
      obtain ⟨u, hu, rfl⟩ := List.mem_map.1 hm
      exact Or.inl (hus u hu)
    have hd : (d.leadsTo (s.perform d.task).2).flatMap (·.heard) =
        ((s.fill k o).tasks.map (Duty.mk k)).flatMap (·.heard) := by
      rw [he, Duty.leadsTo, ha, List.map_append, List.flatMap_append]
      exact (congrArg _ hnil).trans (List.append_nil _)
    rw [hd, tried, ha, he]
    exact h.fill k o

/-- A cascade enters all that happens in it. -/
theorem Books.deeds {ds : List (Duty V N)} (h : s.Books (log ++ ds.flatMap (·.heard))) :
    (s.cascade (ds.map (·.task))).Books (log ++ s.deeds ds) := by
  induction s, ds using Slots.deeds.induct generalizing log with
  | case1 s =>
    rw [Slots.deeds, List.map_nil, cascade_nil]
    exact h
  | case2 s d ds ih =>
    have hnext : (s.perform d.task).1.Books ((log ++ (d.heard ++ s.tried d.task)) ++
        (d.leadsTo (s.perform d.task).2 ++ ds).flatMap (·.heard)) := by
      rw [List.flatMap_cons, ← List.append_assoc] at h
      rw [List.flatMap_append]
      simpa only [List.append_assoc] using h.perform d
    have := ih hnext
    rwa [List.map_append, Duty.map_task_leadsTo, ← cascade_cons, List.append_assoc, ← Slots.deeds,
      ← List.map_cons] at this

theorem Books.complete (h : s.Books log) (k : SlotId) (o : Outcome V) :
    (s.complete k o).1.Books (log ++ s.deeds [⟨k, .complete k o⟩]) := by
  have h : s.Books (log ++ [(⟨k, .complete k o⟩ : Duty V N)].flatMap (·.heard)) := by
    rwa [← List.append_nil log] at h
  have := h.deeds
  rwa [List.map_singleton, ← settle_eq_cascade] at this

theorem Books.listen (h : s.Books log) (k : SlotId) (l : Listener V N) :
    (s.listen k l).Books (log ++ s.hearing k l) := by
  cases hc : s.cells[k]? with
  | none =>
    rw [Slots.listen, hearing, hc, List.append_nil]
    exact h
  | some c =>
    rw [hearing_of_some hc]
    cases ho : c.outcome with
    | none =>
      rw [listen_of_pending hc ho, Option.toList_none, List.map_nil, Slots.deeds]
      refine h.extend [.registered l] (fun i hne => cell_set_of_ne hne _ _) ?_
      rw [cell_set_self hc]
      exact .pending ho ((h.waits hc ho).listen l)
    | some o =>
      have hs : s.outcome? k = some o := outcome?_eq_some.2 ⟨c, hc, ho⟩
      have htell : s.Books (log ++ [⟨k, .registered l⟩] ++
          [(⟨k, .tell l o⟩ : Duty V N)].flatMap (·.heard)) := by
        rw [List.append_assoc]
        exact h.extend [.registered l, .told l o] (fun _ _ => rfl)
          (.complete ((outcome_cell s k).trans hs) ((h.settled hs).listen l))
      have := htell.deeds
      rwa [List.append_assoc, List.map_singleton, ← listen_of_outcome? hs] at this

theorem Books.fresh (h : s.Books log) : s.fresh.1.Books log := by
  intro i
  rw [cell_fresh]
  exact h i

theorem Books.poll (h : s.Books log) (k : SlotId) (w : Nat) :
    (s.poll k w).1.Books (log ++ s.happenings (.poll k w)) := by
  cases hc : s.cells[k]? with
  | none =>
    have hk : ¬ k < s.cells.size := Nat.not_lt.2 (Array.getElem?_eq_none_iff.1 hc)
    rw [Slots.poll, hc, happenings, if_neg hk, List.append_nil]
    exact h
  | some c =>
    obtain ⟨hk, -⟩ := Array.getElem?_eq_some_iff.1 hc
    rw [happenings, if_pos hk]
    cases ho : c.outcome with
    | none =>
      have hwaits := h.waits hc ho
      rw [poll_of_pending hc ho]
      split
      · rename_i hw
        refine h.extend [.asked w none] (fun _ _ => rfl) ?_
        rw [cell_of_some hc]
        refine .pending ho (hwaits.ask hwaits.nodup fun v => ⟨Or.inl, fun hv => hv.elim id ?_⟩)
        rintro rfl
        exact List.contains_iff_mem.1 hw
      · rename_i hw
        refine h.extend [.asked w none] (fun i hne => cell_set_of_ne hne _ _) ?_
        rw [cell_set_self hc]
        refine .pending ho (hwaits.ask ?_ fun v => by rw [List.mem_append, List.mem_singleton])
        rw [← List.concat_eq_append]
        exact List.Nodup.concat (fun hv => hw (List.contains_iff_mem.2 hv)) hwaits.nodup
    | some o =>
      have hs : s.outcome? k = some o := outcome?_eq_some.2 ⟨c, hc, ho⟩
      have hk := h k
      rw [← List.append_nil (about k log)] at hk
      rw [poll_of_outcome? hs]
      exact h.extend [.asked w (some o)] (fun _ _ => rfl) (hk.skip ⟨rfl, rfl, rfl, rfl, rfl⟩)

/-- An operation enters all that happens in it. -/
theorem Books.operate (h : s.Books log) (op : Operation V N) :
    (s.operate op).Books (log ++ s.happenings op) := by
  cases op with
  | fresh =>
    rw [happenings, List.append_nil]
    exact h.fresh
  | complete k o => exact h.complete k o
  | chain source target => exact h.listen source _
  | map source image => exact h.fresh.listen source _
  | listen k l => exact h.listen k l
  | poll k w => exact h.poll k w
  | get k =>
    rw [happenings, List.append_nil]
    exact h

/-- The books of a history balance. -/
theorem Books.after (h : s.Books log) (ops : List (Operation V N)) :
    (s.after ops).Books (log ++ s.log ops) := by
  induction ops generalizing s log with
  | nil =>
    rw [Slots.log, List.append_nil]
    exact h
  | cons op ops ih =>
    rw [Slots.log, ← List.append_assoc]
    exact ih (h.operate op)

theorem books_nil : Books ({} : Slots V N) [] := fun _ => .pending rfl waits_nil

/-- What the log of a slot says in the end. -/
structure Delivered (s : Slots V N) (i : SlotId) (es : List (Event V N)) : Prop where
  /-- The outcome is that of the only attempt that has succeeded, if any has. -/
  won : es.filterMap (·.won?) = (s.outcome? i).toList
  /-- All listeners are told the outcome, in the order in which they registered. -/
  told : ∀ o, s.outcome? i = some o →
    es.filterMap (·.told?) = (es.filterMap (·.registered?)).map (·, o)
  untold : s.outcome? i = none → es.filterMap (·.told?) = []
  /-- Nobody is woken twice, and all who asked in vain are woken once the slot is complete. -/
  nodup : (es.filterMap (·.woken?)).Nodup
  woken : ∀ w, w ∈ es.filterMap (·.woken?) ↔ s.isDone i = true ∧ w ∈ es.filterMap (·.asked?)

theorem Books.delivered (h : s.Books log) (i : SlotId) : s.Delivered i (about i log) := by
  have hi := h i
  cases hi with
  | pending hn hw =>
    rw [outcome_cell] at hn
    refine ⟨?_, fun o ho => ?_, fun _ => hw.told, ?_, fun w => ?_⟩
    · rw [hn]
      exact hw.won
    · cases hn.symm.trans ho
    · rw [hw.woken]
      exact List.nodup_nil
    · rw [hw.woken, isDone, hn]
      simp
  | complete ho hs =>
    rw [outcome_cell] at ho
    refine ⟨?_, fun o ho' => ?_, fun hn => ?_, hs.nodup, fun w => ?_⟩
    · rw [ho]
      exact hs.won
    · obtain rfl := Option.some.inj (ho.symm.trans ho')
      exact hs.told
    · cases hn.symm.trans ho
    · rw [hs.woken, isDone_of_outcome ho]
      simp

/-- Whatever is done to a store, the outcome of a slot is set once, and everybody hears of it once. -/
theorem delivered_once (ops more : List (Operation V N)) (i : SlotId) :
    (after {} ops).Delivered i (about i (Slots.log {} ops)) ∧
      Keeps (after {} ops) (after {} (ops ++ more)) := by
  refine ⟨(books_nil.after ops).delivered i, ?_⟩
  have : after {} (ops ++ more) = (after {} ops).after more := List.foldl_append
  rw [this]
  exact keeps_after _ more

end GroupConsumer.Slots
