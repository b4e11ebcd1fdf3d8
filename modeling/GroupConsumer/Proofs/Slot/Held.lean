import GroupConsumer.Proofs.Slot.Leads

/-!
# Values that are kept for one slot

A lookup is hooked onto the slot of its answer: the value of the answer is to be kept for the slot `j` of
a ticket, and a fault is to complete that slot. If nothing else is linked to `j`, then this is what comes
of the answer, whether it was there before the lookup was hooked onto it or came later
(`kept_of_outcome?`). `Kept d j o s` says that it has come to pass in the store `s`.
-/

namespace GroupConsumer.Slots

/-! ### Cascades -/

section Cascades

variable {V N : Type}

/-- A row of tasks is done in order. -/
theorem cascade_append (s : Slots V N) (ts us : List (Task V N)) :
    s.cascade (ts ++ us) = (s.cascade ts).cascade us := by
  induction s, ts using cascade.induct with
  | case1 s => rw [List.nil_append, cascade_nil]
  | case2 s t ts ih => rw [List.cons_append, cascade_cons, cascade_cons, ← ih, List.append_assoc]

/-- The store with older entries in its journal. -/
def recalling (s : Slots V N) (j : Array (Note V N)) : Slots V N := ⟨s.cells, j ++ s.journal⟩

variable (s : Slots V N) (j : Array (Note V N))

theorem fill_recalling (k : SlotId) (o : Outcome V) :
    (s.recalling j).fill k o =
      ⟨(s.fill k o).slots.recalling j, (s.fill k o).tasks, (s.fill k o).first⟩ := by
  have hcells : (s.recalling j).cells = s.cells := rfl
  rw [fill, fill, hcells]
  cases s.cells[k]? with
  | none => rfl
  | some c => cases hc : c.outcome <;> simp [hc, recalling]

theorem note_recalling (n : Note V N) : (s.recalling j).note n = (s.note n).recalling j := by
  simp [note, recalling]

theorem perform_recalling (t : Task V N) :
    (s.recalling j).perform t = ((s.perform t).1.recalling j, (s.perform t).2) := by
  unfold perform
  split <;> simp only [fill_recalling, note_recalling]

/-- A cascade does not read the journal. -/
theorem cascade_recalling (ts : List (Task V N)) :
    (s.recalling j).cascade ts = (s.cascade ts).recalling j := by
  induction s, ts using cascade.induct with
  | case1 s => rw [cascade_nil, cascade_nil]
  | case2 s t ts ih => rw [cascade_cons, cascade_cons, perform_recalling, ← ih]

theorem settle_recalling (k : SlotId) (o : Outcome V) :
    (s.recalling j).settle k o = (s.settle k o).recalling j := by
  show ((s.recalling j).fill k o).slots.cascade ((s.recalling j).fill k o).tasks = _
  rw [fill_recalling, cascade_recalling]
  rfl

/-- A store is what it would be with an empty journal, with the entries of its own. -/
theorem recalling_journal : recalling ⟨s.cells, #[]⟩ s.journal = s := by
  rw [recalling, Array.append_empty]

end Cascades

/-! ### Lookups -/

variable {s : Slots Value Deferral} {d : Deferral} {i j : SlotId} {o : Outcome Value}

/-- What comes of the answer to the lookup `d` for the slot `j`: the value is kept and the slot goes on
waiting, or the fault has completed the slot. -/
inductive Kept (d : Deferral) (j : SlotId) (s : Slots Value Deferral) : Outcome Value → Prop
  | value {v : Value} {before after : List (Note Value Deferral)} (pending : s.isPending j = true)
      (unlinked : LedBy ⟨s.cells, #[]⟩ (fun _ => False) j)
      (held : s.journal.toList = before ++ .held d v :: after)
      (others : ∀ n ∈ before ++ after, j ∉ n.aimed) : Kept d j s (.ok v)
  | fault {f : Fault} (failed : s.outcome? j = some (.error f))
      (unlinked : s.LedBy (fun _ => False) j) : Kept d j s (.error f)

/-- Nothing that is not meant for a slot without links completes it. -/
theorem LedBy.isPending_cascade (h : s.LedBy (fun _ => False) j) (hp : s.isPending j = true)
    {ts : List (Task Value Deferral)} (ht : ∀ t ∈ ts, j ∉ t.aimed) :
    (s.cascade ts).isPending j = true := by
  rw [isPending_iff] at hp ⊢
  rw [size_cascade, h.outcome?_cascade ht fun _ => False.elim]
  exact hp

/-- A cascade in which one task is meant for the slot, and this one tells the lookup its answer. -/
theorem kept_cascade (h : s.LedBy (fun _ => False) j) (hp : s.isPending j = true)
    {ts us : List (Task Value Deferral)} (ht : ∀ t ∈ ts, j ∉ t.aimed) (hu : ∀ t ∈ us, j ∉ t.aimed)
    (d : Deferral) (o : Outcome Value) :
    Kept d j (s.cascade (ts ++ .tell (.hold d (some j)) o :: us)) o := by
  have hr : (s.cascade ts).LedBy (fun _ => False) j :=
    h.cascade fun t hm => Task.relays_of_not_mem (ht t hm)
  have hrp := h.isPending_cascade hp ht
  have hus : ∀ t ∈ us, t.Relays j := fun t hm => Task.relays_of_not_mem (hu t hm)
  rw [cascade_append, cascade_cons]
  generalize s.cascade ts = r at hr hrp
  cases o with
  | ok v =>
    -- What comes after the note is done as if the journal were empty.
    let b : Slots Value Deferral := ⟨r.cells, #[]⟩
    have hb : b.LedBy (fun _ => False) j := ⟨hr.listeners, by simp [b]⟩
    have hc := hb.cascade hus
    have he : r.note (.held d v) = b.recalling (r.journal.push (.held d v)) := by
      simp [note, recalling, b]
    show Kept d j ((r.note (.held d v)).cascade us) (.ok v)
    rw [he, cascade_recalling]
    have hj : ((b.cascade us).recalling (r.journal.push (.held d v))).journal.toList =
        r.journal.toList ++ .held d v :: (b.cascade us).journal.toList := by
      rw [recalling, Array.toList_append, Array.toList_push, List.append_assoc]
      rfl
    refine .value (hb.isPending_cascade hrp hu) ⟨hc.listeners, by simp⟩ hj fun n hn => ?_
    exact (List.mem_append.1 hn).elim (hr.journal n) (hc.journal n)
  | error f =>
    obtain ⟨hf, hft⟩ := hr.fill j (.error f)
    show Kept d j ((r.fill j (.error f)).slots.cascade ((r.fill j (.error f)).tasks ++ us)) (.error f)
    refine .fault (keeps_cascade _ _ _ _ ?_) (hf.cascade fun t hm => ?_)
    · obtain ⟨c, hc, hn⟩ := exists_cell_of_isPending hrp
      rw [fill_of_pending hc hn]
      exact outcome?_fill_self hc _
    · obtain hm | hm := List.mem_append.1 hm
      · exact hft t hm
      · exact hus t hm

/-- A listener that is hooked onto a pending slot is told after those that were there before, and before
whoever asked to be woken. -/
theorem settle_listen_of_pending {c : Slot Value Deferral} (hc : s.cells[i]? = some c)
    (hn : c.outcome = none) (l : Listener Value Deferral) (x : Outcome Value) :
    (s.listen i l).settle i x =
      cascade ⟨s.cells.setIfInBounds i { outcome := some x }, s.journal⟩
        (c.listeners.map (.tell · x) ++ .tell l x :: c.wakers.map fun w => .note (.woken w)) := by
  obtain ⟨hi, -⟩ := Array.getElem?_eq_some_iff.1 hc
  let c' : Slot Value Deferral := { c with listeners := c.listeners ++ [l] }
  let s' : Slots Value Deferral := ⟨s.cells.setIfInBounds i c', s.journal⟩
  have hc' : s'.cells[i]? = some c' := Array.getElem?_setIfInBounds_self_of_lt hi
  rw [listen_of_pending hc hn]
  show (s'.fill i x).slots.cascade (s'.fill i x).tasks = _
  rw [fill_of_pending hc' hn]
  simp [s', c', Slot.tasks]

/-- A lookup for a slot without other links is hooked onto the slot of its answer, and that slot is
completed if it was not complete before: the answer comes to what it is meant to. -/
theorem kept_of_outcome? (h : s.LedBy (fun _ => False) j) (hp : s.isPending j = true)
    (hi : i < s.cells.size) (hne : i ≠ j) {x : Outcome Value}
    (ho : ((s.listen i (.hold d (some j))).settle i x).outcome? i = some o) :
    Kept d j ((s.listen i (.hold d (some j))).settle i x) o := by
  cases hs : s.outcome? i with
  | some o' =>
    -- The answer had been there before: the lookup is told at once.
    have hdone : (s.listen i (.hold d (some j))).outcome? i = some o' := keeps_listen s i _ i o' hs
    rw [settle_of_not_isPending (not_isPending_of_isDone (isDone_of_outcome hdone))] at ho ⊢
    obtain rfl := Option.some.inj (hdone.symm.trans ho)
    rw [listen_of_outcome? hs]
    have hnil : ∀ t ∈ ([] : List (Task Value Deferral)), j ∉ t.aimed := by simp
    exact kept_cascade h hp hnil hnil d o'
  | none =>
    obtain ⟨c, hc, hn⟩ := exists_cell_of_isPending (isPending_iff.2 ⟨hi, hs⟩)
    have hpending : (s.listen i (.hold d (some j))).isPending i = true := by
      rw [isPending_iff, size_listen, outcome?_listen_of_pending hs]
      exact ⟨hi, hs⟩
    obtain rfl := Option.some.inj ((outcome?_settle_self hpending x).symm.trans ho)
    rw [settle_listen_of_pending hc hn]
    have hr : LedBy ⟨s.cells.setIfInBounds i { outcome := some x }, s.journal⟩
        (fun _ => False) j := h.set fun l hl => absurd hl List.not_mem_nil
    refine kept_cascade hr ?_ (fun t ht hj => ?_) (fun t ht => ?_) d x
    · rw [isPending_iff] at hp ⊢
      rw [outcome?_set_of_ne hne, Array.size_setIfInBounds]
      exact hp
    · obtain ⟨l, hl, rfl⟩ := List.mem_map.1 ht
      exact (h.listeners i c hc l hl hj).1
    · obtain ⟨w, -, rfl⟩ := List.mem_map.1 ht
      exact List.not_mem_nil

end GroupConsumer.Slots
