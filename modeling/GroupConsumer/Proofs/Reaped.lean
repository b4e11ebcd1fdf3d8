import GroupConsumer.Proofs.Slot.Grants
import GroupConsumer.Proofs.Sweep

/-!
# What the reaper writes

Both sweeps are passes over tickets that fail, in order, those for which they have a fault (`pass`).
The reaper *writes* a slot if the slot is still pending when the pass gets to it (`Writes`), and not if
somebody else was faster, be it an earlier ticket with the same slot or the cascade of an earlier
failure. What both sweeps count are exactly these slots (`sweepList_eq`, `expireList_eq`), of which none
occurs twice, and each keeps what the reaper has written (`Wrote`).
-/

namespace GroupConsumer

namespace Slots

variable {s : Slots Value Deferral} {i : SlotId}

/-- A completion comes first if the slot is pending. -/
theorem complete_snd (s : Slots Value Deferral) (i : SlotId) (o : Outcome Value) :
    (s.complete i o).2 = s.isPending i := by
  simp only [complete, fill, isPending]
  cases hc : s.cells[i]? with
  | none => rfl
  | some c => cases ho : c.outcome <;> simp [ho]

end Slots

namespace Reaper

variable (fault? : Ticket → Option Fault)

/-- The slots after a ticket has been visited. -/
def visit (s : Slots Value Deferral) (t : Ticket) : Slots Value Deferral :=
  match fault? t with
  | some f => s.settle t.slot (.error f)
  | none => s

/-- The slots after tickets have been visited one after the other. -/
def pass (ts : List Ticket) (s : Slots Value Deferral) : Slots Value Deferral :=
  ts.foldl (visit fault?) s

/-- In a pass the reaper comes first on the slot `i`, with the fault `f`: when it gets to the ticket, the
slot is pending. -/
def Writes (ts : List Ticket) (s : Slots Value Deferral) (i : SlotId) (f : Fault) : Prop :=
  ∃ earlier t later, ts = earlier ++ t :: later ∧ t.slot = i ∧ fault? t = some f ∧
    (pass fault? earlier s).isPending i = true

/-- The slots that a pass writes and their faults, in order. -/
def written : List Ticket → Slots Value Deferral → List (SlotId × Fault)
  | [], _ => []
  | t :: ts, s =>
    match fault? t, s.isPending t.slot with
    | some f, true => (t.slot, f) :: written ts (visit fault? s t)
    | _, _ => written ts (visit fault? s t)

/-- With which fault a sweep at `now` fails a ticket. -/
def overdueFault? (now : Int64) (t : Ticket) : Option Fault :=
  if t.isDue now then some (.expired t.describe now t.deadline) else none

/-- The final sweep fails every ticket. -/
def shutdownFault? (t : Ticket) : Option Fault := some (.shutdownForced t.describe)

variable {fault?} {ts : List Ticket} {t : Ticket} {s u v : Slots Value Deferral} {i : SlotId} {f : Fault}

theorem visit_of_not_isPending (h : s.isPending t.slot = false) : visit fault? s t = s := by
  unfold visit
  split
  · exact Slots.settle_of_not_isPending h _
  · rfl

theorem visit_of_none (h : fault? t = none) : visit fault? s t = s := by
  rw [visit, h]

theorem visit_of_some (h : fault? t = some f) : visit fault? s t = s.settle t.slot (.error f) := by
  rw [visit, h]

theorem written_of_not_isPending (h : s.isPending t.slot = false) :
    written fault? (t :: ts) s = written fault? ts s := by
  cases hf : fault? t <;> simp [written, h, hf, visit_of_not_isPending h]

theorem written_of_none (h : fault? t = none) :
    written fault? (t :: ts) s = written fault? ts s := by
  simp [written, h, visit_of_none h]

theorem written_of_isPending (hf : fault? t = some f) (hp : s.isPending t.slot = true) :
    written fault? (t :: ts) s = (t.slot, f) :: written fault? ts (s.settle t.slot (.error f)) := by
  simp [written, hf, hp, visit_of_some hf]

/-! ### The sweeps are passes -/

/-- A ticket that has a fault is failed, and counts if it was pending. -/
theorem pass_cons_of_some (hf : fault? t = some f) (ts : List Ticket) (s : Slots Value Deferral) :
    pass fault? (t :: ts) s = pass fault? ts (s.complete t.slot (.error f)).1 ∧
      (written fault? (t :: ts) s).length =
        (written fault? ts (s.complete t.slot (.error f)).1).length +
          if (s.complete t.slot (.error f)).2 then 1 else 0 := by
  have hv : visit fault? s t = (s.complete t.slot (.error f)).1 := visit_of_some hf
  refine ⟨by rw [pass, List.foldl_cons, hv, pass], ?_⟩
  rw [Slots.complete_snd]
  cases hp : s.isPending t.slot with
  | false => simp [written_of_not_isPending hp, ← hv, visit_of_not_isPending hp]
  | true =>
    rw [written_of_isPending hf hp]
    rfl

/-- A sweep is a pass that counts what it writes. -/
theorem sweepList_eq (now : Int64) (ts : List Ticket) (s : Slots Value Deferral) :
    (sweepList now ts s).slots = pass (overdueFault? now) ts s ∧
      (sweepList now ts s).count = (written (overdueFault? now) ts s).length := by
  induction ts generalizing s with
  | nil => exact ⟨rfl, rfl⟩
  | cons t ts ih =>
    unfold sweepList
    by_cases hd : s.isDone t.slot = true
    · have hp := Slots.not_isPending_of_isDone hd
      rw [if_pos hd, written_of_not_isPending hp, pass, List.foldl_cons, visit_of_not_isPending hp]
      exact ih s
    · rw [if_neg hd]
      by_cases hdue : t.isDue now = true
      · have hf : overdueFault? now t = some (.expired t.describe now t.deadline) := if_pos hdue
        obtain ⟨hpass, hcount⟩ := pass_cons_of_some hf ts s
        obtain ⟨hslots, hrest⟩ := ih (s.settle t.slot (.error (.expired t.describe now t.deadline)))
        rw [if_pos hdue, hpass, hcount]
        exact ⟨hslots, congrArg (· + _) hrest⟩
      · have hf : overdueFault? now t = none := if_neg hdue
        rw [if_neg hdue, written_of_none hf, pass, List.foldl_cons, visit_of_none hf]
        exact ih s

/-- So is the final sweep. -/
theorem expireList_eq (ts : List Ticket) (s : Slots Value Deferral) :
    expireList ts s = (pass shutdownFault? ts s, (written shutdownFault? ts s).length) := by
  induction ts generalizing s with
  | nil => rfl
  | cons t ts ih =>
    unfold expireList
    by_cases hd : s.isDone t.slot = true
    · have hp := Slots.not_isPending_of_isDone hd
      rw [if_pos hd, written_of_not_isPending hp, pass, List.foldl_cons, visit_of_not_isPending hp]
      exact ih s
    · have hf : shutdownFault? t = some (.shutdownForced t.describe) := rfl
      obtain ⟨hpass, hcount⟩ := pass_cons_of_some hf ts s
      rw [if_neg hd, hpass, hcount]
      simp only [ih]

/-! ### What is written -/

theorem writes_cons :
    Writes fault? (t :: ts) s i f ↔
      (t.slot = i ∧ fault? t = some f ∧ s.isPending i = true) ∨
        Writes fault? ts (visit fault? s t) i f := by
  constructor
  · rintro ⟨earlier, r, later, h, hi, hf, hp⟩
    cases earlier with
    | nil =>
      obtain ⟨rfl, rfl⟩ := List.cons.inj h
      exact Or.inl ⟨hi, hf, hp⟩
    | cons q earlier =>
      obtain ⟨rfl, rfl⟩ := List.cons.inj h
      exact Or.inr ⟨earlier, r, later, rfl, hi, hf, hp⟩
  · rintro (⟨hi, hf, hp⟩ | ⟨earlier, r, later, rfl, hi, hf, hp⟩)
    · exact ⟨[], t, ts, rfl, hi, hf, hp⟩
    · exact ⟨t :: earlier, r, later, rfl, hi, hf, hp⟩

/-- The list names all that is written. -/
theorem mem_written : (i, f) ∈ written fault? ts s ↔ Writes fault? ts s i f := by
  induction ts generalizing s with
  | nil => simp [written, Writes]
  | cons t ts ih =>
    rw [writes_cons, ← ih]
    cases hf : fault? t with
    | none => simp [written_of_none hf, visit_of_none hf]
    | some f' =>
      cases hp : s.isPending t.slot with
      | false =>
        rw [written_of_not_isPending hp, visit_of_not_isPending hp]
        refine ⟨Or.inr, ?_⟩
        rintro (⟨rfl, -, hp'⟩ | h)
        · rw [hp] at hp'
          cases hp'
        · exact h
      | true =>
        rw [written_of_isPending hf hp, visit_of_some hf, List.mem_cons, Prod.mk.injEq]
        refine or_congr_left ⟨?_, ?_⟩
        · rintro ⟨rfl, rfl⟩
          exact ⟨rfl, rfl, hp⟩
        · rintro ⟨rfl, hf', -⟩
          exact ⟨rfl, (Option.some.inj hf').symm⟩

/-- From `s` to `u` outcomes stay, and the slots in `ws`, each named once, get the faults named with
them. -/
structure Wrote (s u : Slots Value Deferral) (ws : List (SlotId × Fault)) : Prop where
  keeps : s.Keeps u
  nodup : (ws.map Prod.fst).Nodup
  open_before : ∀ i f, (i, f) ∈ ws → s.outcome? i = none
  recorded : ∀ i f, (i, f) ∈ ws → u.outcome? i = some (.error f)

theorem Wrote.of_keeps (h : s.Keeps u) : Wrote s u [] :=
  ⟨h, List.nodup_nil, fun _ _ hi => absurd hi List.not_mem_nil,
    fun _ _ hi => absurd hi List.not_mem_nil⟩

/-- What was written before is complete, so that it is not written again. -/
theorem Wrote.trans {ws ws' : List (SlotId × Fault)} (h : Wrote s u ws) (h' : Wrote u v ws') :
    Wrote s v (ws ++ ws') where
  keeps := h.keeps.trans h'.keeps
  nodup := by
    rw [List.map_append]
    refine List.nodup_append.2 ⟨h.nodup, h'.nodup, ?_⟩
    rintro i hi j hj rfl
    obtain ⟨⟨_, f⟩, hf, rfl⟩ := List.mem_map.1 hi
    obtain ⟨⟨j, f'⟩, hf', hj⟩ := List.mem_map.1 hj
    obtain rfl : j = _ := hj
    have hdone := h.recorded _ _ hf
    rw [h'.open_before _ _ hf'] at hdone
    cases hdone
  open_before i f hi := by
    rcases List.mem_append.1 hi with hi | hi
    · exact h.open_before i f hi
    · exact Slots.pending_of_keeps h.keeps (h'.open_before i f hi)
  recorded i f hi := by
    rcases List.mem_append.1 hi with hi | hi
    · exact h'.keeps i _ (h.recorded i f hi)
    · exact h'.recorded i f hi

/-- A pending slot gets the fault. -/
theorem wrote_settle (hp : s.isPending i = true) (f : Fault) :
    Wrote s (s.settle i (.error f)) [(i, f)] where
  keeps := Slots.keeps_settle s i _
  nodup := by simp
  open_before j g hj := by
    cases List.mem_singleton.1 hj
    exact (Slots.isPending_iff.1 hp).2
  recorded j g hj := by
    cases List.mem_singleton.1 hj
    exact Slots.outcome?_settle_self hp _

/-- A pass writes what it is said to write. -/
theorem wrote_pass (fault? : Ticket → Option Fault) (ts : List Ticket) (s : Slots Value Deferral) :
    Wrote s (pass fault? ts s) (written fault? ts s) := by
  induction ts generalizing s with
  | nil => exact .of_keeps (Slots.Keeps.refl s)
  | cons t ts ih =>
    rw [pass, List.foldl_cons]
    cases hf : fault? t with
    | none =>
      rw [visit_of_none hf, written_of_none hf]
      exact ih s
    | some f =>
      cases hp : s.isPending t.slot with
      | false =>
        rw [visit_of_not_isPending hp, written_of_not_isPending hp]
        exact ih s
      | true =>
        rw [visit_of_some hf, written_of_isPending hf hp]
        exact (wrote_settle hp f).trans (ih _)

theorem size_pass (fault? : Ticket → Option Fault) (ts : List Ticket) (s : Slots Value Deferral) :
    (pass fault? ts s).cells.size = s.cells.size := by
  induction ts generalizing s with
  | nil => rfl
  | cons t ts ih =>
    have hvisit : (visit fault? s t).cells.size = s.cells.size := by
      unfold visit
      split
      · exact Slots.size_settle s t.slot _
      · rfl
    exact (ih (visit fault? s t)).trans hvisit

/-- The final sweep leaves none of its tickets open. -/
theorem isDone_pass_shutdownFault? (h : s.isDone t.slot = true ∨ t ∈ ts)
    (hs : t.slot < s.cells.size) : (pass shutdownFault? ts s).isDone t.slot = true := by
  induction ts generalizing s with
  | nil =>
    rcases h with hd | hm
    · exact hd
    · cases hm
  | cons r ts ih =>
    rw [pass, List.foldl_cons]
    have hs' : t.slot < (visit shutdownFault? s r).cells.size := by
      show t.slot < (s.settle r.slot _).cells.size
      rwa [Slots.size_settle]
    refine ih ?_ hs'
    rcases h with hd | hm
    · exact Or.inl ((Slots.keeps_settle s r.slot _).isDone hd)
    · rcases List.mem_cons.1 hm with rfl | hm
      · exact Or.inl (Slots.isDone_settle hs _)
      · exact Or.inr hm

end Reaper

end GroupConsumer
