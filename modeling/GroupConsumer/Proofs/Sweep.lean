import GroupConsumer.Proofs.Slot.Leads

/-!
# What a sweep does

A sweep visits the tickets under watch in order. All that it does to the slots is to fail tickets that
are pending and due (`Expires`), so that it is never early, and what was complete stays as it was. The
tickets that it keeps have time left, and a ticket that it does not keep is complete: none that is due
is passed over (`isDone_or_mem_sweep`).
-/

namespace GroupConsumer

/-- Clamping keeps the sign. -/
theorem zero_le_clamp {x : Int} : 0 ≤ clamp x ↔ 0 ≤ x := by
  have hmin : Int64.minValue.toInt < 0 := by decide
  have hmax : 0 < Int64.maxValue.toInt := by decide
  rw [Int64.le_iff_toInt_le, Int64.toInt_zero, toInt_clamp]
  omega

/-- A ticket is due from its deadline on. -/
theorem Ticket.isDue_iff {t : Ticket} {now : Int64} : t.isDue now = true ↔ t.deadline ≤ now := by
  rw [isDue, decide_eq_true_iff, overdue, zero_le_clamp, Int64.le_iff_toInt_le]
  omega

namespace Reaper

variable {now : Int64} {ts us : List Ticket} {s u v : Slots Value Deferral} {t : Ticket}

/-- From `s` to `u` nothing happens but that tickets in `ts`, pending and due by then, fail because
their time has run out. -/
inductive Expires (now : Int64) (ts : List Ticket) (s : Slots Value Deferral) :
    Slots Value Deferral → Prop
  | rest : Expires now ts s s
  | expired {u : Slots Value Deferral} (h : Expires now ts s u) {t : Ticket} (mem : t ∈ ts)
      (due : t.deadline ≤ now) (pending : u.isDone t.slot = false) :
      Expires now ts s (u.settle t.slot (.error (.expired t.describe now t.deadline)))

namespace Expires

theorem mono (h : Expires now ts s u) (hts : ∀ t ∈ ts, t ∈ us) : Expires now us s u := by
  induction h with
  | rest => exact .rest
  | expired _ mem due pending ih => exact .expired ih (hts _ mem) due pending

theorem trans (h : Expires now ts s u) (h' : Expires now ts u v) : Expires now ts s v := by
  induction h' with
  | rest => exact h
  | expired _ mem due pending ih => exact .expired ih mem due pending

theorem keeps (h : Expires now ts s u) : s.Keeps u := by
  induction h with
  | rest => exact Slots.Keeps.refl s
  | expired _ _ _ _ ih => exact ih.trans (Slots.keeps_settle _ _ _)

theorem size (h : Expires now ts s u) : u.cells.size = s.cells.size := by
  induction h with
  | rest => rfl
  | expired _ _ _ _ ih => rw [Slots.size_settle, ih]

end Expires

/-- A sweep fails what is pending and due, and does nothing else to the slots. -/
theorem expires_sweepList (now : Int64) (ts : List Ticket) (s : Slots Value Deferral) :
    Expires now ts s (sweepList now ts s).slots := by
  induction ts generalizing s with
  | nil => exact .rest
  | cons t ts ih =>
    have hrest (u : Slots Value Deferral) : Expires now (t :: ts) u (sweepList now ts u).slots :=
      (ih u).mono fun _ => List.mem_cons_of_mem t
    unfold sweepList
    split
    · exact hrest s
    · rename_i hd
      split
      · rename_i hdue
        have hpend : s.isDone t.slot = false := by simpa using hd
        have hfirst : Expires now (t :: ts) s
            (s.settle t.slot (.error (.expired t.describe now t.deadline))) :=
          .expired .rest List.mem_cons_self (Ticket.isDue_iff.1 hdue) hpend
        exact hfirst.trans (hrest _)
      · exact hrest s

/-- What a sweep keeps was under watch and has time left. -/
theorem mem_kept_sweepList (h : t ∈ (sweepList now ts s).kept) : t ∈ ts ∧ now < t.deadline := by
  induction ts generalizing s with
  | nil => cases h
  | cons r ts ih =>
    have htail {u : Slots Value Deferral} (h : t ∈ (sweepList now ts u).kept) :
        t ∈ r :: ts ∧ now < t.deadline := (ih h).imp_left (List.mem_cons_of_mem r)
    unfold sweepList at h
    split at h
    · exact htail h
    · split at h
      · exact htail h
      · rename_i hdue
        obtain rfl | h := List.mem_cons.1 h
        · rw [Ticket.isDue_iff, Int64.not_le] at hdue
          exact ⟨List.mem_cons_self, hdue⟩
        · exact htail h

/-- A ticket that a sweep does not keep is complete afterwards. -/
theorem isDone_or_mem_sweepList (h : t ∈ ts) (hs : t.slot < s.cells.size) :
    (sweepList now ts s).slots.isDone t.slot = true ∨ t ∈ (sweepList now ts s).kept := by
  induction ts generalizing s with
  | nil => cases h
  | cons r ts ih =>
    have hkeeps (u : Slots Value Deferral) (hu : u.isDone t.slot = true) :
        (sweepList now ts u).slots.isDone t.slot = true := (expires_sweepList now ts u).keeps.isDone hu
    unfold sweepList
    split
    · rename_i hd
      obtain rfl | h := List.mem_cons.1 h
      · exact Or.inl (hkeeps s hd)
      · exact ih h hs
    · split
      · obtain rfl | h := List.mem_cons.1 h
        · exact Or.inl (hkeeps _ (Slots.isDone_settle hs _))
        · have hs' : t.slot <
              (s.settle r.slot (.error (.expired r.describe now r.deadline))).cells.size := by
            rwa [Slots.size_settle]
          exact ih h hs'
      · obtain rfl | h := List.mem_cons.1 h
        · exact Or.inr List.mem_cons_self
        · exact (ih h hs).imp_right (List.mem_cons_of_mem r)

theorem expires_sweep (r : Reaper) (now : Int64) (s : Slots Value Deferral) :
    Expires now r.tracked s (r.sweep now s).2.1 := expires_sweepList now r.tracked s

/-- After a sweep every ticket that was under watch is complete, or it is still under watch and has
time left. -/
theorem isDone_or_mem_sweep {r : Reaper} (h : t ∈ r.tracked) (hs : t.slot < s.cells.size) :
    (r.sweep now s).2.1.isDone t.slot = true ∨
      t ∈ (r.sweep now s).1.tracked ∧ now < t.deadline := by
  obtain hd | hk := isDone_or_mem_sweepList h hs
  · exact Or.inl hd
  · exact Or.inr ⟨hk, (mem_kept_sweepList hk).2⟩

end Reaper

end GroupConsumer
