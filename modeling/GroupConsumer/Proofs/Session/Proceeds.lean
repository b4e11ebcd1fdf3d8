import GroupConsumer.Proofs.Session.Works

/-!
# The elementary steps of a session

Whatever the loop does to its slots, it does in four kinds of steps: it makes a slot, completes one,
hooks a listener onto one, or changes something that is no slot. `Proceeds I D s t` says that a row of
such steps leads from `s` to `t`, that they complete and link slots in `I` alone, apart from new ones,
and that they keep the values of lookups in `D` alone. What a single step keeps or undoes is so said of
all that the loop does.
-/

namespace GroupConsumer.Session

/-- Elementary steps lead from `s` to `t`. Slots in `I` and new ones are completed, listeners aim at
slots in `I`, and values are kept for lookups in `D`. Answers of collaborators stay on file, and new
ones come in the slot of an earlier one or in a new slot. -/
inductive Proceeds (I : SlotId → Prop) (D : Deferral → Prop) (s : Session) : Session → Prop
  | rest : Proceeds I D s s
  | fresh {t : Session} (h : Proceeds I D s t) : Proceeds I D s t.fresh.1
  | completed {t : Session} (h : Proceeds I D s t) {i : SlotId}
      (hi : I i ∨ s.slots.cells.size ≤ i) (o : Outcome Value) : Proceeds I D s (t.complete i o)
  | listened {t : Session} (h : Proceeds I D s t) (i : SlotId) {l : Listener Value Deferral}
      (hI : ∀ j ∈ l.aimed, I j) (hD : ∀ d target, l = .hold d target → D d) :
      Proceeds I D s { t with slots := t.slots.listen i l }
  | changed {t u : Session} (h : Proceeds I D s t) (hs : u.slots = t.slots)
      (hf : ∀ f ∈ t.futures.toList, f ∈ u.futures.toList)
      (hn : ∀ f ∈ u.futures.toList,
        (∃ g ∈ t.futures.toList, g.2 = f.2) ∨
          (s.slots.cells.size ≤ f.2 ∧ f.2 < t.slots.cells.size)) : Proceeds I D s u

/-- The slots that collaborators have answered with exist. -/
def Filed (s : Session) : Prop := ∀ f ∈ s.futures.toList, f.2 < s.slots.cells.size

namespace Proceeds

variable {I I' : SlotId → Prop} {D D' : Deferral → Prop} {s t u : Session}

theorem size (h : Proceeds I D s t) : s.slots.cells.size ≤ t.slots.cells.size := by
  induction h with
  | rest => exact Nat.le_refl _
  | @fresh t _ ih => exact Nat.le_trans ih ((worksOn_fresh t fun _ => False).size)
  | @completed t _ i _ o ih => exact Nat.le_trans ih (worksOn_complete t i o).size
  | @listened t _ i l _ _ ih => exact Nat.le_trans ih (Slots.worksOn_listen t.slots i l).size
  | changed _ hs _ _ ih => rwa [hs]

theorem trans (h : Proceeds I D s t) (h' : Proceeds I D t u) : Proceeds I D s u := by
  induction h' with
  | rest => exact h
  | fresh _ ih => exact .fresh ih
  | completed _ hi o ih => exact .completed ih (hi.imp_right (Nat.le_trans h.size)) o
  | listened _ i hI hD ih => exact .listened ih i hI hD
  | changed _ hs hf hn ih =>
    exact .changed ih hs hf fun f hm =>
      (hn f hm).imp_right fun hlt => ⟨Nat.le_trans h.size hlt.1, hlt.2⟩

theorem mono (h : Proceeds I D s t) (hI : ∀ i, I i → I' i) (hD : ∀ d, D d → D' d) :
    Proceeds I' D' s t := by
  induction h with
  | rest => exact .rest
  | fresh _ ih => exact .fresh ih
  | completed _ hi o ih => exact .completed ih (hi.imp_left (hI _)) o
  | listened _ i hIl hDl ih =>
    exact .listened ih i (fun j hj => hI j (hIl j hj)) fun d target hd => hD d (hDl d target hd)
  | changed _ hs hf hn ih => exact .changed ih hs hf hn

/-- The answers of collaborators stay on file. -/
theorem futures (h : Proceeds I D s t) : ∀ f ∈ s.futures.toList, f ∈ t.futures.toList := by
  induction h with
  | rest => exact fun _ => id
  | fresh _ ih | completed _ _ _ ih | listened _ _ _ _ ih => exact ih
  | changed _ _ hf _ ih => exact fun f hm => hf f (ih f hm)

theorem filed (h : Proceeds I D s t) (hs : s.Filed) : t.Filed := by
  have hgrown {t u : Session} (ht : t.Filed) (hf : u.futures = t.futures)
      (hsize : t.slots.cells.size ≤ u.slots.cells.size) : u.Filed := by
    intro f hm
    rw [hf] at hm
    exact Nat.lt_of_lt_of_le (ht f hm) hsize
  induction h with
  | rest => exact hs
  | @fresh t _ ih => exact hgrown ih rfl (worksOn_fresh t fun _ => False).size
  | @completed t _ i _ o ih => exact hgrown ih rfl (worksOn_complete t i o).size
  | @listened t _ i l _ _ ih => exact hgrown ih rfl (Slots.worksOn_listen t.slots i l).size
  | changed _ hslots _ hn ih =>
    intro f hm
    rw [hslots]
    obtain ⟨g, hg, hgf⟩ | ⟨-, hlt⟩ := hn f hm
    · exact hgf ▸ ih g hg
    · exact hlt

/-- An answer comes in the slot of an earlier one, or in a new slot. -/
theorem answers (h : Proceeds I D s t) : ∀ f ∈ t.futures.toList,
    (∃ g ∈ s.futures.toList, g.2 = f.2) ∨
      (s.slots.cells.size ≤ f.2 ∧ f.2 < t.slots.cells.size) := by
  induction h with
  | rest => exact fun f hf => Or.inl ⟨f, hf, rfl⟩
  | @fresh t _ ih =>
    exact fun f hf => (ih f hf).imp_right fun hn =>
      ⟨hn.1, Nat.lt_of_lt_of_le hn.2 (worksOn_fresh t fun _ => False).size⟩
  | @completed t _ i _ o ih =>
    exact fun f hf => (ih f hf).imp_right fun hn =>
      ⟨hn.1, Nat.lt_of_lt_of_le hn.2 (worksOn_complete t i o).size⟩
  | @listened t _ i l _ _ ih =>
    exact fun f hf => (ih f hf).imp_right fun hn =>
      ⟨hn.1, Nat.lt_of_lt_of_le hn.2 (Slots.worksOn_listen t.slots i l).size⟩
  | changed _ hs _ hn ih =>
    intro f hf
    rw [hs]
    obtain ⟨g, hg, hgf⟩ | hn := hn f hf
    · rw [← hgf]
      exact ih g hg
    · exact Or.inr hn

theorem worksOn (h : Proceeds I D s t) : s.WorksOn I t := by
  induction h with
  | rest => exact .refl s I
  | @fresh t _ ih => exact ih.trans (worksOn_fresh t I)
  | @completed t h i hi o ih =>
    obtain hi | hi := hi
    · exact ih.trans ((worksOn_complete t i o).mono fun _ hj => hj ▸ hi)
    · -- The slot is new, and so no work on any slot that was there before.
      have hw := worksOn_complete t i o
      exact
        { size := Nat.le_trans ih.size hw.size
          keeps := ih.keeps.trans hw.keeps
          links := fun src j hn hl => (ih.links src j hn hl).settle i o
          outcome := fun src j hj hn hl hsrc =>
            ((ih.links src j hn hl).outcome?_settle
              (Nat.ne_of_gt (Nat.lt_of_lt_of_le hj hi)) hsrc).trans
              (ih.outcome src j hj hn hl fun k hk =>
                Slots.pending_of_keeps hw.keeps (hsrc k hk)) }
  | @listened t _ i l hI _ ih => exact ih.trans ((Slots.worksOn_listen t.slots i l).mono hI)
  | changed _ hs _ _ ih => exact ih.trans (worksOn_of_slots I hs)

end Proceeds

/-! ### Single operations -/

variable (s : Session) (I : SlotId → Prop) (D : Deferral → Prop)

theorem proceeds_of_slots {s t : Session} (hs : t.slots = s.slots) (hf : t.futures = s.futures) :
    Proceeds I D s t := by
  refine .changed .rest hs (fun f hm => by rwa [hf]) fun f hm => Or.inl ⟨f, ?_, rfl⟩
  rwa [← hf]

theorem proceeds_fresh : Proceeds I D s s.fresh.1 := .fresh .rest

theorem proceeds_complete {s : Session} {I : SlotId → Prop} {i : SlotId} (hi : I i)
    (o : Outcome Value) : Proceeds I D s (s.complete i o) := .completed .rest (Or.inl hi) o

theorem proceeds_freshWith (o : Outcome Value) : Proceeds I D s (s.freshWith o).1 :=
  .completed (.fresh .rest) (Or.inr (Nat.le_refl _)) o

theorem proceeds_chain {s : Session} {I : SlotId → Prop} {target : SlotId} (ht : I target)
    (source : SlotId) : Proceeds I D s (s.chain source target) := by
  refine .listened .rest source (fun j hj => ?_) fun d target he => ?_
  · rwa [List.mem_singleton.1 hj]
  · cases he

theorem proceeds_holdFor {s : Session} {I : SlotId → Prop} {D : Deferral → Prop} {d : Deferral}
    {target : Option SlotId} (hI : ∀ j ∈ Listener.aimed (.hold d target), I j) (hD : D d)
    (i : SlotId) : Proceeds I D s (s.holdFor i d target) := by
  refine .listened .rest i hI fun d' target' he => ?_
  cases he
  exact hD

/-- Asking a collaborator works on no slot but the one it answers with, if that is new. -/
theorem proceeds_ask (m : Method) (call : Nat → Call) :
    Proceeds I D s (s.ask m call).1 := by
  let t := s.asked m call
  have ht : Proceeds I D s t := proceeds_of_slots I D rfl rfl
  have hfile (u : Session) (hu : Proceeds I D s u) (e : Method × SlotId)
      (he : (∃ g ∈ u.futures.toList, g.2 = e.2) ∨
        (s.slots.cells.size ≤ e.2 ∧ e.2 < u.slots.cells.size)) :
      Proceeds I D s { u with futures := u.futures.push e } := by
    refine .changed hu rfl (fun f hf => ?_) fun f hf => ?_
    · rw [Array.toList_push]
      exact List.mem_append_left _ hf
    · rw [Array.toList_push] at hf
      obtain hf | hf := List.mem_append.1 hf
      · exact Or.inl ⟨f, hf, rfl⟩
      · rwa [List.mem_singleton.1 hf]
  -- A new slot is the last one.
  have hfresh := ht.trans (proceeds_fresh t I D)
  have hnew : s.slots.cells.size ≤ t.slots.cells.size ∧
      t.slots.cells.size < t.fresh.1.slots.cells.size := by
    refine ⟨ht.size, ?_⟩
    show _ < t.slots.fresh.1.cells.size
    rw [Slots.size_fresh]
    exact Nat.lt_succ_self _
  have hwith (o : Outcome Value) : Proceeds I D s (t.freshWith o).1 ∧
      s.slots.cells.size ≤ t.slots.cells.size ∧
        t.slots.cells.size < (t.freshWith o).1.slots.cells.size := by
    refine ⟨ht.trans (proceeds_freshWith t I D o), hnew.1, ?_⟩
    exact Nat.lt_of_lt_of_le hnew.2 (worksOn_complete t.fresh.1 t.slots.cells.size o).size
  unfold ask
  simp only
  split
  · exact hfile t.fresh.1 hfresh _ (Or.inr hnew)
  · exact hfile _ (hwith _).1 _ (Or.inr (hwith _).2)
  · split
    · rename_i k m' i hk
      exact hfile t ht _ (Or.inl ⟨(m', i), mem_futures.2 ⟨_, hk⟩, rfl⟩)
    · exact hfile t.fresh.1 hfresh _ (Or.inr hnew)

/-- A collaborator answers with a slot that has been an answer before, or with a new one. -/
theorem ask_cases (m : Method) (call : Nat → Call) :
    (∃ f ∈ s.futures.toList, f.2 = (s.ask m call).2) ∨
      s.slots.cells.size ≤ (s.ask m call).2 := by
  have hnew : s.slots.cells.size ≤ (s.asked m call).fresh.2 := Nat.le_refl _
  unfold ask
  simp only
  split
  · exact Or.inr hnew
  · exact Or.inr hnew
  · split
    · rename_i k m' i hk
      exact Or.inl ⟨(m', i), mem_futures.2 ⟨_, hk⟩, rfl⟩
    · exact Or.inr hnew

theorem futures_report (fs : List Fault) : (s.report fs).futures = s.futures := by
  induction fs generalizing s with
  | nil => rfl
  | cons f fs ih => exact ih (s.publish (.fault f))

theorem futures_giveSnapshot (snap : MemberSnapshot) :
    (s.giveSnapshot snap).futures = s.futures := by
  obtain ⟨ms, delays, he⟩ := giveSnapshot_eq s snap
  rw [he]
  split <;> rfl

end GroupConsumer.Session
