import GroupConsumer.Proofs.Run.Proceeds

/-!
# What may be relied on at every point of a run

A processor is `Fit` if it is sound and if the slots exist that collaborators have answered with and
that a leave goes on under. Every cause keeps it so. `Ready p j` adds that the slot `j` exists.

A round of background progress is the one action that does more than take steps: it takes what lookups
have left and applies it value by value. What all other causes keep and what is true when the values
have been taken is true after the round; and so is what one of the values brings about
(`Ready.progress_induction`).
-/

namespace GroupConsumer

namespace Membership

variable {m n : Membership} {i : SlotId}

theorem leaveSlot_completeLeave (m : Membership) (r : Except Fault Unit) :
    (m.completeLeave r).member.leaveSlot = none := by
  cases hl : m.member.leaveSlot with
  | none => rw [completeLeave, hl, hl]
  | some i => rw [completeLeave, hl]

/-- The leave goes on under its slot, or it is over. -/
theorem Tends.leaveSlot (h : m.Tends n) :
    n.member.leaveSlot = m.member.leaveSlot ∨ n.member.leaveSlot = none := by
  obtain h | ⟨k, r, -, hn⟩ := h
  · exact Or.inl h.leaveSlot
  · exact Or.inr (hn.leaveSlot.trans (leaveSlot_completeLeave k r))

/-- The slot exists that a request to leave is linked to, and so does the slot of the leave. -/
theorem Departs.slot_lt (h : m.Departs i n)
    (hm : ∀ l, m.member.leaveSlot = some l → l < m.session.slots.cells.size) :
    i < n.session.slots.cells.size ∧
      ∀ l, n.member.leaveSlot = some l → l < n.session.slots.cells.size := by
  cases h with
  | atOnce before after steps done =>
    obtain ⟨o, ho⟩ := Option.isSome_iff_exists.1 done
    obtain ⟨c, hc, -⟩ := Slots.outcome?_eq_some.1 ho
    refine ⟨(Array.getElem?_eq_some_iff.1 hc).1, fun l hl => ?_⟩
    cases after.symm.trans hl
  | joined before same =>
    subst same
    exact ⟨hm i before, hm⟩
  | begun before after steps new pending =>
    have hi := (Slots.isPending_iff.1 pending).1
    refine ⟨hi, fun l hl => ?_⟩
    obtain rfl := Option.some.inj (after.symm.trans hl)
    exact hi

end Membership

namespace Processor

variable {p q : Processor} {c : Cause} {j : SlotId}

/-- The processor is sound, and the slots exist that it makes use of. -/
structure Fit (p : Processor) : Prop where
  steady : p.Steady
  filed : p.session.Filed
  leave : ∀ l, p.leaveSlot? = some l → l < p.session.slots.cells.size

/-- The processor is fit, and the slot `j` exists. -/
structure Ready (p : Processor) (j : SlotId) : Prop extends Fit p where
  slot : j < p.session.slots.cells.size

/-- The slot of a leave exists that goes on after a motion. -/
theorem Motion.leave_lt (h : Motion p c q) (hp : p.Fit) :
    ∀ l, q.leaveSlot? = some l → l < q.session.slots.cells.size := by
  intro l hl
  have hsize := (h.proceeds fun _ => True).size
  cases h with
  | absent _ _ hq =>
    subst hq
    exact hp.leave l hl
  | answered _ _ _ hqm =>
    rw [leaveSlot?_of_none hqm] at hl
    cases hl
  | @tended x m _ hm ht hq =>
    subst hq
    obtain he | he := ht.leaveSlot
    · have hpl : p.leaveSlot? = some l := (leaveSlot?_eq hm).trans (he.symm.trans hl)
      exact Nat.lt_of_lt_of_le (hp.leave l hpl) hsize
    · cases he.symm.trans hl
  | @left e t m n i _ _ hs hml hd hq hqm =>
    have hm : ∀ l, m.member.leaveSlot = some l → l < m.session.slots.cells.size := by
      rw [hs, hml]
      exact hp.leave
    have hlt := (hd.slot_lt hm).2 l ((leaveSlot?_eq hqm).symm.trans hl)
    rw [hq]
    exact Nat.lt_of_lt_of_le hlt (Session.worksOn_chain n.session i t.slot).size

theorem Fit.undergo (hp : p.Fit) (c : Cause) : (p.undergo c).Fit := by
  have hw := hp.steady.worksOn_undergo c
  refine ⟨hp.steady.undergo c, ?_, ?_⟩
  · by_cases hl : c = .lookups
    · subst hl
      exact hp.filed
    · exact (hp.steady.proceeds hl).filed hp.filed
  · cases hc : c.trigger? p with
    | some t => exact (hp.steady.motion hc).leave_lt hp
    | none =>
      intro l hl
      rw [hp.steady.leaveSlot?_undergo hc] at hl
      exact Nat.lt_of_lt_of_le (hp.leave l hl) hw.size

theorem Fit.follow (hp : p.Fit) (cs : List Cause) : (p.follow cs).Fit := by
  induction cs generalizing p with
  | nil => exact hp
  | cons c cs ih => exact ih (hp.undergo c)

theorem Fit.act (hp : p.Fit) (a : Action) : (p.act a).Fit := by
  rw [← hp.steady.follow_causes a]
  exact hp.follow _

theorem Fit.run (hp : p.Fit) (as : List Action) : (as.foldl Processor.act p).Fit := by
  induction as generalizing p with
  | nil => exact hp
  | cons a as ih => exact ih (hp.act a)

theorem Ready.undergo (hp : p.Ready j) (c : Cause) : (p.undergo c).Ready j :=
  ⟨hp.toFit.undergo c, Nat.lt_of_lt_of_le hp.slot (hp.steady.worksOn_undergo c).size⟩

theorem Ready.act (hp : p.Ready j) (a : Action) : (p.act a).Ready j :=
  ⟨hp.toFit.act a, Nat.lt_of_lt_of_le hp.slot (hp.steady.worksOn_act a).size⟩

theorem Ready.run (hp : p.Ready j) (as : List Action) : (as.foldl Processor.act p).Ready j := by
  induction as generalizing p with
  | nil => exact hp
  | cons a as ih => exact ih (hp.act a)

/-! ### Rows of causes -/

/-- Every cause that does not take what lookups have left keeps `P`. -/
def Kept (j : SlotId) (P : Processor → Prop) : Prop :=
  ∀ (p : Processor) (c : Cause), p.Ready j → c ≠ .lookups → P p → P (p.undergo c)

/-- When what lookups have left is taken, `P` is true, or applying one of the values brings it about. -/
def Survives (p : Processor) (j : SlotId) (P : Processor → Prop) : Prop :=
  P (p.undergo .lookups) ∨
    ∃ u ∈ p.session.deferred, ∀ q : Processor, q.Ready j → P (q.undergo (.deferred u))

variable {P : Processor → Prop}

/-- What every cause keeps, or one of the causes brings about, is true in the end. -/
theorem Ready.follow_induction (step : Kept j P) (hp : p.Ready j) {cs : List Cause}
    (hcs : ∀ c ∈ cs, c ≠ .lookups)
    (h : P p ∨ ∃ c ∈ cs, ∀ q : Processor, q.Ready j → P (q.undergo c)) : P (p.follow cs) := by
  induction cs generalizing p with
  | nil =>
    obtain h | ⟨c, hc, -⟩ := h
    · exact h
    · cases hc
  | cons c cs ih =>
    have hrest : ∀ d ∈ cs, d ≠ .lookups := fun d hd => hcs d (List.mem_cons_of_mem _ hd)
    refine ih (hp.undergo c) hrest ?_
    obtain h | ⟨d, hd, hP⟩ := h
    · exact Or.inl (step p c hp (hcs c List.mem_cons_self) h)
    · obtain rfl | hd := List.mem_cons.1 hd
      · exact Or.inl (hP p hp)
      · exact Or.inr ⟨d, hd, hP⟩

/-- What every cause keeps is true after background progress, if it is true when the values have been
taken that lookups have left, or if applying one of these brings it about. -/
theorem Ready.progress_induction (step : Kept j P) (hp : p.Ready j) (h : p.Survives j P)
    (now : Int64) : P (p.progress now) := by
  have hfollow : p.follow (p.progressCauses now) = p.progress now :=
    hp.steady.follow_causes (.progress now)
  obtain ⟨cs, he, hcs⟩ := progressCauses_eq_cons p now
  rw [← hfollow, he, follow_cons]
  refine Ready.follow_induction step (hp.undergo .lookups) hcs (h.imp_right fun hu => ?_)
  obtain ⟨u, hu, hP⟩ := hu
  exact ⟨.deferred u, List.mem_append_left _ (List.mem_map_of_mem hu), hP⟩

/-- What every cause keeps and background progress keeps in the taking of what lookups have left is
kept by all actions. -/
theorem Ready.act_induction (step : Kept j P)
    (taken : ∀ p : Processor, p.Ready j → P p → p.Survives j P) (hp : p.Ready j) (h : P p)
    (a : Action) : P (p.act a) := by
  by_cases ha : ∃ now, a = .progress now
  · obtain ⟨now, rfl⟩ := ha
    exact hp.progress_induction step (taken p hp h) now
  · rw [← hp.steady.follow_causes a]
    have hne : ∀ now, a ≠ .progress now := fun now he => ha ⟨now, he⟩
    refine Ready.follow_induction step hp (fun c hc => ?_) (Or.inl h)
    rintro rfl
    cases isProgress_of_mem_causes hne hc

theorem Ready.run_induction (step : Kept j P)
    (taken : ∀ p : Processor, p.Ready j → P p → p.Survives j P) (hp : p.Ready j) (h : P p)
    (as : List Action) : P (as.foldl Processor.act p) := by
  induction as generalizing p with
  | nil => exact h
  | cons a as ih => exact ih (hp.act a) (Ready.act_induction step taken hp h a)

end Processor

theorem Chronicle.Lived.fit {p : Processor} {k : Chronicle} (h : Chronicle.Lived p k) (hp : p.Fit) :
    k.present.Fit := by
  induction h with
  | start => exact hp
  | undergo _ c ih => exact ih.undergo c

theorem Setup.fit_begin (u : Setup) (inGroup : Bool) : (u.begin inGroup).Fit where
  steady := u.steady inGroup
  filed _ hf := absurd hf List.not_mem_nil
  leave l hl := by
    cases inGroup <;> cases hl

end GroupConsumer
