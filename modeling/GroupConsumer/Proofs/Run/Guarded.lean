import GroupConsumer.Proofs.Member.Leaving
import GroupConsumer.Proofs.Run.Groupless
import GroupConsumer.Proofs.Run.Works

/-!
# How a request to leave is linked to the leave

A request to leave is answered in a slot of its own, and a leave that goes on has a slot as well. The
one is linked to the other, and `Guarded p i` says that the slot `i` of the request is linked to
nothing else, that nothing is linked to the slot of the leave, and nothing to slots that do not exist
yet. `Passes p i q` says that a processor stays guarded from `p` to `q`, and that a slot that could be
used in `p` can be used in `q`.
-/

namespace GroupConsumer

namespace Processor

/-- The slot of the leave that is going on. -/
def leaveSlot? (p : Processor) : Option SlotId := p.member.bind (·.leaveSlot)

/-- Whether a slot may be used: it exists and is not that of the leave. -/
def admits (p : Processor) (i : SlotId) : Bool :=
  decide (i < p.session.slots.cells.size) && !decide (p.leaveSlot? = some i)

/-- The links by which the slot of the leave and the slot `i` of a request may be completed. -/
structure Guarded (p : Processor) (i : SlotId) : Prop where
  /-- Nothing is linked to a slot that does not exist yet. -/
  unborn : ∀ j, p.session.slots.cells.size ≤ j → p.session.slots.LedBy (fun _ => False) j
  /-- The slot of the leave is pending, and nothing is linked to it. -/
  leave : ∀ l, p.leaveSlot? = some l →
    p.session.slots.isPending l = true ∧ p.session.slots.LedBy (fun _ => False) l
  /-- The slot of the request is linked to the slot of the leave at most. -/
  request : p.session.slots.LedBy (p.leaveSlot? = some ·) i

/-- The processor stays guarded, and the slots that may be used stay so. -/
structure Passes (p : Processor) (i : SlotId) (q : Processor) : Prop where
  guarded : q.Guarded i
  admits : ∀ j, p.admits j = true → q.admits j = true

variable {p q r : Processor} {i j l : SlotId} {I : SlotId → Prop} {x : Member} {c : Cause}

theorem admits_iff :
    p.admits j = true ↔ j < p.session.slots.cells.size ∧ p.leaveSlot? ≠ some j := by
  rw [admits, Bool.and_eq_true, decide_eq_true_iff, Bool.not_eq_true', decide_eq_false_iff_not]

theorem leaveSlot?_eq (hm : p.member = some x) : p.leaveSlot? = x.leaveSlot := by
  rw [leaveSlot?, hm]
  rfl

theorem leaveSlot?_of_none (hm : p.member = none) : p.leaveSlot? = none := by
  rw [leaveSlot?, hm]
  rfl

/-- A cause that does not set the member in motion leaves the leave alone. -/
theorem Steady.leaveSlot?_undergo (hp : p.Steady) (hc : c.trigger? p = none) :
    (p.undergo c).leaveSlot? = p.leaveSlot? := by
  cases hm : p.member with
  | none => rw [leaveSlot?_of_none hm, leaveSlot?_of_none (member_undergo_of_none hm c)]
  | some x =>
    have hturn := (hp x hm).turn c
    generalize p.undergo c = q at hturn
    rw [leaveSlot?_eq hm]
    cases hturn with
    | still _ hx | picked _ hx => exact leaveSlot?_eq hx
    | noticed _ hx => rw [leaveSlot?_eq hx]
    | moved hn => cases hn.symm.trans hc

theorem Passes.trans (h : p.Passes i q) (h' : q.Passes i r) : p.Passes i r :=
  ⟨h'.guarded, fun j hj => h'.admits j (h.admits j hj)⟩

/-! ### Work on slots that may be used -/

section Frame

variable (h : p.Guarded i) (hw : p.session.WorksOn I q.session)
  (hI : ∀ j, I j → p.admits j = true)

include h hw hI

/-- A leave that goes on is untouched. -/
theorem Guarded.leave_of_worksOn (hl : p.leaveSlot? = some l) :
    q.session.slots.isPending l = true ∧ q.session.slots.LedBy (fun _ => False) l := by
  obtain ⟨hp, hled⟩ := h.leave l hl
  obtain ⟨hlt, ho⟩ := Slots.isPending_iff.1 hp
  have hn : ¬ I l := fun hi => (admits_iff.1 (hI l hi)).2 hl
  refine ⟨Slots.isPending_iff.2 ⟨Nat.lt_of_lt_of_le hlt hw.size, ?_⟩, hw.links _ l hn hled⟩
  exact (hw.outcome _ l hlt hn hled fun _ => False.elim).trans ho

/-- The slot of the request has the outcome it had. -/
theorem Guarded.outcome?_of_worksOn (hi : ¬ I i) (hlt : i < p.session.slots.cells.size) :
    q.session.slots.outcome? i = p.session.slots.outcome? i := by
  refine hw.outcome _ i hlt hi h.request fun l hl => ?_
  exact (Slots.isPending_iff.1 (h.leave_of_worksOn hw hI hl).1).2

theorem Guarded.unborn_of_worksOn (hj : q.session.slots.cells.size ≤ j) :
    q.session.slots.LedBy (fun _ => False) j := by
  have hle := Nat.le_trans hw.size hj
  refine hw.links _ j (fun hi => ?_) (h.unborn j hle)
  exact Nat.not_le_of_lt (admits_iff.1 (hI j hi)).1 hle

/-- Work on slots that may be used, by which the leave stays what it is. -/
theorem Guarded.passes (hl : q.leaveSlot? = p.leaveSlot?)
    (hr : q.session.slots.LedBy (p.leaveSlot? = some ·) i) : p.Passes i q where
  guarded :=
    { unborn := fun _ => h.unborn_of_worksOn hw hI
      leave := fun _ hl' => h.leave_of_worksOn hw hI (hl.symm.trans hl')
      request := by rwa [hl] }
  admits j hj := by
    obtain ⟨hlt, hne⟩ := admits_iff.1 hj
    exact admits_iff.2 ⟨Nat.lt_of_lt_of_le hlt hw.size, by rwa [hl]⟩

theorem Guarded.passes_of_not_mem (hl : q.leaveSlot? = p.leaveSlot?) (hi : ¬ I i) :
    p.Passes i q := h.passes hw hI hl (hw.links _ i hi h.request)

end Frame

/-! ### Leaves -/

/-- A leave begins under a new slot. -/
theorem Guarded.begun (h : p.Guarded i) (hw : p.session.WorksOn (fun _ => False) q.session)
    (hp : p.leaveSlot? = none) (hq : q.leaveSlot? = some p.session.slots.cells.size)
    (hpend : q.session.slots.isPending p.session.slots.cells.size = true) : p.Passes i q where
  guarded :=
    { unborn := fun _ => h.unborn_of_worksOn hw fun _ => False.elim
      leave := by
        intro l hl
        obtain rfl := Option.some.inj (hq.symm.trans hl)
        exact ⟨hpend, hw.links _ _ not_false (h.unborn _ (Nat.le_refl _))⟩
      request := by
        refine (hw.links _ i not_false h.request).mono fun l hl => ?_
        cases hp.symm.trans hl }
  admits j hj := by
    have hlt := (admits_iff.1 hj).1
    refine admits_iff.2 ⟨Nat.lt_of_lt_of_le hlt hw.size, fun he => ?_⟩
    exact Nat.ne_of_gt hlt (Option.some.inj (hq.symm.trans he))

/-- When the leave ends, the slot of the request is told. -/
theorem Guarded.completeLeave {m : Membership} (h : (p.withMembership m).Guarded i)
    (u : Except Fault Unit) :
    (p.withMembership m).Passes i (p.withMembership (m.completeLeave u)) := by
  cases hl : m.member.leaveSlot with
  | none =>
    have hc : m.completeLeave u = m := by
      rw [Membership.completeLeave, hl]
    rw [hc]
    exact ⟨h, fun _ => id⟩
  | some l =>
    have hc : m.completeLeave u =
        ⟨{ m.member with leaveSlot := none }, m.session.completeUnit l u⟩ := by
      rw [Membership.completeLeave, hl]
    rw [hc]
    obtain ⟨hpend, -⟩ := h.leave l hl
    obtain ⟨hlt, ho⟩ := Slots.isPending_iff.1 hpend
    have hw : m.session.WorksOn (· = l) (m.session.completeUnit l u) :=
      Session.worksOn_completeUnit m.session l u
    have hled : m.session.slots.LedBy (· = l) i :=
      h.request.mono fun j hj => Option.some.inj (hj.symm.trans hl)
    refine ⟨⟨fun j hj => ?_, fun l' hn => ?_, ?_⟩, fun j hj => ?_⟩
    · have hle := Nat.le_trans hw.size hj
      exact hw.links _ j (fun hjl => Nat.not_le_of_lt (hjl ▸ hlt) hle) (h.unborn j hle)
    · cases hn
    · exact (hled.settle_source hlt ho _).mono fun _ => False.elim
    · refine admits_iff.2 ⟨Nat.lt_of_lt_of_le (admits_iff.1 hj).1 hw.size, fun hn => ?_⟩
      cases hn

/-- The ticket `t` is linked to a slot that is complete or that of the leave. -/
theorem Guarded.chain (h : p.Guarded i) {t : Ticket} (ht : p.admits t.slot = true)
    (hl : p.session.slots.isDone l = true ∨ p.leaveSlot? = some l) :
    p.Passes i (p.withSession (·.chain l t.slot)) := by
  have hw := Session.worksOn_chain p.session l t.slot
  have hI : ∀ j, j = t.slot → p.admits j = true := fun _ hj => hj ▸ ht
  refine h.passes hw hI rfl ?_
  have hrelay : Listener.Relays (.relay t.slot id) i := fun hi => by
    rw [List.mem_singleton.1 hi]
    exact ⟨id, rfl⟩
  obtain hl | hl := hl
  · exact h.request.listen_of_done hl hrelay
  · exact h.request.listen fun _ => ⟨hl, hrelay⟩

/-- A ticket that is linked to a leave that goes on is not completed. -/
theorem Guarded.outcome?_chain (h : p.Guarded i) (hl : p.leaveSlot? = some l) (j : SlotId) :
    (p.withSession (·.chain l j)).session.slots.outcome? i = p.session.slots.outcome? i :=
  Slots.outcome?_listen_of_pending (Slots.isPending_iff.1 (h.leave l hl).1).2 _ i

/-! ### Members -/

/-- The leave that went on is over. -/
def Ends (p q : Processor) : Prop := p.leaveSlot?.isSome = true ∧ q.leaveSlot? = none

/-- A member that keeps its leave does not answer the request. -/
theorem Guarded.keepsLeave (h : p.Guarded i) (hm : p.member = some x) {m : Membership}
    (hk : Membership.KeepsLeave ⟨x, p.session⟩ m) :
    p.Passes i (p.withMembership m) ∧
      (i < p.session.slots.cells.size →
        m.session.slots.outcome? i = p.session.slots.outcome? i) := by
  have hl : (p.withMembership m).leaveSlot? = p.leaveSlot? :=
    hk.leaveSlot.trans (leaveSlot?_eq hm).symm
  exact ⟨h.passes_of_not_mem hk.slots (fun _ => False.elim) hl not_false,
    h.outcome?_of_worksOn (q := p.withMembership m) hk.slots (fun _ => False.elim) not_false⟩

/-- A member answers the request only when its leave ends. -/
theorem Guarded.tends (h : p.Guarded i) (hm : p.member = some x) {m : Membership}
    (ht : Membership.Tends ⟨x, p.session⟩ m) :
    p.Passes i (p.withMembership m) ∧
      (i < p.session.slots.cells.size →
        m.session.slots.outcome? i ≠ p.session.slots.outcome? i → p.Ends (p.withMembership m)) := by
  obtain hk | ⟨k, u, hk, he⟩ := ht
  · obtain ⟨hpass, ho⟩ := h.keepsLeave hm hk
    exact ⟨hpass, fun hlt hne => absurd (ho hlt) hne⟩
  · obtain ⟨h₁, ho₁⟩ := h.keepsLeave hm hk
    have h₂ := h₁.guarded.completeLeave u
    obtain ⟨h₃, -⟩ := h₂.guarded.keepsLeave rfl he
    refine ⟨h₁.trans (h₂.trans h₃), fun hlt hne => ?_⟩
    cases hl : k.member.leaveSlot with
    | none =>
      -- There was no leave, so that nothing was completed in between.
      have hc : k.completeLeave u = k := by
        rw [Membership.completeLeave, hl]
      rw [hc] at he
      exact absurd ((h.keepsLeave hm (hk.trans he)).2 hlt) hne
    | some l =>
      have hc : (k.completeLeave u).member.leaveSlot = none := by
        rw [Membership.completeLeave, hl]
      refine ⟨?_, he.leaveSlot.trans hc⟩
      rw [leaveSlot?_eq hm, ← hk.leaveSlot, hl]
      rfl

end Processor

end GroupConsumer
