import GroupConsumer.Proofs.Session.Proceeds
import GroupConsumer.Proofs.Slot.Twins

/-!
# Sessions that are alike but for a few slots

Two sessions are twins if their slots differ in `D` alone and they agree in all that the loop goes by.
What was published for the caller, what was recorded and what was measured may differ. Whatever is done
to both of them keeps them twins, as long as nothing that leads out of `D` is hooked onto a slot in `D`.
-/

namespace GroupConsumer.Session

variable {D : SlotId → Prop} {s t : Session}

/-- The sessions differ in slots in `D`, in what the caller and the collaborators were told, and in
nothing else. -/
structure Twins (D : SlotId → Prop) (s t : Session) : Prop where
  slots : s.slots.Twins D t.slots
  clock : t.clock = s.clock
  subscription : t.subscription = s.subscription
  script : t.script = s.script
  futures : t.futures = s.futures

/-- The slot of an answer, which may be new. -/
def answered (s : Session) : Answer → Session × SlotId
  | .pending => s.fresh
  | .settled o => s.freshWith o
  | .again k =>
    match s.futures[k]? with
    | some (_, i) => (s, i)
    | none => s.fresh

/-- Asking is recording the call, taking the reply, and filing the answer. -/
theorem ask_eq_answered (s : Session) (m : Method) (call : Nat → Call) :
    let r := (s.asked m call).answered ((s.script.nextReply m).1 (call s.futures.size)).answer
    s.ask m call = ({ r.1 with futures := r.1.futures.push (m, r.2) }, r.2) := rfl

theorem deferred_eq_kept (s : Session) : s.deferred = s.slots.kept := by
  unfold Session.deferred Slots.kept
  congr 1
  funext n
  cases n <;> rfl

namespace Twins

theorem refl (h : s.slots.Encloses D) : Twins D s s := ⟨.refl h, rfl, rfl, rfl, rfl⟩

/-! ### Changes of no slot -/

theorem advance (h : Twins D s t) (ms : Int64) : Twins D (s.advance ms) (t.advance ms) :=
  ⟨h.slots, congrArg (· + ms) h.clock, h.subscription, h.script, h.futures⟩

theorem withScript (h : Twins D s t) (f : Script → Script) :
    Twins D (s.withScript f) (t.withScript f) :=
  ⟨h.slots, h.clock, h.subscription, congrArg f h.script, h.futures⟩

theorem withSubscription (h : Twins D s t) (f : Subscription → Subscription) :
    Twins D { s with subscription := f s.subscription } { t with subscription := f t.subscription } :=
  ⟨h.slots, h.clock, congrArg f h.subscription, h.script, h.futures⟩

theorem record (h : Twins D s t) (c d : Call) : Twins D (s.record c) (t.record d) :=
  ⟨h.slots, h.clock, h.subscription, h.script, h.futures⟩

theorem publish (h : Twins D s t) (e f : BackgroundEvent) : Twins D (s.publish e) (t.publish f) :=
  ⟨h.slots, h.clock, h.subscription, h.script, h.futures⟩

/-- Faults may be reported in one of the sessions alone. -/
theorem report_left (h : Twins D s t) (fs : List Fault) : Twins D (s.report fs) t := by
  induction fs generalizing s with
  | nil => exact h
  | cons f fs ih => exact ih ⟨h.slots, h.clock, h.subscription, h.script, h.futures⟩

theorem symm (h : Twins D s t) : Twins D t s :=
  ⟨h.slots.symm, h.clock.symm, h.subscription.symm, h.script.symm, h.futures.symm⟩

theorem report (h : Twins D s t) (fs gs : List Fault) : Twins D (s.report fs) (t.report gs) :=
  ((h.report_left fs).symm.report_left gs).symm

theorem giveSnapshot (h : Twins D s t) (snap : MemberSnapshot) :
    Twins D (s.giveSnapshot snap) (t.giveSnapshot snap) := by
  have hgiven {u v : Session} (h : Twins D u v) (script : Script) (ms : Int64) :
      Twins D ({ u with script }.advance ms) ({ v with script }.advance ms) :=
    ⟨h.slots, congrArg (· + ms) h.clock, h.subscription, rfl, h.futures⟩
  have hrecord : Twins D
      (if s.script.lastSnapshot ≠ some snap then s.record (.updateMembership snap) else s)
      (if s.script.lastSnapshot ≠ some snap then t.record (.updateMembership snap) else t) := by
    split
    · exact h.record _ _
    · exact h
  unfold Session.giveSnapshot
  simp only [h.script]
  rw [hrecord.script]
  exact hgiven hrecord _ _

/-! ### Changes of slots -/

theorem complete (h : Twins D s t) (i : SlotId) (o : Outcome Value) :
    Twins D (s.complete i o) (t.complete i o) :=
  ⟨h.slots.settle i o, h.clock, h.subscription, h.script, h.futures⟩

/-- A slot in `D` may be completed in one of the sessions alone. -/
theorem complete_left (h : Twins D s t) {i : SlotId} (hi : D i) (o : Outcome Value) :
    Twins D (s.complete i o) t :=
  ⟨h.slots.settle_left hi o, h.clock, h.subscription, h.script, h.futures⟩

theorem listen (h : Twins D s t) {i : SlotId} {l : Listener Value Deferral}
    (hl : D i → l.StaysIn D) :
    Twins D { s with slots := s.slots.listen i l } { t with slots := t.slots.listen i l } :=
  ⟨h.slots.listen hl, h.clock, h.subscription, h.script, h.futures⟩

theorem chain (h : Twins D s t) {source target : SlotId} (hs : D source → D target) :
    Twins D (s.chain source target) (t.chain source target) := h.listen hs

theorem holdFor (h : Twins D s t) {i : SlotId} (hi : ¬ D i) (d : Deferral)
    (target : Option SlotId) : Twins D (s.holdFor i d target) (t.holdFor i d target) :=
  h.listen fun hD => absurd hD hi

theorem fresh (h : Twins D s t) : Twins D s.fresh.1 t.fresh.1 ∧ t.fresh.2 = s.fresh.2 :=
  ⟨⟨h.slots.fresh, h.clock, h.subscription, h.script, h.futures⟩, h.slots.size⟩

theorem freshWith (h : Twins D s t) (o : Outcome Value) :
    Twins D (s.freshWith o).1 (t.freshWith o).1 ∧ (t.freshWith o).2 = (s.freshWith o).2 := by
  have hn : t.fresh.2 = s.fresh.2 := h.fresh.2
  refine ⟨?_, hn⟩
  show Twins D (s.fresh.1.complete s.fresh.2 o) (t.fresh.1.complete t.fresh.2 o)
  rw [hn]
  exact h.fresh.1.complete _ o

theorem answered (h : Twins D s t) (a : Answer) :
    Twins D (s.answered a).1 (t.answered a).1 ∧ (t.answered a).2 = (s.answered a).2 := by
  cases a with
  | pending => exact h.fresh
  | settled => exact h.freshWith _
  | again k =>
    unfold Session.answered
    simp only [h.futures]
    split
    · exact ⟨h, rfl⟩
    · exact h.fresh

/-- Both sessions get the same answer to the same call. -/
theorem ask (h : Twins D s t) (m : Method) (call : Nat → Call) :
    Twins D (s.ask m call).1 (t.ask m call).1 ∧ (t.ask m call).2 = (s.ask m call).2 := by
  have hasked : Twins D (s.asked m call) (t.asked m call) := by
    refine ⟨h.slots, ?_, h.subscription, ?_, h.futures⟩
    · show t.clock + _ = s.clock + _
      rw [h.clock, h.script, h.futures]
    · show (t.script.nextReply m).2 = (s.script.nextReply m).2
      rw [h.script]
  obtain ⟨hr, hi⟩ := hasked.answered ((s.script.nextReply m).1 (call s.futures.size)).answer
  rw [ask_eq_answered, ask_eq_answered, h.script, h.futures]
  refine ⟨⟨hr.slots, hr.clock, hr.subscription, hr.script, ?_⟩, hi⟩
  show Array.push _ _ = Array.push _ _
  rw [hi, hr.futures]

/-! ### What lookups have left -/

theorem deferred (h : Twins D s t) : t.deferred = s.deferred := by
  rw [deferred_eq_kept, deferred_eq_kept, h.slots.kept]

theorem takeDeferred (h : Twins D s t) : Twins D s.takeDeferred.1 t.takeDeferred.1 :=
  ⟨⟨h.slots.size, h.slots.cells, rfl, h.slots.left, h.slots.right⟩, h.clock, h.subscription,
    h.script, h.futures⟩

end Twins

end GroupConsumer.Session
