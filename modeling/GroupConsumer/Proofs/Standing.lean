import GroupConsumer.Proofs.Run.Requests

/-!
# Where a member stands at every point of a run

The state of a member says what it is busy with, whether it has a target, what it owns and under which
epoch, and whether a leave goes on (`Member.Coherent`). This holds at every point of every run, also
between the parts of an action, and as long as everybody uses the slots that belong to them the slot of
a leave that goes on is pending (`coherent_at_points`).
-/

namespace GroupConsumer.Setup

/-- A member in a state is one that this state allows, and a leave that goes on has not been answered
yet. -/
theorem coherent_at_points (u : Setup) (as : List Action) :
    ∀ k ∈ (u.record true as).points, ∃ x, k.present.member = some x ∧ x.Coherent ∧
      ((u.begin true).discreet as = true →
        ∀ l, x.leaveSlot = some l → k.present.session.slots.isPending l = true) := by
  intro k hk
  have hlived : Chronicle.Lived (u.begin true) k := (u.lived_record true as).of_mem_points hk
  obtain ⟨x, hx⟩ := hlived.sound u.sound
  refine ⟨x, hx.member, hx.coherent, fun hd l hl => ?_⟩
  -- The links to the leave are kept for a slot that nobody uses.
  obtain ⟨i, hs⟩ := exists_spared as
  have hguarded := ((u.orderly hd hs).of_mem_points hk).guarded
  exact (hguarded.leave l ((Processor.leaveSlot?_eq hx.member).trans hl)).1

/-- A consumer that unsubscribes while it owns a partition lets its caller hear of it, and its leave
is pending until then. -/
theorem coherent_when_departing :
    ∃ x l, (heartbeatSetup.record true departingSteps).present.member = some x ∧
      x.state = .prepareLeaving ∧ (∃ i, x.stage = .leavingRevoke i) ∧ x.leaveSlot = some l ∧
      x.owned ≠ ∅ ∧
      (heartbeatSetup.record true departingSteps).present.session.slots.isPending l = true := by
  let k := heartbeatSetup.record true departingSteps
  have hd : (heartbeatSetup.begin true).discreet departingSteps = true := by decide +kernel
  have hstate : k.present.state? = some .prepareLeaving := by decide +kernel
  obtain ⟨x, hx, hco, hleave⟩ := coherent_at_points heartbeatSetup departingSteps k k.mem_points_self
  have hs : x.state = .prepareLeaving :=
    Option.some.inj ((Processor.state?_eq hx).symm.trans hstate)
  obtain ⟨hstage, -, hslot, howned⟩ := hco.of_prepareLeaving hs
  obtain ⟨l, hl⟩ := Option.isSome_iff_exists.1 hslot
  exact ⟨x, l, hx, hs, hstage, hl, howned, hleave hd l hl⟩

end GroupConsumer.Setup
