import GroupConsumer.Proofs.Run.Chronicle

/-!
# What is owned is what is assigned

The member and the subscription each keep a set of partitions. All through a run they are the same
as long as the group serves the subscription, and the member owns nothing otherwise
(`owned_eq_assigned`). So every snapshot that the heartbeat manager is given names just the
partitions that the consumer fetches for the group.
-/

namespace GroupConsumer

/-- The partitions that the consumer fetches for its group. -/
def Subscription.fromGroup (s : Subscription) : PartitionSet := if s.isAuto then s.assigned else ∅

theorem Membership.Agrees.owned {m : Membership} (h : m.Agrees) :
    m.member.owned = m.session.subscription.fromGroup := by
  unfold Subscription.fromGroup
  split
  · rename_i hauto
    exact (h.auto hauto).symm
  · rename_i hauto
    exact h.other (by simpa using hauto)

namespace Setup

/-- At every point of a run the member owns what the group has assigned in the subscription, and
nothing if the group does not serve it. Every snapshot says so too. -/
theorem owned_eq_assigned (u : Setup) (as : List Action) :
    let k := u.chronicle as
    ∃ x, k.present.member = some x ∧
      (k.present.subscription.isAuto = true → k.present.subscription.assigned = x.owned) ∧
      (k.present.subscription.isAuto = false → x.owned = ∅) ∧
      ∀ y ∈ k.past, ∀ snap, y.told? = some snap → snap.owned = y.before.subscription.fromGroup := by
  intro k
  obtain ⟨x, hx⟩ := u.sound_present as
  refine ⟨x, hx.member, hx.agrees.auto, hx.agrees.other, ?_⟩
  intro y hy snap hs
  obtain ⟨later, earlier, hk⟩ := List.append_of_mem hy
  obtain ⟨z, hz⟩ := ((u.lived as).at_moment hk).sound u.sound
  rw [(Moment.eq_snapshot_of_told? hz.member hs).2.2]
  exact hz.agrees.owned

/-- A member that has been given a partition tells so. -/
theorem owned_eq_assigned_firstSteps :
    ∃ y ∈ (firstSetup.chronicle firstSteps).past, ∃ snap, y.told? = some snap ∧
      snap.state = .reconciling ∧ snap.owned = y.before.subscription.fromGroup := by
  have hs : (((firstSetup.chronicle firstSteps).past[1]?.bind (·.told?)).map (·.state)) =
      some .reconciling := by decide +kernel
  obtain ⟨snap, hb, hst⟩ := Option.map_eq_some_iff.1 hs
  obtain ⟨y, hy, ht⟩ := Option.bind_eq_some_iff.1 hb
  have hmem := List.mem_of_getElem? hy
  obtain ⟨x, -, -, -, h⟩ := owned_eq_assigned firstSetup firstSteps
  exact ⟨y, hmem, snap, ht, hst, h y hmem snap ht⟩

end Setup

end GroupConsumer
