import GroupConsumer.Proofs.Subscription.Position

/-!
# Partitions that await a reset

A partition awaits a reset under a strategy if it has no position and the strategy is to find it one.
Of what can happen to a partition that stays assigned only a position ends this. Values that lookups
have left give it the position that they name for it, whichever lookup it was, and leave it alone if
they name none (`found_takePositions`, `found_takeCommitted`).
-/

namespace GroupConsumer.Subscription

variable {s t : Subscription} {tp : TopicPartition} {strategy : ResetStrategy}

/-- The partition is assigned, has no position, and is to get one under the strategy. -/
def Awaits (s : Subscription) (tp : TopicPartition) (strategy : ResetStrategy) : Prop :=
  ∃ st, s.assignment.get? tp = some st ∧ st.position = none ∧ st.pendingReset = some strategy

theorem Awaits.mem_assigned (h : s.Awaits tp strategy) : tp ∈ s.assigned := by
  obtain ⟨st, hst, -⟩ := h
  exact SortedMap.mem_keys.2 (Option.isSome_iff_exists.2 ⟨st, hst⟩)

theorem Awaits.position? (h : s.Awaits tp strategy) : s.position? tp = none := by
  obtain ⟨st, hst, hpos, -⟩ := h
  rw [Subscription.position?, hst]
  exact hpos

theorem Awaits.of_get? (h : s.Awaits tp strategy)
    (hst : t.assignment.get? tp = s.assignment.get? tp) : t.Awaits tp strategy := by
  rwa [Awaits, hst]

/-- A partition that awaits a reset is among those to look up, and for that reset alone. -/
theorem Awaits.mem_needingPosition (h : s.Awaits tp strategy) {r : Option ResetStrategy} :
    (tp, r) ∈ s.needingPosition ↔ r = some strategy := by
  rw [Subscription.mem_needingPosition]
  constructor
  · rintro ⟨st', hst', -, hr⟩
    obtain ⟨st, hst, -, hreset⟩ := h
    obtain rfl := Option.some.inj (hst.symm.trans hst')
    exact hr.symm.trans hreset
  · rintro rfl
    exact h

/-- A reset is awaited when it has been asked for. -/
theorem awaits_requestReset {parts : PartitionSet} (h : s.requestReset parts strategy = .ok t)
    (hm : tp ∈ parts) : t.Awaits tp strategy := by
  have ha : tp ∈ s.assigned := by
    unfold requestReset at h
    split at h
    · cases h
    · rename_i hall
      have hassigned := List.find?_eq_none.1 hall tp hm
      exact mem_assigned.2 (by simpa using hassigned)
  obtain ⟨st, hst⟩ := exists_of_mem_assigned ha
  have hget : t.assignment.get? tp = _ := get?_requestReset h
  rw [hst, Option.map_some, if_pos hm] at hget
  exact ⟨_, hget, rfl, rfl⟩

/-! ### What lookups have left -/

/-- A partition that awaits a reset gets its position from what a reset has found, whatever the strategy
of that reset was. -/
theorem found_takePositions (h : s.Awaits tp strategy) (m : PositionMap) :
    (m.get? tp = none → (Processor.takePositions s m).Awaits tp strategy) ∧
      ∀ o, m.get? tp = some o → (Processor.takePositions s m).position? tp = some o := by
  refine ⟨fun hn => h.of_get? ?_, fun o ho => ?_⟩
  · rw [get?_takePositions, hn]
    exact Option.map_id'
  · rw [position?_takePositions h.mem_assigned, ho]
    rfl

/-- A partition that awaits a reset gets its position from a committed offset, too. -/
theorem found_takeCommitted (h : s.Awaits tp strategy) (m : OffsetMap) :
    (m.get? tp = none → (Processor.takeCommitted s m).Awaits tp strategy) ∧
      ∀ c, m.get? tp = some c →
        (Processor.takeCommitted s m).position? tp = some c.offset := by
  refine ⟨fun hn => (lacks_takeCommitted m).2 ⟨h, hn⟩, fun c hc => ?_⟩
  rw [position?_takeCommitted h.mem_assigned, h.position?, hc]
  rfl

theorem awaits_takeEnds (h : s.Awaits tp strategy) (isolation : IsolationLevel) (m : LookupMap) :
    (Processor.takeEnds isolation s m).Awaits tp strategy := by
  obtain ⟨st, hst, hpos, hreset⟩ := h
  have hget := get?_takeEnds isolation s m tp
  rw [hst, Option.map_some] at hget
  cases hm : m.get? tp with
  | none =>
    rw [hm] at hget
    exact ⟨st, hget, hpos, hreset⟩
  | some found =>
    rw [hm] at hget
    obtain ⟨hp, -, hr⟩ := st.endingAt_eq isolation found
    exact ⟨_, hget, hp.trans hpos, hr.trans hreset⟩

end GroupConsumer.Subscription
