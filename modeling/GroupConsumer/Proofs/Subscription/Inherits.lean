import GroupConsumer.Proofs.Member.Effect

/-!
# What reads a pattern goes on reading it

`Inherits s t`: if `t` reads a pattern, then `s` has read the same pattern already, and picked the same
topics. All operations hand both on, or take the form away, apart from the two by which a pattern is
chosen and its topics are replaced.
-/

namespace GroupConsumer.Subscription

/-- What reads a pattern has read it before, with the same topics. -/
def Inherits (s t : Subscription) : Prop :=
  t.form = .autoPattern → s.form = .autoPattern ∧ t.topics = s.topics ∧ t.pattern = s.pattern

variable {s t u : Subscription}

theorem Inherits.refl (s : Subscription) : Inherits s s := fun h => ⟨h, rfl, rfl⟩

theorem Inherits.trans (h : Inherits s t) (h' : Inherits t u) : Inherits s u := by
  intro hu
  obtain ⟨ht, htopics', hpattern'⟩ := h' hu
  obtain ⟨hs, htopics, hpattern⟩ := h ht
  exact ⟨hs, htopics'.trans htopics, hpattern'.trans hpattern⟩

/-- What does not read a pattern inherits from anything. -/
theorem inherits_of_form (s : Subscription) (h : t.form ≠ .autoPattern) : Inherits s t :=
  fun ht => absurd ht h

/-! ### Positions and partitions -/

theorem inherits_adjust (s : Subscription) (tp : TopicPartition)
    (f : PartitionState → PartitionState) : Inherits s (s.adjust tp f) := Inherits.refl s

theorem inherits_reassign (s : Subscription) (parts : PartitionSet) :
    Inherits s (s.reassign parts) := Inherits.refl s

theorem inherits_unsubscribe (s : Subscription) : Inherits s s.unsubscribe :=
  inherits_of_form s (by simp)

theorem inherits_released (s : Subscription) : Inherits s s.released := by
  unfold released
  split
  · exact inherits_reassign s ∅
  · exact Inherits.refl s

theorem inherits_seek {tp : TopicPartition} {offset : Int64} {epoch : Option Int}
    (h : s.seek tp offset epoch = .ok t) : Inherits s t := by
  unfold seek adjustAssigned at h
  split at h
  · cases h
    exact inherits_adjust s tp _
  · cases h

theorem inherits_requestReset {parts : PartitionSet} {strategy : ResetStrategy}
    (h : s.requestReset parts strategy = .ok t) : Inherits s t := by
  unfold requestReset at h
  split at h
  · cases h
  · cases h
    exact Inherits.refl s

theorem inherits_takePositions (s : Subscription) (m : PositionMap) :
    Inherits s (Processor.takePositions s m) :=
  List.foldlRecOn m.entries _ (Inherits.refl s) fun t ht e _ => ht.trans (inherits_adjust t e.1 _)

theorem inherits_takeCommitted (s : Subscription) (m : OffsetMap) :
    Inherits s (Processor.takeCommitted s m) := by
  refine List.foldlRecOn m.entries _ (Inherits.refl s) fun t ht e _ => ht.trans ?_
  split
  · exact inherits_adjust t e.1 _
  · exact Inherits.refl t

theorem inherits_takeEnds (isolation : IsolationLevel) (s : Subscription) (m : LookupMap) :
    Inherits s (Processor.takeEnds isolation s m) := by
  refine List.foldlRecOn m.entries _ (Inherits.refl s) fun t ht e _ => ht.trans ?_
  split
  · exact Inherits.refl t
  · exact inherits_adjust t e.1 _
  · exact inherits_adjust t e.1 _

/-! ### Other forms -/

theorem inherits_subscribe {topics : SortedSet String} {r : Subscription × Bool}
    (h : s.subscribe topics = .ok r) : Inherits s r.1 := by
  rw [(subscribe_eq_ok h).2]
  exact inherits_of_form s (by simp)

theorem inherits_assignFromUser {parts : PartitionSet} {r : Subscription × Bool}
    (h : s.assignFromUser parts = .ok r) : Inherits s r.1 := by
  rw [(assignFromUser_eq_ok h).2]
  exact inherits_of_form s (by simp)

end GroupConsumer.Subscription
