import GroupConsumer.Proofs.Member.Effect

/-!
# The positions of a subscription

What the operations of a subscription do to the state of a partition. A new form and a new assignment
leave it alone as long as the partition stays assigned, and let a new one start afresh (`Renews`). A
seek sets its position, a reset gives it up, and of what lookups have left the positions found by a
reset replace it (`get?_takePositions`), while committed offsets do not (`get?_takeCommitted`).
-/

namespace GroupConsumer.PartitionState

/-- The state of a partition whose position has been found. -/
def foundAt (st : PartitionState) (offset : Int64) : PartitionState :=
  { st with position := some offset, pendingReset := none }

/-- The state of a partition whose end has been looked up, and found or not. -/
def endingAt (st : PartitionState) (isolation : IsolationLevel) :
    Option FoundOffset → PartitionState
  | none => st
  | some found =>
    match isolation with
    | .readUncommitted => { st with highWatermark := some found.offset }
    | .readCommitted => { st with lastStableOffset := some found.offset }

/-- A look at the end of a partition leaves its position, the epoch of its leader and its reset
alone. -/
theorem endingAt_eq (st : PartitionState) (isolation : IsolationLevel) (found : Option FoundOffset) :
    (st.endingAt isolation found).position = st.position ∧
      (st.endingAt isolation found).leaderEpoch = st.leaderEpoch ∧
      (st.endingAt isolation found).pendingReset = st.pendingReset := by
  cases found with
  | none => exact ⟨rfl, rfl, rfl⟩
  | some found => cases isolation <;> exact ⟨rfl, rfl, rfl⟩

end GroupConsumer.PartitionState

namespace GroupConsumer.Subscription

variable {s t : Subscription} {tp : TopicPartition} {o : Int64}

/-- The position of a partition that is assigned and has one. -/
def position? (s : Subscription) (tp : TopicPartition) : Option Int64 :=
  (s.assignment.get? tp).bind (·.position)

theorem mem_assigned : tp ∈ s.assigned ↔ s.isAssigned tp = true := SortedMap.mem_keys

theorem exists_of_mem_assigned (h : tp ∈ s.assigned) : ∃ st, s.assignment.get? tp = some st :=
  Option.isSome_iff_exists.1 (SortedMap.mem_keys.1 h)

theorem get?_of_not_mem_assigned (h : tp ∉ s.assigned) : s.assignment.get? tp = none := by
  rwa [assigned, SortedMap.mem_keys, Bool.not_eq_true, Option.isSome_eq_false_iff,
    Option.isNone_iff_eq_none] at h

/-! ### Partitions without a position -/

/-- The partition is assigned and has no position; the reset is the one that it awaits, if any. -/
def Lacks (s : Subscription) (tp : TopicPartition) (reset : Option ResetStrategy) : Prop :=
  ∃ st, s.assignment.get? tp = some st ∧ st.position = none ∧ st.pendingReset = reset

/-- What is to be looked up. -/
theorem mem_needingPosition {r : Option ResetStrategy} :
    (tp, r) ∈ s.needingPosition ↔ s.Lacks tp r := by
  rw [needingPosition, List.mem_map]
  constructor
  · rintro ⟨⟨tp', st⟩, he, hr⟩
    cases hr
    obtain ⟨he, hn⟩ := List.mem_filter.1 he
    exact ⟨st, SortedMap.get?_eq_some_iff.2 he, Option.isNone_iff_eq_none.1 hn, rfl⟩
  · rintro ⟨st, hst, hpos, rfl⟩
    refine ⟨(tp, st), List.mem_filter.2 ⟨SortedMap.get?_eq_some_iff.1 hst, ?_⟩, rfl⟩
    rw [hpos]
    rfl

/-- Every partition is looked up once. -/
theorem nodup_needingPosition (s : Subscription) : (s.needingPosition.map (·.1)).Nodup := by
  have hne {a b : TopicPartition × PartitionState} (hlt : compare a.1 b.1 = .lt) : a.1 ≠ b.1 := by
    intro he
    simp [he, Std.ReflCmp.compare_self] at hlt
  rw [needingPosition, List.map_map]
  exact List.pairwise_map.2 ((s.assignment.ascending.filter _).imp hne)

theorem needingPosition_isEmpty :
    s.needingPosition.isEmpty = true ↔ ∀ tp r, ¬ s.Lacks tp r := by
  rw [List.isEmpty_iff, List.eq_nil_iff_forall_not_mem]
  exact ⟨fun h tp r hl => h _ (mem_needingPosition.2 hl),
    fun h e he => h e.1 e.2 (mem_needingPosition.1 he)⟩

/-- A partition with a position does not lack one. -/
theorem not_lacks_of_position? (h : s.position? tp = some o) (r : Option ResetStrategy) :
    ¬ s.Lacks tp r := by
  rintro ⟨st, hst, hpos, -⟩
  rw [position?, hst, Option.bind_some, hpos] at h
  cases h

/-- Every partition has a position that lacks none. -/
theorem forall_not_lacks_iff :
    (∀ tp r, ¬ s.Lacks tp r) ↔ ∀ tp ∈ s.assigned, (s.position? tp).isSome = true := by
  constructor
  · intro h tp ha
    obtain ⟨st, hst⟩ := exists_of_mem_assigned ha
    rw [position?, hst]
    exact Option.isSome_iff_ne_none.2 fun hpos => h tp _ ⟨st, hst, hpos, rfl⟩
  · rintro h tp r ⟨st, hst, hpos, -⟩
    have hp := h tp (SortedMap.mem_keys.2 (Option.isSome_iff_exists.2 ⟨st, hst⟩))
    rw [position?, hst, Option.bind_some, hpos] at hp
    cases hp

theorem hasAllPositions_iff :
    s.hasAllPositions = true ↔ ∀ tp ∈ s.assigned, (s.position? tp).isSome = true := by
  rw [hasAllPositions, SortedMap.values, List.all_map, List.all_eq_true]
  constructor
  · intro h tp ha
    obtain ⟨st, hst⟩ := exists_of_mem_assigned ha
    rw [position?, hst]
    exact h _ (SortedMap.get?_eq_some_iff.1 hst)
  · rintro h ⟨tp, st⟩ he
    have hst := SortedMap.get?_eq_some_iff.2 he
    have hp := h tp (SortedMap.mem_keys.2 (Option.isSome_iff_exists.2 ⟨st, hst⟩))
    rwa [position?, hst] at hp

/-! ### Forms and assignments -/

/-- A partition that stays assigned keeps its state. -/
def Retains (s t : Subscription) : Prop :=
  ∀ tp, tp ∈ s.assigned → tp ∈ t.assigned → t.assignment.get? tp = s.assignment.get? tp

/-- A partition that stays assigned keeps its state, and a new one starts with none. -/
def Renews (s t : Subscription) : Prop :=
  ∀ tp st, t.assignment.get? tp = some st → st = (s.assignment.get? tp).getD {}

theorem Renews.retains (h : Renews s t) : Retains s t := by
  intro tp hs ht
  obtain ⟨st, hst⟩ := exists_of_mem_assigned hs
  obtain ⟨st', hst'⟩ := exists_of_mem_assigned ht
  have he := h tp st' hst'
  rw [hst, Option.getD_some] at he
  rw [hst, hst', he]

theorem renews_of_assignment (h : t.assignment = s.assignment) : Renews s t := by
  intro tp st hst
  rw [← h, hst]
  rfl

/-- A partition that was assigned keeps its state, and a new one starts with none. -/
theorem get?_reassign (s : Subscription) (parts : PartitionSet) (tp : TopicPartition) :
    (s.reassign parts).assignment.get? tp =
      if tp ∈ parts then some ((s.assignment.get? tp).getD {}) else none := by
  split
  · rename_i ht
    rw [reassign]
    refine SortedMap.get?_ofList ?_ ?_
    · rw [List.map_map]
      exact List.mem_map.2 ⟨tp, SortedSet.mem_toList.2 ht, rfl⟩
    · intro e he hk
      obtain ⟨tp', -, rfl⟩ := List.mem_map.1 he
      obtain rfl : tp' = tp := hk
      rfl
  · rename_i ht
    rw [← assigned_reassign s parts] at ht
    exact get?_of_not_mem_assigned ht

theorem renews_reassign (s : Subscription) (parts : PartitionSet) :
    Renews s (s.reassign parts) := by
  intro tp st hst
  rw [get?_reassign] at hst
  split at hst
  · exact (Option.some.inj hst).symm
  · cases hst

theorem renews_unsubscribe (s : Subscription) : Renews s s.unsubscribe :=
  fun _ _ hst => by cases hst

theorem renews_released (s : Subscription) : Renews s s.released := by
  unfold released
  split
  · exact renews_reassign s ∅
  · exact renews_of_assignment rfl

theorem assignment_subscribe {topics : SortedSet String} {r : Subscription × Bool}
    (h : s.subscribe topics = .ok r) : r.1.assignment = s.assignment := by
  rw [(subscribe_eq_ok h).2]

theorem assignment_subscribePattern {source : String} (h : s.subscribePattern source = .ok t) :
    t.assignment = s.assignment := by
  obtain ⟨-, _, _, rfl⟩ := subscribePattern_eq_ok h
  rfl

theorem assignment_subscribeMatched {topics : SortedSet String} {r : Subscription × Bool}
    (h : s.subscribeMatched topics = .ok r) : r.1.assignment = s.assignment := by
  rw [(subscribeMatched_eq_ok h).2]

theorem renews_assignFromUser {parts : PartitionSet} {r : Subscription × Bool}
    (h : s.assignFromUser parts = .ok r) : Renews s r.1 := by
  rw [(assignFromUser_eq_ok h).2]
  exact renews_reassign { s with form := .userAssigned } parts

/-! ### Single positions -/

/-- A change of one partition. -/
theorem get?_adjust (f : PartitionState → PartitionState) (tp' : TopicPartition) :
    (s.adjust tp' f).assignment.get? tp =
      if tp = tp' then (s.assignment.get? tp).map f else s.assignment.get? tp := by
  rw [adjust, SortedMap.get?_adjust]
  by_cases h : tp = tp'
  · simp [h]
  · simp [h]

/-- The position of a partition whose state has changed. -/
theorem position?_eq {f : PartitionState → PartitionState}
    (h : t.assignment.get? tp = (s.assignment.get? tp).map f) :
    t.position? tp = (s.assignment.get? tp).bind fun st => (f st).position := by
  rw [position?, h, Option.bind_map]
  rfl

/-- A position is set where the partition is assigned. -/
theorem position?_set (h : tp ∈ s.assigned) {f : PartitionState → PartitionState}
    (hf : ∀ st, (f st).position = some o) : (s.adjust tp f).position? tp = some o := by
  obtain ⟨st, hst⟩ := exists_of_mem_assigned h
  rw [position?_eq ((get?_adjust f tp).trans (if_pos rfl)), hst]
  exact hf st

theorem seek_of_mem (h : tp ∈ s.assigned) (o : Int64) (epoch : Option Int) :
    s.seek tp o epoch = .ok (s.adjust tp fun p =>
      { p with position := some o, leaderEpoch := epoch, pendingReset := none }) :=
  if_pos (mem_assigned.1 h)

theorem get?_requestReset {parts : PartitionSet} {strategy : ResetStrategy}
    (h : s.requestReset parts strategy = .ok t) :
    t.assignment.get? tp = (s.assignment.get? tp).map fun p =>
      if tp ∈ parts then { p with position := none, pendingReset := some strategy } else p := by
  unfold requestReset at h
  split at h
  · cases h
  · cases h
    exact SortedMap.get?_mapValues

/-! ### What lookups have left -/

/-- A row of updates in ascending order, each of which changes the state of its own partition: a
partition is changed by the update that names it, if there is one. -/
theorem get?_foldl {α : Type} {update : Subscription → TopicPartition × α → Subscription}
    {f : α → PartitionState → PartitionState}
    (hu : ∀ s e, (update s e).assignment.get? tp =
      if tp = e.1 then (s.assignment.get? tp).map (f e.2) else s.assignment.get? tp)
    {es : List (TopicPartition × α)} (hes : es.Pairwise (fun a b => compare a.1 b.1 = .lt))
    (s : Subscription) :
    (es.foldl update s).assignment.get? tp =
      (s.assignment.get? tp).map fun st => (SortedMap.lookup tp es).elim st (f · st) := by
  induction es generalizing s with
  | nil => exact Option.map_id'.symm
  | cons e es ih =>
    obtain ⟨tp', v⟩ := e
    rw [List.pairwise_cons] at hes
    rw [List.foldl_cons, ih hes.2, hu]
    by_cases he : tp = tp'
    · -- The keys ascend, so that nothing further is found for the partition.
      subst he
      have hn : SortedMap.lookup tp es = none := by
        rw [← Option.not_isSome_iff_eq_none, SortedMap.lookup_isSome]
        intro hm
        obtain ⟨e, he, het⟩ := List.mem_map.1 hm
        have hlt := hes.1 e he
        simp [het, Std.ReflCmp.compare_self] at hlt
      have hl : SortedMap.lookup tp ((tp, v) :: es) = some v := if_pos rfl
      rw [if_pos rfl, hn, hl, Option.map_map]
      rfl
    · have hl : SortedMap.lookup tp ((tp', v) :: es) = SortedMap.lookup tp es :=
        if_neg (Ne.symm he)
      rw [if_neg he, hl]

/-- What a reset has found replaces the position, whatever it is. -/
theorem get?_takePositions (s : Subscription) (m : PositionMap) (tp : TopicPartition) :
    (Processor.takePositions s m).assignment.get? tp =
      (s.assignment.get? tp).map fun st => (m.get? tp).elim st st.foundAt :=
  get?_foldl (f := fun o st => st.foundAt o) (fun _ e => get?_adjust _ e.1) m.ascending s

/-- A committed offset does not replace a position. -/
theorem get?_takeCommitted (s : Subscription) (m : OffsetMap) (tp : TopicPartition) :
    (Processor.takeCommitted s m).assignment.get? tp =
      (s.assignment.get? tp).map fun st =>
        if st.position = none then (m.get? tp).elim st (st.foundAt ·.offset) else st := by
  refine (get?_foldl (f := fun c st => if st.position = none then st.foundAt c.offset else st)
    (fun s e => ?_) m.ascending s).trans ?_
  · split
    · -- The partition of the update has no position.
      rename_i hn
      obtain ⟨st, hst, hpos⟩ := (Option.any_eq_true _ _).1 hn
      rw [updatePosition, get?_adjust]
      by_cases he : tp = e.1
      · subst he
        rw [if_pos rfl, if_pos rfl, hst, Option.map_some, Option.map_some,
          if_pos (Option.isNone_iff_eq_none.1 hpos)]
        rfl
      · rw [if_neg he, if_neg he]
    · rename_i hn
      by_cases he : tp = e.1
      · subst he
        rw [if_pos rfl]
        cases hst : s.assignment.get? e.1 with
        | none => rfl
        | some st =>
          rw [hst] at hn
          have hpos : st.position ≠ none := fun h => hn (by simp [h])
          rw [Option.map_some, if_neg hpos]
      · rw [if_neg he]
  · congr 1
    funext st
    show (m.get? tp).elim _ _ = _
    cases m.get? tp <;> simp

/-- The end of a partition is no matter of its position. -/
theorem get?_takeEnds (isolation : IsolationLevel) (s : Subscription) (m : LookupMap)
    (tp : TopicPartition) :
    (Processor.takeEnds isolation s m).assignment.get? tp =
      (s.assignment.get? tp).map fun st => (m.get? tp).elim st (st.endingAt isolation ·) := by
  refine get?_foldl (f := fun found st => st.endingAt isolation found) (fun s e => ?_)
    m.ascending s
  obtain ⟨tp', found⟩ := e
  cases found with
  | none =>
    show s.assignment.get? tp = if tp = tp' then (s.assignment.get? tp).map id else _
    rw [Option.map_id_fun]
    exact (ite_self _).symm
  | some found => cases isolation <;> exact get?_adjust _ tp'

/-- The default for resets is the caller's. -/
theorem defaultReset_takeCommitted (s : Subscription) (m : OffsetMap) :
    (Processor.takeCommitted s m).defaultReset = s.defaultReset := by
  refine List.foldlRecOn (motive := fun t : Subscription => t.defaultReset = s.defaultReset) m.entries _ rfl
    fun t ht e _ => ?_
  split
  · exact ht
  · exact ht

theorem position?_takePositions (h : tp ∈ s.assigned) (m : PositionMap) :
    (Processor.takePositions s m).position? tp = (m.get? tp).or (s.position? tp) := by
  obtain ⟨st, hst⟩ := exists_of_mem_assigned h
  rw [position?_eq (get?_takePositions s m tp), position?, hst]
  cases m.get? tp <;> rfl

theorem position?_takeCommitted (h : tp ∈ s.assigned) (m : OffsetMap) :
    (Processor.takeCommitted s m).position? tp =
      (s.position? tp).or ((m.get? tp).map (·.offset)) := by
  obtain ⟨st, hst⟩ := exists_of_mem_assigned h
  rw [position?_eq (get?_takeCommitted s m tp), position?, hst, Option.bind_some, Option.bind_some]
  cases hpos : st.position with
  | none =>
    rw [if_pos rfl]
    cases m.get? tp with
    | none => exact hpos
    | some c => rfl
  | some o =>
    rw [if_neg (by simp)]
    exact hpos

/-- A partition goes on without a position if no offset has been committed for it, and awaits what it
did before. -/
theorem lacks_takeCommitted (m : OffsetMap) {r : Option ResetStrategy} :
    (Processor.takeCommitted s m).Lacks tp r ↔ s.Lacks tp r ∧ m.get? tp = none := by
  rw [Lacks, get?_takeCommitted]
  constructor
  · rintro ⟨st', hst', hpos, hr⟩
    obtain ⟨st, hst, rfl⟩ := Option.map_eq_some_iff.1 hst'
    split at hpos
    · rename_i hn
      rw [if_pos hn] at hr
      cases hm : m.get? tp with
      | none =>
        rw [hm] at hr
        exact ⟨⟨st, hst, hn, hr⟩, rfl⟩
      | some c =>
        rw [hm] at hpos
        cases hpos
    · rename_i hn
      exact absurd hpos hn
  · rintro ⟨⟨st, hst, hpos, hr⟩, hm⟩
    refine ⟨st, ?_, hpos, hr⟩
    rw [hst, Option.map_some, if_pos hpos, hm]
    rfl

theorem position?_takeEnds (isolation : IsolationLevel) (m : LookupMap) :
    (Processor.takeEnds isolation s m).position? tp = s.position? tp := by
  rw [position?_eq (get?_takeEnds isolation s m tp), position?]
  congr 1
  funext st
  cases m.get? tp with
  | none => rfl
  | some found => exact (st.endingAt_eq isolation found).1

end GroupConsumer.Subscription
