import GroupConsumer.Processor.Positions

/-!
# The form and the assigned partitions of a subscription

What each operation does to the form of a subscription and to the set of assigned partitions. All
that concerns how far partitions have been read leaves both alone (`Alike`); a new subscription
keeps the partitions (`Joins`); an assignment holds exactly the partitions that were given.
-/

namespace GroupConsumer

/-- What an operation is given as when it is not asked whether it changed something. -/
theorem exists_of_map_fst_eq_ok {E A B : Type} {r : Except E (A × B)} {a : A}
    (h : r.map (·.1) = .ok a) : ∃ b, r = .ok (a, b) := by
  cases r with
  | error e => cases h
  | ok r =>
    cases h
    exact ⟨r.2, rfl⟩

namespace Subscription

/-! ### Operations on positions -/

/-- The same form and the same assigned partitions. -/
structure Alike (s t : Subscription) : Prop where
  form : t.form = s.form
  assigned : t.assigned = s.assigned

theorem Alike.refl (s : Subscription) : Alike s s := ⟨rfl, rfl⟩

theorem Alike.trans {s t u : Subscription} (h : Alike s t) (h' : Alike t u) : Alike s u :=
  ⟨h'.form.trans h.form, h'.assigned.trans h.assigned⟩

theorem Alike.isAuto {s t : Subscription} (h : Alike s t) : t.isAuto = s.isAuto := by
  rw [Subscription.isAuto, h.form]
  rfl

theorem alike_adjust (s : Subscription) (tp : TopicPartition) (f : PartitionState → PartitionState) :
    Alike s (s.adjust tp f) := ⟨rfl, SortedMap.keys_adjust tp f s.assignment⟩

theorem alike_adjustAssigned {s t : Subscription} {tp : TopicPartition}
    {f : PartitionState → PartitionState} (h : s.adjustAssigned tp f = .ok t) : Alike s t := by
  unfold adjustAssigned at h
  split at h
  · cases h
    exact alike_adjust s tp f
  · cases h

theorem alike_seek {s t : Subscription} {tp : TopicPartition} {offset : Int64} {epoch : Option Int}
    (h : s.seek tp offset epoch = .ok t) : Alike s t := alike_adjustAssigned h

theorem alike_requestReset {s t : Subscription} {parts : PartitionSet} {strategy : ResetStrategy}
    (h : s.requestReset parts strategy = .ok t) : Alike s t := by
  unfold requestReset at h
  split at h
  · cases h
  · cases h
    exact ⟨rfl, SortedMap.keys_mapValues _ s.assignment⟩

/-- A fold of operations that leave the form and the partitions alone does so too. -/
theorem alike_foldl {α : Type} {f : Subscription → α → Subscription}
    (hf : ∀ s a, Alike s (f s a)) (l : List α) (s : Subscription) : Alike s (l.foldl f s) := by
  induction l generalizing s with
  | nil => exact Alike.refl s
  | cons a l ih => exact (hf s a).trans (ih (f s a))

theorem alike_takePositions (s : Subscription) (m : PositionMap) :
    Alike s (Processor.takePositions s m) := by
  refine alike_foldl (fun s e => ?_) m.entries s
  exact alike_adjust s e.1 _

theorem alike_takeCommitted (s : Subscription) (m : OffsetMap) :
    Alike s (Processor.takeCommitted s m) := by
  refine alike_foldl (fun s e => ?_) m.entries s
  split
  · exact alike_adjust s e.1 _
  · exact Alike.refl s

theorem alike_takeEnds (isolation : IsolationLevel) (s : Subscription) (m : LookupMap) :
    Alike s (Processor.takeEnds isolation s m) := by
  refine alike_foldl (fun s e => ?_) m.entries s
  split
  · exact Alike.refl s
  · exact alike_adjust s e.1 _
  · exact alike_adjust s e.1 _

/-! ### New subscriptions -/

/-- A subscription that the group serves, with the partitions of the one before. -/
structure Joins (s t : Subscription) : Prop where
  form : s.form = .none ∨ s.form = t.form
  auto : t.isAuto = true
  assigned : t.assigned = s.assigned

theorem Joins.trans_alike {s t u : Subscription} (h : Joins s t) (h' : Alike t u) : Joins s u where
  form := by
    rw [h'.form]
    exact h.form
  auto := h'.isAuto.trans h.auto
  assigned := h'.assigned.trans h.assigned

theorem withForm_eq_ok {s t : Subscription} {form : SubscriptionForm} (h : s.withForm form = .ok t) :
    (s.form = .none ∨ s.form = form) ∧ t = { s with form } := by
  unfold withForm at h
  split at h
  · rename_i hf
    cases h
    exact ⟨hf, rfl⟩
  · cases h

theorem subscribe_eq_ok {s : Subscription} {topics : SortedSet String} {r : Subscription × Bool}
    (h : s.subscribe topics = .ok r) :
    (s.form = .none ∨ s.form = .autoTopics) ∧ r.1 = { s with form := .autoTopics, topics } := by
  unfold subscribe at h
  split at h
  · cases h
  · cases hf : s.withForm .autoTopics with
    | error e =>
      rw [hf] at h
      cases h
    | ok t =>
      rw [hf] at h
      cases h
      obtain ⟨hform, rfl⟩ := withForm_eq_ok hf
      exact ⟨hform, rfl⟩

theorem subscribePattern_eq_ok {s t : Subscription} {source : String}
    (h : s.subscribePattern source = .ok t) :
    (s.form = .none ∨ s.form = .autoPattern) ∧ ∃ topics p,
      t = { s with form := .autoPattern, topics, pattern := some p } := by
  unfold subscribePattern at h
  cases hp : Pattern.ofSource source with
  | error e =>
    rw [hp] at h
    cases h
  | ok p =>
    rw [hp] at h
    cases hf : s.withForm .autoPattern with
    | error e =>
      simp only [hf, bind, Except.bind] at h
      cases h
    | ok u =>
      simp only [hf, bind, Except.bind] at h
      cases h
      obtain ⟨hform, rfl⟩ := withForm_eq_ok hf
      exact ⟨hform, _, p, rfl⟩

theorem subscribeMatched_eq_ok {s : Subscription} {topics : SortedSet String}
    {r : Subscription × Bool} (h : s.subscribeMatched topics = .ok r) :
    s.form = .autoPattern ∧ r.1 = { s with topics } := by
  unfold subscribeMatched at h
  split at h
  · rename_i hf
    cases h
    exact ⟨hf, rfl⟩
  · cases h

theorem joins_subscribe {s : Subscription} {topics : SortedSet String} {r : Subscription × Bool}
    (h : s.subscribe topics = .ok r) : Joins s r.1 := by
  obtain ⟨hform, he⟩ := subscribe_eq_ok h
  rw [he]
  exact ⟨hform, rfl, rfl⟩

theorem joins_subscribePattern {s t : Subscription} {source : String}
    (h : s.subscribePattern source = .ok t) : Joins s t := by
  obtain ⟨hform, _, _, rfl⟩ := subscribePattern_eq_ok h
  exact ⟨hform, rfl, rfl⟩

theorem alike_subscribeMatched {s : Subscription} {topics : SortedSet String}
    {r : Subscription × Bool} (h : s.subscribeMatched topics = .ok r) : Alike s r.1 := by
  rw [(subscribeMatched_eq_ok h).2]
  exact ⟨rfl, rfl⟩

/-! ### Assignments -/

@[simp] theorem form_reassign (s : Subscription) (parts : PartitionSet) :
    (s.reassign parts).form = s.form := rfl

@[simp] theorem isAuto_reassign (s : Subscription) (parts : PartitionSet) :
    (s.reassign parts).isAuto = s.isAuto := rfl

/-- After an assignment exactly the given partitions are assigned. -/
@[simp] theorem assigned_reassign (s : Subscription) (parts : PartitionSet) :
    (s.reassign parts).assigned = parts := by
  ext tp
  rw [assigned, reassign, SortedMap.mem_keys_ofList, List.map_map]
  show tp ∈ List.map (fun x => x) parts.toList ↔ tp ∈ parts
  rw [List.map_id']
  exact SortedSet.mem_toList

@[simp] theorem form_unsubscribe (s : Subscription) : s.unsubscribe.form = .none := rfl

@[simp] theorem isAuto_unsubscribe (s : Subscription) : s.unsubscribe.isAuto = false := rfl

@[simp] theorem assigned_unsubscribe (s : Subscription) : s.unsubscribe.assigned = ∅ := rfl

/-- An assignment by the caller, and what it tells of it. -/
theorem assignFromUser_gives {s : Subscription} {parts : PartitionSet} {r : Subscription × Bool}
    (h : s.assignFromUser parts = .ok r) :
    (s.form = .none ∨ s.form = .userAssigned) ∧
      r = ({ s with form := .userAssigned }.reassign parts, decide (s.assigned ≠ parts)) := by
  unfold assignFromUser at h
  split at h
  · cases h
  · cases hf : s.withForm .userAssigned with
    | error e =>
      rw [hf] at h
      cases h
    | ok t =>
      rw [hf] at h
      cases h
      obtain ⟨hform, rfl⟩ := withForm_eq_ok hf
      exact ⟨hform, rfl⟩

theorem assignFromUser_eq_ok {s : Subscription} {parts : PartitionSet} {r : Subscription × Bool}
    (h : s.assignFromUser parts = .ok r) :
    (s.form = .none ∨ s.form = .userAssigned) ∧
      r.1 = { s with form := .userAssigned }.reassign parts := by
  obtain ⟨hform, rfl⟩ := assignFromUser_gives h
  exact ⟨hform, rfl⟩

/-- An assignment by the group, and what it tells of it. -/
theorem assignFromGroup_gives {s : Subscription} {parts : PartitionSet} {r : Subscription × Bool}
    (h : s.assignFromGroup parts = .ok r) :
    s.isAuto = true ∧ r = (s.reassign parts, decide (s.assigned ≠ parts)) := by
  unfold assignFromGroup at h
  split at h
  · rename_i ha
    cases h
    exact ⟨ha, rfl⟩
  · cases h

theorem assignFromGroup_eq_ok {s : Subscription} {parts : PartitionSet} {r : Subscription × Bool}
    (h : s.assignFromGroup parts = .ok r) : s.isAuto = true ∧ r.1 = s.reassign parts := by
  obtain ⟨hauto, rfl⟩ := assignFromGroup_gives h
  exact ⟨hauto, rfl⟩

theorem assignFromGroup_of_isAuto {s : Subscription} (h : s.isAuto = true) (parts : PartitionSet) :
    s.assignFromGroup parts = .ok (s.reassign parts, decide (s.assigned ≠ parts)) := by
  rw [assignFromGroup, if_pos h]

theorem assignFromGroup_of_not_isAuto {s : Subscription} (h : s.isAuto = false)
    (parts : PartitionSet) :
    s.assignFromGroup parts = .error (.illegalState (.groupAssignmentOf s.form)) := by
  rw [assignFromGroup, if_neg (by simp [h])]

end Subscription

end GroupConsumer
