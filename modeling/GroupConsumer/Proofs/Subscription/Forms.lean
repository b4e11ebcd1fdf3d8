import GroupConsumer.Proofs.Subscription.Position

/-!
# Forms exclude each other

A subscription has one form at a time, and holds only what belongs to that form. Whatever is done to it
from the start, it stays well formed, its form only changes from none and back to none, and the
partitions that a reset waits for are those that are listed as in need of a position
(`wellFormed_after`).
-/

namespace GroupConsumer

/-- A partition has a position, or a reset is to find it one, but not both. -/
def PartitionState.Sound (st : PartitionState) : Prop := st.position = none ∨ st.pendingReset = none

namespace Subscription

variable {s t : Subscription} {tp : TopicPartition}

/-- What can be done to a subscription. What only asks for something is left out. -/
inductive Operation where
  | subscribe (topics : SortedSet String)
  | subscribePattern (source : String)
  | subscribeMatched (topics : SortedSet String)
  | assignFromUser (parts : PartitionSet)
  | assignFromGroup (parts : PartitionSet)
  | unsubscribe
  | seek (tp : TopicPartition) (offset : Int64) (leaderEpoch : Option Int)
  | requestReset (parts : PartitionSet) (strategy : ResetStrategy)
  | updatePosition (tp : TopicPartition) (offset : Int64)
  | updateHighWatermark (tp : TopicPartition) (offset : Int64)
  | updateLastStableOffset (tp : TopicPartition) (offset : Int64)
  | pause (tp : TopicPartition)
  | resume (tp : TopicPartition)

/-- The form that an operation asks for. -/
def Operation.form? : Operation → Option SubscriptionForm
  | subscribe _ => some .autoTopics
  | subscribePattern _ => some .autoPattern
  | assignFromUser _ => some .userAssigned
  | _ => none

/-- An operation, which may be refused. -/
def attempt (s : Subscription) : Operation → Except Fault Subscription
  | .subscribe topics => (s.subscribe topics).map (·.1)
  | .subscribePattern source => s.subscribePattern source
  | .subscribeMatched topics => (s.subscribeMatched topics).map (·.1)
  | .assignFromUser parts => (s.assignFromUser parts).map (·.1)
  | .assignFromGroup parts => (s.assignFromGroup parts).map (·.1)
  | .unsubscribe => .ok s.unsubscribe
  | .seek tp offset leaderEpoch => s.seek tp offset leaderEpoch
  | .requestReset parts strategy => s.requestReset parts strategy
  | .updatePosition tp offset => .ok (s.updatePosition tp offset)
  | .updateHighWatermark tp offset => .ok (s.updateHighWatermark tp offset)
  | .updateLastStableOffset tp offset => .ok (s.updateLastStableOffset tp offset)
  | .pause tp => s.pause tp
  | .resume tp => s.resume tp

/-- The subscription after an operation; one that is refused changes nothing. -/
def operate (s : Subscription) (op : Operation) : Subscription :=
  match s.attempt op with
  | .ok t => t
  | .error _ => s

/-- The subscription after a row of operations. -/
def after (s : Subscription) (ops : List Operation) : Subscription := ops.foldl operate s

/-- What an operation that is not refused does. -/
inductive Takes (s : Subscription) : Operation → Subscription → Prop
  | subscribe {topics : SortedSet String} (hf : s.form = .none ∨ s.form = .autoTopics) :
    Takes s (.subscribe topics) { s with form := .autoTopics, topics }
  | subscribePattern {source : String} (topics : SortedSet String) (p : Pattern)
    (hf : s.form = .none ∨ s.form = .autoPattern) :
    Takes s (.subscribePattern source) { s with form := .autoPattern, topics, pattern := some p }
  | subscribeMatched {topics : SortedSet String} (hf : s.form = .autoPattern) :
    Takes s (.subscribeMatched topics) { s with topics }
  | assignFromUser {parts : PartitionSet} (hf : s.form = .none ∨ s.form = .userAssigned) :
    Takes s (.assignFromUser parts) ({ s with form := .userAssigned }.reassign parts)
  | assignFromGroup {parts : PartitionSet} (hf : s.isAuto = true) :
    Takes s (.assignFromGroup parts) (s.reassign parts)
  | unsubscribe : Takes s .unsubscribe s.unsubscribe
  /-- The states of partitions change, and those that are sound stay so. -/
  | revise {op : Operation} {g : TopicPartition → PartitionState → PartitionState}
    (hg : ∀ tp st, st.Sound → (g tp st).Sound) :
    Takes s op { s with assignment := s.assignment.mapValues g }

theorem takes_adjust {op : Operation} {f : PartitionState → PartitionState}
    (hf : ∀ st, st.Sound → (f st).Sound) : s.Takes op (s.adjust tp f) := by
  refine .revise fun tp' st hst => ?_
  split
  · exact hf st hst
  · exact hst

theorem takes_adjustAssigned {op : Operation} {f : PartitionState → PartitionState}
    (h : s.adjustAssigned tp f = .ok t) (hf : ∀ st, st.Sound → (f st).Sound) : s.Takes op t := by
  unfold adjustAssigned at h
  split at h
  · cases h
    exact takes_adjust hf
  · cases h

theorem takes_of_attempt {op : Operation} (h : s.attempt op = .ok t) : s.Takes op t := by
  cases op with
  | subscribe topics =>
    obtain ⟨changed, hr⟩ := exists_of_map_fst_eq_ok h
    obtain ⟨hf, rfl⟩ := subscribe_eq_ok hr
    exact .subscribe hf
  | subscribePattern source =>
    obtain ⟨hf, topics, p, rfl⟩ := subscribePattern_eq_ok h
    exact .subscribePattern topics p hf
  | subscribeMatched topics =>
    obtain ⟨changed, hr⟩ := exists_of_map_fst_eq_ok h
    obtain ⟨hf, rfl⟩ := subscribeMatched_eq_ok hr
    exact .subscribeMatched hf
  | assignFromUser parts =>
    obtain ⟨changed, hr⟩ := exists_of_map_fst_eq_ok h
    obtain ⟨hf, rfl⟩ := assignFromUser_eq_ok hr
    exact .assignFromUser hf
  | assignFromGroup parts =>
    obtain ⟨changed, hr⟩ := exists_of_map_fst_eq_ok h
    obtain ⟨hf, rfl⟩ := assignFromGroup_eq_ok hr
    exact .assignFromGroup hf
  | unsubscribe =>
    cases h
    exact .unsubscribe
  | requestReset parts strategy =>
    change s.requestReset parts strategy = .ok t at h
    unfold Subscription.requestReset at h
    split at h
    · cases h
    · cases h
      refine .revise fun tp st hst => ?_
      split
      · exact Or.inl rfl
      · exact hst
  | seek tp offset leaderEpoch => exact takes_adjustAssigned h fun _ _ => Or.inr rfl
  | updatePosition tp offset =>
    cases h
    exact takes_adjust fun _ _ => Or.inr rfl
  | updateHighWatermark tp offset | updateLastStableOffset tp offset =>
    cases h
    exact takes_adjust fun _ hst => hst
  | pause tp | resume tp => exact takes_adjustAssigned h fun _ hst => hst

/-- A subscription holds only what belongs to its form. -/
structure WellFormed (s : Subscription) : Prop where
  formless : s.form = .none → s.topics = ∅ ∧ s.pattern = none ∧ s.assignment = ∅
  autoTopics : s.form = .autoTopics → s.pattern = none
  autoPattern : s.form = .autoPattern → s.pattern.isSome = true
  userAssigned : s.form = .userAssigned → s.topics = ∅ ∧ s.pattern = none
  sound : ∀ tp st, s.assignment.get? tp = some st → st.Sound

theorem wellFormed_nil (r : ResetStrategy) : WellFormed { defaultReset := r } where
  formless _ := ⟨rfl, rfl, rfl⟩
  autoTopics h := by cases h
  autoPattern h := by cases h
  userAssigned h := by cases h
  sound _ _ h := by cases h

theorem sound_reassign (hs : ∀ tp st, s.assignment.get? tp = some st → st.Sound)
    {parts : PartitionSet} (tp : TopicPartition) (st : PartitionState)
    (hst : (s.reassign parts).assignment.get? tp = some st) : st.Sound := by
  rw [get?_reassign] at hst
  split at hst
  · obtain rfl := Option.some.inj hst
    cases hg : s.assignment.get? tp with
    | none => exact Or.inl rfl
    | some st => exact hs tp st hg
  · cases hst

/-- A subscription that is well formed stays so. -/
theorem WellFormed.takes {op : Operation} (h : s.WellFormed) (ht : s.Takes op t) : t.WellFormed := by
  cases ht with
  | subscribe hf =>
    exact {
      formless := fun hn => by cases hn
      autoTopics := fun _ => hf.elim (fun hn => (h.formless hn).2.1) h.autoTopics
      autoPattern := fun hn => by cases hn
      userAssigned := fun hn => by cases hn
      sound := h.sound }
  | subscribePattern topics p hf =>
    exact {
      formless := fun hn => by cases hn
      autoTopics := fun hn => by cases hn
      autoPattern := fun _ => rfl
      userAssigned := fun hn => by cases hn
      sound := h.sound }
  | subscribeMatched hf =>
    exact {
      formless := fun hn => by cases hf.symm.trans hn
      autoTopics := h.autoTopics
      autoPattern := h.autoPattern
      userAssigned := fun hn => by cases hf.symm.trans hn
      sound := h.sound }
  | assignFromUser hf =>
    exact {
      formless := fun hn => by cases hn
      autoTopics := fun hn => by cases hn
      autoPattern := fun hn => by cases hn
      userAssigned := fun _ =>
        hf.elim (fun hn => ⟨(h.formless hn).1, (h.formless hn).2.1⟩) h.userAssigned
      sound := sound_reassign (s := { s with form := .userAssigned }) h.sound }
  | assignFromGroup hf =>
    exact {
      formless := fun hn => by
        have hn : s.form = .none := hn
        rw [isAuto, hn] at hf
        cases hf
      autoTopics := h.autoTopics
      autoPattern := h.autoPattern
      userAssigned := h.userAssigned
      sound := sound_reassign h.sound }
  | unsubscribe => exact wellFormed_nil s.defaultReset
  | revise hg =>
    exact {
      formless := fun hn => by
        obtain ⟨htopics, hpattern, hassignment⟩ := h.formless hn
        exact ⟨htopics, hpattern, by rw [hassignment]; rfl⟩
      autoTopics := h.autoTopics
      autoPattern := h.autoPattern
      userAssigned := h.userAssigned
      sound := fun tp st hst => by
        rw [SortedMap.get?_mapValues] at hst
        obtain ⟨st', hst', rfl⟩ := Option.map_eq_some_iff.1 hst
        exact hg tp st' (h.sound tp st' hst') }

theorem Takes.form {op : Operation} (ht : s.Takes op t) : t.form = s.form ∨
    (s.form = .none ∧ op.form? = some t.form) ∨ (op = .unsubscribe ∧ t.form = .none) := by
  cases ht with
  | subscribe hf | subscribePattern topics p hf | assignFromUser hf => 
    obtain hf | hf := hf
    · exact Or.inr (Or.inl ⟨hf, rfl⟩)
    · exact Or.inl hf.symm
  | subscribeMatched hf | assignFromGroup hf | revise hg => exact Or.inl rfl
  | unsubscribe => exact Or.inr (Or.inr ⟨rfl, rfl⟩)

/-- The partitions listed with a reset are those that a reset waits for. -/
theorem WellFormed.mem_needingPosition (h : s.WellFormed) {strategy : ResetStrategy} :
    (tp, some strategy) ∈ s.needingPosition ↔
      ∃ st, s.assignment.get? tp = some st ∧ st.pendingReset = some strategy := by
  rw [Subscription.mem_needingPosition]
  constructor
  · rintro ⟨st, hst, -, hr⟩
    exact ⟨st, hst, hr⟩
  · rintro ⟨st, hst, hr⟩
    refine ⟨st, hst, (h.sound tp st hst).resolve_right fun hn => ?_, hr⟩
    cases hn.symm.trans hr

/-- An operation either is accepted or changes nothing. -/
theorem operate_cases (s : Subscription) (op : Operation) :
    (s.attempt op = .ok (s.operate op) ∧ s.Takes op (s.operate op)) ∨ s.operate op = s := by
  unfold operate
  cases h : s.attempt op with
  | ok t => exact Or.inl ⟨rfl, takes_of_attempt h⟩
  | error e => exact Or.inr rfl

theorem WellFormed.operate (h : s.WellFormed) (op : Operation) : (s.operate op).WellFormed := by
  obtain ⟨-, ht⟩ | he := s.operate_cases op
  · exact h.takes ht
  · rwa [he]

theorem WellFormed.after (h : s.WellFormed) (ops : List Operation) : (s.after ops).WellFormed := by
  induction ops generalizing s with
  | nil => exact h
  | cons op ops ih => exact ih (h.operate op)

/-- Whatever is done to a subscription from the start, it is well formed, all resets that are waited for
are listed, and its form only changes from none, by an operation that asks for the new form and is not
refused, or to none, by an operation that drops it. -/
theorem wellFormed_after (r : ResetStrategy) (ops : List Operation) :
    let s := Subscription.after { defaultReset := r } ops
    s.WellFormed ∧
      (∀ tp strategy, (tp, some strategy) ∈ s.needingPosition ↔
        ∃ st, s.assignment.get? tp = some st ∧ st.pendingReset = some strategy) ∧
      ∀ op, (s.operate op).form = s.form ∨
        (s.form = .none ∧ s.attempt op = .ok (s.operate op) ∧
          op.form? = some (s.operate op).form) ∨
        (op = .unsubscribe ∧ (s.operate op).form = .none) := by
  intro s
  have h : s.WellFormed := (wellFormed_nil r).after ops
  refine ⟨h, fun tp strategy => h.mem_needingPosition, fun op => ?_⟩
  obtain ⟨ha, ht⟩ | he := s.operate_cases op
  · obtain hf | ⟨hn, hf⟩ | hf := ht.form
    · exact Or.inl hf
    · exact Or.inr (Or.inl ⟨hn, ha, hf⟩)
    · exact Or.inr (Or.inr hf)
  · rw [he]
    exact Or.inl rfl

end Subscription

end GroupConsumer
