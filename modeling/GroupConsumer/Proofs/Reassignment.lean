import GroupConsumer.Proofs.Subscription.InPlace

/-!
# Partitions across assignments

An assignment replaces the set of assigned partitions and touches no other state: what stays assigned
keeps all of its state, and what is new has none. So the state of a partition does not depend on what
was done before it was last added: it is what the operations on it since then have made of no state at
all. `Change` is what a single operation does to the state of a single partition, `changes` what a row
of operations does to it, one after the other.
-/

namespace GroupConsumer

/-- What an operation does to the state of a partition. -/
inductive PartitionState.Change where
  | seek (offset : Int64) (leaderEpoch : Option Int)
  | requestReset (strategy : ResetStrategy)
  | updatePosition (offset : Int64)
  | updateHighWatermark (offset : Int64)
  | updateLastStableOffset (offset : Int64)
  | pause
  | resume
deriving DecidableEq

/-- The state of a partition after a change. -/
def PartitionState.change (st : PartitionState) : Change → PartitionState
  | .seek offset leaderEpoch =>
    { st with position := some offset, leaderEpoch, pendingReset := none }
  | .requestReset strategy => { st with position := none, pendingReset := some strategy }
  | .updatePosition offset => { st with position := some offset, pendingReset := none }
  | .updateHighWatermark offset => { st with highWatermark := some offset }
  | .updateLastStableOffset offset => { st with lastStableOffset := some offset }
  | .pause => { st with paused := true }
  | .resume => { st with paused := false }

namespace Subscription

variable {s t : Subscription} {tp : TopicPartition} {op : Operation} {ops : List Operation}

/-- What an operation is to change in the state of a partition. Those that choose topics or partitions
change the state of none. -/
def Operation.change? (tp : TopicPartition) : Operation → Option PartitionState.Change
  | seek tp' offset leaderEpoch => if tp = tp' then some (.seek offset leaderEpoch) else none
  | requestReset parts strategy => if tp ∈ parts then some (.requestReset strategy) else none
  | updatePosition tp' offset => if tp = tp' then some (.updatePosition offset) else none
  | updateHighWatermark tp' offset => if tp = tp' then some (.updateHighWatermark offset) else none
  | updateLastStableOffset tp' offset =>
    if tp = tp' then some (.updateLastStableOffset offset) else none
  | pause tp' => if tp = tp' then some .pause else none
  | resume tp' => if tp = tp' then some .resume else none
  | subscribe _ | subscribePattern _ | subscribeMatched _ => none
  | assignFromUser _ | assignFromGroup _ | unsubscribe => none

/-- What an operation changes in the state of a partition, unless it is refused. -/
def change? (s : Subscription) (tp : TopicPartition) (op : Operation) :
    Option PartitionState.Change :=
  match s.attempt op with
  | .ok _ => op.change? tp
  | .error _ => none

/-- What a row of operations changes in the state of a partition, in order. -/
def changes (tp : TopicPartition) : Subscription → List Operation → List PartitionState.Change
  | _, [] => []
  | s, op :: ops => (s.change? tp op).toList ++ changes tp (s.operate op) ops

/-- The partition is assigned before, during and after a row of operations. -/
def Holds (s : Subscription) (tp : TopicPartition) (ops : List Operation) : Prop :=
  ∀ past, past <+: ops → tp ∈ (s.after past).assigned

theorem holds_nil : s.Holds tp [] ↔ tp ∈ s.assigned := by
  simp [Holds, after]

theorem holds_cons : s.Holds tp (op :: ops) ↔ tp ∈ s.assigned ∧ (s.operate op).Holds tp ops := by
  constructor
  · intro h
    refine ⟨h [] List.nil_prefix, ?_⟩
    intro past hpast
    exact h (op :: past) (List.cons_prefix_cons.2 ⟨rfl, hpast⟩)
  · rintro ⟨hs, h⟩ past hpast
    cases past with
    | nil => exact hs
    | cons op' past =>
      obtain ⟨rfl, hp⟩ := List.cons_prefix_cons.1 hpast
      exact h past hp

theorem after_append_cons (s : Subscription) (past : List Operation) (op : Operation)
    (since : List Operation) :
    s.after (past ++ op :: since) = ((s.after past).operate op).after since := by
  rw [after, List.foldl_append]
  rfl

/-! ### Single operations -/

/-- A change of one partition leaves every other one alone. -/
theorem get?_adjust_change (tp' : TopicPartition) (c : PartitionState.Change) :
    (s.adjust tp' (·.change c)).assignment.get? tp =
      (s.assignment.get? tp).map fun st => (if tp = tp' then some c else none).elim st st.change := by
  rw [get?_adjust]
  split
  · rfl
  · exact Option.map_id'.symm

theorem get?_of_adjustAssigned {tp' : TopicPartition} {c : PartitionState.Change}
    (h : s.adjustAssigned tp' (·.change c) = .ok t) :
    t.assignment.get? tp =
      (s.assignment.get? tp).map fun st => (if tp = tp' then some c else none).elim st st.change := by
  unfold adjustAssigned at h
  split at h
  · cases h
    exact get?_adjust_change tp' c
  · cases h

/-- An operation either changes the states of partitions, or it chooses partitions anew and does not
touch the state of any that stays. -/
theorem revises_or_renews (h : s.attempt op = .ok t) (tp : TopicPartition) :
    t.assignment.get? tp =
        (s.assignment.get? tp).map (fun st => (op.change? tp).elim st st.change) ∨
      (op.change? tp = none ∧ Renews s t) := by
  cases op with
  | subscribe topics =>
    obtain ⟨changed, hr⟩ := exists_of_map_fst_eq_ok h
    exact Or.inr ⟨rfl, renews_of_assignment (assignment_subscribe hr)⟩
  | subscribePattern source =>
    exact Or.inr ⟨rfl, renews_of_assignment (assignment_subscribePattern h)⟩
  | subscribeMatched topics =>
    obtain ⟨changed, hr⟩ := exists_of_map_fst_eq_ok h
    exact Or.inr ⟨rfl, renews_of_assignment (assignment_subscribeMatched hr)⟩
  | assignFromUser parts =>
    obtain ⟨changed, hr⟩ := exists_of_map_fst_eq_ok h
    exact Or.inr ⟨rfl, renews_assignFromUser hr⟩
  | assignFromGroup parts =>
    obtain ⟨changed, hr⟩ := exists_of_map_fst_eq_ok h
    obtain ⟨-, rfl⟩ := assignFromGroup_eq_ok hr
    exact Or.inr ⟨rfl, renews_reassign s parts⟩
  | unsubscribe =>
    cases h
    exact Or.inr ⟨rfl, renews_unsubscribe s⟩
  | requestReset parts strategy =>
    left
    rw [get?_requestReset h]
    congr 1
    funext st
    by_cases htp : tp ∈ parts
    · simp [Operation.change?, PartitionState.change, htp]
    · simp [Operation.change?, htp]
  | seek tp' offset leaderEpoch =>
    exact Or.inl (get?_of_adjustAssigned (c := .seek offset leaderEpoch) h)
  | pause tp' => exact Or.inl (get?_of_adjustAssigned (c := .pause) h)
  | resume tp' => exact Or.inl (get?_of_adjustAssigned (c := .resume) h)
  | updatePosition tp' offset =>
    cases h
    exact Or.inl (get?_adjust_change tp' (.updatePosition offset))
  | updateHighWatermark tp' offset =>
    cases h
    exact Or.inl (get?_adjust_change tp' (.updateHighWatermark offset))
  | updateLastStableOffset tp' offset =>
    cases h
    exact Or.inl (get?_adjust_change tp' (.updateLastStableOffset offset))

theorem adjustAssigned_ne_error (h : tp ∈ s.assigned) (f : PartitionState → PartitionState)
    (e : Fault) : s.adjustAssigned tp f ≠ .error e := by
  rw [adjustAssigned, if_pos (mem_assigned.1 h)]
  exact fun he => by cases he

/-- An operation on a partition that is assigned is refused only if it is to reset others, too, one of
which is not assigned. -/
theorem change?_of_mem_assigned (h : tp ∈ s.assigned) (op : Operation) :
    s.change? tp op = op.change? tp ∨
      ∃ parts strategy, op = .requestReset parts strategy ∧ ∃ tp' ∈ parts, tp' ∉ s.assigned := by
  unfold change?
  cases ha : s.attempt op with
  | ok t => exact Or.inl rfl
  | error e =>
    cases op with
    | subscribe _ | subscribePattern _ | subscribeMatched _ => exact Or.inl rfl
    | assignFromUser _ | assignFromGroup _ | unsubscribe => exact Or.inl rfl
    | updatePosition _ _ | updateHighWatermark _ _ | updateLastStableOffset _ _ => cases ha
    | seek tp' _ _ | pause tp' | resume tp' =>
      refine Or.inl (if_neg fun he => ?_).symm
      subst he
      exact adjustAssigned_ne_error h _ e ha
    | requestReset parts strategy =>
      change s.requestReset parts strategy = .error e at ha
      unfold Subscription.requestReset at ha
      split at ha
      · rename_i tp' hfind
        have hn := List.find?_some hfind
        refine Or.inr ⟨parts, strategy, rfl, tp',
          SortedSet.mem_toList.1 (List.mem_of_find?_eq_some hfind), ?_⟩
        rw [mem_assigned]
        simpa using hn
      · cases ha

/-- A partition that stays assigned is changed as the operation says. -/
theorem get?_operate_of_mem {st : PartitionState} (hst : s.assignment.get? tp = some st)
    (h : tp ∈ (s.operate op).assigned) : (s.operate op).assignment.get? tp =
      some ((s.change? tp op).toList.foldl PartitionState.change st) := by
  unfold change? operate at *
  cases ha : s.attempt op with
  | error e => exact hst
  | ok t =>
    rw [ha] at h
    obtain hrevised | ⟨hc, hrenews⟩ := revises_or_renews ha tp
    · refine hrevised.trans ?_
      rw [hst]
      cases op.change? tp <;> rfl
    · obtain ⟨st', hst'⟩ := exists_of_mem_assigned h
      have he : st' = (s.assignment.get? tp).getD {} := hrenews tp st' hst'
      rw [hst] at he
      show t.assignment.get? tp = some ((op.change? tp).toList.foldl _ st)
      rw [hc, hst', he]
      rfl

/-- A partition that an operation adds has no state. -/
theorem get?_operate_of_not_mem (hn : tp ∉ s.assigned) (h : tp ∈ (s.operate op).assigned) :
    (s.operate op).assignment.get? tp = some {} := by
  unfold operate at *
  cases ha : s.attempt op with
  | error e =>
    rw [ha] at h
    exact absurd h hn
  | ok t =>
    rw [ha] at h
    obtain ⟨st, hst⟩ := exists_of_mem_assigned h
    obtain hrevised | ⟨-, hrenews⟩ := revises_or_renews ha tp
    · rw [get?_of_not_mem_assigned hn] at hrevised
      cases hst.symm.trans hrevised
    · have he : st = (s.assignment.get? tp).getD {} := hrenews tp st hst
      rw [get?_of_not_mem_assigned hn] at he
      exact hst.trans (congrArg some he)

/-! ### Rows of operations -/

/-- A partition that is held is changed as the operations say, one after the other. -/
theorem get?_after_of_holds {st : PartitionState} (hst : s.assignment.get? tp = some st)
    (h : s.Holds tp ops) :
    (s.after ops).assignment.get? tp = some ((s.changes tp ops).foldl PartitionState.change st) := by
  induction ops generalizing s st with
  | nil => exact hst
  | cons op ops ih =>
    obtain ⟨-, h⟩ := holds_cons.1 h
    have hstep := get?_operate_of_mem hst (h [] List.nil_prefix)
    rw [changes, List.foldl_append]
    exact ih hstep h

/-- What is assigned in the end has been held all along, or since some operation that added it. -/
theorem holds_or_added (h : tp ∈ (s.after ops).assigned) :
    s.Holds tp ops ∨ ∃ past op since, ops = past ++ op :: since ∧
      tp ∉ (s.after past).assigned ∧ ((s.after past).operate op).Holds tp since := by
  induction ops generalizing s with
  | nil => exact Or.inl (holds_nil.2 h)
  | cons op ops ih =>
    obtain hheld | ⟨past, op', since, rfl, hn, hheld⟩ := ih h
    · by_cases hs : tp ∈ s.assigned
      · exact Or.inl (holds_cons.2 ⟨hs, hheld⟩)
      · exact Or.inr ⟨[], op, ops, rfl, hs, hheld⟩
    · exact Or.inr ⟨op :: past, op', since, rfl, hn, hheld⟩

/-! ### Assignments -/

/-- Both kinds of assignment change the partitions alike. -/
theorem reassigns_of_ok {parts : PartitionSet} {r : Subscription × Bool}
    (h : s.assignFromUser parts = .ok r ∨ s.assignFromGroup parts = .ok r) :
    r.1.assignment = (s.reassign parts).assignment ∧ r.2 = decide (s.assigned ≠ parts) := by
  obtain h | h := h
  · obtain ⟨-, rfl⟩ := assignFromUser_gives h
    exact ⟨rfl, rfl⟩
  · obtain ⟨-, rfl⟩ := assignFromGroup_gives h
    exact ⟨rfl, rfl⟩

/-- An assignment that is not refused, by the caller or by the group, leaves exactly the given partitions
assigned. Those that were assigned before keep all of their state, the new ones have none, and it is told
whether the set of partitions has changed. It comes to the same when it is done in place, partition by
partition. Whatever is done then, the state of a partition follows from what the operations have changed in
it since it was last added; what was done before that does not matter. Of these operations only those count
for nothing that are to reset other partitions, too, one of which is not assigned. -/
theorem kept_or_new (s : Subscription) :
    (∀ parts r, s.assignFromUser parts = .ok r ∨ s.assignFromGroup parts = .ok r →
      r.1.assigned = parts ∧
      (∀ tp ∈ parts, tp ∈ s.assigned → r.1.assignment.get? tp = s.assignment.get? tp) ∧
      (∀ tp ∈ parts, tp ∉ s.assigned → r.1.assignment.get? tp = some {
        position := none, leaderEpoch := none, highWatermark := none, lastStableOffset := none
        pendingReset := none, paused := false }) ∧
      (r.2 = true ↔ r.1.assigned ≠ s.assigned)) ∧
    (∀ parts, (Edit.assignFromUser parts).on s = s.settled (s.assignFromUser parts) ∧
      (Edit.assignFromGroup parts).on s = s.settled (s.assignFromGroup parts)) ∧
    ∀ tp,
      (tp ∈ s.assigned → ∀ op, s.change? tp op = op.change? tp ∨
        ∃ parts strategy, op = .requestReset parts strategy ∧ ∃ tp' ∈ parts, tp' ∉ s.assigned) ∧
      (∀ ops, tp ∈ (s.after ops).assigned → s.Holds tp ops ∨
        ∃ past op since, ops = past ++ op :: since ∧ tp ∉ (s.after past).assigned ∧
          ((s.after past).operate op).Holds tp since) ∧
      (∀ past op since, tp ∉ (s.after past).assigned →
        ((s.after past).operate op).Holds tp since →
          (s.after (past ++ op :: since)).assignment.get? tp =
            some ((((s.after past).operate op).changes tp since).foldl PartitionState.change {})) ∧
      ∀ st ops, s.assignment.get? tp = some st → s.Holds tp ops →
        (s.after ops).assignment.get? tp = some ((s.changes tp ops).foldl PartitionState.change st) := by
  refine ⟨?_, ?_, ?_⟩
  · intro parts r hr
    obtain ⟨hassignment, hchanged⟩ := reassigns_of_ok hr
    have hassigned : r.1.assigned = parts := by
      rw [assigned, hassignment]
      exact assigned_reassign s parts
    have hget : ∀ tp ∈ parts, r.1.assignment.get? tp = some ((s.assignment.get? tp).getD {}) := by
      intro tp htp
      rw [hassignment, get?_reassign, if_pos htp]
    refine ⟨hassigned, ?_, ?_, ?_⟩
    · intro tp htp hs
      obtain ⟨st, hst⟩ := exists_of_mem_assigned hs
      rw [hget tp htp, hst, Option.getD_some]
    · intro tp htp hs
      rw [hget tp htp, get?_of_not_mem_assigned hs, Option.getD_none]
    · rw [hchanged, hassigned, decide_eq_true_iff]
      exact ne_comm
  · intro parts
    exact ⟨Edit.does_assignFromUser parts s, Edit.does_assignFromGroup parts s⟩
  · intro tp
    refine ⟨change?_of_mem_assigned, fun ops => holds_or_added, ?_, fun st ops => get?_after_of_holds⟩
    intro past op since hn hheld
    have hnew := get?_operate_of_not_mem hn (hheld [] List.nil_prefix)
    rw [after_append_cons]
    exact get?_after_of_holds hnew hheld

/-- Of two partitions one is dropped and comes back: nothing is left of its offset and its epoch. The other
one stays, and stays paused. -/
theorem kept_or_new_returning :
    let a : TopicPartition := ⟨"t", 0⟩
    let b : TopicPartition := ⟨"t", 1⟩
    let both : PartitionSet := .ofList [a, b]
    let one : PartitionSet := .ofList [b]
    let s : Subscription := after {} [.assignFromUser both, .seek a 5 (some 3), .pause b]
    let t : Subscription := s.operate (.assignFromUser one)
    let ops : List Operation :=
      [.assignFromUser one, .assignFromUser both, .updatePosition a 9]
    (s.assignFromUser one = .ok (t, true) ∧ b ∈ s.assigned ∧
      t.assignment.get? b = s.assignment.get? b) ∧
    (a ∉ t.assigned ∧ (t.operate (.assignFromUser both)).Holds a [.updatePosition a 9] ∧
      (s.after ops).assignment.get? a = some { position := some 9 }) ∧
    s.assignment.get? b = some { paused := true } ∧ s.Holds b ops ∧
      (s.after ops).assignment.get? b = some { paused := true } := by
  intro a b both one s t ops
  obtain ⟨hassign, -, hlater⟩ := kept_or_new s
  have hone : s.assignFromUser one = .ok (t, true) := by
    obtain ⟨haccepted, -⟩ | hrefused := s.operate_cases (.assignFromUser one)
    · obtain ⟨changed, hr⟩ := exists_of_map_fst_eq_ok haccepted
      obtain rfl : changed = true := (reassigns_of_ok (Or.inl hr)).2.trans (by decide +kernel)
      exact hr
    · exact absurd hrefused (by decide +kernel)
  have hb : b ∈ s.assigned := by decide +kernel
  have hdropped : a ∉ t.assigned := by decide +kernel
  have hback : (t.operate (.assignFromUser both)).Holds a [.updatePosition a 9] :=
    holds_cons.2 ⟨by decide +kernel, holds_nil.2 (by decide +kernel)⟩
  have hpaused : s.assignment.get? b = some { paused := true } := by decide +kernel
  have hheld : s.Holds b ops :=
    holds_cons.2 ⟨hb, holds_cons.2 ⟨by decide +kernel,
      holds_cons.2 ⟨by decide +kernel, holds_nil.2 (by decide +kernel)⟩⟩⟩
  refine ⟨⟨hone, hb, ?_⟩, ⟨hdropped, hback, ?_⟩, hpaused, hheld, ?_⟩
  · exact (hassign one _ (Or.inl hone)).2.1 b (by decide +kernel) hb
  · refine ((hlater a).2.2.1 [.assignFromUser one] _ _ hdropped hback).trans ?_
    decide +kernel
  · refine ((hlater b).2.2.2 _ ops hpaused hheld).trans ?_
    decide +kernel

end Subscription

end GroupConsumer
