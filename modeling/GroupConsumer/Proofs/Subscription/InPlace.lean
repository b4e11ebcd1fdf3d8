import GroupConsumer.Proofs.Subscription.Forms

/-!
# Operations in place

An operation that is refused gives no subscription at all, so it cannot be told from this whether it
would have left something half done. `Edit` is work on a subscription in place, step by step: a fault
that stops it undoes nothing of what was changed before. Every operation can be done in place, with its
checks and its changes in their order, and comes to the same (`Edit.does_ofOperation`). What carries
this is one rule: nothing stops the work that follows the first change (`Edit.Does.bind`).
-/

namespace GroupConsumer.Subscription

/-- Work on a subscription in place, which a fault stops where it stands. -/
abbrev Edit (α : Type) := ExceptT Fault (StateM Subscription) α

/-- What an operation that may be refused leaves in place: what it gives, or the subscription as it
was. -/
def settled {α : Type} (s : Subscription) :
    Except Fault (Subscription × α) → Except Fault α × Subscription
  | .ok r => (.ok r.2, r.1)
  | .error e => (.error e, s)

@[simp] theorem settled_ok {α : Type} (s : Subscription) (r : Subscription × α) :
    s.settled (.ok r) = (.ok r.2, r.1) := rfl

@[simp] theorem settled_error {α : Type} (s : Subscription) (e : Fault) :
    s.settled (.error e : Except Fault (Subscription × α)) = (.error e, s) := rfl

namespace Edit

variable {α β : Type} {m : Edit α} {k : α → Edit β} {s t : Subscription} {a : α} {e : Fault}
  {f : Subscription → Except Fault (Subscription × α)}

/-- What the work ends with, and the subscription as it is then. -/
def on (m : Edit α) (s : Subscription) : Except Fault α × Subscription := (m.run.run s).run

/-! ### Single steps -/

@[simp] theorem on_pure (a : α) (s : Subscription) : on (pure a) s = (.ok a, s) := rfl

@[simp] theorem on_throw (e : Fault) (s : Subscription) : on (throw e : Edit α) s = (.error e, s) := rfl

@[simp] theorem on_set (s t : Subscription) : on (set t) s = (.ok (), t) := rfl

@[simp] theorem on_modify (g : Subscription → Subscription) (s : Subscription) :
    on (modify g) s = (.ok (), g s) := rfl

@[simp] theorem on_get_bind (k : Subscription → Edit β) (s : Subscription) :
    on (get >>= k) s = on (k s) s := rfl

@[simp] theorem on_modify_bind (g : Subscription → Subscription) (k : Unit → Edit β)
    (s : Subscription) : on (modify g >>= k) s = on (k ()) (g s) := rfl

theorem on_bind_of_ok (h : m.on s = (.ok a, t)) : on (m >>= k) s = on (k a) t := by
  unfold on at h ⊢
  rw [ExceptT.run_bind, StateT.run_bind, Id.run_bind, h]

theorem on_bind_of_error (h : m.on s = (.error e, t)) : on (m >>= k) s = (.error e, t) := by
  unfold on at h ⊢
  rw [ExceptT.run_bind, StateT.run_bind, Id.run_bind, h]
  rfl

/-! ### All or nothing -/

/-- The work comes to what the operation gives; if that is refused, nothing has been changed. -/
def Does (m : Edit α) (f : Subscription → Except Fault (Subscription × α)) : Prop :=
  ∀ s, m.on s = s.settled (f s)

/-- Nothing stops the work. -/
def Finishes (m : Edit α) (g : Subscription → Subscription × α) : Prop :=
  ∀ s, m.on s = (.ok (g s).2, (g s).1)

/-- Work that is all or nothing stays so if nothing stops what follows. -/
theorem Does.bind {g : α → Subscription → Subscription × β} (h : m.Does f)
    (hk : ∀ a, (k a).Finishes (g a)) : (m >>= k).Does fun s => (f s).map fun r => g r.2 r.1 := by
  intro s
  show on (m >>= k) s = s.settled ((f s).map fun r => g r.2 r.1)
  have hm := h s
  cases hf : f s with
  | ok r =>
    rw [hf] at hm
    exact (on_bind_of_ok hm).trans (hk r.2 r.1)
  | error e =>
    rw [hf] at hm
    exact on_bind_of_error hm

/-! ### The operations -/

/-- Takes on a form. -/
def takeForm (form : SubscriptionForm) : Edit Unit := do
  let s ← get
  if s.form = .none then set { s with form }
  else if s.form = form then pure ()
  else throw (.subscriptionConflict s.form.name form.name)

/-- Subscribes to topics. -/
def subscribe (topics : SortedSet String) : Edit Bool := do
  if topics.toList.any Text.blank then throw (.invalidArgument .emptyTopicInCollection)
  else do
    takeForm .autoTopics
    let s ← get
    set { s with topics }
    return decide (s.topics ≠ topics)

/-- Drops the topics of another pattern and keeps the pattern. -/
def takePattern (p : Pattern) : Edit Unit := do
  if (← get).pattern = some p then pure () else modify fun s => { s with topics := ∅ }
  modify fun s => { s with pattern := some p }

/-- Subscribes to a pattern. -/
def subscribePattern (source : String) : Edit Unit := do
  let p ← ofExcept (Pattern.ofSource source)
  takeForm .autoPattern
  takePattern p

/-- Replaces the topics that the pattern picks. -/
def subscribeMatched (topics : SortedSet String) : Edit Bool := do
  let s ← get
  if s.form = .autoPattern then do
    set { s with topics }
    return decide (s.topics ≠ topics)
  else throw (.illegalState (.patternTopicsOf s.form))

/-- Changes the assignment. -/
def edit (g : SortedMap TopicPartition PartitionState → SortedMap TopicPartition PartitionState) :
    Edit Unit :=
  modify fun s => { s with assignment := g s.assignment }

/-- Lists a partition with no state of its own, unless it is listed. -/
def takeUp (tp : TopicPartition) (m : SortedMap TopicPartition PartitionState) :
    SortedMap TopicPartition PartitionState :=
  if m.contains tp then m else m.insert tp {}

/-- Drops the partitions that are not among those given, then takes up those of them that are new. -/
def replaceAssignment (parts : PartitionSet) : Edit Bool := do
  if (← get).assigned = parts then return false
  else do
    edit (·.filterKeys fun tp => decide (tp ∈ parts))
    parts.toList.forM fun tp => edit (takeUp tp)
    return true

/-- Assigns partitions picked by the caller. -/
def assignFromUser (parts : PartitionSet) : Edit Bool :=
  match parts.toList.find? fun tp => Text.blank tp.topic with
  | some tp => throw (.invalidArgument (.emptyTopicOf tp))
  | none => do
    takeForm .userAssigned
    replaceAssignment parts

/-- Assigns partitions given by the group. -/
def assignFromGroup (parts : PartitionSet) : Edit Bool := do
  let s ← get
  if s.isAuto then replaceAssignment parts
  else throw (.illegalState (.groupAssignmentOf s.form))

/-- Changes the state of a partition that has to be assigned. -/
def adjustAssigned (tp : TopicPartition) (g : PartitionState → PartitionState) : Edit Unit := do
  if (← get).isAssigned tp then edit (·.adjust tp g) else throw (.illegalState (.notAssigned tp))

/-- Looks for a partition that is not assigned before any position is given up. -/
def requestReset (parts : PartitionSet) (strategy : ResetStrategy) : Edit Unit := do
  let s ← get
  match parts.toList.find? fun tp => !s.isAssigned tp with
  | some tp => throw (.illegalState (.notAssigned tp))
  | none =>
    parts.toList.forM fun tp => edit
      (·.adjust tp fun st => { st with position := none, pendingReset := some strategy })

/-! ### What they come to -/

theorem does_takeForm (form : SubscriptionForm) :
    (takeForm form).Does fun s => (s.withForm form).map (·, ()) := by
  intro s
  by_cases hn : s.form = .none
  · simp [takeForm, withForm, hn, Except.map]
  · by_cases hf : s.form = form
    · subst hf
      simp [takeForm, withForm, hn, Except.map]
    · simp [takeForm, withForm, hn, hf, Except.map]

/-- Once the form is taken, nothing stops the work. -/
theorem on_takeForm_bind {form : SubscriptionForm} {k : Unit → Edit β}
    {g : Subscription → Subscription × β} (hk : (k ()).Finishes g) (s : Subscription) :
    on (takeForm form >>= k) s = s.settled ((s.withForm form).map g) := by
  refine ((does_takeForm form).bind (g := fun _ => g) (fun _ => hk) s).trans ?_
  show s.settled (((s.withForm form).map (·, ())).map _) = _
  cases s.withForm form with
  | ok t => rfl
  | error e => rfl

theorem does_subscribe (topics : SortedSet String) :
    (subscribe topics).Does fun s => s.subscribe topics := by
  intro s
  by_cases hb : topics.toList.any Text.blank = true
  · simp [subscribe, Subscription.subscribe, hb]
  · simp only [subscribe, Subscription.subscribe, if_neg hb]
    refine (on_takeForm_bind (g := fun s => ({ s with topics }, decide (s.topics ≠ topics)))
      (fun _ => rfl) s).trans ?_
    cases s.withForm .autoTopics with
    | ok t => rfl
    | error e => rfl

/-- The pattern is taken, and its topics are kept if it is the same. -/
theorem finishes_takePattern (p : Pattern) : (takePattern p).Finishes fun s =>
    ({ s with topics := if s.pattern = some p then s.topics else ∅, pattern := some p }, ()) := by
  intro s
  by_cases hp : s.pattern = some p
  · simp [takePattern, hp]
  · simp [takePattern, hp]

theorem does_subscribePattern (source : String) :
    (subscribePattern source).Does fun s => (s.subscribePattern source).map (·, ()) := by
  intro s
  simp only [subscribePattern, Subscription.subscribePattern]
  cases Pattern.ofSource source with
  | error e => rfl
  | ok p =>
    refine (on_takeForm_bind (finishes_takePattern p) s).trans ?_
    show _ = s.settled (((s.withForm .autoPattern) >>= fun _ => _).map _)
    cases s.withForm .autoPattern with
    | ok t => rfl
    | error e => rfl

theorem does_subscribeMatched (topics : SortedSet String) :
    (subscribeMatched topics).Does fun s => s.subscribeMatched topics := by
  intro s
  simp only [subscribeMatched, Subscription.subscribeMatched, on_get_bind]
  by_cases hf : s.form = .autoPattern
  · rw [if_pos hf, if_pos hf]
    rfl
  · rw [if_neg hf, if_neg hf]
    rfl

/-! ### Assignments in place -/

/-- A row of changes of the assignment. -/
theorem on_forM_edit {γ : Type}
    (g : γ → SortedMap TopicPartition PartitionState → SortedMap TopicPartition PartitionState)
    (l : List γ) (s : Subscription) : on (l.forM fun c => edit (g c)) s =
      (.ok (), { s with assignment := l.foldl (fun m c => g c m) s.assignment }) := by
  induction l generalizing s with
  | nil => rfl
  | cons c l ih => exact ih { s with assignment := g c s.assignment }

theorem get?_takeUp (c tp : TopicPartition) (m : SortedMap TopicPartition PartitionState) :
    (takeUp c m).get? tp = if tp = c then some ((m.get? tp).getD {}) else m.get? tp := by
  unfold takeUp
  split
  · rename_i hc
    split
    · rename_i he
      subst he
      obtain ⟨st, hst⟩ := Option.isSome_iff_exists.1 hc
      simp [hst]
    · rfl
  · rename_i hc
    rw [SortedMap.get?_insert]
    by_cases he : tp = c
    · subst he
      have hn : m.get? tp = none := by simpa [SortedMap.contains] using hc
      simp [hn]
    · simp [he, Ne.symm he]

theorem get?_foldl_takeUp (l : List TopicPartition) (tp : TopicPartition)
    (m : SortedMap TopicPartition PartitionState) :
    (l.foldl (fun m c => takeUp c m) m).get? tp =
      if tp ∈ l then some ((m.get? tp).getD {}) else m.get? tp := by
  induction l generalizing m with
  | nil => simp
  | cons c l ih =>
    rw [List.foldl_cons, ih, get?_takeUp]
    by_cases he : tp = c
    · simp [he]
    · simp [he]

/-- An assignment that holds the given partitions already is the one that is asked for. -/
theorem reassign_assigned (s : Subscription) : s.reassign s.assigned = s := by
  have h : (s.reassign s.assigned).assignment = s.assignment := by
    refine SortedMap.ext fun tp => ?_
    rw [get?_reassign]
    split
    · rename_i htp
      obtain ⟨st, hst⟩ := exists_of_mem_assigned htp
      simp [hst]
    · rename_i htp
      exact (get?_of_not_mem_assigned htp).symm
  calc s.reassign s.assigned
    _ = { s with assignment := (s.reassign s.assigned).assignment } := rfl
    _ = s := by rw [h]

theorem finishes_replaceAssignment (parts : PartitionSet) : (replaceAssignment parts).Finishes
    fun s => (s.reassign parts, decide (s.assigned ≠ parts)) := by
  intro s
  simp only [replaceAssignment, on_get_bind]
  split
  · rename_i he
    subst he
    simp [reassign_assigned]
  · rename_i hne
    have hm : parts.toList.foldl (fun m c => takeUp c m)
        (s.assignment.filterKeys fun tp => decide (tp ∈ parts)) = (s.reassign parts).assignment := by
      refine SortedMap.ext fun tp => ?_
      rw [get?_foldl_takeUp, get?_reassign, SortedMap.get?_filterKeys]
      by_cases htp : tp ∈ parts
      · simp [htp, SortedSet.mem_toList]
      · simp [htp, SortedSet.mem_toList]
    rw [edit, on_modify_bind, on_bind_of_ok (on_forM_edit takeUp parts.toList _), hm, on_pure,
      decide_eq_true hne]
    rfl

theorem does_assignFromUser (parts : PartitionSet) :
    (assignFromUser parts).Does fun s => s.assignFromUser parts := by
  intro s
  simp only [assignFromUser, Subscription.assignFromUser]
  cases parts.toList.find? fun tp => Text.blank tp.topic with
  | some tp => rfl
  | none =>
    refine (on_takeForm_bind (finishes_replaceAssignment parts) s).trans ?_
    show _ = s.settled (s.withForm .userAssigned >>= fun _ => _)
    cases s.withForm .userAssigned with
    | ok t => rfl
    | error e => rfl

theorem does_assignFromGroup (parts : PartitionSet) :
    (assignFromGroup parts).Does fun s => s.assignFromGroup parts := by
  intro s
  simp only [assignFromGroup, Subscription.assignFromGroup, on_get_bind]
  split
  · exact finishes_replaceAssignment parts s
  · rfl

/-! ### Partition states in place -/

theorem does_adjustAssigned (tp : TopicPartition) (g : PartitionState → PartitionState) :
    (adjustAssigned tp g).Does fun s => (s.adjustAssigned tp g).map (·, ()) := by
  intro s
  simp only [adjustAssigned, Subscription.adjustAssigned, on_get_bind]
  split
  · rfl
  · rfl

/-- A change made once to each of some partitions that would not change anything if made again. -/
theorem foldl_adjust {g : PartitionState → PartitionState} (hg : ∀ st, g (g st) = g st)
    (l : List TopicPartition) (m : SortedMap TopicPartition PartitionState) :
    l.foldl (fun m tp => m.adjust tp g) m = m.mapValues fun tp st => if tp ∈ l then g st else st := by
  refine SortedMap.ext fun k => ?_
  induction l generalizing m with
  | nil => simp
  | cons tp l ih =>
    rw [List.foldl_cons, ih, SortedMap.get?_mapValues, SortedMap.get?_mapValues,
      SortedMap.get?_adjust, Option.map_map]
    congr 1
    funext st
    by_cases hk : k = tp
    · simp [hk, hg]
    · simp [hk]

theorem does_requestReset (parts : PartitionSet) (strategy : ResetStrategy) :
    (requestReset parts strategy).Does fun s => (s.requestReset parts strategy).map (·, ()) := by
  intro s
  simp only [requestReset, Subscription.requestReset, on_get_bind]
  cases parts.toList.find? fun tp => !s.isAssigned tp with
  | some tp => rfl
  | none =>
    have h := foldl_adjust
      (g := fun st => { st with position := none, pendingReset := some strategy })
      (fun _ => rfl) parts.toList s.assignment
    refine (on_forM_edit _ parts.toList s).trans ?_
    rw [h]
    rfl

/-- An operation in place. -/
def ofOperation : Operation → Edit Unit
  | .subscribe topics => do let _ ← subscribe topics
  | .subscribePattern source => subscribePattern source
  | .subscribeMatched topics => do let _ ← subscribeMatched topics
  | .assignFromUser parts => do let _ ← assignFromUser parts
  | .assignFromGroup parts => do let _ ← assignFromGroup parts
  | .unsubscribe => modify (·.unsubscribe)
  | .seek tp offset leaderEpoch => adjustAssigned tp fun st =>
    { st with position := some offset, leaderEpoch, pendingReset := none }
  | .requestReset parts strategy => requestReset parts strategy
  | .updatePosition tp offset => modify (·.updatePosition tp offset)
  | .updateHighWatermark tp offset => modify (·.updateHighWatermark tp offset)
  | .updateLastStableOffset tp offset => modify (·.updateLastStableOffset tp offset)
  | .pause tp => adjustAssigned tp fun st => { st with paused := true }
  | .resume tp => adjustAssigned tp fun st => { st with paused := false }

/-- An operation whose further result nobody looks at. -/
theorem Does.discard {r : Subscription → Except Fault (Subscription × α)} (h : m.Does r) :
    Does (do let _ ← m) fun s => ((r s).map (·.1)).map (·, ()) := by
  intro s
  refine (h.bind (g := fun _ s => (s, ())) (fun _ _ => rfl) s).trans ?_
  show s.settled ((r s).map _) = s.settled (((r s).map _).map _)
  cases r s with
  | ok x => rfl
  | error e => rfl

theorem does_ofOperation (op : Operation) :
    (ofOperation op).Does fun s => (s.attempt op).map (·, ()) := by
  cases op with
  | subscribe topics => exact (does_subscribe topics).discard
  | subscribePattern source => exact does_subscribePattern source
  | subscribeMatched topics => exact (does_subscribeMatched topics).discard
  | assignFromUser parts => exact (does_assignFromUser parts).discard
  | assignFromGroup parts => exact (does_assignFromGroup parts).discard
  | unsubscribe | updatePosition | updateHighWatermark | updateLastStableOffset => exact fun _ => rfl
  | seek tp offset leaderEpoch => exact does_adjustAssigned tp _
  | requestReset parts strategy => exact does_requestReset parts strategy
  | pause tp | resume tp => exact does_adjustAssigned tp _

/-- A fault stops just the operations that are refused, and stops them before anything has changed. -/
theorem on_eq_error_iff (op : Operation) :
    (ofOperation op).on s = (.error e, t) ↔ s.attempt op = .error e ∧ t = s := by
  rw [does_ofOperation op s]
  show s.settled ((s.attempt op).map (·, ())) = _ ↔ _
  cases s.attempt op with
  | ok u => simp [Except.map]
  | error e' => simp [Except.map, eq_comm]

end Edit

end GroupConsumer.Subscription
