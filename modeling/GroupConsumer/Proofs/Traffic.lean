import GroupConsumer.Queue

/-!
# The traffic through a queue

A drain looks up how many items wait and then receives as many, one by one, while further items may be
added (`Traffic`). Clones of a queue are ends of one channel, so that it makes no difference through which
of them an item is added or received. What a drain has received, followed by what it is still to receive,
does not change while it is under way (`Traffic.Owes`), so that it returns what waited when it started.
-/

namespace GroupConsumer

namespace Queue

variable {α : Type}

/-- A single operation on a queue. -/
inductive Operation (α : Type) where
  | add (item : α) (now : Int64)
  /-- A drain starts and looks up how many items wait. -/
  | look
  /-- The drain under way receives an item. -/
  | receive

/-- What an operation adds. -/
def Operation.added? : Operation α → Option (Queued α)
  | add item now => some ⟨item, now⟩
  | look | receive => none

/-- Whether an operation receives an item. -/
def Operation.receives : Operation α → Bool
  | receive => true
  | add .. | look => false

/-- What a row of operations adds. -/
def added (ops : List (Operation α)) : List (Queued α) := ops.filterMap (·.added?)

/-- How often a row of operations receives an item. -/
def receipts (ops : List (Operation α)) : Nat := ops.countP (·.receives)

/-- A drain under way: how many items it is still to receive, and what it has received. -/
structure Drain (α : Type) where
  left : Nat
  received : List (Queued α) := []

/-- A queue with a single drainer. -/
structure Traffic (α : Type) where
  queue : Queue α := {}
  underway : Option (Drain α) := none
  /-- What the drains that are over have returned, in order. -/
  returned : List (List (Queued α)) := []

namespace Traffic

variable {t : Traffic α} {n : Nat} {items : List (Queued α)}

/-- The drain returns what it has received. -/
def finish (t : Traffic α) (received : List (Queued α)) : Traffic α :=
  { t with underway := none, returned := t.returned ++ [received] }

/-- The drain goes on as long as it is to receive something. -/
def goOn (t : Traffic α) (d : Drain α) : Traffic α :=
  if d.left = 0 then t.finish d.received else { t with underway := some d }

/-- The traffic after an operation. There is one drainer, so that a drain under way is over before the
next one starts. -/
def operate (t : Traffic α) : Operation α → Traffic α
  | .add item now => { t with queue := t.queue.add item now }
  | .look =>
    match t.underway with
    | none => t.goOn { left := t.queue.depth }
    | some _ => t
  | .receive =>
    match t.underway with
    | none => t
    | some d =>
      match t.queue.receive with
      | (none, _) => t.finish d.received
      | (some i, queue) => { t with queue }.goOn ⟨d.left - 1, d.received ++ [i]⟩

/-- The traffic after a row of operations. -/
def after (t : Traffic α) (ops : List (Operation α)) : Traffic α := ops.foldl operate t

theorem after_append (t : Traffic α) (ops more : List (Operation α)) :
    t.after (ops ++ more) = (t.after ops).after more :=
  List.foldl_append

/-- What the drain under way has received. -/
def received (t : Traffic α) : List (Queued α) := (t.underway.map (·.received)).getD []

/-! ### Everything is handed over in order -/

/-- All that has been through the queue, the oldest first. -/
def handled (t : Traffic α) : List (Queued α) := t.returned.flatten ++ t.received ++ t.queue.waiting

theorem handled_finish (t : Traffic α) (received : List (Queued α)) :
    (t.finish received).handled = t.returned.flatten ++ received ++ t.queue.waiting := by
  simp [handled, finish, Traffic.received]

theorem handled_goOn (t : Traffic α) (d : Drain α) :
    (t.goOn d).handled = t.returned.flatten ++ d.received ++ t.queue.waiting := by
  unfold goOn
  split
  · exact handled_finish t d.received
  · rfl

theorem handled_operate (t : Traffic α) (op : Operation α) :
    (t.operate op).handled = t.handled ++ op.added?.toList := by
  obtain ⟨⟨waiting⟩, underway, returned⟩ := t
  cases op with
  | add item now => simp [operate, handled, received, Operation.added?]
  | look =>
    cases underway with
    | none =>
      refine (handled_goOn _ _).trans ?_
      simp [handled, received, Operation.added?]
    | some d => exact (List.append_nil _).symm
  | receive =>
    cases underway with
    | none => exact (List.append_nil _).symm
    | some d =>
      cases waiting with
      | nil =>
        refine (handled_finish _ _).trans ?_
        simp [handled, received, Operation.added?]
      | cons i is =>
        refine (handled_goOn _ _).trans ?_
        simp [handled, received, Operation.added?]

/-- What has been through the queue is what has been added to it. -/
theorem handled_after (t : Traffic α) (ops : List (Operation α)) :
    (t.after ops).handled = t.handled ++ added ops := by
  induction ops generalizing t with
  | nil => exact (List.append_nil _).symm
  | cons op ops ih =>
    show ((t.operate op).after ops).handled = _
    rw [ih, handled_operate, List.append_assoc, added, added, List.filterMap_cons]
    cases op.added? <;> rfl

/-- How many items have been received so far. -/
def gone (t : Traffic α) : Nat := (t.returned.flatten ++ t.received).length

/-- Items are received or wait, and no other way out of a queue exists. -/
theorem depth_after (t : Traffic α) (ops : List (Operation α)) :
    (t.after ops).gone + (t.after ops).queue.depth = t.gone + t.queue.depth + (added ops).length := by
  have h := congrArg List.length (t.handled_after ops)
  simp only [handled, List.length_append] at h
  simp only [gone, depth, List.length_append]
  exact h

/-! ### What a drain returns -/

theorem operate_receive {d : Drain α} {i : Queued α} {is : List (Queued α)}
    (hd : t.underway = some d) (hw : t.queue.waiting = i :: is) :
    t.operate .receive =
      { t with queue := ⟨is⟩ }.goOn ⟨d.left - 1, d.received ++ [i]⟩ := by
  simp only [operate, hd, Queue.receive, hw, List.head?_cons, List.tail_cons]

theorem prefix_returned_goOn (t : Traffic α) (d : Drain α) :
    t.returned <+: (t.goOn d).returned := by
  unfold goOn
  split
  · exact List.prefix_append t.returned [d.received]
  · exact List.prefix_rfl

/-- What has been returned stays. -/
theorem prefix_returned_operate (t : Traffic α) (op : Operation α) :
    t.returned <+: (t.operate op).returned := by
  unfold operate
  split
  · exact List.prefix_rfl
  · split
    · exact prefix_returned_goOn t _
    · exact List.prefix_rfl
  · split
    · exact List.prefix_rfl
    · split
      · exact List.prefix_append t.returned _
      · rename_i queue _
        exact prefix_returned_goOn { t with queue } _

theorem prefix_returned_after (t : Traffic α) (ops : List (Operation α)) :
    t.returned <+: (t.after ops).returned := by
  induction ops generalizing t with
  | nil => exact List.prefix_rfl
  | cons op ops ih => exact (t.prefix_returned_operate op).trans (ih (t.operate op))

theorem returned_goOn_cases (t : Traffic α) (d : Drain α) :
    (t.goOn d).returned = t.returned ∨
      (t.goOn d).underway = none ∧ (t.goOn d).returned.length = t.returned.length + 1 := by
  unfold goOn
  split
  · exact Or.inr ⟨rfl, by rw [finish, List.length_append, List.length_singleton]⟩
  · exact Or.inl rfl

/-- An operation returns at most one drain, which is over then. -/
theorem returned_operate_cases (t : Traffic α) (op : Operation α) :
    (t.operate op).returned = t.returned ∨
      (t.operate op).underway = none ∧ (t.operate op).returned.length = t.returned.length + 1 := by
  unfold operate
  split
  · exact Or.inl rfl
  · split
    · exact returned_goOn_cases t _
    · exact Or.inl rfl
  · split
    · exact Or.inl rfl
    · split
      · exact Or.inr ⟨rfl, by rw [finish, List.length_append, List.length_singleton]⟩
      · rename_i queue _
        exact returned_goOn_cases { t with queue } _

theorem operate_receive_of_none (h : t.underway = none) : t.operate .receive = t := by
  simp only [operate, h]

/-- While no drain is under way, none returns until the next one starts. -/
theorem operate_of_idle (h : t.underway = none) {op : Operation α} (hop : op ≠ .look) :
    (t.operate op).underway = none ∧ (t.operate op).returned = t.returned := by
  cases op with
  | add item now => exact ⟨h, rfl⟩
  | look => exact absurd rfl hop
  | receive =>
    rw [operate_receive_of_none h]
    exact ⟨h, rfl⟩

/-- A drain is under way that is to receive `n` more items and is going to return `items`. -/
structure Owes (t : Traffic α) (n : Nat) (items : List (Queued α)) : Prop where
  underway : ∃ d, t.underway = some d ∧ d.left = n ∧ d.received ++ t.queue.waiting.take n = items
  pos : 0 < n
  enough : n ≤ t.queue.depth

/-- A drain returns if nothing is left for it to receive, and goes on otherwise. -/
theorem goOn_cases {d : Drain α} (hd : d.left ≤ t.queue.depth)
    (hi : d.received ++ t.queue.waiting.take d.left = items) :
    (d.left = 0 ∧ (t.goOn d).returned = t.returned ++ [items]) ∨
      ((t.goOn d).Owes d.left items ∧ (t.goOn d).returned = t.returned) := by
  by_cases hz : d.left = 0
  · rw [hz, List.take_zero, List.append_nil] at hi
    rw [goOn, if_pos hz, finish, hi]
    exact Or.inl ⟨hz, rfl⟩
  · rw [goOn, if_neg hz]
    exact Or.inr ⟨⟨⟨d, rfl, rfl, hi⟩, Nat.pos_of_ne_zero hz, hd⟩, rfl⟩

/-- What comes in while a drain is under way waits behind all that the drain is to receive. -/
theorem Owes.operate_of_not_receives (h : t.Owes n items) {op : Operation α}
    (hop : op.receives = false) :
    (t.operate op).Owes n items ∧ (t.operate op).returned = t.returned := by
  obtain ⟨d, hd, hleft, hitems⟩ := h.underway
  cases op with
  | add item now =>
    refine ⟨⟨⟨d, hd, hleft, ?_⟩, h.pos, ?_⟩, rfl⟩
    · show d.received ++ (t.queue.add item now).waiting.take n = items
      rw [waiting_add, List.take_append_of_le_length h.enough, hitems]
    · show n ≤ (t.queue.add item now).depth
      rw [depth_add]
      exact Nat.le_succ_of_le h.enough
  | look =>
    have he : t.operate .look = t := by simp only [operate, hd]
    rw [he]
    exact ⟨h, rfl⟩
  | receive => cases hop

/-- The item that a drain receives is the first of those that it is to receive. -/
theorem Owes.operate_receive (h : t.Owes (n + 1) items) :
    (n = 0 ∧ (t.operate .receive).returned = t.returned ++ [items]) ∨
      ((t.operate .receive).Owes n items ∧ (t.operate .receive).returned = t.returned) := by
  obtain ⟨d, hd, hleft, hitems⟩ := h.underway
  have henough : n + 1 ≤ t.queue.waiting.length := h.enough
  cases hw : t.queue.waiting with
  | nil =>
    rw [hw] at henough
    cases henough
  | cons i is =>
    rw [hw] at henough hitems
    have hn : d.left - 1 = n := by rw [hleft, Nat.add_sub_cancel]
    rw [Traffic.operate_receive hd hw, hn]
    refine goOn_cases (d := ⟨n, d.received ++ [i]⟩) (Nat.le_of_succ_le_succ henough) ?_
    rw [← hitems, List.take_succ_cons, List.append_assoc, List.singleton_append]

/-- A drain that is to receive `n` more items has returned once there have been as many receipts, whatever
has come in meanwhile. -/
theorem Owes.after (h : t.Owes n items) (ops : List (Operation α)) :
    (receipts ops < n → (t.after ops).returned = t.returned) ∧
      (n ≤ receipts ops → ∃ later, (t.after ops).returned = t.returned ++ items :: later) := by
  induction ops generalizing t n with
  | nil => exact ⟨fun _ => rfl, fun hn => absurd h.pos (Nat.not_lt.2 hn)⟩
  | cons op ops ih =>
    show (_ → ((t.operate op).after ops).returned = _) ∧
      (_ → ∃ later, ((t.operate op).after ops).returned = _)
    cases hop : op.receives with
    | false =>
      have hcount : receipts (op :: ops) = receipts ops := List.countP_cons_of_neg (by simp [hop])
      obtain ⟨howes, hret⟩ := h.operate_of_not_receives hop
      rw [hcount, ← hret]
      exact ih howes
    | true =>
      obtain rfl : op = .receive := by cases op <;> trivial
      have hcount : receipts (.receive :: ops) = receipts ops + 1 := List.countP_cons_of_pos rfl
      obtain ⟨m, rfl⟩ := Nat.exists_eq_succ_of_ne_zero (Nat.ne_of_gt h.pos)
      rw [hcount]
      obtain ⟨rfl, hret⟩ | ⟨howes, hret⟩ := h.operate_receive
      · obtain ⟨later, hlater⟩ := prefix_returned_after (t.operate .receive) ops
        refine ⟨fun hlt => absurd hlt (by omega), fun _ => ⟨later, ?_⟩⟩
        rw [← hlater, hret, List.append_assoc, List.singleton_append]
      · rw [← hret]
        exact ⟨fun hlt => (ih howes).1 (Nat.lt_of_succ_lt_succ hlt),
          fun hle => (ih howes).2 (Nat.le_of_succ_le_succ hle)⟩

theorem operate_look (h : t.underway = none) :
    t.operate .look = t.goOn { left := t.queue.depth } := by
  simp only [operate, h]

/-- A drain that starts returns what waits then. -/
theorem returned_after_look (h : t.underway = none) (ops : List (Operation α)) :
    (receipts ops < t.queue.depth → (t.after (.look :: ops)).returned = t.returned) ∧
      (t.queue.depth ≤ receipts ops → ∃ later,
        (t.after (.look :: ops)).returned = t.returned ++ t.queue.waiting :: later) := by
  let d : Drain α := { left := t.queue.depth }
  have hitems : d.received ++ t.queue.waiting.take d.left = t.queue.waiting := List.take_length
  have hafter : t.after (.look :: ops) = (t.goOn d).after ops := by
    show (t.operate .look).after ops = _
    rw [operate_look h]
  rw [hafter]
  obtain ⟨hzero, hret⟩ | ⟨howes, hret⟩ := goOn_cases (Nat.le_refl d.left) hitems
  · have hempty : t.queue.depth = 0 := hzero
    obtain ⟨later, hlater⟩ := prefix_returned_after (t.goOn d) ops
    refine ⟨?_, ?_⟩
    · intro hlt
      omega
    · intro _
      refine ⟨later, ?_⟩
      rw [← hlater, hret, List.append_assoc, List.singleton_append]
  · rw [← hret]
    exact howes.after ops

/-! ### A drain without interruption -/

theorem after_receive_of_none (h : t.underway = none) (n : Nat) :
    t.after (List.replicate n .receive) = t := by
  induction n with
  | zero => rfl
  | succ n ih =>
    show (t.operate .receive).after (List.replicate n .receive) = t
    rw [operate_receive_of_none h, ih]

/-- A drain that nothing interrupts takes what the queue gives it. -/
theorem goOn_after_receive (t : Traffic α) (n : Nat) (received : List (Queued α)) :
    (t.goOn ⟨n, received⟩).after (List.replicate n .receive) =
      { t with queue := (t.queue.receiveUpTo n).2 }.finish
        (received ++ (t.queue.receiveUpTo n).1) := by
  induction n generalizing t received with
  | zero =>
    show t.finish received = t.finish (received ++ [])
    rw [List.append_nil]
  | succ n ih =>
    show (({ t with underway := some ⟨n + 1, received⟩ } : Traffic α).operate .receive).after
      (List.replicate n .receive) = _
    obtain ⟨⟨waiting⟩, underway, returned⟩ := t
    cases waiting with
    | nil =>
      refine (after_receive_of_none rfl n).trans ?_
      show finish _ received = finish _ (received ++ [])
      rw [List.append_nil]
      rfl
    | cons i is =>
      refine (ih ⟨⟨is⟩, some ⟨n + 1, received⟩, returned⟩ (received ++ [i])).trans ?_
      rw [List.append_assoc]
      rfl

theorem after_drain (h : t.underway = none) :
    t.after (.look :: List.replicate t.queue.depth .receive) =
      { queue := t.queue.drain.2, returned := t.returned ++ [t.queue.drain.1] } := by
  show (t.operate .look).after _ = _
  rw [operate_look h, goOn_after_receive]
  rfl

end Traffic

end Queue

end GroupConsumer
