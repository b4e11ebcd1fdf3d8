import GroupConsumer.Proofs.Slot.Delivery
import Mathlib.Data.Finset.Card
import Mathlib.Logic.Relation

/-!
# How far a completion reaches

The listeners that wait on pending slots are links from slots to slots. Completing a pending slot
completes exactly the pending slots that are reached from it along these links, each with what is
delivered to it first when links are followed depth first and in the order of their registration, and
leaves every other slot as it is (`cascades_complete`). This holds of every store: links may meet, go
round in circles or lead back to where they start.

`search` is that depth-first search. It looks at the links of the store as they were before anything was
completed, whereas a cascade uses the links up as it goes; `Marked.cascade` says that the two agree.
-/

namespace GroupConsumer

variable {V N : Type}

/-- The slots that a listener links to. -/
def Listener.targets : Listener V N → List SlotId
  | relay target _ | settle target _ _ => [target]
  | report _ => []
  | hold _ target => target.toList
  | spread targets => targets.map (·.1)

/-- Whatever the outcome is, the listener completes all slots that it links to. -/
def Listener.Steady (l : Listener V N) : Prop := ∀ o, (l.deliveries o).map (·.1) = l.targets

/-- What a listener delivers goes to slots that it links to. -/
theorem Listener.mem_targets_of_deliveries {l : Listener V N} {o : Outcome V} {x : SlotId × Outcome V}
    (h : x ∈ l.deliveries o) : x.1 ∈ l.targets := by
  cases l with
  | relay target image =>
    obtain rfl := List.mem_singleton.1 h
    exact List.mem_singleton_self _
  | settle target value name =>
    obtain rfl := List.mem_singleton.1 h
    exact List.mem_singleton_self _
  | report name => cases h
  | hold name target =>
    cases o with
    | ok v => cases h
    | error e =>
      obtain ⟨k, hk, rfl⟩ := List.mem_map.1 h
      exact hk
  | spread targets =>
    obtain ⟨k, hk, hx⟩ := List.mem_filterMap.1 h
    obtain ⟨o', -, rfl⟩ := Option.map_eq_some_iff.1 hx
    exact List.mem_map_of_mem hk

theorem Listener.deliveries_of_targets {l : Listener V N} (h : l.targets = []) (o : Outcome V) :
    l.deliveries o = [] := by
  refine List.eq_nil_iff_forall_not_mem.2 fun x hx => ?_
  have := mem_targets_of_deliveries hx
  rw [h] at this
  cases this

namespace Slots

/-- What is delivered when a slot is completed, in the order of registration. -/
def deliveries (s : Slots V N) (i : SlotId) (o : Outcome V) : List (SlotId × Outcome V) :=
  (s.cells[i]?.map fun c => c.listeners.flatMap (·.deliveries o)).getD []

/-- All links always pass something on. -/
def Steady (s : Slots V N) : Prop :=
  ∀ (i : SlotId) c, s.cells[i]? = some c → ∀ l ∈ c.listeners, l.Steady

/-- A listener that waits on the slot `i` links to the slot `k`, and `k` is pending. -/
def LinksTo (s : Slots V N) (i k : SlotId) : Prop :=
  s.isPending k = true ∧ ∃ c, s.cells[i]? = some c ∧ ∃ l ∈ c.listeners, k ∈ l.targets

/-- How many pending slots a search has not found yet. -/
def unfound (s : Slots V N) (found : List (SlotId × Outcome V)) : Nat :=
  ((Finset.range s.cells.size).filter fun k => s.isPending k = true ∧ k ∉ found.map (·.1)).card

theorem unfound_lt (s : Slots V N) {found : List (SlotId × Outcome V)} {k : SlotId} (o : Outcome V)
    (hk : s.isPending k = true ∧ k ∉ found.map (·.1)) :
    s.unfound (found ++ [(k, o)]) < s.unfound found := by
  have hlt : k < s.cells.size := (isPending_iff.1 hk.1).1
  refine Finset.card_lt_card ((Finset.ssubset_iff_of_subset ?_).2 ⟨k, ?_, ?_⟩)
  · intro i hi
    simp only [Finset.mem_filter, List.map_append, List.mem_append, not_or] at hi ⊢
    exact ⟨hi.1, hi.2.1, hi.2.2.1⟩
  · exact Finset.mem_filter.2 ⟨Finset.mem_range.2 hlt, hk⟩
  · simp

/-- The slots that deliveries reach, each with what reaches it first. A pending slot that has not been
found before is found, and what it delivers in its turn comes before all other deliveries. -/
def search (s : Slots V N) (found : List (SlotId × Outcome V)) :
    List (SlotId × Outcome V) → List (SlotId × Outcome V)
  | [] => found
  | (k, o) :: ahead =>
    if s.isPending k = true ∧ k ∉ found.map (·.1) then
      s.search (found ++ [(k, o)]) (s.deliveries k o ++ ahead)
    else s.search found ahead
termination_by ahead => (s.unfound found, ahead.length)
decreasing_by
  · exact Prod.Lex.left _ _ (s.unfound_lt o ‹_›)
  · exact Prod.Lex.right _ (Nat.lt_succ_self _)

variable {s t u : Slots V N} {found ahead : List (SlotId × Outcome V)} {f i k : SlotId} {o : Outcome V}

@[simp] theorem search_nil (s : Slots V N) (found : List (SlotId × Outcome V)) :
    s.search found [] = found := by rw [search]

theorem search_cons_of_new (hk : s.isPending k = true ∧ k ∉ found.map (·.1)) (o : Outcome V)
    (ahead : List (SlotId × Outcome V)) :
    s.search found ((k, o) :: ahead) =
      s.search (found ++ [(k, o)]) (s.deliveries k o ++ ahead) := by
  rw [search, if_pos hk]

theorem search_cons_of_not_new (hk : ¬ (s.isPending k = true ∧ k ∉ found.map (·.1))) (o : Outcome V)
    (ahead : List (SlotId × Outcome V)) :
    s.search found ((k, o) :: ahead) = s.search found ahead := by
  rw [search, if_neg hk]

/-! ### What a search finds -/

theorem mem_search_of_mem {x : SlotId × Outcome V} (h : x ∈ found) : x ∈ s.search found ahead := by
  induction found, ahead using search.induct s with
  | case1 found => rwa [search_nil]
  | case2 found k o ahead hk ih =>
    rw [search_cons_of_new hk]
    exact ih (List.mem_append_left _ h)
  | case3 found k o ahead hk ih =>
    rw [search_cons_of_not_new hk]
    exact ih h

/-- Slots are found that were pending, and each of them once. -/
structure Finds (s : Slots V N) (found : List (SlotId × Outcome V)) : Prop where
  pending : ∀ x ∈ found, s.isPending x.1 = true
  nodup : (found.map (·.1)).Nodup

theorem finds_nil (s : Slots V N) : s.Finds [] := ⟨by simp, List.nodup_nil⟩

theorem Finds.search (h : s.Finds found) (ahead : List (SlotId × Outcome V)) :
    s.Finds (s.search found ahead) := by
  induction found, ahead using search.induct s with
  | case1 found => rwa [search_nil]
  | case2 found k o ahead hk ih =>
    rw [search_cons_of_new hk]
    refine ih ⟨fun x hx => ?_, ?_⟩
    · obtain hx | hx := List.mem_append.1 hx
      · exact h.pending x hx
      · rw [List.mem_singleton.1 hx]
        exact hk.1
    · rw [List.map_append]
      exact List.nodup_append.2 ⟨h.nodup, by simp, fun a ha b hb => by
        rw [List.mem_singleton.1 hb]
        rintro rfl
        exact hk.2 ha⟩
  | case3 found k o ahead hk ih =>
    rw [search_cons_of_not_new hk]
    exact ih h

/-- What is delivered to a pending slot finds it, if it has not been found before. -/
theorem mem_search_of_ahead {x : SlotId × Outcome V} (hx : x ∈ ahead)
    (hp : s.isPending x.1 = true) : x.1 ∈ (s.search found ahead).map (·.1) := by
  induction found, ahead using search.induct s with
  | case1 found => cases hx
  | case2 found k o ahead hk ih =>
    rw [search_cons_of_new hk]
    obtain rfl | hx := List.mem_cons.1 hx
    · exact List.mem_map_of_mem (mem_search_of_mem (List.mem_append_right _ List.mem_cons_self))
    · exact ih (List.mem_append_right _ hx)
  | case3 found k o ahead hk ih =>
    rw [search_cons_of_not_new hk]
    obtain rfl | hx := List.mem_cons.1 hx
    · have hmem : k ∈ found.map (·.1) := not_not.1 fun hn => hk ⟨hp, hn⟩
      obtain ⟨y, hy, hk⟩ := List.mem_map.1 hmem
      exact List.mem_map.2 ⟨y, mem_search_of_mem hy, hk⟩
    · exact ih hx

/-- All that a slot delivers that the search finds is found as well. -/
theorem mem_search_of_deliveries {x y : SlotId × Outcome V} (hx : x ∈ s.search found ahead)
    (hn : x ∉ found) (hy : y ∈ s.deliveries x.1 x.2) (hp : s.isPending y.1 = true) :
    y.1 ∈ (s.search found ahead).map (·.1) := by
  induction found, ahead using search.induct s with
  | case1 found =>
    rw [search_nil] at hx
    exact absurd hx hn
  | case2 found k o ahead hk ih =>
    rw [search_cons_of_new hk] at hx ⊢
    by_cases hxk : x = (k, o)
    · subst hxk
      exact mem_search_of_ahead (List.mem_append_left _ hy) hp
    · exact ih hx fun hm => by simp [hn, hxk] at hm
  | case3 found k o ahead hk ih =>
    rw [search_cons_of_not_new hk] at hx ⊢
    exact ih hx hn

/-- What a search finds was delivered: at first, or by a slot that it finds. -/
theorem mem_search_cases {x : SlotId × Outcome V} (h : x ∈ s.search found ahead) :
    x ∈ found ∨ x ∈ ahead ∨ ∃ y ∈ s.search found ahead, x ∈ s.deliveries y.1 y.2 := by
  induction found, ahead using search.induct s with
  | case1 found =>
    rw [search_nil] at h
    exact Or.inl h
  | case2 found k o ahead hk ih =>
    rw [search_cons_of_new hk] at h ⊢
    have hko : (k, o) ∈ s.search (found ++ [(k, o)]) (s.deliveries k o ++ ahead) :=
      mem_search_of_mem (List.mem_append_right _ List.mem_cons_self)
    rcases ih h with h | h | h
    · rcases List.mem_append.1 h with h | h
      · exact Or.inl h
      · rw [List.mem_singleton.1 h]
        exact Or.inr (Or.inl List.mem_cons_self)
    · rcases List.mem_append.1 h with h | h
      · exact Or.inr (Or.inr ⟨_, hko, h⟩)
      · exact Or.inr (Or.inl (List.mem_cons_of_mem _ h))
    · exact Or.inr (Or.inr h)
  | case3 found k o ahead hk ih =>
    rw [search_cons_of_not_new hk] at h ⊢
    rcases ih h with h | h | h
    · exact Or.inl h
    · exact Or.inr (Or.inl (List.mem_cons_of_mem _ h))
    · exact Or.inr (Or.inr h)

/-! ### Links that pass something on -/

/-- The slot `f` reaches a slot along links that pass something on, through slots that are pending in
`s`. What is passed on depends on the outcomes that the slots have in `t`. -/
inductive Reaches (s t : Slots V N) (f : SlotId) : SlotId → Prop
  | start : Reaches s t f f
  | link {j k : SlotId} {o o' : Outcome V} (h : Reaches s t f j) (ho : t.outcome? j = some o)
      (hd : (k, o') ∈ s.deliveries j o) (hk : s.isPending k = true) : Reaches s t f k

theorem Reaches.isPending (h : s.Reaches t f i) (hf : s.isPending f = true) :
    s.isPending i = true := by
  cases h with
  | start => exact hf
  | link _ _ _ hk => exact hk

/-- A search finds what is reached, if the slots found get the outcomes that they are found with. -/
theorem reaches_of_mem_search {x : SlotId × Outcome V} (hx : x ∈ s.search found ahead)
    (ht : ∀ y ∈ s.search found ahead, t.outcome? y.1 = some y.2)
    (hfound : ∀ y ∈ found, s.Reaches t f y.1)
    (hahead : ∀ y ∈ ahead, s.isPending y.1 = true → s.Reaches t f y.1) : s.Reaches t f x.1 := by
  induction found, ahead using search.induct s with
  | case1 found =>
    rw [search_nil] at hx
    exact hfound x hx
  | case2 found k o ahead hk ih =>
    rw [search_cons_of_new hk] at hx ht
    have hmem : (k, o) ∈ found ++ [(k, o)] := List.mem_append_right _ List.mem_cons_self
    have hko : t.outcome? k = some o := ht _ (mem_search_of_mem hmem)
    have hreach : s.Reaches t f k := hahead _ List.mem_cons_self hk.1
    refine ih hx ht (fun y hy => ?_) fun y hy hp => ?_
    · obtain hy | hy := List.mem_append.1 hy
      · exact hfound y hy
      · rw [List.mem_singleton.1 hy]
        exact hreach
    · obtain hy | hy := List.mem_append.1 hy
      · exact .link hreach hko hy hp
      · exact hahead y (List.mem_cons_of_mem _ hy) hp
  | case3 found k o ahead hk ih =>
    rw [search_cons_of_not_new hk] at hx ht
    exact ih hx ht hfound fun y hy => hahead y (List.mem_cons_of_mem _ hy)

theorem mem_deliveries {x : SlotId × Outcome V} : x ∈ s.deliveries i o ↔
    ∃ c, s.cells[i]? = some c ∧ ∃ l ∈ c.listeners, x ∈ l.deliveries o := by
  unfold deliveries
  cases s.cells[i]? with
  | none => simp
  | some c => simp

/-! ### Cascades -/

/-- The store `u` is `s` with the slots found completed. -/
structure Marked (s : Slots V N) (found : List (SlotId × Outcome V)) (u : Slots V N) : Prop where
  marks : ∀ x ∈ found, u.cells[x.1]? = some { outcome := some x.2 }
  others : ∀ i, i ∉ found.map (·.1) → u.cells[i]? = s.cells[i]?

theorem marked_nil (s : Slots V N) : s.Marked [] s := ⟨by simp, fun _ _ => rfl⟩

theorem deliveries_tasks (c : Slot V N) (o : Outcome V) :
    (c.tasks o).flatMap (·.deliveries) = c.listeners.flatMap (·.deliveries o) := by
  have hwoken : ∀ ws : List Nat,
      (ws.map fun w => (.note (.woken w) : Task V N)).flatMap (·.deliveries) = [] := by
    intro ws
    simp [Task.deliveries]
  rw [Slot.tasks, List.flatMap_append, hwoken, List.append_nil, List.flatMap_map]
  rfl

/-- Completing a slot that has not been found marks it, and hands on what it delivers. -/
theorem Marked.fill_of_new (h : s.Marked found u) (hk : s.isPending k = true ∧ k ∉ found.map (·.1))
    (o : Outcome V) : s.Marked (found ++ [(k, o)]) (u.fill k o).slots ∧
      (u.fill k o).tasks.flatMap (·.deliveries) = s.deliveries k o := by
  obtain ⟨c, hs, hn⟩ := exists_cell_of_isPending hk.1
  have hc : u.cells[k]? = some c := (h.others k hk.2).trans hs
  obtain ⟨hku, -⟩ := Array.getElem?_eq_some_iff.1 hc
  rw [fill_of_pending hc hn]
  refine ⟨⟨fun x hx => ?_, fun i hi => ?_⟩, ?_⟩
  · by_cases hxk : k = x.1
    · obtain hx | hx := List.mem_append.1 hx
      · exact absurd (List.mem_map.2 ⟨x, hx, hxk.symm⟩) hk.2
      · rw [List.mem_singleton.1 hx]
        exact Array.getElem?_setIfInBounds_self_of_lt hku
    · have hx' : x ∈ found := by
        obtain hx | hx := List.mem_append.1 hx
        · exact hx
        · exact absurd (congrArg Prod.fst (List.mem_singleton.1 hx)).symm hxk
      rw [Array.getElem?_setIfInBounds_ne hxk]
      exact h.marks x hx'
  · rw [List.map_append, List.mem_append, not_or] at hi
    have hik : k ≠ i := fun he => hi.2 (he ▸ List.mem_cons_self)
    rw [Array.getElem?_setIfInBounds_ne hik]
    exact h.others i hi.1
  · rw [deliveries_tasks, deliveries, hs]
    rfl

/-- A delivery to any other slot comes too late. -/
theorem Marked.fill_of_not_new (h : s.Marked found u)
    (hk : ¬ (s.isPending k = true ∧ k ∉ found.map (·.1))) (o : Outcome V) :
    u.fill k o = ⟨u, [], false⟩ := by
  obtain he | ⟨c, hc, hn, -⟩ := u.fill_cases k o
  · exact he
  · refine absurd ?_ hk
    have hnot : k ∉ found.map (·.1) := by
      intro hm
      obtain ⟨x, hx, rfl⟩ := List.mem_map.1 hm
      obtain rfl := Option.some.inj (hc.symm.trans (h.marks x hx))
      cases hn
    refine ⟨?_, hnot⟩
    rw [isPending, ← h.others k hnot, hc, Option.any_some, hn]
    rfl

/-- A cascade completes what a search finds that follows its deliveries. -/
theorem Marked.cascade (h : s.Marked found u) (ts : List (Task V N)) :
    s.Marked (s.search found (ts.flatMap (·.deliveries))) (u.cascade ts) := by
  induction u, ts using cascade.induct generalizing found with
  | case1 u =>
    rw [cascade_nil, List.flatMap_nil, search_nil]
    exact h
  | case2 u t ts ih =>
    rw [cascade_cons, List.flatMap_cons]
    cases ha : t.attempt? with
    | none =>
      obtain ⟨j, he⟩ := perform_of_attempt?_eq_none (s := u) ha
      rw [he] at ih ⊢
      have hu : s.Marked found ⟨u.cells, j⟩ := ⟨h.marks, h.others⟩
      have hd : (t.deliveries.map fun k => (.complete k.1 k.2 : Task V N)).flatMap (·.deliveries) =
          t.deliveries := by
        rw [List.flatMap_map]
        exact List.flatMap_singleton' _
      have := ih hu
      rwa [List.flatMap_append, hd] at this
    | some x =>
      obtain ⟨k, o⟩ := x
      obtain ⟨hd, us, hus, he⟩ := perform_of_attempt?_eq_some (s := u) ha
      have hrest : us.flatMap (·.deliveries) = [] :=
        List.flatMap_eq_nil_iff.2 fun v hv => (hus v hv).deliveries
      rw [he] at ih ⊢
      rw [hd, List.singleton_append]
      by_cases hk : s.isPending k = true ∧ k ∉ found.map (·.1)
      · obtain ⟨hm, hf⟩ := h.fill_of_new hk o
        have := ih hm
        rwa [List.flatMap_append, List.flatMap_append, hrest, List.append_nil, hf,
          ← search_cons_of_new hk] at this
      · rw [h.fill_of_not_new hk] at ih ⊢
        have := ih h
        rwa [List.flatMap_append, List.flatMap_append, hrest, List.flatMap_nil, List.nil_append,
          List.nil_append, ← search_cons_of_not_new hk] at this

theorem marked_settle (s : Slots V N) (f : SlotId) (o : Outcome V) :
    s.Marked (s.search [] [(f, o)]) (s.settle f o) := by
  rw [settle_eq_cascade]
  exact s.marked_nil.cascade [.complete f o]

theorem marked_tell (s : Slots V N) (l : Listener V N) (o : Outcome V) :
    s.Marked (s.search [] (l.deliveries o)) (s.cascade [.tell l o]) := by
  have := s.marked_nil.cascade [.tell l o]
  simpa [Task.deliveries] using this

/-- What becomes of the store `s` when the slot `f` is completed with `o`. -/
structure Cascades (s : Slots V N) (f : SlotId) (o : Outcome V) (t : Slots V N) : Prop where
  outcome : t.outcome? f = some o
  /-- The slots completed are those that `f` reaches along links that pass something on. -/
  reached : ∀ i, s.isPending i = true → (t.isDone i = true ↔ s.Reaches t f i)
  /-- If all links always pass something on, these are the slots that `f` is linked to, whatever
  the outcomes are. -/
  linked : s.Steady → ∀ i, s.isPending i = true →
    (t.isDone i = true ↔ Relation.ReflTransGen s.LinksTo f i)
  /-- Each has what is delivered to it first. -/
  first : ∀ i, s.isPending i = true →
    ∀ o', t.outcome? i = some o' ↔ (i, o') ∈ s.search [] [(f, o)]
  /-- Nobody waits on them any more. -/
  spent : ∀ i, s.isPending i = true → ∀ o', t.outcome? i = some o' →
    t.cells[i]? = some { outcome := some o' }
  /-- Every other slot is as it was, with all that waits on it. -/
  others : ∀ i, (s.isPending i = true → t.isDone i = false) → t.cells[i]? = s.cells[i]?

theorem Marked.outcome?_of_mem (h : s.Marked found u) (hi : (i, o) ∈ found) :
    u.outcome? i = some o := by
  rw [outcome?, h.marks _ hi]
  rfl

/-- A slot that was pending and is complete has been found. -/
theorem Marked.mem_of_outcome? (h : s.Marked found u) (hp : s.isPending i = true)
    (ho : u.outcome? i = some o) : (i, o) ∈ found := by
  by_cases hi : i ∈ found.map (·.1)
  · obtain ⟨⟨j, o'⟩, hx, rfl⟩ := List.mem_map.1 hi
    obtain rfl := Option.some.inj (ho.symm.trans (h.outcome?_of_mem hx))
    exact hx
  · have hn : u.outcome? i = none := by
      rw [outcome?, h.others i hi]
      exact (isPending_iff.1 hp).2
    cases hn.symm.trans ho

/-- All that is reached from the start of a search is complete when the slots found are. -/
theorem Marked.isDone_of_reaches (h : s.Marked (s.search [] [(f, o)]) t)
    (hf : s.isPending f = true) (hr : s.Reaches t f i) : t.isDone i = true := by
  suffices hm : i ∈ (s.search [] [(f, o)]).map (·.1) by
    obtain ⟨x, hx, rfl⟩ := List.mem_map.1 hm
    exact isDone_of_outcome (h.outcome?_of_mem hx)
  cases hr with
  | start => exact mem_search_of_ahead (x := (f, o)) List.mem_cons_self hf
  | link hr ho hd hk =>
    have hx := h.mem_of_outcome? (hr.isPending hf) ho
    exact mem_search_of_deliveries hx List.not_mem_nil hd hk

/-- If all links always pass something on, what is reached is what is linked. -/
theorem reaches_iff_of_steady (hs : s.Steady) (hf : s.isPending f = true)
    (ht : ∀ i, s.isPending i = true → s.Reaches t f i → t.isDone i = true) :
    s.Reaches t f i ↔ Relation.ReflTransGen s.LinksTo f i := by
  constructor
  · intro h
    induction h with
    | start => exact .refl
    | @link j k o o' _ _ hd hk ih =>
      obtain ⟨c, hc, l, hl, hx⟩ := mem_deliveries.1 hd
      refine ih.tail ⟨hk, c, hc, l, hl, ?_⟩
      rw [← hs j c hc l hl o]
      exact List.mem_map_of_mem hx
  · intro h
    induction h with
    | refl => exact .start
    | @tail j k _ hl ih =>
      obtain ⟨hk, c, hc, l, hl, hkl⟩ := hl
      obtain ⟨o, ho⟩ := Option.isSome_iff_exists.1 (ht j (ih.isPending hf) ih)
      rw [← hs j c hc l hl o] at hkl
      obtain ⟨⟨k, o'⟩, hx, rfl⟩ := List.mem_map.1 hkl
      exact .link ih ho (mem_deliveries.2 ⟨c, hc, l, hl, hx⟩) hk

/-- A pending slot can be completed, and this reaches exactly as far as the links do. -/
theorem cascades_complete (s : Slots V N) {f : SlotId} (hf : s.isPending f = true) (o : Outcome V) :
    (s.complete f o).2 = true ∧ s.Cascades f o (s.complete f o).1 := by
  have hfirst : (s.complete f o).2 = true := by
    obtain ⟨c, hc, hn⟩ := exists_cell_of_isPending hf
    rw [complete, fill_of_pending hc hn]
  have hself : (s.complete f o).1.outcome? f = some o := outcome?_settle_self hf o
  have hm : s.Marked (s.search [] [(f, o)]) (s.complete f o).1 := s.marked_settle f o
  generalize (s.complete f o).1 = t at hself hm
  have hdone {i : SlotId} (hr : s.Reaches t f i) : t.isDone i = true := hm.isDone_of_reaches hf hr
  have hreached (i : SlotId) (hp : s.isPending i = true) : t.isDone i = true ↔ s.Reaches t f i := by
    refine ⟨fun hd => ?_, hdone⟩
    obtain ⟨o', ho⟩ := Option.isSome_iff_exists.1 hd
    refine reaches_of_mem_search (hm.mem_of_outcome? hp ho) (fun y hy => hm.outcome?_of_mem hy)
      (by simp) fun y hy _ => ?_
    rw [List.mem_singleton.1 hy]
    exact .start
  refine ⟨hfirst, hself, hreached, fun hs i hp => ?_, fun i hp o' => ?_, fun i hp o' ho => ?_,
    fun i hi => ?_⟩
  · rw [hreached i hp]
    exact reaches_iff_of_steady hs hf fun _ _ => hdone
  · exact ⟨hm.mem_of_outcome? hp, hm.outcome?_of_mem⟩
  · exact hm.marks _ (hm.mem_of_outcome? hp ho)
  · refine hm.others i fun hmem => ?_
    obtain ⟨x, hx, rfl⟩ := List.mem_map.1 hmem
    have hp := (s.finds_nil.search [(f, o)]).pending x hx
    cases (hi hp).symm.trans (isDone_of_outcome (hm.outcome?_of_mem hx))

/-- A slot that is linked to itself and to two others, which meet in a third one that is linked back to
the start. A last slot is linked to the start only. -/
def diamond : Slots Nat Unit where
  cells := #[{ listeners := [.relay 1 (· + 1), .relay 0 id, .relay 2 (· + 2)] },
    { listeners := [.relay 3 (10 * ·)] },
    { listeners := [.relay 3 (100 * ·), .report ()], wakers := [7] },
    { listeners := [.relay 0 id] },
    { listeners := [.relay 0 id] }]

theorem cascades_diamond : diamond.isPending 0 = true ∧ (diamond.complete 0 (.ok 5)).2 = true ∧
    diamond.Cascades 0 (.ok 5) (diamond.complete 0 (.ok 5)).1 ∧
    (diamond.complete 0 (.ok 5)).1.outcome? 3 = some (.ok 60) ∧
    (diamond.complete 0 (.ok 5)).1.isDone 4 = false := by
  have hp : diamond.isPending 0 = true := rfl
  obtain ⟨hfirst, h⟩ := diamond.cascades_complete hp (.ok 5)
  refine ⟨hp, hfirst, h, ?_, ?_⟩
  · decide +kernel
  · decide +kernel

end Slots

end GroupConsumer
