import GroupConsumer.Proofs.Slot.History
import GroupConsumer.Proofs.Slot.Reach

/-!
# Slots that are made from others

A slot that is made by mapping another one ends as the other does, with its value replaced by its image,
whether the other one was complete when it was made or is completed later, and whatever else happens to
the store, as long as nobody else is given the number of the new slot (`outcome?_mapped`). Up to then
the one thing that leads to the new slot is the link that it was made with; `Mirrors` says so of a store
and is kept by every operation.
-/

namespace GroupConsumer

variable {V N : Type}

namespace Slots

variable {s u : Slots V N} {i k m n : SlotId} {o : Outcome V} {f g : V → V} {l : Listener V N}
  {ahead found : List (SlotId × Outcome V)} {P : SlotId → Listener V N → Prop}

/-! ### What leads to a slot -/

/-- The listeners that lead to the slot `m` are as `P` says, which is told the slot that they wait on. -/
def LinkedBy (s : Slots V N) (m : SlotId) (P : SlotId → Listener V N → Prop) : Prop :=
  ∀ j c, s.cells[j]? = some c → ∀ l ∈ c.listeners, m ∈ l.targets → P j l

theorem LinkedBy.mono {Q : SlotId → Listener V N → Prop} (h : s.LinkedBy m P)
    (hPQ : ∀ j l, P j l → Q j l) : s.LinkedBy m Q :=
  fun j c hc l hl hm => hPQ j l (h j c hc l hl hm)

/-- Slots that are complete have no listeners. -/
theorem LinkedBy.marked (h : s.LinkedBy m P) (hu : s.Marked found u) : u.LinkedBy m P := by
  intro j c hc l hl hm
  by_cases hj : j ∈ found.map (·.1)
  · obtain ⟨x, hx, rfl⟩ := List.mem_map.1 hj
    obtain rfl := Option.some.inj (hc.symm.trans (hu.marks x hx))
    cases hl
  · rw [hu.others j hj] at hc
    exact h j c hc l hl hm

theorem LinkedBy.set (h : s.LinkedBy m P) {d : Slot V N}
    (hd : ∀ l ∈ d.listeners, m ∈ l.targets → P k l) :
    LinkedBy ⟨s.cells.setIfInBounds k d, s.journal⟩ m P := by
  intro j c hc l hl hm
  by_cases hk : k = j
  · subst hk
    have hlt : k < s.cells.size := by
      obtain ⟨hlt, -⟩ := Array.getElem?_eq_some_iff.1 hc
      simpa using hlt
    have hc' : (s.cells.setIfInBounds k d)[k]? = some d := Array.getElem?_setIfInBounds_self_of_lt hlt
    obtain rfl := Option.some.inj (hc'.symm.trans hc)
    exact hd l hl hm
  · have hc' : s.cells[j]? = some c := by rwa [← Array.getElem?_setIfInBounds_ne hk]
    exact h j c hc' l hl hm

theorem LinkedBy.settle (h : s.LinkedBy m P) (k : SlotId) (o : Outcome V) :
    (s.settle k o).LinkedBy m P := h.marked (s.marked_settle k o)

theorem LinkedBy.listen (h : s.LinkedBy m P) (hl : m ∈ l.targets → P k l) :
    (s.listen k l).LinkedBy m P := by
  obtain he | ⟨c, hc, -, he⟩ | ⟨o, -, he⟩ := s.listen_cases k l
  · rwa [he]
  · rw [he]
    refine h.set fun l' hl' hm => ?_
    rcases List.mem_append.1 hl' with hl' | hl'
    · exact h k c hc l' hl' hm
    · obtain rfl := List.mem_singleton.1 hl'
      exact hl hm
  · rw [he]
    exact h.marked (s.marked_tell l o)

theorem LinkedBy.fresh (h : s.LinkedBy m P) : s.fresh.1.LinkedBy m P := by
  intro j c hc l hl hm
  obtain ⟨-, he⟩ | he := s.fresh_cases j
  · obtain rfl := Option.some.inj (hc.symm.trans he)
    cases hl
  · exact h j c (he.symm.trans hc) l hl hm

theorem LinkedBy.poll (h : s.LinkedBy m P) (k : SlotId) (w : Nat) : (s.poll k w).1.LinkedBy m P := by
  cases hc : s.cells[k]? with
  | none =>
    rw [Slots.poll, hc]
    exact h
  | some c =>
    cases ho : c.outcome with
    | none =>
      rw [poll_of_pending hc ho]
      split
      · exact h
      · exact h.set fun l hl hm => h k c hc l hl hm
    | some o =>
      rw [poll_of_outcome? (outcome?_eq_some.2 ⟨c, hc, ho⟩)]
      exact h

/-! ### Histories -/

/-- The slots that an operation completes or links others to. -/
def Operation.aims : Operation V N → List SlotId
  | complete i _ => [i]
  | chain _ target => [target]
  | listen _ l => l.targets
  | fresh | map .. | poll .. | get _ => []

/-- An operation that is not about the slot `m` and does not make it lets no new listener lead to it. -/
theorem LinkedBy.operate (h : s.LinkedBy m P) {op : Operation V N} (ha : m ∉ op.aims)
    (hm : (s.operate op).cells.size ≤ m ∨ m < s.cells.size) : (s.operate op).LinkedBy m P := by
  cases op with
  | fresh => exact h.fresh
  | complete i o => exact h.settle i o
  | chain source target => exact h.listen fun hmem => absurd hmem ha
  | map source image =>
    have hsize : (s.operate (.map source image)).cells.size = s.cells.size + 1 := s.size_map source image
    refine h.fresh.listen fun hmem => ?_
    obtain rfl : m = s.cells.size := List.mem_singleton.1 hmem
    rw [hsize] at hm
    rcases hm with hm | hm
    · exact absurd hm (Nat.not_succ_le_self _)
    · exact absurd hm (Nat.lt_irrefl _)
  | listen i l => exact h.listen fun hmem => absurd hmem ha
  | poll i w => exact h.poll i w
  | get i => exact h

/-- Nothing leads to a slot that is still to be made. -/
theorem LinkedBy.after_of_size_le (h : s.LinkedBy m P) {ops : List (Operation V N)}
    (ha : ∀ op ∈ ops, m ∉ op.aims) (hm : (s.after ops).cells.size ≤ m) : (s.after ops).LinkedBy m P := by
  induction ops generalizing s with
  | nil => exact h
  | cons op ops ih =>
    have hop : (s.operate op).cells.size ≤ m := (size_after (s.operate op) ops).trans hm
    exact ih (h.operate (ha op List.mem_cons_self) (Or.inl hop))
      (fun op' hop' => ha op' (List.mem_cons_of_mem _ hop')) hm

/-! ### Mapped slots -/

/-- The slot `m` is what `f` makes of the slot `i`: it has its outcome, or waits for it, and nothing else
leads to it. -/
structure Mirrors (s : Slots V N) (i : SlotId) (f : V → V) (m : SlotId) : Prop where
  lt_size : m < s.cells.size
  linked : s.LinkedBy m fun j l => j = i ∧ l = .relay m f
  waits : s.isPending i = true → ∃ c, s.cells[i]? = some c ∧ .relay m f ∈ c.listeners
  outcome : s.outcome? m = (s.outcome? i).map (Except.map f)

/-- The slot is completed along its link, and in no other way. -/
theorem Mirrors.marked (h : s.Mirrors i f m) (ha : m ∉ ahead.map (·.1))
    (hu : s.Marked (s.search [] ahead) u) (hsize : u.cells.size = s.cells.size) : u.Mirrors i f m := by
  have hfinds : s.Finds (s.search [] ahead) := s.finds_nil.search ahead
  have hback {o' : Outcome V} (ho' : (m, o') ∈ s.search [] ahead) :
      ∃ o, (i, o) ∈ s.search [] ahead ∧ o' = o.map f := by
    rcases mem_search_cases ho' with hm | hm | ⟨⟨j, o⟩, hj, hd⟩
    · cases hm
    · exact absurd (List.mem_map_of_mem hm) ha
    · obtain ⟨c, hc, l, hl, hx⟩ := mem_deliveries.1 hd
      obtain ⟨rfl, rfl⟩ := h.linked j c hc l hl (Listener.mem_targets_of_deliveries hx)
      exact ⟨o, hj, congrArg Prod.snd (List.mem_singleton.1 hx)⟩
  have hforth {o : Outcome V} (ho : (i, o) ∈ s.search [] ahead) :
      u.outcome? m = some (o.map f) := by
    have hp : s.isPending i = true := hfinds.pending _ ho
    obtain ⟨c, hc, hl⟩ := h.waits hp
    have hpm : s.isPending m = true := by
      refine isPending_iff.2 ⟨h.lt_size, ?_⟩
      rw [h.outcome, (isPending_iff.1 hp).2]
      rfl
    have hd : (m, o.map f) ∈ s.deliveries i o :=
      mem_deliveries.2 ⟨c, hc, _, hl, List.mem_singleton_self _⟩
    obtain ⟨⟨m', o'⟩, hm, he⟩ :=
      List.mem_map.1 (mem_search_of_deliveries ho List.not_mem_nil hd hpm)
    obtain rfl : m' = m := he
    obtain ⟨o'', hi, rfl⟩ := hback hm
    obtain rfl := Option.some.inj ((hu.outcome?_of_mem hi).symm.trans (hu.outcome?_of_mem ho))
    exact hu.outcome?_of_mem hm
  refine ⟨Nat.lt_of_lt_of_eq h.lt_size hsize.symm, h.linked.marked hu, fun hp => ?_, ?_⟩
  · have hi : i ∉ (s.search [] ahead).map (·.1) := by
      intro hi
      obtain ⟨x, hx, rfl⟩ := List.mem_map.1 hi
      cases (isPending_iff.1 hp).2.symm.trans (hu.outcome?_of_mem hx)
    rw [isPending, hu.others i hi] at hp
    rw [hu.others i hi]
    exact h.waits hp
  · by_cases hi : i ∈ (s.search [] ahead).map (·.1)
    · obtain ⟨⟨_, o⟩, hx, rfl⟩ := List.mem_map.1 hi
      rw [hforth hx, hu.outcome?_of_mem hx]
      rfl
    · have hm : m ∉ (s.search [] ahead).map (·.1) := by
        intro hm
        obtain ⟨⟨_, o'⟩, hx, rfl⟩ := List.mem_map.1 hm
        obtain ⟨o, ho, -⟩ := hback hx
        exact hi (List.mem_map_of_mem ho)
      rw [outcome?, outcome?, hu.others i hi, hu.others m hm]
      exact h.outcome

theorem Mirrors.settle (h : s.Mirrors i f m) (hk : m ≠ k) (o : Outcome V) :
    (s.settle k o).Mirrors i f m :=
  h.marked (by simpa using hk) (s.marked_settle k o) (s.size_settle k o)

/-- Waiting for a slot, or asking for it, does not change what becomes of it. -/
theorem Mirrors.set (h : s.Mirrors i f m) {c d : Slot V N} (hc : s.cells[k]? = some c)
    (hd : d.outcome = c.outcome) (hl : ∀ l ∈ c.listeners, l ∈ d.listeners)
    (hm : ∀ l ∈ d.listeners, m ∈ l.targets → k = i ∧ l = .relay m f) :
    Mirrors ⟨s.cells.setIfInBounds k d, s.journal⟩ i f m := by
  have hlt : k < s.cells.size := by
    obtain ⟨hlt, -⟩ := Array.getElem?_eq_some_iff.1 hc
    exact hlt
  have hself : (s.cells.setIfInBounds k d)[k]? = some d := Array.getElem?_setIfInBounds_self_of_lt hlt
  have ho (j : SlotId) : outcome? ⟨s.cells.setIfInBounds k d, s.journal⟩ j = s.outcome? j := by
    by_cases hj : k = j
    · subst hj
      rw [outcome?, outcome?, hself, hc]
      exact hd
    · exact outcome?_set_of_ne hj d
  refine ⟨?_, h.linked.set hm, fun hp => ?_, ?_⟩
  · exact Nat.lt_of_lt_of_eq h.lt_size Array.size_setIfInBounds.symm
  · have hp' : s.isPending i = true := by
      obtain ⟨hi, hn⟩ := isPending_iff.1 hp
      exact isPending_iff.2 ⟨Nat.lt_of_lt_of_eq hi Array.size_setIfInBounds, (ho i).symm.trans hn⟩
    obtain ⟨c', hc', hmem⟩ := h.waits hp'
    by_cases hi : k = i
    · subst hi
      obtain rfl := Option.some.inj (hc.symm.trans hc')
      exact ⟨d, hself, hl _ hmem⟩
    · exact ⟨c', (Array.getElem?_setIfInBounds_ne hi).trans hc', hmem⟩
  · rw [ho, ho]
    exact h.outcome

theorem Mirrors.listen (h : s.Mirrors i f m) (hl : m ∉ l.targets) (k : SlotId) :
    (s.listen k l).Mirrors i f m := by
  obtain he | ⟨c, hc, -, he⟩ | ⟨o, -, he⟩ := s.listen_cases k l
  · rwa [he]
  · rw [he]
    refine h.set hc rfl (fun l' hl' => List.mem_append_left _ hl') fun l' hl' hm => ?_
    rcases List.mem_append.1 hl' with hl' | hl'
    · exact h.linked k c hc l' hl' hm
    · obtain rfl := List.mem_singleton.1 hl'
      exact absurd hm hl
  · rw [he]
    refine h.marked (fun hm => hl ?_) (s.marked_tell l o) (s.size_cascade _)
    obtain ⟨x, hx, rfl⟩ := List.mem_map.1 hm
    exact Listener.mem_targets_of_deliveries hx

theorem Mirrors.fresh (h : s.Mirrors i f m) (hi : i < s.cells.size) : s.fresh.1.Mirrors i f m := by
  have hp (hp : s.fresh.1.isPending i = true) : s.isPending i = true := by
    refine isPending_iff.2 ⟨hi, ?_⟩
    rw [← outcome?_fresh]
    exact (isPending_iff.1 hp).2
  refine ⟨h.lt_size.trans_le (s.size_operate .fresh), h.linked.fresh, fun hpi => ?_, ?_⟩
  · obtain ⟨c, hc, hmem⟩ := h.waits (hp hpi)
    exact ⟨c, getElem?_fresh hc, hmem⟩
  · rw [outcome?_fresh, outcome?_fresh]
    exact h.outcome

theorem Mirrors.poll (h : s.Mirrors i f m) (k : SlotId) (w : Nat) : (s.poll k w).1.Mirrors i f m := by
  cases hc : s.cells[k]? with
  | none =>
    rw [Slots.poll, hc]
    exact h
  | some c =>
    cases ho : c.outcome with
    | none =>
      rw [poll_of_pending hc ho]
      split
      · exact h
      · exact h.set hc rfl (fun _ hl => hl) fun l hl hm => h.linked k c hc l hl hm
    | some o =>
      rw [poll_of_outcome? (outcome?_eq_some.2 ⟨c, hc, ho⟩)]
      exact h

/-- The slot `m` stays as it was made, unless an operation is about it. -/
theorem Mirrors.operate (h : s.Mirrors i f m) (hi : i < s.cells.size) {op : Operation V N}
    (ha : m ∉ op.aims) : (s.operate op).Mirrors i f m := by
  cases op with
  | fresh => exact h.fresh hi
  | complete k o => exact h.settle (by simpa [Operation.aims] using ha) o
  | chain source target => exact h.listen (l := .relay target id) ha source
  | map source image =>
    refine (h.fresh hi).listen ?_ source
    intro hmem
    exact Nat.ne_of_lt h.lt_size (List.mem_singleton.1 hmem)
  | listen k l => exact h.listen ha k
  | poll k w => exact h.poll k w
  | get k => exact h

theorem Mirrors.after (h : s.Mirrors i f m) (hi : i < s.cells.size) {ops : List (Operation V N)}
    (ha : ∀ op ∈ ops, m ∉ op.aims) : (s.after ops).Mirrors i f m := by
  induction ops generalizing s with
  | nil => exact h
  | cons op ops ih =>
    exact ih (h.operate hi (ha op List.mem_cons_self)) (hi.trans_le (s.size_operate op))
      fun op' hop' => ha op' (List.mem_cons_of_mem _ hop')

/-- A mapped slot mirrors the one that it is made from, be that complete or not. -/
theorem mirrors_map (h : s.LinkedBy s.cells.size fun _ _ => False) (hi : i < s.cells.size)
    (f : V → V) : (s.map i f).1.Mirrors i f s.cells.size := by
  have hlinked : (s.map i f).1.LinkedBy s.cells.size fun j l => j = i ∧ l = .relay s.cells.size f :=
    (h.fresh.mono fun _ _ hn => hn.elim).listen fun _ => ⟨rfl, rfl⟩
  have hsize : s.cells.size < (s.map i f).1.cells.size := by
    rw [size_map]
    exact Nat.lt_succ_self _
  have hnew : s.fresh.1.cells[s.cells.size]? = some {} := Array.getElem?_push_size
  have hpm : s.fresh.1.isPending s.cells.size = true := by
    rw [isPending, hnew]
    rfl
  have hc : s.fresh.1.cells[i]? = some s.cells[i] := getElem?_fresh (Array.getElem?_eq_getElem hi)
  cases ho : s.cells[i].outcome with
  | some o =>
    have hoi : s.fresh.1.outcome? i = some o := outcome?_eq_some.2 ⟨_, hc, ho⟩
    have hoi' : (s.map i f).1.outcome? i = some o := keeps_listen _ _ _ _ _ hoi
    refine ⟨hsize, hlinked, fun hp => ?_, ?_⟩
    · cases (isPending_iff.1 hp).2.symm.trans hoi'
    · rw [hoi']
      exact outcome?_listen_relay hoi hpm f
  | none =>
    have he : (s.map i f).1 = _ := listen_of_pending hc ho (.relay s.cells.size f)
    have hoi : s.fresh.1.outcome? i = none := by
      rw [outcome?, hc]
      exact ho
    have hom : s.fresh.1.outcome? s.cells.size = none := (isPending_iff.1 hpm).2
    refine ⟨hsize, hlinked, fun _ => ?_, ?_⟩
    · rw [he]
      refine ⟨_, Array.getElem?_setIfInBounds_self_of_lt ?_, List.mem_append_right _ List.mem_cons_self⟩
      exact hi.trans_le (s.size_operate .fresh)
    · rw [he, outcome?_set_listeners hc, outcome?_set_listeners hc, hom, hoi]
      rfl

/-! ### Histories in which slots are mapped -/

/-- All links lead to slots that there are. -/
def LinksInside (s : Slots V N) : Prop :=
  ∀ m, s.cells.size ≤ m → s.LinkedBy m fun _ _ => False

theorem linksInside_nil : LinksInside ({} : Slots V N) := by
  intro m _ j c hc
  simp at hc

/-- In the history the slot `m` is made from the slot `i` by `f`, and no operation is about it. -/
structure Makes (s : Slots V N) (ops : List (Operation V N)) (i : SlotId) (f : V → V) (m : SlotId) :
    Prop where
  made : ∃ past later, ops = past ++ .map i f :: later ∧ i < (s.after past).cells.size ∧
    m = (s.after past).cells.size
  alone : ∀ op ∈ ops, m ∉ op.aims

theorem Makes.mirrors {ops : List (Operation V N)} (h : s.Makes ops i f m) (hs : s.LinksInside) :
    i < (s.after ops).cells.size ∧ (s.after ops).Mirrors i f m := by
  obtain ⟨past, later, rfl, hi, rfl⟩ := h.made
  have hpast : (s.after past).LinkedBy (s.after past).cells.size fun _ _ => False :=
    (hs _ (s.size_after past)).after_of_size_le
      (fun op hop => h.alone op (List.mem_append_left _ hop)) (Nat.le_refl _)
  have hi' : i < ((s.after past).map i f).1.cells.size :=
    hi.trans_le ((s.after past).size_operate (.map i f))
  rw [after_append]
  refine ⟨hi'.trans_le (size_after _ later), (mirrors_map hpast hi f).after hi' fun op hop => ?_⟩
  exact h.alone op (List.mem_append_right _ (List.mem_cons_of_mem _ hop))

/-- A mapped slot ends with the image of the value, or with the same fault, and waits as long as the
slot that it is made from. -/
theorem Makes.outcome {ops : List (Operation V N)} (h : s.Makes ops i f m) (hs : s.LinksInside) :
    (s.after ops).outcome? m = ((s.after ops).outcome? i).map (Except.map f) :=
  (h.mirrors hs).2.outcome

/-- Mapping twice is mapping once by the composition. -/
theorem Makes.comp {ops : List (Operation V N)} (hm : s.Makes ops i f m) (hn : s.Makes ops m g n)
    (hk : s.Makes ops i (g ∘ f) k) (hs : s.LinksInside) :
    (s.after ops).outcome? n = (s.after ops).outcome? k := by
  rw [hn.outcome hs, hm.outcome hs, hk.outcome hs, Option.map_map]
  congr 1
  funext o
  cases o with
  | ok v => rfl
  | error e => rfl

end Slots

end GroupConsumer
