import GroupConsumer.Proofs.Slot.Mapped
import Mathlib.Data.Set.Basic

/-!
# Races for a slot

A slot may be linked to by many others, and may be completed directly as well. Whoever is first decides:
a direct completion, a source that is completed while it is linked, or one that is linked when it is
complete. The decision is read off the history alone (`decision`), and it is the outcome of the slot,
whatever the order of linking and completing (`first_linked_and_complete_wins`). What carries the proof
is the state of the sources while nothing is decided (`Open`): each has the outcome that the history says,
and one that is linked is pending and holds the link.
-/

namespace GroupConsumer

/-- What can happen in a race for a slot: it is completed directly, or a source is completed or linked to
it. -/
inductive RaceStep (V : Type) where
  | direct (outcome : Outcome V)
  | source (i : SlotId) (outcome : Outcome V)
  | link (i : SlotId)

namespace RaceStep

variable {V : Type}

/-- The operation on the store, if the race is for the slot `t`. -/
def operation (N : Type) (t : SlotId) : RaceStep V → Slots.Operation V N
  | direct o => .complete t o
  | source i o => .complete i o
  | link i => .chain i t

/-- The source that a step is about. -/
def source? : RaceStep V → Option SlotId
  | direct _ => none
  | source i _ | link i => some i

/-- Whether a source is linked. -/
def links (i : SlotId) : RaceStep V → Bool
  | link j => j == i
  | direct _ | source .. => false

/-- What a source is completed with. -/
def completion? (i : SlotId) : RaceStep V → Option (Outcome V)
  | source j o => if j = i then some o else none
  | direct _ | link _ => none

end RaceStep

namespace Slots

variable {V N : Type} {s u : Slots V N} {t i j : SlotId} {o : Outcome V} {x : RaceStep V}
  {past later steps : List (RaceStep V)} {sources : Set SlotId}

/-- The outcome that a source has after a history: the one it had before, or its first completion. -/
def sourceOutcome (s : Slots V N) (past : List (RaceStep V)) (i : SlotId) : Option (Outcome V) :=
  (s.outcome? i).or (past.findSome? (·.completion? i))

/-- The outcome that a step gives to the slot that the race is for: that of a direct completion, of the
completion of a source that is linked already, or of the linking of a source that is complete already. -/
def decision (s : Slots V N) (past : List (RaceStep V)) : RaceStep V → Option (Outcome V)
  | .direct o => some o
  | .source i o => if past.any (·.links i) then some o else none
  | .link i => s.sourceOutcome past i

/-- No step of a history gives an outcome. -/
def Undecided (s : Slots V N) (steps : List (RaceStep V)) : Prop :=
  ∀ past x later, steps = past ++ x :: later → s.decision past x = none

/-- The outcome that the first step gives that gives one, after an earlier part of the history. -/
def verdict (s : Slots V N) (past : List (RaceStep V)) : List (RaceStep V) → Option (Outcome V)
  | [] => none
  | x :: later => (s.decision past x).or (s.verdict (past ++ [x]) later)

/-- The store after a race for the slot `t`. -/
def race (s : Slots V N) (t : SlotId) (steps : List (RaceStep V)) : Slots V N :=
  s.after (steps.map (·.operation N t))

/-- A race is on: the slot `t` is pending, and none of the sources links to any slot. -/
structure Starts (s : Slots V N) (t : SlotId) (sources : Set SlotId) : Prop where
  target : s.isPending t = true
  source : ∀ i ∈ sources, i ≠ t ∧
    ∃ c, s.cells[i]? = some c ∧ ∀ l ∈ c.listeners, l.targets = []

/-! ### The first decision -/

theorem verdict_eq_none_iff : s.verdict past later = none ↔
    ∀ mid x rest, later = mid ++ x :: rest → s.decision (past ++ mid) x = none := by
  induction later generalizing past with
  | nil =>
    constructor
    · intro _ mid x rest h
      simp at h
    · intro _
      rfl
  | cons y later ih =>
    rw [verdict, Option.or_eq_none_iff, ih]
    constructor
    · rintro ⟨hy, hlater⟩ mid x rest h
      cases mid with
      | nil =>
        obtain ⟨rfl, rfl⟩ := List.cons.inj h
        rwa [List.append_nil]
      | cons z mid =>
        obtain ⟨rfl, rfl⟩ := List.cons.inj h
        have := hlater mid x rest rfl
        rwa [List.append_assoc] at this
    · intro h
      refine ⟨?_, fun mid x rest hl => ?_⟩
      · have := h [] y later rfl
        rwa [List.append_nil] at this
      · rw [List.append_assoc]
        exact h (y :: mid) x rest (by rw [hl]; rfl)

theorem verdict_nil_eq_none_iff : s.verdict [] steps = none ↔ s.Undecided steps := verdict_eq_none_iff

theorem verdict_append (mid : List (RaceStep V)) :
    s.verdict past (mid ++ later) = (s.verdict past mid).or (s.verdict (past ++ mid) later) := by
  induction mid generalizing past with
  | nil => rw [List.nil_append, List.append_nil, verdict, Option.none_or]
  | cons y mid ih =>
    rw [List.cons_append, verdict, verdict, ih, Option.or_assoc, List.append_assoc]
    rfl

theorem verdict_eq_some_iff : s.verdict past later = some o ↔
    ∃ mid x rest, later = mid ++ x :: rest ∧ s.decision (past ++ mid) x = some o ∧
      s.verdict past mid = none := by
  constructor
  · intro h
    induction later generalizing past with
    | nil => cases h
    | cons y later ih =>
      rw [verdict] at h
      cases hy : s.decision past y with
      | some o' =>
        rw [hy, Option.some_or] at h
        exact ⟨[], y, later, rfl, by rw [List.append_nil, hy, h], rfl⟩
      | none =>
        rw [hy, Option.none_or] at h
        obtain ⟨mid, x, rest, rfl, hx, hmid⟩ := ih h
        refine ⟨y :: mid, x, rest, rfl, ?_, ?_⟩
        · rwa [List.append_assoc] at hx
        · rw [verdict, hy, hmid, Option.none_or]
  · rintro ⟨mid, x, rest, rfl, hx, hmid⟩
    rw [verdict_append, hmid, Option.none_or, verdict, hx, Option.some_or]

/-! ### While nothing is decided -/

theorem sourceOutcome_append (s : Slots V N) (past later : List (RaceStep V)) (i : SlotId) :
    s.sourceOutcome (past ++ later) i =
      (s.sourceOutcome past i).or (later.findSome? (·.completion? i)) := by
  rw [sourceOutcome, sourceOutcome, List.findSome?_append, Option.or_assoc]

theorem sourceOutcome_concat (s : Slots V N) (past : List (RaceStep V)) (x : RaceStep V) (i : SlotId) :
    s.sourceOutcome (past ++ [x]) i = (s.sourceOutcome past i).or (x.completion? i) := by
  rw [sourceOutcome_append, List.findSome?_singleton]

/-- A source of a race that is not decided yet: if it is linked, it is pending and holds the link. -/
structure Runs (s : Slots V N) (t : SlotId) (past : List (RaceStep V)) (i : SlotId) (c : Slot V N) :
    Prop where
  outcome : c.outcome = s.sourceOutcome past i
  listeners : ∀ l ∈ c.listeners, l.targets = [] ∨ past.any (·.links i) = true ∧ l = .relay t id
  linked : past.any (·.links i) = true → c.outcome = none ∧ .relay t id ∈ c.listeners

/-- A race that is not decided yet. -/
structure Open (s : Slots V N) (t : SlotId) (sources : Set SlotId) (past : List (RaceStep V))
    (u : Slots V N) : Prop where
  target : u.isPending t = true
  source : ∀ i ∈ sources, i ≠ t ∧ ∃ c, u.cells[i]? = some c ∧ s.Runs t past i c

theorem Starts.open_nil (h : s.Starts t sources) : s.Open t sources [] s where
  target := h.target
  source i hi := by
    obtain ⟨hne, c, hc, hl⟩ := h.source i hi
    refine ⟨hne, c, hc, ?_, fun l hm => Or.inl (hl l hm), fun hn => ?_⟩
    · rw [sourceOutcome, outcome?, hc, List.findSome?_nil, Option.or_none]
      rfl
    · cases hn

/-- A step that is not about a source leaves it as it is. -/
theorem Runs.append {c : Slot V N} (h : s.Runs t past i c) (hl : x.links i = false)
    (hc : (s.sourceOutcome past i).or (x.completion? i) = s.sourceOutcome past i) :
    s.Runs t (past ++ [x]) i c := by
  have hany : (past ++ [x]).any (·.links i) = past.any (·.links i) := by simp [hl]
  refine ⟨?_, ?_, ?_⟩
  · rw [sourceOutcome_concat, hc]
    exact h.outcome
  · rw [hany]
    exact h.listeners
  · rw [hany]
    exact h.linked

/-- What a source passes on goes to the slot that the race is for, unchanged. -/
theorem Runs.deliveries {c : Slot V N} (h : s.Runs t past i c) (hc : u.cells[i]? = some c)
    {y : SlotId × Outcome V} (hy : y ∈ u.deliveries i o) :
    past.any (·.links i) = true ∧ y = (t, o) := by
  obtain ⟨c', hc', l, hl, hy⟩ := mem_deliveries.1 hy
  obtain rfl := Option.some.inj (hc.symm.trans hc')
  rcases h.listeners l hl with hn | ⟨hlinked, rfl⟩
  · rw [Listener.deliveries_of_targets hn] at hy
    cases hy
  · have ho : o.map id = o := by cases o <;> rfl
    rw [Listener.deliveries, ho] at hy
    exact ⟨hlinked, List.mem_singleton.1 hy⟩

/-- A source that is linked is completed: the race is decided. -/
theorem Open.settle_of_linked (h : s.Open t sources past u) (hi : i ∈ sources)
    (hl : past.any (·.links i) = true) (o : Outcome V) : (u.settle i o).outcome? t = some o := by
  obtain ⟨hne, c, hc, hr⟩ := h.source i hi
  obtain ⟨hn, hmem⟩ := hr.linked hl
  have hp : u.isPending i = true := by
    rw [isPending, hc, Option.any_some, hn]
    rfl
  have hd : (t, o.map id) ∈ u.deliveries i o :=
    mem_deliveries.2 ⟨c, hc, _, hmem, List.mem_singleton_self _⟩
  -- All that the source delivers is its outcome to `t`, so this is what is delivered first.
  obtain ⟨rest, hrest⟩ : ∃ rest, u.deliveries i o = (t, o) :: rest := by
    cases hds : u.deliveries i o with
    | nil =>
      rw [hds] at hd
      cases hd
    | cons y rest =>
      have hy : y ∈ u.deliveries i o := by
        rw [hds]
        exact List.mem_cons_self
      rw [(hr.deliveries hc hy).2]
      exact ⟨rest, rfl⟩
  have hfound : (t, o) ∈ u.search [] [(i, o)] := by
    have hnew : u.isPending t = true ∧ t ∉ ([] ++ [(i, o)] : List (SlotId × Outcome V)).map (·.1) :=
      ⟨h.target, by simpa using hne.symm⟩
    rw [search_cons_of_new ⟨hp, by simp⟩, hrest, List.cons_append, search_cons_of_new hnew]
    exact mem_search_of_mem (List.mem_append_right _ List.mem_cons_self)
  exact (u.marked_settle i o).outcome?_of_mem hfound

/-- A source that is not linked is completed: nothing but its outcome changes, if that does. -/
theorem Open.settle_of_not_linked (h : s.Open t sources past u) (hi : i ∈ sources)
    (hl : past.any (·.links i) = false) (o : Outcome V) :
    s.Open t sources (past ++ [.source i o]) (u.settle i o) := by
  obtain ⟨hne, c, hc, hr⟩ := h.source i hi
  have hothers {j : SlotId} {d : Slot V N} (hj : j ≠ i) (hd : s.Runs t past j d) :
      s.Runs t (past ++ [.source i o]) j d := by
    refine hd.append rfl ?_
    simp [RaceStep.completion?, Ne.symm hj]
  cases hn : c.outcome with
  | some o' =>
    -- The completion comes too late.
    have hp : u.isPending i = false := by
      rw [isPending, hc, Option.any_some, hn]
      rfl
    rw [settle_of_not_isPending hp]
    refine ⟨h.target, fun j hj => ?_⟩
    obtain ⟨hjt, d, hd, hrd⟩ := h.source j hj
    refine ⟨hjt, d, hd, ?_⟩
    by_cases hji : j = i
    · subst hji
      refine hrd.append rfl ?_
      rw [← hr.outcome, hn, Option.some_or]
    · exact hothers hji hrd
  | none =>
    have hp : u.isPending i = true := by
      rw [isPending, hc, Option.any_some, hn]
      rfl
    have hds : u.deliveries i o = [] := by
      refine List.eq_nil_iff_forall_not_mem.2 fun y hy => ?_
      cases hl.symm.trans (hr.deliveries hc hy).1
    have hm : u.Marked [(i, o)] (u.settle i o) := by
      have := u.marked_settle i o
      rwa [search_cons_of_new ⟨hp, by simp⟩, hds, List.nil_append, List.nil_append, search_nil] at this
    have hcell {j : SlotId} (hj : j ≠ i) : (u.settle i o).cells[j]? = u.cells[j]? :=
      hm.others j (by simpa using hj)
    refine ⟨?_, fun j hj => ?_⟩
    · rw [isPending, hcell hne.symm]
      exact h.target
    · obtain ⟨hjt, d, hd, hrd⟩ := h.source j hj
      refine ⟨hjt, ?_⟩
      by_cases hji : j = i
      · subst hji
        refine ⟨_, hm.marks (j, o) List.mem_cons_self, ?_, ?_, ?_⟩
        · rw [sourceOutcome_concat, ← hr.outcome, hn]
          simp [RaceStep.completion?]
        · intro l hl
          cases hl
        · intro hl'
          rw [List.any_append, hl] at hl'
          cases hl'
      · exact ⟨d, (hcell hji).trans hd, hothers hji hrd⟩

/-- A source that is complete is linked: the race is decided. -/
theorem Open.chain_of_done (h : s.Open t sources past u) (hi : i ∈ sources)
    (ho : s.sourceOutcome past i = some o) : (u.chain i t).outcome? t = some o := by
  obtain ⟨-, c, hc, hr⟩ := h.source i hi
  exact outcome?_chain (outcome?_eq_some.2 ⟨c, hc, hr.outcome.trans ho⟩) h.target

/-- A source that is pending is linked: it holds the link from now on. -/
theorem Open.chain_of_pending (h : s.Open t sources past u) (hi : i ∈ sources)
    (ho : s.sourceOutcome past i = none) : s.Open t sources (past ++ [.link i]) (u.chain i t) := by
  obtain ⟨hne, c, hc, hr⟩ := h.source i hi
  have hn : c.outcome = none := hr.outcome.trans ho
  rw [chain, listen_of_pending hc hn]
  have hlt : i < u.cells.size := by
    obtain ⟨hlt, -⟩ := Array.getElem?_eq_some_iff.1 hc
    exact hlt
  refine ⟨?_, fun j hj => ?_⟩
  · rw [isPending, Array.getElem?_setIfInBounds_ne hne]
    exact h.target
  · obtain ⟨hjt, d, hd, hrd⟩ := h.source j hj
    refine ⟨hjt, ?_⟩
    by_cases hji : i = j
    · subst hji
      refine ⟨_, Array.getElem?_setIfInBounds_self_of_lt hlt, ?_, fun l hl => ?_, fun _ => ?_⟩
      · rw [sourceOutcome_concat, ho]
        exact hn
      · rcases List.mem_append.1 hl with hl | hl
        · exact (hr.listeners l hl).imp_right fun hl => ⟨by simp [hl.1], hl.2⟩
        · exact Or.inr ⟨by simp [RaceStep.links], List.mem_singleton.1 hl⟩
      · exact ⟨hn, List.mem_append_right _ List.mem_cons_self⟩
    · refine ⟨d, (Array.getElem?_setIfInBounds_ne hji).trans hd, hrd.append ?_ ?_⟩
      · simp [RaceStep.links, hji]
      · simp [RaceStep.completion?]

/-- One step of a race that is not decided: it decides the race, or leaves it open. -/
theorem Open.step (h : s.Open t sources past u) (hx : ∀ i ∈ x.source?, i ∈ sources) :
    (∀ o, s.decision past x = some o → (u.operate (x.operation N t)).outcome? t = some o) ∧
      (s.decision past x = none → s.Open t sources (past ++ [x]) (u.operate (x.operation N t))) := by
  cases x with
  | direct o' =>
    refine ⟨fun o ho => ?_, fun ho => ?_⟩
    · obtain rfl := Option.some.inj ho
      exact outcome?_settle_self h.target _
    · cases ho
  | source i o' =>
    have hi : i ∈ sources := hx i rfl
    cases hl : past.any (·.links i) with
    | true =>
      refine ⟨fun o ho => ?_, fun ho => ?_⟩
      · rw [decision, hl] at ho
        obtain rfl := Option.some.inj ho
        exact h.settle_of_linked hi hl _
      · rw [decision, hl] at ho
        cases ho
    | false =>
      refine ⟨fun o ho => ?_, fun _ => h.settle_of_not_linked hi hl o'⟩
      rw [decision, hl] at ho
      cases ho
  | link i =>
    have hi : i ∈ sources := hx i rfl
    exact ⟨fun o ho => h.chain_of_done hi ho, fun ho => h.chain_of_pending hi ho⟩

/-- A whole race: the slot has the outcome that is decided first, and waits if there is none. -/
theorem Open.race (h : s.Open t sources past u)
    (hsteps : ∀ x ∈ later, ∀ i ∈ x.source?, i ∈ sources) :
    (u.race t later).outcome? t = s.verdict past later ∧ t < (u.race t later).cells.size := by
  induction later generalizing past u with
  | nil => exact ⟨(isPending_iff.1 h.target).2, (isPending_iff.1 h.target).1⟩
  | cons x later ih =>
    obtain ⟨hsome, hnone⟩ := h.step (hsteps x List.mem_cons_self)
    show ((u.operate (x.operation N t)).race t later).outcome? t = _ ∧
      t < ((u.operate (x.operation N t)).race t later).cells.size
    cases hd : s.decision past x with
    | some o =>
      rw [verdict, hd, Option.some_or]
      refine ⟨keeps_after _ _ _ _ (hsome o hd), ?_⟩
      exact ((isPending_iff.1 h.target).1.trans_le (u.size_operate _)).trans_le (size_after _ _)
    | none =>
      rw [verdict, hd, Option.none_or]
      exact ih (hnone hd) fun y hy => hsteps y (List.mem_cons_of_mem _ hy)

/-! ### One source -/

/-- With one source and no direct completion, the slot ends as the source does if that is linked at any
time, and waits otherwise. -/
theorem verdict_of_single (hone : ∀ x ∈ later, x.source? = some i)
    (hpast : past.any (·.links i) = true → s.sourceOutcome past i = none) :
    s.verdict past later =
      if (past ++ later).any (·.links i) then s.sourceOutcome (past ++ later) i else none := by
  induction later generalizing past with
  | nil =>
    rw [List.append_nil, verdict]
    split
    · rename_i hl
      exact (hpast hl).symm
    · rfl
  | cons x later ih =>
    have hih (hp : (past ++ [x]).any (·.links i) = true → s.sourceOutcome (past ++ [x]) i = none) :
        s.verdict (past ++ [x]) later = if (past ++ x :: later).any (·.links i) then
          s.sourceOutcome (past ++ x :: later) i else none := by
      have := ih (fun y hy => hone y (List.mem_cons_of_mem _ hy)) hp
      rwa [List.append_assoc] at this
    have hx : x.source? = some i := hone x List.mem_cons_self
    have hcons : s.sourceOutcome (past ++ x :: later) i =
        (s.sourceOutcome past i).or ((x.completion? i).or (later.findSome? (·.completion? i))) := by
      rw [sourceOutcome_append, List.findSome?_cons]
      cases x.completion? i <;> rfl
    rw [verdict]
    cases x with
    | direct o => cases hx
    | source j o =>
      obtain rfl := Option.some.inj hx
      cases hl : past.any (·.links j) with
      | true =>
        rw [hcons, hpast hl, decision, hl, List.any_append, hl]
        simp [RaceStep.completion?]
      | false =>
        rw [decision, hl]
        refine hih fun hl' => ?_
        rw [List.any_append, hl] at hl'
        cases hl'
    | link j =>
      obtain rfl := Option.some.inj hx
      rw [decision]
      cases ho : s.sourceOutcome past j with
      | some o =>
        rw [hcons, ho]
        simp [RaceStep.links]
      | none =>
        refine hih fun _ => ?_
        rw [sourceOutcome_concat, ho]
        rfl

/-! ### Races -/

/-- The slot has the outcome that the first deciding step gives. -/
theorem Starts.outcome?_race (h : s.Starts t sources)
    (hsteps : ∀ x ∈ steps, ∀ i ∈ x.source?, i ∈ sources) :
    (s.race t steps).outcome? t = s.verdict [] steps := (h.open_nil.race hsteps).1

/-- With one source, only whether it is linked and what it is completed with counts. -/
theorem Starts.outcome?_race_of_single (h : s.Starts t {i})
    (hone : ∀ x ∈ steps, x.source? = some i) : (s.race t steps).outcome? t =
      if steps.any (·.links i) then (s.outcome? i).or (steps.filterMap (·.completion? i)).head?
      else none := by
  have hsteps : ∀ x ∈ steps, ∀ j ∈ x.source?, j ∈ ({i} : Set SlotId) := by
    intro x hx j hj
    exact Option.some.inj (hj.symm.trans (hone x hx))
  have hv : s.verdict [] steps =
      if steps.any (·.links i) then s.sourceOutcome steps i else none :=
    verdict_of_single hone (by simp)
  rw [h.outcome?_race hsteps, hv, List.head?_filterMap]
  rfl

/-- The first source to be both linked and complete wins. A slot for which a race is on has the outcome
that the first step gives that completes it directly, completes a source linked to it, or links a source
that is complete; it is pending as long as there is no such step. With one source and no direct
completion, the order of linking and completing does not matter. And a slot that is made by mapping
another ends as that does, apart from the image of the value, so that mapping twice is mapping by the
composition. -/
theorem first_linked_and_complete_wins (s : Slots V N) :
    (∀ (t : SlotId) (sources : Set SlotId) (steps : List (RaceStep V)), s.Starts t sources →
      (∀ x ∈ steps, ∀ i ∈ x.source?, i ∈ sources) →
      (∀ o, (s.race t steps).outcome? t = some o ↔ ∃ past x later, steps = past ++ x :: later ∧
        s.decision past x = some o ∧ s.Undecided past) ∧
      ((s.race t steps).isPending t = true ↔ s.Undecided steps)) ∧
    (∀ (t i : SlotId) (steps steps' : List (RaceStep V)), s.Starts t {i} →
      (∀ x ∈ steps ++ steps', x.source? = some i) →
      steps.any (·.links i) = steps'.any (·.links i) →
      steps.filterMap (·.completion? i) = steps'.filterMap (·.completion? i) →
      (s.race t steps).outcome? t = (s.race t steps').outcome? t) ∧
    (s.LinksInside → ∀ (ops : List (Operation V N)) (i : SlotId) (f : V → V) (m : SlotId),
      s.Makes ops i f m →
      (s.after ops).outcome? m = ((s.after ops).outcome? i).map (Except.map f) ∧
      ∀ (g : V → V) (n k : SlotId), s.Makes ops m g n → s.Makes ops i (g ∘ f) k →
        (s.after ops).outcome? n = (s.after ops).outcome? k) := by
  refine ⟨fun t sources steps h hsteps => ?_, fun t i steps steps' h hone hl hc => ?_,
    fun hs ops i f m hm => ⟨hm.outcome hs, fun g n k hn hk => hm.comp hn hk hs⟩⟩
  · obtain ⟨ho, hlt⟩ := h.open_nil.race hsteps
    refine ⟨fun o => ?_, ?_⟩
    · rw [ho, verdict_eq_some_iff]
      simp only [List.nil_append, verdict_nil_eq_none_iff]
    · rw [isPending_iff, ho, verdict_nil_eq_none_iff, and_iff_right hlt]
  · rw [h.outcome?_race_of_single fun x hx => hone x (List.mem_append_left _ hx),
      h.outcome?_race_of_single fun x hx => hone x (List.mem_append_right _ hx), hl, hc]

/-- Three slots that nobody waits for. -/
def threeSlots : Slots Nat Unit where
  cells := #[{}, {}, {}]

theorem first_linked_and_complete_wins_crossing :
    threeSlots.Starts 0 {1, 2} ∧ threeSlots.Starts 0 {1} ∧
    (threeSlots.race 0 [.source 2 (.ok 5), .link 1, .source 1 (.ok 3), .link 2, .direct (.ok 9)]).outcome?
      0 = some (.ok 3) ∧
    (threeSlots.race 0 [.source 2 (.ok 5), .link 1]).isPending 0 = true ∧
    (threeSlots.race 0 [.link 1, .source 1 (.ok 3)]).outcome? 0 =
      (threeSlots.race 0 [.source 1 (.ok 3), .link 1]).outcome? 0 ∧
    let s := after ({} : Slots Nat Unit) [.fresh, .map 0 (· + 1), .complete 0 (.ok 4), .map 1 (2 * ·),
      .map 0 ((2 * ·) ∘ (· + 1))]
    s.outcome? 1 = (s.outcome? 0).map (Except.map (· + 1)) ∧ s.outcome? 2 = s.outcome? 3 := by
  have hstarts : threeSlots.Starts 0 {1, 2} := by
    refine ⟨rfl, fun i hi => ?_⟩
    rcases hi with rfl | rfl
    · exact ⟨by decide, {}, rfl, by simp⟩
    · exact ⟨by decide, {}, rfl, by simp⟩
  have hstarts' : threeSlots.Starts 0 {1} := by
    refine ⟨rfl, fun i hi => hstarts.source i (Or.inl hi)⟩
  obtain ⟨hrace, hswap, -⟩ := first_linked_and_complete_wins threeSlots
  obtain ⟨-, -, hmap⟩ := first_linked_and_complete_wins ({} : Slots Nat Unit)
  obtain ⟨hwin, -⟩ := hrace 0 {1, 2}
    [.source 2 (.ok 5), .link 1, .source 1 (.ok 3), .link 2, .direct (.ok 9)] hstarts
    (by simp [RaceStep.source?])
  obtain ⟨-, hwait⟩ := hrace 0 {1, 2} [.source 2 (.ok 5), .link 1] hstarts (by simp [RaceStep.source?])
  obtain ⟨hfirst, hcomp⟩ := hmap linksInside_nil
    [.fresh, .map 0 (· + 1), .complete 0 (.ok 4), .map 1 (2 * ·), .map 0 ((2 * ·) ∘ (· + 1))]
    0 (· + 1) 1 ⟨⟨[.fresh], _, rfl, by decide, rfl⟩, by simp [Operation.aims]⟩
  refine ⟨hstarts, hstarts', ?_, ?_, ?_, hfirst, ?_⟩
  · exact (hwin (.ok 3)).2 ⟨[.source 2 (.ok 5), .link 1], .source 1 (.ok 3), _, rfl, rfl,
      verdict_nil_eq_none_iff.1 rfl⟩
  · exact hwait.2 (verdict_nil_eq_none_iff.1 rfl)
  · exact hswap 0 1 _ _ hstarts' (by simp [RaceStep.source?]) rfl rfl
  · exact hcomp (2 * ·) 2 3
      ⟨⟨[.fresh, .map 0 (· + 1), .complete 0 (.ok 4)], _, rfl, by decide +kernel, by decide +kernel⟩,
        by simp [Operation.aims]⟩
      ⟨⟨[.fresh, .map 0 (· + 1), .complete 0 (.ok 4), .map 1 (2 * ·)], [], rfl, by decide +kernel,
        by decide +kernel⟩, by simp [Operation.aims]⟩

end Slots

end GroupConsumer
