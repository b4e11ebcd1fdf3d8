import GroupConsumer.Proofs.Slot.Delivery
import GroupConsumer.Session

/-!
# Where a completion can come from

A slot is completed by whoever is given its number, or because another slot is complete that it is
linked to. `LedBy s src i` says that all links to the slot `i` start at slots in `src`, and that they
pass outcomes on and do nothing else. It survives every completion (`LedBy.settle`), and as long as
the slots in `src` are pending no completion of another slot completes `i` (`LedBy.outcome?_settle`).

`WorksOn s I t` sums this up for work of any length: the store `t` comes from `s` by completing slots
in `I` and new ones, and by linking slots to such.
-/

namespace GroupConsumer

/-- The slot of the ticket that a looked-up value is kept for. -/
def Deferral.slot? : Deferral → Option SlotId
  | positions t | committed t => some t.slot
  | endOffsets _ => none

/-- The slots that a listener may complete, at once or when the value that it keeps is applied. -/
def Listener.aimed : Listener Value Deferral → List SlotId
  | relay target _ | settle target _ _ => [target]
  | report _ => []
  | hold d target => target.toList ++ d.slot?.toList
  | spread targets => targets.map (·.1)

/-- The slots that may be completed when a note is read. -/
def Note.aimed : Note Value Deferral → List SlotId
  | held d _ => d.slot?.toList
  | reported .. | attempted .. | woken _ => []

/-- The slots that a step of a cascade may complete, at once or later. -/
def Task.aimed : Task Value Deferral → List SlotId
  | tell l _ => l.aimed
  | complete target _ => [target]
  | note n => n.aimed

/-- If the listener aims at a slot, all it does is to pass its outcome on. -/
def Listener.Relays (l : Listener Value Deferral) (i : SlotId) : Prop :=
  i ∈ l.aimed → ∃ image, l = .relay i image

/-- If the step aims at a slot, all it does is to pass an outcome on. -/
def Task.Relays (t : Task Value Deferral) (i : SlotId) : Prop :=
  i ∈ t.aimed → ∃ image o, t = .tell (.relay i image) o

theorem Task.relays_of_not_mem {t : Task Value Deferral} {i : SlotId} (h : i ∉ t.aimed) :
    t.Relays i := fun hi => absurd hi h

namespace Slots

variable {s t u : Slots Value Deferral} {src : SlotId → Prop} {i k : SlotId}

/-- All links to the slot `i` start at slots in `src` and only pass outcomes on. -/
structure LedBy (s : Slots Value Deferral) (src : SlotId → Prop) (i : SlotId) : Prop where
  listeners : ∀ j c, s.cells[j]? = some c → ∀ l ∈ c.listeners, i ∈ l.aimed → src j ∧ l.Relays i
  journal : ∀ n ∈ s.journal.toList, i ∉ n.aimed

theorem LedBy.mono {src' : SlotId → Prop} (h : s.LedBy src i) (hs : ∀ j, src j → src' j) :
    s.LedBy src' i where
  listeners j c hc l hl hi := (h.listeners j c hc l hl hi).imp_left (hs j)
  journal := h.journal

theorem ledBy_empty (src : SlotId → Prop) (i : SlotId) : LedBy {} src i where
  listeners j c hc := by simp at hc
  journal n hn := by simp at hn

/-! ### Cascades -/

theorem LedBy.set (h : s.LedBy src i) {d : Slot Value Deferral}
    (hd : ∀ l ∈ d.listeners, i ∈ l.aimed → src k ∧ l.Relays i) :
    LedBy ⟨s.cells.setIfInBounds k d, s.journal⟩ src i where
  listeners j c hc l hl hi := by
    rw [Array.getElem?_setIfInBounds] at hc
    split at hc
    · rename_i hk
      subst hk
      split at hc
      · obtain rfl := Option.some.inj hc
        exact hd l hl hi
      · cases hc
    · exact h.listeners j c hc l hl hi
  journal := h.journal

theorem LedBy.note (h : s.LedBy src i) {n : Note Value Deferral} (hn : i ∉ n.aimed) :
    (s.note n).LedBy src i where
  listeners := h.listeners
  journal m hm := by
    simp only [Slots.note, Array.toList_push, List.mem_append, List.mem_singleton] at hm
    obtain hm | rfl := hm
    · exact h.journal m hm
    · exact hn

/-- What completing a slot sets off is what its listeners do. -/
theorem mem_tasks {c : Slot Value Deferral} {o : Outcome Value} {t : Task Value Deferral}
    (ht : t ∈ c.tasks o) (hi : i ∈ t.aimed) : ∃ l ∈ c.listeners, t = .tell l o ∧ i ∈ l.aimed := by
  simp only [Slot.tasks, List.mem_append, List.mem_map] at ht
  obtain ⟨l, hl, rfl⟩ | ⟨w, -, rfl⟩ := ht
  · exact ⟨l, hl, rfl, hi⟩
  · cases hi

theorem LedBy.fill (h : s.LedBy src i) (k : SlotId) (o : Outcome Value) :
    (s.fill k o).slots.LedBy src i ∧ ∀ t ∈ (s.fill k o).tasks, t.Relays i := by
  obtain he | ⟨c, hc, -, he⟩ := s.fill_cases k o
  · rw [he]
    exact ⟨h, fun t ht => absurd ht List.not_mem_nil⟩
  · rw [he]
    refine ⟨h.set fun l hl => absurd hl List.not_mem_nil, fun t ht hi => ?_⟩
    obtain ⟨l, hl, rfl, hl'⟩ := mem_tasks ht hi
    obtain ⟨image, rfl⟩ := (h.listeners k c hc l hl hl').2 hl'
    exact ⟨image, o, rfl⟩

/-- A listener that spreads an outcome aims at the slots that get something. -/
theorem mem_map_of_mem_shares {targets : List (SlotId × (Outcome Value → Option (Outcome Value)))}
    {o : Outcome Value} {k : SlotId × Outcome Value} (h : k ∈ shares targets o) :
    k.1 ∈ targets.map (·.1) := by
  obtain ⟨a, ha, hk⟩ := List.mem_filterMap.1 h
  obtain ⟨o', -, rfl⟩ := Option.map_eq_some_iff.1 hk
  exact List.mem_map_of_mem ha

/-- A step of a cascade leaves all it does to further steps, makes a note or completes a slot. -/
theorem perform_cases (s : Slots Value Deferral) (t : Task Value Deferral) :
    (∃ us, s.perform t = (s, us) ∧ ∀ i, t.Relays i → ∀ u ∈ us, i ∉ u.aimed) ∨
      (∃ n, s.perform t = (s.note n, []) ∧ ∀ i, t.Relays i → i ∉ n.aimed) ∨
      ∃ k o us, k ∈ t.aimed ∧ s.perform t = ((s.fill k o).slots, (s.fill k o).tasks ++ us) ∧
        ∀ u ∈ us, u.aimed = [] := by
  -- A note that names a slot is left by a listener that does not pass the outcome on.
  have hheld {d : Deferral} {target : Option SlotId} {v : Value} (i : SlotId)
      (h : Task.Relays (.tell (.hold d target) (.ok v)) i) : i ∉ (Note.held d v).aimed := by
    intro hi
    obtain ⟨image, o, he⟩ := h (List.mem_append_right _ hi)
    cases he
  have hnote {n : Note Value Deferral} (i : SlotId) (h : Task.Relays (.note n) i) : i ∉ n.aimed := by
    intro hi
    obtain ⟨image, o, he⟩ := h hi
    cases he
  unfold perform
  split
  · exact Or.inr (Or.inl ⟨_, rfl, hnote⟩)
  · rename_i target o
    exact Or.inr (Or.inr ⟨target, o, [], List.mem_singleton_self _, by simp, by simp⟩)
  · rename_i target image o
    exact Or.inr (Or.inr ⟨target, o.map image, [], List.mem_singleton_self _, by simp, by simp⟩)
  · rename_i target value name o
    refine Or.inr (Or.inr ⟨target, .ok value, _, List.mem_singleton_self _, rfl, fun u hu => ?_⟩)
    rw [List.mem_singleton.1 hu]
    rfl
  · exact Or.inr (Or.inl ⟨_, rfl, fun i _ => List.not_mem_nil⟩)
  · exact Or.inr (Or.inl ⟨_, rfl, hheld⟩)
  · rename_i d target e
    have ht : target ∈ Listener.aimed (.hold d (some target)) := List.mem_cons_self
    exact Or.inr (Or.inr ⟨target, .error e, [], ht, by simp, by simp⟩)
  · exact Or.inl ⟨[], rfl, by simp⟩
  · rename_i targets o
    refine Or.inl ⟨_, rfl, fun i hi u hu hiu => ?_⟩
    obtain ⟨k, hk, rfl⟩ := List.mem_map.1 hu
    obtain rfl := List.mem_singleton.1 hiu
    obtain ⟨image, o, he⟩ := hi (mem_map_of_mem_shares hk)
    cases he

theorem LedBy.perform (h : s.LedBy src i) {t : Task Value Deferral} (ht : t.Relays i) :
    (s.perform t).1.LedBy src i ∧ ∀ u ∈ (s.perform t).2, u.Relays i := by
  obtain ⟨us, he, hus⟩ | ⟨n, he, hn⟩ | ⟨k, o, us, -, he, hus⟩ := s.perform_cases t
  · rw [he]
    exact ⟨h, fun u hu => Task.relays_of_not_mem (hus i ht u hu)⟩
  · rw [he]
    exact ⟨h.note (hn i ht), fun u hu => absurd hu List.not_mem_nil⟩
  · rw [he]
    obtain ⟨hf, ht⟩ := h.fill k o
    refine ⟨hf, fun u hu => ?_⟩
    obtain hu | hu := List.mem_append.1 hu
    · exact ht u hu
    · exact Task.relays_of_not_mem (by simp [hus u hu])

/-- A cascade makes no links. -/
theorem LedBy.cascade {ts : List (Task Value Deferral)} (h : s.LedBy src i)
    (ht : ∀ t ∈ ts, t.Relays i) : (s.cascade ts).LedBy src i := by
  induction s, ts using cascade.induct with
  | case1 s =>
    rw [cascade_nil]
    exact h
  | case2 s t ts ih =>
    rw [cascade_cons]
    obtain ⟨hp, hu⟩ := h.perform (ht t List.mem_cons_self)
    refine ih hp fun u hm => ?_
    obtain hm | hm := List.mem_append.1 hm
    · exact hu u hm
    · exact ht u (List.mem_cons_of_mem _ hm)

/-- A slot that was completed is complete. -/
theorem isDone_fill (hi : i < s.cells.size) (o : Outcome Value) :
    (s.fill i o).slots.isDone i = true := by
  have hc : s.cells[i]? = some s.cells[i] := Array.getElem?_eq_getElem hi
  cases hp : s.cells[i].outcome with
  | none =>
    rw [fill_of_pending hc hp]
    exact isDone_of_outcome (outcome?_fill_self hc o)
  | some o' =>
    exact (keeps_fill s i o).isDone (isDone_of_outcome (outcome?_eq_some.2 ⟨_, hc, hp⟩))

/-- A slot completed while the slots in `src` are pending has no listener that aims at `i`. -/
theorem LedBy.tasks_fill (h : s.LedBy src i) {o : Outcome Value}
    (hsrc : ∀ j, src j → (s.fill k o).slots.outcome? j = none) :
    ∀ t ∈ (s.fill k o).tasks, i ∉ t.aimed := by
  obtain he | ⟨c, hc, -, he⟩ := s.fill_cases k o
  · rw [he]
    exact fun t ht => absurd ht List.not_mem_nil
  · rw [he] at hsrc ⊢
    intro t ht hi
    obtain ⟨l, hl, -, hl'⟩ := mem_tasks ht hi
    have hk := hsrc k (h.listeners k c hc l hl hl').1
    rw [outcome?_fill_self hc] at hk
    cases hk

theorem pending_of_keeps (h : s.Keeps t) (ht : t.outcome? i = none) : s.outcome? i = none := by
  cases hs : s.outcome? i with
  | none => rfl
  | some o => cases (h i o hs).symm.trans ht

/-- A cascade that does not set out for `i` does not reach it, as long as the slots are pending that
it is linked to. -/
theorem LedBy.outcome?_cascade {ts : List (Task Value Deferral)} (h : s.LedBy src i)
    (ht : ∀ t ∈ ts, i ∉ t.aimed) (hsrc : ∀ j, src j → (s.cascade ts).outcome? j = none) :
    (s.cascade ts).outcome? i = s.outcome? i := by
  induction s, ts using cascade.induct with
  | case1 s => rw [cascade_nil]
  | case2 s t ts ih =>
    rw [cascade_cons] at hsrc ⊢
    have hti := ht t List.mem_cons_self
    have hrest : ∀ u ∈ ts, i ∉ u.aimed := fun u hu => ht u (List.mem_cons_of_mem _ hu)
    have hp := (h.perform (Task.relays_of_not_mem hti)).1
    have hk : ∀ j, src j → (s.perform t).1.outcome? j = none :=
      fun j hj => pending_of_keeps (keeps_cascade _ _) (hsrc j hj)
    have hstep : (s.perform t).1.outcome? i = s.outcome? i ∧ ∀ u ∈ (s.perform t).2, i ∉ u.aimed := by
      obtain ⟨us, he, hus⟩ | ⟨n, he, -⟩ | ⟨k, o, us, hmem, he, hus⟩ := s.perform_cases t
      · rw [he]
        exact ⟨rfl, hus i (Task.relays_of_not_mem hti)⟩
      · rw [he]
        exact ⟨rfl, fun u hu => absurd hu List.not_mem_nil⟩
      · rw [he] at hk ⊢
        have hne : k ≠ i := by
          rintro rfl
          exact hti hmem
        refine ⟨outcome?_fill_of_ne hne o, fun u hu => ?_⟩
        obtain hu | hu := List.mem_append.1 hu
        · exact h.tasks_fill hk u hu
        · simp [hus u hu]
    refine (ih hp (fun u hu => ?_) hsrc).trans hstep.1
    obtain hu | hu := List.mem_append.1 hu
    · exact hstep.2 u hu
    · exact hrest u hu

/-! ### Single operations -/

theorem LedBy.settle (h : s.LedBy src i) (k : SlotId) (o : Outcome Value) :
    (s.settle k o).LedBy src i := (h.fill k o).1.cascade (h.fill k o).2

theorem isDone_settle (hi : i < s.cells.size) (o : Outcome Value) :
    (s.settle i o).isDone i = true := (keeps_cascade _ _).isDone (isDone_fill hi o)

theorem LedBy.outcome?_settle (h : s.LedBy src i) {o : Outcome Value} (hne : k ≠ i)
    (hsrc : ∀ j, src j → (s.settle k o).outcome? j = none) :
    (s.settle k o).outcome? i = s.outcome? i := by
  have hf : ∀ j, src j → (s.fill k o).slots.outcome? j = none :=
    fun j hj => pending_of_keeps (keeps_cascade _ _) (hsrc j hj)
  exact ((h.fill k o).1.outcome?_cascade (h.tasks_fill hf) hsrc).trans (outcome?_fill_of_ne hne o)

/-- When the only slot that `i` is linked to has been filled, no link to `i` is left. -/
theorem LedBy.fill_source (h : s.LedBy (· = k) i) (hk : k < s.cells.size)
    (hp : s.outcome? k = none) (o : Outcome Value) :
    (s.fill k o).slots.LedBy (fun _ => False) i := by
  obtain ⟨c, hc⟩ : ∃ c, s.cells[k]? = some c := ⟨_, Array.getElem?_eq_getElem hk⟩
  have hco : c.outcome = none := by
    rw [outcome?, hc] at hp
    exact hp
  rw [fill_of_pending hc hco]
  refine ⟨fun j d hd l hl hi => ?_, h.journal⟩
  rw [Array.getElem?_setIfInBounds] at hd
  split at hd
  · obtain rfl := Option.some.inj hd
    cases hl
  · rename_i hne
    exact absurd (h.listeners j d hd l hl hi).1.symm hne

/-- When the only slot that `i` is linked to has been completed, no link to `i` is left. -/
theorem LedBy.settle_source (h : s.LedBy (· = k) i) (hk : k < s.cells.size)
    (hp : s.outcome? k = none) (o : Outcome Value) : (s.settle k o).LedBy (fun _ => False) i :=
  (h.fill_source hk hp o).cascade (h.fill k o).2

theorem LedBy.listen (h : s.LedBy src i) {l : Listener Value Deferral}
    (hl : i ∈ l.aimed → src k ∧ l.Relays i) : (s.listen k l).LedBy src i := by
  obtain he | ⟨c, hc, -, he⟩ | ⟨o, -, he⟩ := s.listen_cases k l <;> rw [he]
  · exact h
  · refine h.set fun l' hl' hi => ?_
    obtain hl' | hl' := List.mem_append.1 hl'
    · exact h.listeners k c hc l' hl' hi
    · obtain rfl := List.mem_singleton.1 hl'
      exact hl hi
  · refine h.cascade fun t ht hi => ?_
    obtain rfl := List.mem_singleton.1 ht
    obtain ⟨image, rfl⟩ := (hl hi).2 hi
    exact ⟨image, _, rfl⟩

/-- Linking a slot that is complete makes no link. -/
theorem LedBy.listen_of_done (h : s.LedBy src i) (hd : s.isDone k = true)
    {l : Listener Value Deferral} (hl : l.Relays i) : (s.listen k l).LedBy src i := by
  obtain ⟨o, ho⟩ := Option.isSome_iff_exists.1 hd
  rw [listen_of_outcome? ho]
  refine h.cascade fun t ht hi => ?_
  obtain rfl := List.mem_singleton.1 ht
  obtain ⟨image, rfl⟩ := hl hi
  exact ⟨image, _, rfl⟩

/-- Linking a slot that is pending completes nothing. -/
theorem outcome?_listen_of_pending (hp : s.outcome? k = none) (l : Listener Value Deferral)
    (i : SlotId) : (s.listen k l).outcome? i = s.outcome? i := by
  obtain he | ⟨c, hc, -, he⟩ | ⟨o, ho, -⟩ := s.listen_cases k l
  · rw [he]
  · rw [he]
    exact outcome?_set_listeners hc _ i
  · cases ho.symm.trans hp

theorem LedBy.outcome?_listen (h : s.LedBy src i) {l : Listener Value Deferral} (hl : i ∉ l.aimed)
    (hsrc : ∀ j, src j → (s.listen k l).outcome? j = none) :
    (s.listen k l).outcome? i = s.outcome? i := by
  obtain he | ⟨c, hc, -, he⟩ | ⟨o, -, he⟩ := s.listen_cases k l <;> rw [he] at hsrc ⊢
  · exact outcome?_set_listeners hc _ i
  · refine h.outcome?_cascade (fun t ht => ?_) hsrc
    rw [List.mem_singleton.1 ht]
    exact hl

theorem LedBy.fresh (h : s.LedBy src i) : s.fresh.1.LedBy src i where
  listeners j c hc l hl hi := by
    obtain ⟨-, he⟩ | he := s.fresh_cases j
    · obtain rfl := Option.some.inj (hc.symm.trans he)
      cases hl
    · exact h.listeners j c (he.symm.trans hc) l hl hi
  journal := h.journal

/-! ### Work on some slots -/

/-- The store `t` comes from `s` by work on slots in `I` and on new ones: slots are completed, and
linked to slots in `I`. -/
structure WorksOn (s : Slots Value Deferral) (I : SlotId → Prop) (t : Slots Value Deferral) :
    Prop where
  size : s.cells.size ≤ t.cells.size
  keeps : s.Keeps t
  links : ∀ src i, ¬ I i → s.LedBy src i → t.LedBy src i
  outcome : ∀ src i, i < s.cells.size → ¬ I i → s.LedBy src i →
    (∀ j, src j → t.outcome? j = none) → t.outcome? i = s.outcome? i

variable {I I' : SlotId → Prop}

theorem WorksOn.refl (s : Slots Value Deferral) (I : SlotId → Prop) : s.WorksOn I s where
  size := Nat.le_refl _
  keeps := Keeps.refl s
  links _ _ _ h := h
  outcome _ _ _ _ _ _ := rfl

theorem WorksOn.trans (h : s.WorksOn I t) (h' : t.WorksOn I u) : s.WorksOn I u where
  size := Nat.le_trans h.size h'.size
  keeps := h.keeps.trans h'.keeps
  links src i hn hl := h'.links src i hn (h.links src i hn hl)
  outcome src i hi hn hl hsrc := by
    have ht := h'.outcome src i (Nat.lt_of_lt_of_le hi h.size) hn (h.links src i hn hl) hsrc
    exact ht.trans (h.outcome src i hi hn hl fun j hj => pending_of_keeps h'.keeps (hsrc j hj))

theorem WorksOn.mono (h : s.WorksOn I t) (hI : ∀ i, I i → I' i) : s.WorksOn I' t where
  size := h.size
  keeps := h.keeps
  links src i hn := h.links src i (mt (hI i) hn)
  outcome src i hi hn := h.outcome src i hi (mt (hI i) hn)

theorem worksOn_fresh (s : Slots Value Deferral) (I : SlotId → Prop) : s.WorksOn I s.fresh.1 where
  size := by
    rw [size_fresh]
    omega
  keeps := keeps_fresh s
  links _ _ _ h := h.fresh
  outcome _ i _ _ _ _ := outcome?_fresh s i

theorem worksOn_settle (s : Slots Value Deferral) (k : SlotId) (o : Outcome Value) :
    s.WorksOn (· = k) (s.settle k o) where
  size := Nat.le_of_eq (size_settle s k o).symm
  keeps := keeps_settle s k o
  links _ _ _ h := h.settle k o
  outcome _ _ _ hn h hsrc := h.outcome?_settle (Ne.symm hn) hsrc

theorem worksOn_listen (s : Slots Value Deferral) (k : SlotId) (l : Listener Value Deferral) :
    s.WorksOn (· ∈ l.aimed) (s.listen k l) where
  size := Nat.le_of_eq (size_listen s k l).symm
  keeps := keeps_listen s k l
  links _ _ hn h := h.listen fun hi => absurd hi hn
  outcome _ _ _ hn h hsrc := h.outcome?_listen hn hsrc

/-- The journal is taken. -/
theorem worksOn_journal (s : Slots Value Deferral) (I : SlotId → Prop) :
    s.WorksOn I { s with journal := #[] } where
  size := Nat.le_refl _
  keeps := keeps_of_cells rfl
  links _ _ _ h := ⟨h.listeners, by simp⟩
  outcome _ _ _ _ _ _ := rfl

/-- A slot that is complete from the start is no work on any other. -/
theorem outcome?_freshWith (s : Slots Value Deferral) (o : Outcome Value) :
    (s.freshWith o).1.outcome? (s.freshWith o).2 = some o := by
  have hc : s.fresh.1.cells[s.cells.size]? = some {} := Array.getElem?_push_size
  have hp : s.fresh.1.isPending s.cells.size = true := by
    rw [isPending, hc]
    rfl
  exact outcome?_settle_self hp o

end Slots

end GroupConsumer
