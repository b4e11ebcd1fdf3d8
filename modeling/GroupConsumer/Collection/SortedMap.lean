import GroupConsumer.Collection.SortedSet

/-!
# Finite maps kept in ascending order of their keys

A `SortedMap` is a list of entries with strictly ascending keys. Every map is determined by its
look-ups (`ext`); `get?_insert`, `get?_filterKeys` and `get?_mapValues` say what each operation does
to them.
-/

namespace GroupConsumer

/-- Entries with strictly ascending keys. -/
structure SortedMap (α β : Type) [Ord α] where
  entries : List (α × β)
  ascending : entries.Pairwise (fun a b => compare a.1 b.1 = .lt)
deriving DecidableEq

namespace SortedMap

section Core

variable {α β γ : Type} [Ord α]

/-- The map without entries. -/
def empty : SortedMap α β := ⟨[], .nil⟩

instance : EmptyCollection (SortedMap α β) := ⟨empty⟩

instance : Inhabited (SortedMap α β) := ⟨∅⟩

/-- Whether the map has no entries. -/
def isEmpty (m : SortedMap α β) : Bool := m.entries.isEmpty

/-- The value of the first entry with the key `k`. -/
def lookup [DecidableEq α] (k : α) : List (α × β) → Option β
  | [] => none
  | (a, b) :: es => if a = k then some b else lookup k es

/-- The value at the key `k`. -/
def get? [DecidableEq α] (m : SortedMap α β) (k : α) : Option β := lookup k m.entries

/-- Whether there is a value at `k`. -/
def contains [DecidableEq α] (m : SortedMap α β) (k : α) : Bool := (m.get? k).isSome

/-- The keys, in order. -/
def keys (m : SortedMap α β) : SortedSet α :=
  ⟨m.entries.map Prod.fst, List.pairwise_map.2 m.ascending⟩

/-- The values, in the order of their keys. -/
def values (m : SortedMap α β) : List β := m.entries.map Prod.snd

/-- The entries whose key passes `p`. -/
def filterKeys (p : α → Bool) (m : SortedMap α β) : SortedMap α β :=
  ⟨m.entries.filter fun e => p e.1, m.ascending.filter _⟩

/-- The map with every value replaced by its image. -/
def mapValues (f : α → β → γ) (m : SortedMap α β) : SortedMap α γ :=
  ⟨m.entries.map fun e => (e.1, f e.1 e.2), List.pairwise_map.2 m.ascending⟩

/-- The map with every value replaced by its image, where there is one. -/
def filterMapValues (f : α → β → Option γ) (m : SortedMap α β) : SortedMap α γ :=
  ⟨m.entries.filterMap fun e => (f e.1 e.2).map (e.1, ·), by
    refine List.Pairwise.filterMap _ ?_ m.ascending
    intro a b hab c hc d hd
    simp only [Option.map_eq_some_iff] at hc hd
    obtain ⟨_, _, rfl⟩ := hc
    obtain ⟨_, _, rfl⟩ := hd
    exact hab⟩

/-- The map with the value at `k`, if any, replaced by its image. -/
def adjust [DecidableEq α] (k : α) (f : β → β) (m : SortedMap α β) : SortedMap α β :=
  m.mapValues fun a b => if a = k then f b else b

/-- An entry put into ascending entries at its place, instead of one with the same key. -/
def place (k : α) (v : β) : List (α × β) → List (α × β)
  | [] => [(k, v)]
  | e :: es =>
    match compare k e.1 with
    | .lt => (k, v) :: e :: es
    | .eq => (k, v) :: es
    | .gt => e :: place k v es

@[simp] theorem keys_empty : (∅ : SortedMap α β).keys = ∅ := rfl

@[simp] theorem keys_mapValues (f : α → β → γ) (m : SortedMap α β) :
    (m.mapValues f).keys = m.keys := by
  apply SortedSet.toList_injective
  simp [keys, mapValues]

@[simp] theorem keys_adjust [DecidableEq α] (k : α) (f : β → β) (m : SortedMap α β) :
    (m.adjust k f).keys = m.keys := keys_mapValues _ m

end Core

section Lookup

variable {α β γ : Type} [DecidableEq α]

theorem lookup_isSome {k : α} {es : List (α × β)} :
    (lookup k es).isSome = true ↔ k ∈ es.map Prod.fst := by
  induction es with
  | nil => simp [lookup]
  | cons e es ih =>
    by_cases h : e.1 = k
    · simp [lookup, h]
    · simp [lookup, h, ih, Ne.symm h]

theorem lookup_filter {p : α → Bool} {k : α} {es : List (α × β)} :
    lookup k (es.filter fun e => p e.1) = if p k = true then lookup k es else none := by
  induction es with
  | nil => simp [lookup]
  | cons e es ih =>
    obtain ⟨a, b⟩ := e
    by_cases ha : p a = true <;> by_cases hk : a = k
    · subst hk
      simp [lookup, ha]
    · simp [lookup, ha, hk, ih]
    · subst hk
      simp [ha, ih]
    · simp [lookup, ha, hk, ih]

theorem lookup_map {f : α → β → γ} {k : α} {es : List (α × β)} :
    lookup k (es.map fun e => (e.1, f e.1 e.2)) = (lookup k es).map (f k) := by
  induction es with
  | nil => rfl
  | cons e es ih =>
    obtain ⟨a, b⟩ := e
    by_cases hk : a = k
    · subst hk
      simp [lookup]
    · simp [lookup, hk, ih]

theorem lookup_eq_some_of_mem {k : α} {v : β} {es : List (α × β)}
    (h : lookup k es = some v) : (k, v) ∈ es := by
  induction es with
  | nil => simp [lookup] at h
  | cons e es ih =>
    obtain ⟨a, b⟩ := e
    by_cases hk : a = k
    · subst hk
      simp only [lookup, if_pos, Option.some.injEq] at h
      simp [h]
    · simp only [lookup, hk, if_false] at h
      exact List.mem_cons_of_mem _ (ih h)

variable [Ord α]

@[simp] theorem get?_empty (k : α) : (∅ : SortedMap α β).get? k = none := rfl

@[simp] theorem mem_keys {k : α} {m : SortedMap α β} : k ∈ m.keys ↔ (m.get? k).isSome = true :=
  lookup_isSome.symm

@[simp] theorem get?_filterKeys {p : α → Bool} {k : α} {m : SortedMap α β} :
    (m.filterKeys p).get? k = if p k = true then m.get? k else none := lookup_filter

@[simp] theorem get?_mapValues {f : α → β → γ} {k : α} {m : SortedMap α β} :
    (m.mapValues f).get? k = (m.get? k).map (f k) := lookup_map

@[simp] theorem get?_adjust {f : β → β} {k x : α} {m : SortedMap α β} :
    (m.adjust k f).get? x = (m.get? x).map fun b => if x = k then f b else b :=
  get?_mapValues

end Lookup

section Ordered

variable {α β γ : Type} [Ord α] [Std.TransOrd α] [Std.LawfulEqOrd α]

omit [Std.TransOrd α] [Std.LawfulEqOrd α] in
theorem mem_place {k : α} {v : β} {x : α × β} {es : List (α × β)} (hx : x ∈ place k v es) :
    x = (k, v) ∨ x ∈ es := by
  induction es with
  | nil => simpa [place] using hx
  | cons e es ih =>
    unfold place at hx
    split at hx
    · simpa using hx
    · rcases List.mem_cons.1 hx with h | h
      · exact .inl h
      · exact .inr (List.mem_cons_of_mem _ h)
    · rcases List.mem_cons.1 hx with h | h
      · exact .inr (h ▸ List.mem_cons_self)
      · rcases ih h with h | h
        · exact .inl h
        · exact .inr (List.mem_cons_of_mem _ h)

theorem place_ascending {k : α} {v : β} {es : List (α × β)}
    (h : es.Pairwise (fun a b => compare a.1 b.1 = .lt)) :
    (place k v es).Pairwise (fun a b => compare a.1 b.1 = .lt) := by
  induction es with
  | nil => simp [place]
  | cons e es ih =>
    rw [List.pairwise_cons] at h
    unfold place
    split
    · rename_i hke
      refine List.pairwise_cons.2 ⟨?_, List.pairwise_cons.2 h⟩
      intro x hx
      rcases List.mem_cons.1 hx with rfl | hx
      · exact hke
      · exact Std.TransCmp.lt_trans hke (h.1 x hx)
    · rename_i hke
      have : k = e.1 := Std.LawfulEqOrd.eq_of_compare hke
      subst this
      exact List.pairwise_cons.2 h
    · rename_i hke
      refine List.pairwise_cons.2 ⟨?_, ih h.2⟩
      intro x hx
      rcases mem_place hx with rfl | hx
      · exact Std.OrientedCmp.lt_of_gt hke
      · exact h.1 x hx

/-- The map with the value `v` at `k`. -/
def insert (k : α) (v : β) (m : SortedMap α β) : SortedMap α β :=
  ⟨place k v m.entries, place_ascending m.ascending⟩

/-- The map of a list of entries; of two with one key the later counts. -/
def ofList (l : List (α × β)) : SortedMap α β := l.foldl (fun m e => m.insert e.1 e.2) ∅

/-- The map with one entry. -/
def singleton (k : α) (v : β) : SortedMap α β := (∅ : SortedMap α β).insert k v

/-- The map that gives every member of `s` the value `v`. -/
def ofKeys (s : SortedSet α) (v : β) : SortedMap α β := ofList (s.toList.map (·, v))

section Entries

variable [DecidableEq α]

omit [Std.TransOrd α] in
theorem lookup_place {k x : α} {v : β} {es : List (α × β)} :
    lookup x (place k v es) = if k = x then some v else lookup x es := by
  induction es with
  | nil => rfl
  | cons e es ih =>
    obtain ⟨a, b⟩ := e
    unfold place
    split
    · rfl
    · rename_i h
      have : k = a := Std.LawfulEqOrd.eq_of_compare h
      subst this
      by_cases hx : k = x <;> simp [lookup, hx]
    · rename_i h
      have hne : k ≠ a := by
        rintro rfl
        simp [Std.ReflCmp.compare_self] at h
      by_cases hx : a = x
      · subst hx
        simp [lookup, hne]
      · simp [lookup, hx, ih]

@[simp] theorem get?_insert {k x : α} {v : β} {m : SortedMap α β} :
    (m.insert k v).get? x = if k = x then some v else m.get? x := lookup_place

omit [Std.TransOrd α] in
theorem lookup_of_mem {k : α} {v : β} {es : List (α × β)}
    (hes : es.Pairwise (fun a b => compare a.1 b.1 = .lt)) (h : (k, v) ∈ es) :
    lookup k es = some v := by
  induction es with
  | nil => simp at h
  | cons e es ih =>
    obtain ⟨a, b⟩ := e
    rw [List.pairwise_cons] at hes
    rcases List.mem_cons.1 h with h | h
    · simp only [Prod.mk.injEq] at h
      simp [lookup, h.1, h.2]
    · have hne : a ≠ k := by
        rintro rfl
        have := hes.1 _ h
        simp [Std.ReflCmp.compare_self] at this
      simp [lookup, hne, ih hes.2 h]

omit [Std.TransOrd α] in
theorem get?_eq_some_iff {k : α} {v : β} {m : SortedMap α β} :
    m.get? k = some v ↔ (k, v) ∈ m.entries :=
  ⟨lookup_eq_some_of_mem, lookup_of_mem m.ascending⟩

omit [Std.TransOrd α] in
theorem get?_filterMapValues {f : α → β → Option γ} {k : α} {m : SortedMap α β} :
    (m.filterMapValues f).get? k = (m.get? k).bind (f k) := by
  refine Option.ext fun c => ?_
  rw [get?_eq_some_iff, Option.bind_eq_some_iff]
  show (k, c) ∈ m.entries.filterMap (fun e => (f e.1 e.2).map (e.1, ·)) ↔ _
  simp only [List.mem_filterMap, Option.map_eq_some_iff, Prod.mk.injEq]
  constructor
  · rintro ⟨⟨a, b⟩, he, d, hd, rfl, rfl⟩
    exact ⟨b, get?_eq_some_iff.2 he, hd⟩
  · rintro ⟨b, hb, hc⟩
    exact ⟨(k, b), get?_eq_some_iff.1 hb, c, hc, rfl, rfl⟩

theorem mem_keys_insert {k x : α} {v : β} {m : SortedMap α β} :
    x ∈ (m.insert k v).keys ↔ x = k ∨ x ∈ m.keys := by
  rw [mem_keys, mem_keys, get?_insert]
  by_cases h : k = x
  · simp [h]
  · simp [h, Ne.symm h]

@[simp] theorem mem_keys_ofList {x : α} {l : List (α × β)} :
    x ∈ (ofList l).keys ↔ x ∈ l.map Prod.fst := by
  have key : ∀ (l : List (α × β)) (m : SortedMap α β),
      x ∈ (l.foldl (fun m e => m.insert e.1 e.2) m).keys ↔ x ∈ l.map Prod.fst ∨ x ∈ m.keys := by
    intro l
    induction l with
    | nil => simp
    | cons e l ih =>
      intro m
      rw [List.foldl_cons, ih, mem_keys_insert, List.map_cons, List.mem_cons]
      constructor
      · rintro (h | h | h)
        · exact .inl (.inr h)
        · exact .inl (.inl h)
        · exact .inr h
      · rintro ((h | h) | h)
        · exact .inr (.inl h)
        · exact .inl h
        · exact .inr (.inr h)
  rw [ofList, key, keys_empty]
  simp

/-- A key with which the list gives one value only has this value. -/
theorem get?_ofList {k : α} {v : β} {l : List (α × β)} (hk : k ∈ l.map Prod.fst)
    (hv : ∀ e ∈ l, e.1 = k → e.2 = v) : (ofList l).get? k = some v := by
  have key : ∀ (l : List (α × β)) (m : SortedMap α β), (∀ e ∈ l, e.1 = k → e.2 = v) →
      k ∈ l.map Prod.fst ∨ m.get? k = some v →
      (l.foldl (fun m e => m.insert e.1 e.2) m).get? k = some v := by
    intro l
    induction l with
    | nil => simp
    | cons e l ih =>
      intro m hv h
      refine ih _ (fun f hf => hv f (List.mem_cons_of_mem _ hf)) ?_
      rw [get?_insert]
      by_cases he : e.1 = k
      · exact .inr (by rw [if_pos he, hv e List.mem_cons_self he])
      · rw [if_neg he]
        simpa [Ne.symm he] using h
  exact key l ∅ hv (.inl hk)

/-- Maps with the same look-ups are equal. -/
theorem ext {m n : SortedMap α β} (h : ∀ k, m.get? k = n.get? k) : m = n := by
  obtain ⟨es, hes⟩ := m
  obtain ⟨fs, hfs⟩ := n
  have key : ∀ (es fs : List (α × β)), es.Pairwise (fun a b => compare a.1 b.1 = .lt) →
      fs.Pairwise (fun a b => compare a.1 b.1 = .lt) → (∀ e, e ∈ es ↔ e ∈ fs) → es = fs := by
    intro es
    induction es with
    | nil =>
      intro fs _ _ h
      cases fs with
      | nil => rfl
      | cons f fs => exact absurd ((h f).2 (by simp)) (by simp)
    | cons e es ih =>
      intro fs hes hfs h
      cases fs with
      | nil => exact absurd ((h e).1 (by simp)) (by simp)
      | cons f fs =>
        rw [List.pairwise_cons] at hes hfs
        have irrefl : ∀ x : α, compare x x ≠ .lt := fun x => by simp [Std.ReflCmp.compare_self]
        have asymm : ∀ {x y : α}, compare x y = .lt → compare y x ≠ .lt := fun hxy hyx =>
          irrefl _ (Std.TransCmp.lt_trans hxy hyx)
        have hef : e = f := by
          rcases List.mem_cons.1 ((h e).1 (by simp)) with hef | he
          · exact hef
          · rcases List.mem_cons.1 ((h f).2 (by simp)) with hfe | hf
            · exact hfe.symm
            · exact absurd (hfs.1 e he) (asymm (hes.1 f hf))
        subst hef
        congr 1
        apply ih fs hes.2 hfs.2
        intro x
        constructor
        · intro hx
          rcases List.mem_cons.1 ((h x).1 (List.mem_cons_of_mem _ hx)) with rfl | hx'
          · exact absurd (hes.1 x hx) (irrefl _)
          · exact hx'
        · intro hx
          rcases List.mem_cons.1 ((h x).2 (List.mem_cons_of_mem _ hx)) with rfl | hx'
          · exact absurd (hfs.1 x hx) (irrefl _)
          · exact hx'
  have : es = fs := key es fs hes hfs fun e => by
    rw [← get?_eq_some_iff (m := ⟨es, hes⟩), ← get?_eq_some_iff (m := ⟨fs, hfs⟩), h]
  subst this
  rfl

end Entries

end Ordered

end SortedMap

end GroupConsumer
