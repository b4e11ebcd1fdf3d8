/-!
# Finite sets kept in ascending order

A `SortedSet` is a strictly ascending list, so two sets with the same members are equal and
`toList` is the order in which a set is shown. `mem_insert`, `mem_ofList`, `mem_filter`, `mem_diff`
and `mem_inter` say what each operation does to membership.
-/

namespace GroupConsumer

/-- A strictly ascending list. -/
structure SortedSet (α : Type) [Ord α] where
  toList : List α
  ascending : toList.Pairwise (fun a b => compare a b = .lt)
deriving DecidableEq

namespace SortedSet

section Core

variable {α : Type} [Ord α]

/-- Membership in the underlying list. -/
instance : Membership α (SortedSet α) := ⟨fun s a => a ∈ s.toList⟩

theorem mem_toList {a : α} {s : SortedSet α} : a ∈ s.toList ↔ a ∈ s := Iff.rfl

instance [DecidableEq α] (a : α) (s : SortedSet α) : Decidable (a ∈ s) :=
  inferInstanceAs (Decidable (a ∈ s.toList))

/-- The set without members. -/
def empty : SortedSet α := ⟨[], .nil⟩

instance : EmptyCollection (SortedSet α) := ⟨empty⟩

instance : Inhabited (SortedSet α) := ⟨∅⟩

@[simp] theorem toList_empty : (∅ : SortedSet α).toList = [] := rfl

@[simp] theorem not_mem_empty (a : α) : a ∉ (∅ : SortedSet α) := List.not_mem_nil

theorem toList_injective {s t : SortedSet α} (h : s.toList = t.toList) : s = t := by
  cases s; cases t; simp_all

/-- Whether the set has no members. -/
def isEmpty (s : SortedSet α) : Bool := s.toList.isEmpty

/-- The number of members. -/
def size (s : SortedSet α) : Nat := s.toList.length

/-- The members for which `p` holds. -/
def filter (p : α → Bool) (s : SortedSet α) : SortedSet α :=
  ⟨s.toList.filter p, s.ascending.filter p⟩

@[simp] theorem mem_filter {p : α → Bool} {s : SortedSet α} {a : α} :
    a ∈ s.filter p ↔ a ∈ s ∧ p a = true := List.mem_filter

/-- The members of `s` outside `t`. -/
def diff [DecidableEq α] (s t : SortedSet α) : SortedSet α := s.filter fun a => decide (a ∉ t)

@[simp] theorem mem_diff [DecidableEq α] {s t : SortedSet α} {a : α} :
    a ∈ s.diff t ↔ a ∈ s ∧ a ∉ t := by
  simp [diff]

/-- The members of `s` that are in `t` too. -/
def inter [DecidableEq α] (s t : SortedSet α) : SortedSet α := s.filter fun a => decide (a ∈ t)

@[simp] theorem mem_inter [DecidableEq α] {s t : SortedSet α} {a : α} :
    a ∈ s.inter t ↔ a ∈ s ∧ a ∈ t := by
  simp [inter]

theorem isEmpty_iff {s : SortedSet α} : s.isEmpty = true ↔ s = ∅ := by
  constructor
  · intro h
    exact toList_injective (by simpa [isEmpty] using h)
  · rintro rfl
    rfl

/-- `a` put into an ascending list at its place, or nothing changed if it is there. -/
def place (a : α) : List α → List α
  | [] => [a]
  | b :: bs =>
    match compare a b with
    | .lt => a :: b :: bs
    | .eq => b :: bs
    | .gt => b :: place a bs

end Core

section Ordered

variable {α : Type} [Ord α] [Std.TransOrd α] [Std.LawfulEqOrd α]

omit [Std.TransOrd α] in
theorem mem_place {a x : α} {bs : List α} : x ∈ place a bs ↔ x = a ∨ x ∈ bs := by
  induction bs with
  | nil => simp [place]
  | cons b bs ih =>
    unfold place
    split
    · simp
    · rename_i h
      have : a = b := Std.LawfulEqOrd.eq_of_compare h
      subst this
      simp
    · simp [ih]
      grind

theorem place_ascending {a : α} {bs : List α}
    (h : bs.Pairwise (fun a b => compare a b = .lt)) :
    (place a bs).Pairwise (fun a b => compare a b = .lt) := by
  induction bs with
  | nil => simp [place]
  | cons b bs ih =>
    rw [List.pairwise_cons] at h
    unfold place
    split
    · rename_i hab
      refine List.pairwise_cons.2 ⟨?_, List.pairwise_cons.2 h⟩
      intro x hx
      rcases List.mem_cons.1 hx with rfl | hx
      · exact hab
      · exact Std.TransCmp.lt_trans hab (h.1 x hx)
    · exact List.pairwise_cons.2 h
    · rename_i hab
      refine List.pairwise_cons.2 ⟨?_, ih h.2⟩
      intro x hx
      rcases mem_place.1 hx with rfl | hx
      · exact Std.OrientedCmp.lt_of_gt hab
      · exact h.1 x hx

/-- The set with `a` as a member. -/
def insert (a : α) (s : SortedSet α) : SortedSet α :=
  ⟨place a s.toList, place_ascending s.ascending⟩

@[simp] theorem mem_insert {a x : α} {s : SortedSet α} : x ∈ s.insert a ↔ x = a ∨ x ∈ s := mem_place

/-- The set of a list's elements. -/
def ofList (l : List α) : SortedSet α := l.foldr insert ∅

@[simp] theorem mem_ofList {a : α} {l : List α} : a ∈ ofList l ↔ a ∈ l := by
  induction l with
  | nil => simp [ofList]
  | cons b l ih =>
    have : ofList (b :: l) = (ofList l).insert b := rfl
    simp [this, ih]

theorem ascending_unique {s t : List α} (hs : s.Pairwise (fun a b => compare a b = .lt))
    (ht : t.Pairwise (fun a b => compare a b = .lt)) (h : ∀ a, a ∈ s ↔ a ∈ t) : s = t := by
  induction s generalizing t with
  | nil =>
    cases t with
    | nil => rfl
    | cons b t => exact absurd ((h b).2 (by simp)) (by simp)
  | cons a s ih =>
    cases t with
    | nil => exact absurd ((h a).1 (by simp)) (by simp)
    | cons b t =>
      rw [List.pairwise_cons] at hs ht
      have irrefl : ∀ x : α, compare x x ≠ .lt := fun x => by simp [Std.ReflCmp.compare_self]
      have asymm : ∀ {x y : α}, compare x y = .lt → compare y x ≠ .lt := fun hxy hyx =>
        irrefl _ (Std.TransCmp.lt_trans hxy hyx)
      have hab : a = b := by
        rcases List.mem_cons.1 ((h a).1 (by simp)) with hab | hat
        · exact hab
        · rcases List.mem_cons.1 ((h b).2 (by simp)) with hba | hbs
          · exact hba.symm
          · exact absurd (ht.1 a hat) (asymm (hs.1 b hbs))
      subst hab
      congr 1
      apply ih hs.2 ht.2
      intro x
      constructor
      · intro hx
        rcases List.mem_cons.1 ((h x).1 (List.mem_cons_of_mem _ hx)) with rfl | hx'
        · exact absurd (hs.1 x hx) (irrefl x)
        · exact hx'
      · intro hx
        rcases List.mem_cons.1 ((h x).2 (List.mem_cons_of_mem _ hx)) with rfl | hx'
        · exact absurd (ht.1 x hx) (irrefl x)
        · exact hx'

/-- Sets with the same members are equal. -/
@[ext] theorem ext {s t : SortedSet α} (h : ∀ a, a ∈ s ↔ a ∈ t) : s = t :=
  toList_injective (ascending_unique s.ascending t.ascending h)

end Ordered

end SortedSet

end GroupConsumer
