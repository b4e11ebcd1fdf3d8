import GroupConsumer.Pattern.Regex

/-!
# The search for a match

`reach` computes with masks what `Spans` says of single places (`realizes_reach`), and so a search finds
a match exactly if there is one (`search_iff`). A repetition is a number of steps in a row. One without an
upper bound needs no more rounds than the text has places, since a round that is not the last one reaches
a place that no earlier round has reached.
-/

namespace GroupConsumer

namespace Regex

/-- Every repetition asks for no more matches than it allows. -/
def Ordered : Regex → Prop
  | .empty | .one _ | .look _ => True
  | .seq r s | .alt r s => r.Ordered ∧ s.Ordered
  | .rep r least most => r.Ordered ∧ ∀ n, most = some n → least ≤ n

namespace Mask

/-- A place is in the mask. -/
def Has (m : Mask) (i : Nat) : Prop := m[i]? = some true

variable {m n : Mask} {i j : Nat} {t : List Char}

theorem Has.lt (h : m.Has i) : i < m.length := (List.getElem?_eq_some_iff.1 h).1

theorem not_has_nil (i : Nat) : ¬ Has [] i := by
  simp [Has]

theorem has_cons_zero {b : Bool} : Has (b :: m) 0 ↔ b = true := by
  simp [Has]

theorem has_cons_succ {b : Bool} : Has (b :: m) (i + 1) ↔ m.Has i := by
  simp [Has]

theorem any_iff : m.any id = true ↔ ∃ i, m.Has i := by
  rw [List.any_eq_true]
  constructor
  · rintro ⟨b, hb, hid⟩
    obtain ⟨i, hi⟩ := List.mem_iff_getElem?.1 hb
    exact ⟨i, hi.trans (congrArg some hid)⟩
  · rintro ⟨i, hi⟩
    exact ⟨true, List.mem_of_getElem? hi, rfl⟩

theorem has_all : (all t).Has i ↔ i ≤ t.length := by
  rw [Has, all, List.getElem?_replicate]
  by_cases hi : i ≤ t.length
  · rw [if_pos (Nat.lt_succ_of_le hi)]
    exact iff_of_true rfl hi
  · rw [if_neg fun h => hi (Nat.le_of_lt_succ h)]
    exact iff_of_false (by decide) hi

theorem length_union (h : m.length = n.length) : (m.union n).length = m.length := by
  simp [union, h]

theorem has_union (h : m.length = n.length) : (m.union n).Has i ↔ m.Has i ∨ n.Has i := by
  induction m generalizing n i with
  | nil =>
    obtain rfl := List.eq_nil_of_length_eq_zero h.symm
    simp [union, Has]
  | cons b m ih =>
    cases n with
    | nil => cases h
    | cons c n =>
      cases i with
      | zero => simp [union, Has]
      | succ i => exact ih (Nat.succ.inj h)

theorem subset_iff (h : m.length = n.length) : m.subset n = true ↔ ∀ i, m.Has i → n.Has i := by
  induction m generalizing n with
  | nil => simp [subset, not_has_nil]
  | cons b m ih =>
    cases n with
    | nil => cases h
    | cons c n =>
      have hrest : subset (b :: m) (c :: n) = ((!b || c) && subset m n) := rfl
      rw [hrest, Bool.and_eq_true, ih (Nat.succ.inj h)]
      constructor
      · rintro ⟨hb, hm⟩ (_ | i) hi
        · rw [has_cons_zero] at hi ⊢
          simpa [hi] using hb
        · exact hm i hi
      · refine fun hall => ⟨?_, fun i hi => hall (i + 1) hi⟩
        have h0 := hall 0
        rw [has_cons_zero, has_cons_zero] at h0
        cases b with
        | false => rfl
        | true => exact h0 rfl

theorem union_cons (b c : Bool) (m n : Mask) : union (b :: m) (c :: n) = (b || c) :: union m n := rfl

theorem count_le_count_union (h : m.length = n.length) : m.count true ≤ (m.union n).count true := by
  induction m generalizing n with
  | nil => exact Nat.zero_le _
  | cons b m ih =>
    cases n with
    | nil => cases h
    | cons c n =>
      have hm := ih (Nat.succ.inj h)
      rw [union_cons, List.count_cons, List.count_cons]
      cases b <;> cases c <;> simp <;> omega

/-- A place that is not in the one mask makes the union greater. -/
theorem count_lt_count_union (h : m.length = n.length) (hn : n.Has i) (hm : ¬ m.Has i) :
    m.count true < (m.union n).count true := by
  induction m generalizing n i with
  | nil =>
    obtain rfl := List.eq_nil_of_length_eq_zero h.symm
    exact absurd hn (not_has_nil i)
  | cons b m ih =>
    cases n with
    | nil => cases h
    | cons c n =>
      have hlen := Nat.succ.inj h
      rw [union_cons, List.count_cons, List.count_cons]
      cases i with
      | zero =>
        have hle := count_le_count_union hlen
        rw [has_cons_zero] at hn hm
        rw [Bool.not_eq_true] at hm
        subst hn hm
        simp
        omega
      | succ i =>
        have hlt := ih hlen hn hm
        cases b <;> cases c <;> simp <;> omega

/-- A mask with as many places as it can have has them all. -/
theorem has_of_length_le_count (h : m.length ≤ m.count true) (hi : i < m.length) : m.Has i := by
  have heq : m.count true = m.length := Nat.le_antisymm List.count_le_length h
  have htrue := (List.count_eq_length.1 heq) _ (List.getElem_mem hi)
  rw [Has, List.getElem?_eq_getElem hi, ← htrue]

theorem length_advance (set : CharSet) (h : m.length = t.length + 1) :
    (advance set t m).length = t.length + 1 := by
  simp [advance, h]

theorem has_advance (set : CharSet) :
    (advance set t m).Has j ↔
      ∃ i c, j = i + 1 ∧ m.Has i ∧ t[i]? = some c ∧ set.contains c = true := by
  unfold advance
  cases j with
  | zero => simp [has_cons_zero]
  | succ j =>
    rw [has_cons_succ, Has, List.getElem?_zipWith_eq_some]
    constructor
    · rintro ⟨c, b, hc, hb, h⟩
      rw [Bool.and_eq_true] at h
      exact ⟨j, c, rfl, by rw [Has, hb, h.1], hc, h.2⟩
    · rintro ⟨i, c, hj, hm, hc, hs⟩
      obtain rfl := Nat.succ.inj hj
      exact ⟨c, true, hc, hm, by simp [hs]⟩

theorem length_restrict (l : Look) (prev : Option Char) (h : m.length = t.length + 1) :
    (restrict l prev t m).length = t.length + 1 := by
  induction t generalizing prev m with
  | nil =>
    obtain ⟨b, rfl⟩ := List.length_eq_one_iff.1 h
    rfl
  | cons c t ih =>
    cases m with
    | nil => cases h
    | cons b m =>
      rw [restrict, List.length_cons, ih (some c) (Nat.succ.inj h)]
      rfl

theorem has_restrict (l : Look) (prev : Option Char) (h : m.length = t.length + 1) :
    (restrict l prev t m).Has i ↔
      m.Has i ∧ l.holds (if i = 0 then prev else before t i) t[i]? = true := by
  induction t generalizing prev m i with
  | nil =>
    obtain ⟨b, rfl⟩ := List.length_eq_one_iff.1 h
    cases i with
    | zero => simp [restrict, has_cons_zero]
    | succ i => simp [restrict, has_cons_succ, not_has_nil]
  | cons c t ih =>
    cases m with
    | nil => cases h
    | cons b m =>
      rw [restrict]
      cases i with
      | zero => simp [has_cons_zero]
      | succ i =>
        rw [has_cons_succ, has_cons_succ, ih (some c) (Nat.succ.inj h)]
        cases i <;> simp [before]

end Mask

/-! ### Steps in a row -/

/-- `n` steps in a row. -/
def Steps (S : Nat → Nat → Prop) : Nat → Nat → Nat → Prop
  | 0, i, j => i = j
  | n + 1, i, k => ∃ j, S i j ∧ Steps S n j k

/-- `f` takes the places of a mask to those that one step leads to. -/
structure Realizes (size : Nat) (f : Mask → Mask) (S : Nat → Nat → Prop) : Prop where
  length : ∀ m, m.length = size → (f m).length = size
  has : ∀ m, m.length = size → ∀ j, (f m).Has j ↔ ∃ i, m.Has i ∧ S i j

section Rounds

variable {size : Nat} {f : Mask → Mask} {S : Nat → Nat → Prop} (hf : Realizes size f S)
include hf

theorem realizes_iterate (n : Nat) : Realizes size (iterate f n) (Steps S n) := by
  induction n with
  | zero =>
    refine ⟨fun _ h => h, fun m _ j => ⟨fun h => ⟨j, h, rfl⟩, ?_⟩⟩
    rintro ⟨i, hi, rfl⟩
    exact hi
  | succ n ih =>
    have hstep (m : Mask) : iterate f (n + 1) m = iterate f n (f m) := by
      rw [iterate]
      split
      · rename_i h
        rw [h]
        cases n with
        | zero => rfl
        | succ n => rw [iterate, if_pos h]
      · rfl
    refine ⟨fun m hm => ?_, fun m hm j => ?_⟩
    · rw [hstep]
      exact ih.length _ (hf.length m hm)
    · rw [hstep, ih.has _ (hf.length m hm)]
      constructor
      · rintro ⟨k, hk, hsteps⟩
        obtain ⟨i, hi, hs⟩ := (hf.has m hm k).1 hk
        exact ⟨i, hi, k, hs, hsteps⟩
      · rintro ⟨i, hi, k, hs, hsteps⟩
        exact ⟨k, (hf.has m hm k).2 ⟨i, hi, hs⟩, hsteps⟩

omit hf in
/-- What is closed under steps is not left by any row of them. -/
theorem has_of_steps {acc : Mask} (hc : ∀ i j, acc.Has i → S i j → acc.Has j) {n i j : Nat}
    (hi : acc.Has i) (h : Steps S n i j) : acc.Has j := by
  induction n generalizing i with
  | zero => exact h ▸ hi
  | succ n ih =>
    obtain ⟨k, hs, h⟩ := h
    exact ih (hc i k hi hs) h

/-- `acc` has all that was reached, `m` what was reached last. One more step leads nowhere else but to what
the next round reaches. -/
structure Gathers (size : Nat) (f : Mask → Mask) (S : Nat → Nat → Prop) (m acc : Mask) : Prop where
  length : m.length = size
  length_acc : acc.length = size
  mem : ∀ i, m.Has i → acc.Has i
  next : ∀ i j, acc.Has i → S i j → acc.Has j ∨ (f m).Has j

variable {m acc : Mask}

theorem gathers_self (hm : m.length = size) : Gathers size f S m m :=
  ⟨hm, hm, fun _ => id, fun i j hi hs => Or.inr ((hf.has m hm j).2 ⟨i, hi, hs⟩)⟩

theorem Gathers.round (h : Gathers size f S m acc) : Gathers size f S (f m) (acc.union (f m)) := by
  have hm := hf.length m h.length
  have hlen : acc.length = (f m).length := h.length_acc.trans hm.symm
  refine ⟨hm, (Mask.length_union hlen).trans h.length_acc,
    fun i hi => (Mask.has_union hlen).2 (Or.inr hi), fun i j hi hs => ?_⟩
  rw [Mask.has_union hlen] at hi ⊢
  obtain hi | hi := hi
  · exact Or.inl (h.next i j hi hs)
  · exact Or.inr ((hf.has _ hm j).2 ⟨i, hi, hs⟩)

/-- When a round reaches nothing new, no further one does. -/
theorem Gathers.closed (h : Gathers size f S m acc) (hs : (f m).subset acc = true) :
    ∀ i j, acc.Has i → S i j → acc.Has j := by
  intro i j hi hstep
  obtain hj | hj := h.next i j hi hstep
  · exact hj
  · exact (Mask.subset_iff ((hf.length m h.length).trans h.length_acc.symm)).1 hs j hj

/-- What is gathered was reached before or by at most so many rounds. -/
theorem of_has_gather (n : Nat) (h : Gathers size f S m acc) {j : Nat}
    (hj : (gather f n m acc).Has j) : acc.Has j ∨ ∃ k ≤ n, ∃ i, m.Has i ∧ Steps S k i j := by
  induction n generalizing m acc with
  | zero => exact Or.inl hj
  | succ n ih =>
    rw [gather] at hj
    split at hj
    · exact Or.inl hj
    · have hlen : acc.length = (f m).length := h.length_acc.trans (hf.length m h.length).symm
      obtain hj | ⟨k, hk, i, hi, hsteps⟩ := ih (h.round hf) hj
      · obtain hj | hj := (Mask.has_union hlen).1 hj
        · exact Or.inl hj
        · obtain ⟨i, hi, hs⟩ := (hf.has m h.length j).1 hj
          exact Or.inr ⟨1, by omega, i, hi, j, hs, rfl⟩
      · obtain ⟨i', hi', hs⟩ := (hf.has m h.length i).1 hi
        exact Or.inr ⟨k + 1, by omega, i', hi', i, hs, hsteps⟩

/-- All that was reached before is gathered, and what at most so many rounds reach. There is no limit if
there are as many rounds as places that have not been reached. -/
theorem has_gather (n : Nat) (h : Gathers size f S m acc) {j : Nat}
    (hj : acc.Has j ∨ ∃ k, (k ≤ n ∨ size ≤ n + acc.count true) ∧ ∃ i, m.Has i ∧ Steps S k i j) :
    (gather f n m acc).Has j := by
  have hlen : acc.length = (f m).length := h.length_acc.trans (hf.length m h.length).symm
  induction n generalizing m acc with
  | zero =>
    obtain hj | ⟨k, hk | hk, i, hi, hsteps⟩ := hj
    · exact hj
    · obtain rfl : k = 0 := by omega
      exact h.mem j (hsteps ▸ hi)
    · -- All places have been reached.
      have hfull (l : Nat) (hl : l < size) : acc.Has l :=
        Mask.has_of_length_le_count (by rw [h.length_acc]; omega) (by rw [h.length_acc]; exact hl)
      refine has_of_steps (fun a b ha hs => ?_) (h.mem i hi) hsteps
      obtain hb | hb := h.next a b ha hs
      · exact hb
      · refine hfull b ?_
        rw [← hf.length m h.length]
        exact hb.lt
  | succ n ih =>
    rw [gather]
    split
    · rename_i hs
      obtain hj | ⟨k, -, i, hi, hsteps⟩ := hj
      · exact hj
      · exact has_of_steps (h.closed hf hs) (h.mem i hi) hsteps
    · rename_i hs
      have hround := h.round hf
      have hgrows : acc.count true < (acc.union (f m)).count true := by
        obtain ⟨l, hl, hn⟩ : ∃ l, (f m).Has l ∧ ¬ acc.Has l := by
          simpa [Mask.subset_iff hlen.symm] using hs
        exact Mask.count_lt_count_union hlen hl hn
      refine ih hround ?_ (hround.length_acc.trans (hf.length _ hround.length).symm)
      obtain hj | ⟨k, hk, i, hi, hsteps⟩ := hj
      · exact Or.inl ((Mask.has_union hlen).2 (Or.inl hj))
      · cases k with
        | zero => exact Or.inl ((Mask.has_union hlen).2 (Or.inl (hsteps ▸ h.mem i hi)))
        | succ k =>
          obtain ⟨l, hs, hsteps⟩ := hsteps
          exact Or.inr ⟨k, by omega, l, (hf.has m h.length l).2 ⟨i, hi, hs⟩, hsteps⟩

theorem length_gather (n : Nat) (h : Gathers size f S m acc) :
    (gather f n m acc).length = size := by
  induction n generalizing m acc with
  | zero => exact h.length_acc
  | succ n ih =>
    rw [gather]
    split
    · exact h.length_acc
    · exact ih (h.round hf)

end Rounds

/-! ### Matches -/

section Matches

variable {t : List Char} {r : Regex}

/-- A repetition matches if a number of matches within its bounds come in a row. -/
theorem spans_rep_iff {least : Nat} {most : Option Nat} {i j : Nat} :
    Spans t (.rep r least most) i j ↔
      ∃ k, least ≤ k ∧ (∀ n, most = some n → k ≤ n) ∧ Steps (Spans t r) k i j := by
  constructor
  · intro h
    generalize hq : Regex.rep r least most = q at h
    induction h generalizing least most with
    | repDone =>
      cases hq
      exact ⟨0, Nat.le_refl 0, fun _ _ => Nat.zero_le _, rfl⟩
    | repMore hn hfirst _ _ ih =>
      cases hq
      obtain ⟨k, hleast, hmost, hsteps⟩ := ih rfl
      refine ⟨k + 1, by omega, ?_, _, hfirst, hsteps⟩
      rintro (_ | n) rfl
      · exact absurd rfl hn
      · have := hmost n rfl
        omega
    | _ => cases hq
  · rintro ⟨k, hleast, hmost, hsteps⟩
    induction k generalizing least most i with
    | zero =>
      obtain rfl : least = 0 := by omega
      obtain rfl : i = j := hsteps
      exact .repDone
    | succ k ih =>
      obtain ⟨l, hfirst, hsteps⟩ := hsteps
      refine .repMore ?_ hfirst (ih (by omega) ?_ hsteps)
      · rintro rfl
        have := hmost 0 rfl
        omega
      · intro n hn
        obtain ⟨m, rfl, rfl⟩ := Option.map_eq_some_iff.1 hn
        have := hmost m rfl
        omega

theorem steps_add {S : Nat → Nat → Prop} {a b i k : Nat} :
    Steps S (a + b) i k ↔ ∃ j, Steps S a i j ∧ Steps S b j k := by
  induction a generalizing i with
  | zero =>
    rw [Nat.zero_add]
    exact ⟨fun h => ⟨i, rfl, h⟩, fun ⟨j, hj, h⟩ => (show i = j from hj) ▸ h⟩
  | succ a ih =>
    rw [Nat.add_right_comm]
    constructor
    · rintro ⟨l, hs, h⟩
      obtain ⟨j, ha, hb⟩ := ih.1 h
      exact ⟨j, ⟨l, hs, ha⟩, hb⟩
    · rintro ⟨j, ⟨l, hs, ha⟩, hb⟩
      exact ⟨l, hs, ih.2 ⟨j, ha, hb⟩⟩

theorem realizes_rep {least : Nat} {most : Option Nat}
    (hf : Realizes (t.length + 1) (r.reach t) (Spans t r)) (hb : ∀ n, most = some n → least ≤ n) :
    Realizes (t.length + 1) (reach t (.rep r least most)) (Spans t (.rep r least most)) := by
  have hleast := realizes_iterate hf least
  have hgathers (m : Mask) (hm : m.length = t.length + 1) :=
    gathers_self hf (hleast.length m hm)
  refine ⟨fun m hm => length_gather hf _ (hgathers m hm), fun m hm j => ?_⟩
  constructor
  · intro hj
    obtain hj | ⟨k, hk, i, hi, hsteps⟩ := of_has_gather hf _ (hgathers m hm) hj
    · obtain ⟨i, hi, hsteps⟩ := (hleast.has m hm j).1 hj
      exact ⟨i, hi, spans_rep_iff.2 ⟨least, Nat.le_refl _, hb, hsteps⟩⟩
    · obtain ⟨l, hl, hfirst⟩ := (hleast.has m hm i).1 hi
      refine ⟨l, hl, spans_rep_iff.2
        ⟨least + k, by omega, ?_, steps_add.2 ⟨i, hfirst, hsteps⟩⟩⟩
      rintro n rfl
      have hk : k ≤ n - least := hk
      have := hb n rfl
      omega
  · rintro ⟨i, hi, hspans⟩
    obtain ⟨k, hk, hmost, hsteps⟩ := spans_rep_iff.1 hspans
    obtain ⟨k, rfl⟩ := Nat.exists_eq_add_of_le hk
    obtain ⟨l, hfirst, hrest⟩ := steps_add.1 hsteps
    refine has_gather hf _ (hgathers m hm)
      (Or.inr ⟨k, ?_, l, (hleast.has m hm l).2 ⟨i, hi, hfirst⟩, hrest⟩)
    cases most with
    | none =>
      refine Or.inr ?_
      show t.length + 1 ≤ t.length + 1 + _
      omega
    | some n =>
      refine Or.inl ?_
      show k ≤ n - least
      have := hmost n rfl
      omega

/-- The places that `reach` computes are those at which a match can end. -/
theorem realizes_reach (h : r.Ordered) : Realizes (t.length + 1) (reach t r) (Spans t r) := by
  induction r with
  | empty =>
    refine ⟨fun _ hm => hm, fun m _ j => ⟨fun hj => ⟨j, hj, .empty⟩, ?_⟩⟩
    rintro ⟨i, hi, ⟨⟩⟩
    exact hi
  | one set =>
    refine ⟨fun m hm => Mask.length_advance set hm, fun m _ j => ?_⟩
    rw [reach, Mask.has_advance]
    constructor
    · rintro ⟨i, c, rfl, hi, hc, hs⟩
      exact ⟨i, hi, .one hc hs⟩
    · rintro ⟨i, hi, hspans⟩
      cases hspans with
      | one hc hs => exact ⟨i, _, rfl, hi, hc, hs⟩
  | look l =>
    refine ⟨fun m hm => Mask.length_restrict l none hm, fun m hm j => ?_⟩
    have hbefore : (if j = 0 then none else before t j) = before t j := by
      cases j <;> rfl
    rw [reach, Mask.has_restrict l none hm, hbefore]
    constructor
    · rintro ⟨hj, hl⟩
      exact ⟨j, hj, .look hl⟩
    · rintro ⟨i, hi, hspans⟩
      cases hspans with
      | look hl => exact ⟨hi, hl⟩
  | seq r s ihr ihs =>
    have hr := ihr h.1
    have hs := ihs h.2
    refine ⟨fun m hm => hs.length _ (hr.length m hm), fun m hm j => ?_⟩
    rw [reach, hs.has _ (hr.length m hm)]
    constructor
    · rintro ⟨k, hk, hlast⟩
      obtain ⟨i, hi, hfirst⟩ := (hr.has m hm k).1 hk
      exact ⟨i, hi, .seq hfirst hlast⟩
    · rintro ⟨i, hi, hspans⟩
      cases hspans with
      | seq hfirst hlast => exact ⟨_, (hr.has m hm _).2 ⟨i, hi, hfirst⟩, hlast⟩
  | alt r s ihr ihs =>
    have hr := ihr h.1
    have hs := ihs h.2
    have hlen (m : Mask) (hm : m.length = t.length + 1) :
        (r.reach t m).length = (s.reach t m).length := (hr.length m hm).trans (hs.length m hm).symm
    refine ⟨fun m hm => (Mask.length_union (hlen m hm)).trans (hr.length m hm), fun m hm j => ?_⟩
    rw [reach, Mask.has_union (hlen m hm), hr.has m hm, hs.has m hm]
    constructor
    · rintro (⟨i, hi, hleft⟩ | ⟨i, hi, hright⟩)
      · exact ⟨i, hi, .altLeft hleft⟩
      · exact ⟨i, hi, .altRight hright⟩
    · rintro ⟨i, hi, hspans⟩
      cases hspans with
      | altLeft hleft => exact Or.inl ⟨i, hi, hleft⟩
      | altRight hright => exact Or.inr ⟨i, hi, hright⟩
  | rep r least most ih => exact realizes_rep (ih h.1) h.2

/-- A match lies within the text that it begins in. -/
theorem Spans.le_length {i j : Nat} (h : Spans t r i j) (hi : i ≤ t.length) : j ≤ t.length := by
  induction h with
  | empty | look | repDone => exact hi
  | one hc =>
    obtain ⟨hlt, -⟩ := List.getElem?_eq_some_iff.1 hc
    omega
  | seq _ _ ihr ihs => exact ihs (ihr hi)
  | altLeft _ ih | altRight _ ih => exact ih hi
  | repMore _ _ _ ihr ihs => exact ihs (ihr hi)

end Matches

/-- The search finds a match exactly if there is one. -/
theorem search_iff {r : Regex} (h : r.Ordered) (text : String) :
    r.search text = true ↔ ∃ i j, i ≤ text.toList.length ∧ Spans text.toList r i j := by
  have hr := realizes_reach (t := text.toList) h
  have hall : (Mask.all text.toList).length = text.toList.length + 1 := List.length_replicate
  rw [search, Mask.any_iff]
  constructor
  · rintro ⟨j, hj⟩
    obtain ⟨i, hi, hspans⟩ := (hr.has _ hall j).1 hj
    exact ⟨i, j, Mask.has_all.1 hi, hspans⟩
  · rintro ⟨i, j, hi, hspans⟩
    exact ⟨j, (hr.has _ hall j).2 ⟨i, Mask.has_all.2 hi, hspans⟩⟩

end Regex

end GroupConsumer
