import GroupConsumer.Pattern.Reader

/-!
# Readers and what is put behind their text

What a pattern is read as does not change when the end of the wrapping is put behind it. Most parts of the
reader are local: where such a part finds what it looks for in the pattern by itself, it finds the same
with the end of the wrapping behind it and leaves the rest of the pattern with that end (`Local.keeps`),
and where it finds it only then, it has taken it from the end of the wrapping (`Local.breaks`). There is
one exception. A pattern that ends in a comment takes in what is behind it, and then nothing is left
(`Behind.gone`). Which of the two happens is up to the pattern alone.
-/

namespace GroupConsumer

namespace Regex

/-- What is put behind a pattern: a closing bracket, with or without the anchor that follows it. -/
inductive Closing : List Char → Prop
  | bracket : Closing [')']
  | anchored : Closing [')', '$']

/-- What is left of a text with another one behind it: all that is left of it by itself, in front of the
other one, or nothing, when a comment at the end has taken in the other one. -/
inductive Behind : List Char → (List Char → List Char) → Prop
  | goes (cs : List Char) : Behind cs (cs ++ ·)
  | gone : Behind [] fun _ => []

variable {α β : Type} {cs rest t : List Char} {k : List Char → List Char} {f : Flags}

theorem Closing.eq_cons (h : Closing t) : ∃ u, t = ')' :: u := by
  cases h with
  | bracket => exact ⟨[], rfl⟩
  | anchored => exact ⟨['$'], rfl⟩

theorem Closing.length_le (h : Closing t) : t.length ≤ 2 := by
  cases h <;> decide

theorem Closing.not_mem {c : Char} (h : Closing t) (hb : c ≠ ')') (ha : c ≠ '$') : c ∉ t := by
  cases h <;> simp [hb, ha]

theorem Behind.length_le (h : Behind cs k) (t : List Char) : (k t).length ≤ cs.length + t.length := by
  cases h with
  | goes => simp
  | gone => exact Nat.zero_le _

/-- What goes on with a character does so with something behind it. -/
theorem Behind.of_cons {c : Char} (h : Behind (c :: cs) k) : ∀ t, k t = c :: (cs ++ t) := by
  cases h with
  | goes => exact fun t => rfl

/-- A text that is at its end goes on with what is behind it, or not at all. -/
theorem Behind.of_nil (h : Behind [] k) : (∀ t, k t = t) ∨ ∀ t, k t = [] := by
  cases h with
  | goes => exact Or.inl fun t => rfl
  | gone => exact Or.inr fun t => rfl

/-- Leaving something out at the head of a text is not disturbed by what is behind it. -/
structure Along (p : List Char → List Char) : Prop where
  isSuffix : ∀ cs, p cs <:+ cs
  keeps : ∀ {cs k}, Behind cs k → ∃ k', Behind (p cs) k' ∧ ∀ t, Closing t → p (k t) = k' t

/-- The reader `g` finds in a text by itself what it finds with the end of the wrapping behind it, unless
it takes it from there. What it leaves then is less than that end, or with a `slack` of one no more. -/
structure Local (slack : Nat) (g : List Char → Option (α × List Char)) : Prop where
  isSuffix : ∀ {cs a rest}, g cs = some (a, rest) → rest <:+ cs
  keeps : ∀ {cs k a rest}, Behind cs k → g cs = some (a, rest) →
    ∃ k', Behind rest k' ∧ ∀ t, Closing t → g (k t) = some (a, k' t)
  breaks : ∀ {cs k t a rest}, Behind cs k → g cs = none → Closing t → g (k t) = some (a, rest) →
    rest.length < t.length + slack

theorem Along.length_le {p : List Char → List Char} (hp : Along p) (cs : List Char) :
    (p cs).length ≤ cs.length := (hp.isSuffix cs).length_le

theorem Local.length_le {slack : Nat} {g : List Char → Option (α × List Char)} {a : α}
    (hg : Local slack g) (h : g cs = some (a, rest)) : rest.length ≤ cs.length := (hg.isSuffix h).length_le

/-- The reader takes at least one character. -/
def Takes (g : List Char → Option (α × List Char)) : Prop :=
  ∀ {cs a rest}, g cs = some (a, rest) → rest.length < cs.length

namespace Local

variable {slack : Nat} {g : List Char → Option (α × List Char)} {p : List Char → List Char}

theorem congr {g' : List Char → Option (α × List Char)} (h : Local slack g) (he : ∀ cs, g' cs = g cs) :
    Local slack g' := (funext he : g' = g) ▸ h

theorem loosen (h : Local 0 g) : Local slack g :=
  ⟨h.isSuffix, h.keeps, fun hk hn ht hs => Nat.lt_add_right slack (h.breaks hk hn ht hs)⟩

theorem none : Local slack fun _ => (none : Option (α × List Char)) where
  isSuffix h := by cases h
  keeps _ h := by cases h
  breaks _ _ _ h := by cases h

theorem done (a : α) : Local slack fun cs => some (a, cs) where
  isSuffix h := by cases h; exact List.suffix_refl _
  keeps hk h := by cases h; exact ⟨_, hk, fun _ _ => rfl⟩
  breaks _ h := by cases h

theorem bind {h : α → List Char → Option (β × List Char)} (hg : Local slack g)
    (hh : ∀ a, Local slack (h a)) : Local slack fun cs => (g cs).bind fun x => h x.1 x.2 where
  isSuffix hs := by
    obtain ⟨⟨a, mid⟩, ha, hb⟩ := Option.bind_eq_some_iff.1 hs
    exact ((hh a).isSuffix hb).trans (hg.isSuffix ha)
  keeps hk hs := by
    obtain ⟨⟨a, mid⟩, ha, hb⟩ := Option.bind_eq_some_iff.1 hs
    obtain ⟨k', hk', hg'⟩ := hg.keeps hk ha
    obtain ⟨k'', hk'', hh'⟩ := (hh a).keeps hk' hb
    refine ⟨k'', hk'', fun t ht => ?_⟩
    rw [hg' t ht, Option.bind_some]
    exact hh' t ht
  breaks {cs k t b rest} hk hn ht hs := by
    obtain ⟨⟨a, mid⟩, ha, hb⟩ := Option.bind_eq_some_iff.1 hs
    cases hown : g cs with
    | none =>
      exact Nat.lt_of_le_of_lt ((hh a).length_le hb) (hg.breaks hk hown ht ha)
    | some x =>
      obtain ⟨c, left⟩ := x
      obtain ⟨k', hk', hg'⟩ := hg.keeps hk hown
      obtain ⟨rfl, rfl⟩ := Prod.mk.inj (Option.some.inj ((hg' t ht).symm.trans ha))
      rw [hown, Option.bind_some] at hn
      exact (hh c).breaks hk' hn ht hb

/-- What comes first may leave the end of the wrapping as it is if what comes next takes something. -/
theorem bind_takes {h : α → List Char → Option (β × List Char)} (hg : Local 1 g)
    (hh : ∀ a, Local 0 (h a)) (htakes : ∀ a, Takes (h a)) :
    Local 0 fun cs => (g cs).bind fun x => h x.1 x.2 where
  isSuffix := (bind hg fun a => (hh a).loosen).isSuffix
  keeps := (bind hg fun a => (hh a).loosen).keeps
  breaks {cs k t b rest} hk hn ht hs := by
    obtain ⟨⟨a, mid⟩, ha, hb⟩ := Option.bind_eq_some_iff.1 hs
    cases hown : g cs with
    | none => exact Nat.lt_of_lt_of_le (htakes a hb) (Nat.le_of_lt_succ (hg.breaks hk hown ht ha))
    | some x =>
      obtain ⟨c, left⟩ := x
      obtain ⟨k', hk', hg'⟩ := hg.keeps hk hown
      obtain ⟨rfl, rfl⟩ := Prod.mk.inj (Option.some.inj ((hg' t ht).symm.trans ha))
      rw [hown, Option.bind_some] at hn
      exact (hh c).breaks hk' hn ht hb

/-- A value that has nothing to do with the text is looked up first. -/
theorem given {o : Option β} {h : β → List Char → Option (α × List Char)}
    (hh : ∀ b, Local slack (h b)) : Local slack fun cs => o.bind fun b => h b cs := by
  cases o with
  | none => exact none
  | some b => exact hh b

theorem after (hg : Local slack g) (hp : Along p) : Local slack fun cs => g (p cs) where
  isSuffix h := (hg.isSuffix h).trans (hp.isSuffix _)
  keeps hk h := by
    obtain ⟨k', hk', hp'⟩ := hp.keeps hk
    obtain ⟨k'', hk'', hg'⟩ := hg.keeps hk' h
    exact ⟨k'', hk'', fun t ht => (congrArg g (hp' t ht)).trans (hg' t ht)⟩
  breaks {cs k t a rest} hk hn ht hs := by
    obtain ⟨k', hk', hp'⟩ := hp.keeps hk
    rw [hp' t ht] at hs
    exact hg.breaks hk' hn ht hs

theorem takes_of_cons (hnil : g [] = Option.none) (h : ∀ c, Local slack fun cs => g (c :: cs)) :
    Takes g := by
  intro cs a rest hs
  cases cs with
  | nil =>
    rw [hnil] at hs
    cases hs
  | cons c cs => exact Nat.lt_succ_of_le ((h c).length_le hs)

/-- A reader that needs a character to begin with. -/
theorem cons (hnil : g [] = Option.none) (h : ∀ c, Local slack fun cs => g (c :: cs)) :
    Local slack g where
  isSuffix {cs a rest} hs := by
    cases cs with
    | nil =>
      rw [hnil] at hs
      cases hs
    | cons c cs => exact ((h c).isSuffix hs).trans (List.suffix_cons c cs)
  keeps {cs k a rest} hk hs := by
    cases cs with
    | nil =>
      rw [hnil] at hs
      cases hs
    | cons c cs =>
      obtain ⟨k', hk', hg⟩ := (h c).keeps (.goes cs) hs
      exact ⟨k', hk', fun t ht => hk.of_cons t ▸ hg t ht⟩
  breaks {cs k t a rest} hk hn ht hs := by
    cases cs with
    | nil =>
      obtain hk | hk := hk.of_nil
      · rw [hk] at hs
        exact Nat.lt_add_right slack (takes_of_cons hnil h hs)
      · rw [hk, hnil] at hs
        cases hs
    | cons c cs =>
      rw [hk.of_cons t] at hs
      exact (h c).breaks (.goes cs) hn ht hs

/-- A reader that makes something of a character of a certain kind if one comes next, and goes another way
at any other one and at the end of the text. -/
theorem either {q : Char → Prop} (hq : ¬ q ')') {x : Char → List Char → Option (α × List Char)}
    {y : List Char → Option (α × List Char)} (hx : ∀ c, q c → Local slack (x c)) (hy : Local slack y)
    (hcons : ∀ c cs, q c → g (c :: cs) = x c cs)
    (helse : ∀ cs, (∀ c, cs.head? = some c → ¬ q c) → g cs = y cs) : Local slack g := by
  have hend {k : List Char → List Char} {t : List Char} (ht : Closing t) (hk : Behind [] k) :
      g (k t) = y (k t) := by
    refine helse _ fun c hc => ?_
    obtain ⟨u, rfl⟩ := ht.eq_cons
    obtain hk | hk := hk.of_nil
    · rw [hk] at hc
      exact Option.some.inj hc ▸ hq
    · rw [hk] at hc
      cases hc
  have hother {c : Char} (hc : ¬ q c) (cs : List Char) : g (c :: cs) = y (c :: cs) :=
    helse _ fun d hd => Option.some.inj hd ▸ hc
  have hnil : g [] = y [] := helse [] fun c hc => by cases hc
  refine ⟨fun {cs a rest} h => ?_, fun {cs k a rest} hk h => ?_, fun {cs k t a rest} hk hn ht hs => ?_⟩
  · cases cs with
    | nil => exact hy.isSuffix (hnil ▸ h)
    | cons c cs =>
      by_cases hc : q c
      · exact ((hx c hc).isSuffix ((hcons c cs hc).symm.trans h)).trans (List.suffix_cons c cs)
      · exact hy.isSuffix ((hother hc cs).symm.trans h)
  · cases cs with
    | nil =>
      obtain ⟨k', hk', hy'⟩ := hy.keeps hk (hnil ▸ h)
      exact ⟨k', hk', fun t ht => (hend ht hk).trans (hy' t ht)⟩
    | cons c cs =>
      by_cases hc : q c
      · obtain ⟨k', hk', hx'⟩ := (hx c hc).keeps (.goes cs) ((hcons c cs hc).symm.trans h)
        exact ⟨k', hk', fun t ht => hk.of_cons t ▸ (hcons c _ hc).trans (hx' t ht)⟩
      · obtain ⟨k', hk', hy'⟩ := hy.keeps hk ((hother hc cs).symm.trans h)
        refine ⟨k', hk', fun t ht => ?_⟩
        rw [← hy' t ht, hk.of_cons t, hother hc]
  · cases cs with
    | nil => exact hy.breaks hk (hnil ▸ hn) ht ((hend ht hk).symm.trans hs)
    | cons c cs =>
      by_cases hc : q c
      · rw [hk.of_cons t, hcons c _ hc] at hs
        exact (hx c hc).breaks (.goes cs) ((hcons c cs hc).symm.trans hn) ht hs
      · rw [hk.of_cons t, hother hc, ← hk.of_cons t] at hs
        exact hy.breaks hk ((hother hc cs).symm.trans hn) ht hs

/-- A reader that makes something of one character if it comes next. -/
theorem ifNext (d : Char) (hd : d ≠ ')') {x y : List Char → Option (α × List Char)}
    (hx : Local slack x) (hy : Local slack y) (hcons : ∀ cs, g (d :: cs) = x cs)
    (helse : ∀ cs, cs.head? ≠ some d → g cs = y cs) : Local slack g :=
  either (q := (· = d)) hd.symm (fun _ _ => hx) hy (fun _ cs hc => hc ▸ hcons cs)
    fun cs hcs => helse cs fun hd => hcs d hd rfl

/-- A character that is put back. -/
theorem under (hg : Local slack g) (ht : Takes g) (c : Char) : Local slack fun cs => g (c :: cs) where
  isSuffix {cs a rest} h := by
    obtain rfl | hsuffix := List.suffix_cons_iff.1 (hg.isSuffix h)
    · exact absurd (ht h) (Nat.lt_irrefl _)
    · exact hsuffix
  keeps {cs k a rest} hk h := by
    cases hk with
    | goes => exact hg.keeps (.goes (c :: cs)) h
    | gone =>
      obtain rfl := List.eq_nil_of_length_eq_zero (Nat.lt_one_iff.1 (ht h))
      exact ⟨_, .gone, fun _ _ => h⟩
  breaks {cs k t a rest} hk hn hc hs := by
    cases hk with
    | goes => exact hg.breaks (.goes (c :: cs)) hn hc hs
    | gone =>
      rw [hn] at hs
      cases hs

/-- A text that is not at its end is left as it is. -/
theorem more (a : α) : Local 1 fun cs => if cs.isEmpty then Option.none else some (a, cs) where
  isSuffix {cs b rest} h := by
    split at h
    · cases h
    · cases h
      exact List.suffix_refl _
  keeps {cs k b rest} hk h := by
    cases cs with
    | nil => cases h
    | cons c cs =>
      cases h
      refine ⟨k, hk, fun t ht => ?_⟩
      rw [hk.of_cons t]
      rfl
  breaks {cs k t b rest} hk hn ht hs := by
    cases cs with
    | nil =>
      obtain hk | hk := hk.of_nil
      · rw [hk] at hs
        split at hs
        · cases hs
        · cases hs
          exact Nat.lt_succ_self _
      · rw [hk] at hs
        cases hs
    | cons c cs => cases hn

/-- A reader that has a bound on its rounds does not feel it if the bound is above the length of the
text. -/
theorem fuelled {g : Nat → List Char → Option (α × List Char)} (hg : ∀ n, Local slack (g n))
    (hn : ∀ {n m cs}, cs.length ≤ n → cs.length ≤ m → g n cs = g m cs) (hp : Along p) {fuel : Nat → Nat}
    (hfuel : ∀ n, n ≤ fuel n) : Local slack fun cs => g (fuel cs.length) (p cs) := by
  have hsame {cs : List Char} {n : Nat} (h : cs.length ≤ n) :
      g (fuel cs.length) (p cs) = g n (p cs) :=
    hn (Nat.le_trans (hp.length_le cs) (hfuel _)) (Nat.le_trans (hp.length_le cs) h)
  have hwith {cs : List Char} {k : List Char → List Char} {t : List Char} (hk : Behind cs k)
      (ht : Closing t) : g (fuel (k t).length) (p (k t)) = g (cs.length + 2) (p (k t)) :=
    hsame (Nat.le_trans (hk.length_le t) (Nat.add_le_add_left ht.length_le _))
  refine ⟨fun h => ?_, fun {cs k a rest} hk h => ?_, fun {cs k t a rest} hk h ht hs => ?_⟩
  · exact ((hg _).after hp).isSuffix h
  · rw [hsame (Nat.le_add_right _ 2)] at h
    obtain ⟨k', hk', hg'⟩ := ((hg _).after hp).keeps hk h
    exact ⟨k', hk', fun t ht => (hwith hk ht).trans (hg' t ht)⟩
  · rw [hsame (Nat.le_add_right _ 2)] at h
    rw [hwith hk ht] at hs
    exact ((hg _).after hp).breaks hk h ht hs

end Local

/-- The reader finds with the end of the wrapping behind a text what it finds in the text by itself, and
nothing else. -/
structure Sure (g : List Char → Option (α × List Char)) : Prop where
  isSuffix : ∀ {cs a rest}, g cs = some (a, rest) → rest <:+ cs
  append : ∀ cs t, Closing t → g (cs ++ t) = (g cs).map fun x => (x.1, x.2 ++ t)

namespace Sure

variable {g : List Char → Option (α × List Char)} {slack : Nat}

theorem none_behind (hg : Sure g) (hk : Behind cs k) (hn : g cs = none) (ht : Closing t) :
    g (k t) = none := by
  cases hk with
  | goes => exact (hg.append cs t ht).trans (by rw [hn]; rfl)
  | gone => exact hn

theorem isLocal (hg : Sure g) : Local slack g where
  isSuffix := hg.isSuffix
  keeps {cs k a rest} hk h := by
    cases hk with
    | goes => exact ⟨_, .goes rest, fun t ht => (hg.append cs t ht).trans (by rw [h]; rfl)⟩
    | gone =>
      obtain rfl := List.eq_nil_of_length_eq_zero (Nat.le_zero.1 (hg.isSuffix h).length_le)
      exact ⟨_, .gone, fun t ht => h⟩
  breaks hk hn ht hs := by
    rw [hg.none_behind hk hn ht] at hs
    cases hs

/-- Where a first reader finds nothing another one reads in its place. -/
theorem orElse (hg : Sure g) {x : α → List Char → Option (β × List Char)}
    {y : List Char → Option (β × List Char)} (hx : ∀ a, Local slack (x a)) (hy : Local slack y) :
    Local slack fun cs => (g cs).elim (y cs) fun z => x z.1 z.2 where
  isSuffix {cs b rest} h := by
    cases hown : g cs with
    | none => exact hy.isSuffix (by rwa [hown] at h)
    | some z =>
      obtain ⟨a, left⟩ := z
      rw [hown] at h
      exact ((hx a).isSuffix h).trans (hg.isSuffix hown)
  keeps {cs k b rest} hk h := by
    have hlocal : Local 0 g := hg.isLocal
    cases hown : g cs with
    | none =>
      rw [hown] at h
      obtain ⟨k', hk', hy'⟩ := hy.keeps hk h
      exact ⟨k', hk', fun t ht => by rw [hg.none_behind hk hown ht]; exact hy' t ht⟩
    | some z =>
      obtain ⟨a, left⟩ := z
      rw [hown] at h
      obtain ⟨k', hk', hg'⟩ := hlocal.keeps hk hown
      obtain ⟨k'', hk'', hx'⟩ := (hx a).keeps hk' h
      exact ⟨k'', hk'', fun t ht => by rw [hg' t ht]; exact hx' t ht⟩
  breaks {cs k t b rest} hk hn ht hs := by
    have hlocal : Local 0 g := hg.isLocal
    cases hown : g cs with
    | none =>
      rw [hown] at hn
      rw [hg.none_behind hk hown ht] at hs
      exact hy.breaks hk hn ht hs
    | some z =>
      obtain ⟨a, left⟩ := z
      rw [hown] at hn
      obtain ⟨k', hk', hg'⟩ := hlocal.keeps hk hown
      rw [hg' t ht] at hs
      exact (hx a).breaks hk' hn ht hs

end Sure

/-! ### What comes before a character -/

theorem takeWhile_append_of_dropWhile {p : Char → Bool} {c : Char} (h : cs.dropWhile p = c :: rest)
    (t : List Char) : (cs ++ t).takeWhile p = cs.takeWhile p := by
  have hlen := congrArg List.length (List.takeWhile_append_dropWhile (p := p) (l := cs))
  rw [h, List.length_append, List.length_cons] at hlen
  rw [List.takeWhile_append, if_neg (by omega)]

theorem dropWhile_append_of_cons {p : Char → Bool} {c : Char} (h : cs.dropWhile p = c :: rest)
    (t : List Char) : (cs ++ t).dropWhile p = c :: (rest ++ t) := by
  rw [List.dropWhile_append, h]
  rfl

/-- A character that the end of the wrapping does not have comes nowhere if it does not come in the text. -/
theorem dropWhile_append_of_nil {d : Char} (h : cs.dropWhile (· != d) = []) (ht : Closing t)
    (hb : d ≠ ')') (ha : d ≠ '$') : (cs ++ t).dropWhile (· != d) = [] := by
  rw [List.dropWhile_append, h]
  cases ht <;> simp [hb.symm, ha.symm]

theorem along_id : Along id := ⟨List.suffix_refl, fun hk => ⟨_, hk, fun _ _ => rfl⟩⟩

theorem Along.comp {p q : List Char → List Char} (hq : Along q) (hp : Along p) :
    Along fun cs => q (p cs) := by
  refine ⟨fun cs => (hq.isSuffix _).trans (hp.isSuffix _), fun hk => ?_⟩
  obtain ⟨k', hk', hp'⟩ := hp.keeps hk
  obtain ⟨k'', hk'', hq'⟩ := hq.keeps hk'
  exact ⟨k'', hk'', fun t ht => (congrArg q (hp' t ht)).trans (hq' t ht)⟩

theorem Along.done {p : List Char → List Char} {slack : Nat} (hp : Along p) (a : α) :
    Local slack fun cs => some (a, p cs) :=
  Local.after (Local.done a) hp

/-! ### White space and comments -/

theorem skipLine_of_not_mem (h : '\n' ∉ cs) : skipLine cs = [] := by
  induction cs with
  | nil => rfl
  | cons c cs ih =>
    obtain ⟨hc, hcs⟩ := List.ne_and_not_mem_of_not_mem_cons h
    rw [skipLine, if_neg (Ne.symm hc), ih hcs]

theorem skipVerbose_closing (ht : Closing t) : skipVerbose t = t := by
  obtain ⟨u, rfl⟩ := ht.eq_cons
  rw [skipVerbose, if_neg (by decide), if_neg (by decide)]

theorem skip_nil (f : Flags) : skip f [] = [] := by
  rw [skip, skipVerbose, ite_self]

theorem skip_of_ne {c : Char} (hb : Text.isBlank c = false) (hc : c ≠ '#') :
    skip f (c :: cs) = c :: cs := by
  rw [skip, skipVerbose, hb, if_neg Bool.false_ne_true, if_neg hc, ite_self]

theorem skip_closing (ht : Closing t) : skip f t = t := by
  rw [skip, skipVerbose_closing ht, ite_self]

/-- A line goes on behind the text, or has ended in it. -/
theorem skipLine_append (cs : List Char) :
    (∀ t, skipLine (cs ++ t) = skipLine cs ++ t) ∨
      (skipLine cs = [] ∧ ∀ t, Closing t → skipLine (cs ++ t) = []) := by
  induction cs with
  | nil => exact Or.inr ⟨rfl, fun t ht => skipLine_of_not_mem (ht.not_mem (by decide) (by decide))⟩
  | cons c cs ih =>
    by_cases hc : c = '\n'
    · left
      intro t
      simp [skipLine, hc]
    · simpa [skipLine, hc] using ih

theorem skipLine_isSuffix (cs : List Char) : skipLine cs <:+ cs := by
  induction cs with
  | nil => exact List.suffix_refl _
  | cons c cs ih =>
    unfold skipLine
    split
    · exact List.suffix_cons c cs
    · exact ih.trans (List.suffix_cons c cs)

theorem skipVerbose_isSuffix (cs : List Char) : skipVerbose cs <:+ cs := by
  fun_induction skipVerbose cs with
  | case1 => exact List.suffix_refl _
  | case2 c cs _ ih => exact ih.trans (List.suffix_cons c cs)
  | case3 cs _ ih => exact (ih.trans (skipLine_isSuffix cs)).trans (List.suffix_cons _ cs)
  | case4 => exact List.suffix_refl _

theorem skipVerbose_append (cs : List Char) :
    ∃ k, Behind (skipVerbose cs) k ∧ ∀ t, Closing t → skipVerbose (cs ++ t) = k t := by
  fun_induction skipVerbose cs with
  | case1 => exact ⟨_, .goes [], fun t ht => skipVerbose_closing ht⟩
  | case2 c cs hc ih =>
    obtain ⟨k, hk, hskip⟩ := ih
    refine ⟨k, hk, fun t ht => ?_⟩
    rw [List.cons_append, skipVerbose, if_pos hc, hskip t ht]
  | case3 cs hc ih =>
    obtain ⟨k, hk, hskip⟩ := ih
    have hopen (t : List Char) : skipVerbose ('#' :: cs ++ t) = skipVerbose (skipLine (cs ++ t)) := by
      rw [List.cons_append, skipVerbose, if_neg hc, if_pos rfl]
    obtain hline | ⟨hnil, hline⟩ := skipLine_append cs
    · exact ⟨k, hk, fun t ht => by rw [hopen, hline, hskip t ht]⟩
    · have hend : skipVerbose [] = [] := by rw [skipVerbose]
      rw [hnil, hend]
      exact ⟨_, .gone, fun t ht => by rw [hopen, hline t ht, hend]⟩
  | case4 c cs hc hd =>
    refine ⟨_, .goes (c :: cs), fun t _ => ?_⟩
    rw [List.cons_append, skipVerbose, if_neg hc, if_neg hd]

theorem along_skip (f : Flags) : Along (skip f) := by
  cases hf : f.verbose with
  | false =>
    have heq : skip f = id := funext fun cs => by rw [skip, hf]; rfl
    exact heq ▸ along_id
  | true =>
    have heq : skip f = skipVerbose := funext fun cs => by rw [skip, hf]; rfl
    rw [heq]
    refine ⟨skipVerbose_isSuffix, fun {cs k} hk => ?_⟩
    cases hk with
    | goes => exact skipVerbose_append cs
    | gone =>
      have hend : skipVerbose [] = [] := by rw [skipVerbose]
      rw [hend]
      exact ⟨_, .gone, fun _ _ => hend⟩

end Regex

end GroupConsumer
