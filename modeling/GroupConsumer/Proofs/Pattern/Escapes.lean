import GroupConsumer.Proofs.Pattern.Behind

/-!
# Escapes with something behind them

Escapes are read locally (`local_readEscape`). The one for a word boundary is the exception, since it looks
at a brace that comes next and may leave it there (`readBoundary_keeps`, `readBoundary_breaks`).
-/

namespace GroupConsumer

namespace Regex

variable {α : Type} {cs rest t : List Char} {k : List Char → List Char} {f : Flags} {n m : Nat}
  {slack : Nat}

/-! ### Escapes -/

theorem local_readHexDigits (n acc : Nat) : Local 0 (readHexDigits f n acc) := by
  induction n generalizing acc with
  | zero => exact Local.done acc
  | succ n ih =>
    refine Local.cons rfl fun c => ?_
    exact Local.given fun d => (ih (16 * acc + d)).after (along_skip f)

theorem local_readHexBraced (n : Nat) (acc : Option Nat) : Local 0 (readHexBraced f n acc) := by
  induction n generalizing acc with
  | zero => exact Local.none
  | succ n ih =>
    refine Local.cons rfl fun c => ?_
    by_cases hc : c = '\x7d'
    · have hdone (n : Nat) : Local 0 fun cs => some (n, skip f cs) := (along_skip f).done n
      refine (Local.given (o := acc) hdone).congr fun cs => ?_
      rw [readHexBraced, if_pos hc, Option.map_eq_bind]
      rfl
    · have hdigit (d : Nat) :
          Local 0 fun cs => readHexBraced f n (some (16 * acc.getD 0 + d)) (skip f cs) :=
        (ih _).after (along_skip f)
      refine (Local.given (o := Text.hexValue? c) hdigit).congr fun cs => ?_
      rw [readHexBraced, if_neg hc]
      rfl

theorem readHexBraced_eq {acc : Option Nat} (hn : cs.length < n) (hm : cs.length < m) :
    readHexBraced f n acc cs = readHexBraced f m acc cs := by
  induction n generalizing m acc cs with
  | zero => cases hn
  | succ n ih =>
    cases m with
    | zero => cases hm
    | succ m =>
      cases cs with
      | nil => rfl
      | cons c cs =>
        have hle := (along_skip f).length_le cs
        rw [List.length_cons] at hn hm
        have hrest (acc : Option Nat) :
            readHexBraced f n acc (skip f cs) = readHexBraced f m acc (skip f cs) :=
          ih (by omega) (by omega)
        simp only [readHexBraced, hrest]

/-- A character given by its code point, with nothing left to leave out in front of it. -/
def readCode (f : Flags) (digits : Nat) : List Char → Option (Atom × List Char)
  | [] => none
  | c :: rest => do
    let (n, rest) ←
      if c = '\x7b' then readHexBraced f (rest.length + 1) none (skip f rest)
      else readHexDigits f digits 0 (c :: rest)
    let c ← charOf? n
    return (.char c, rest)

theorem local_readHex (n : Nat) : Local 0 (readHex f (n + 1)) := by
  have hchar (n : Nat) : Local 0 fun cs => (charOf? n).bind fun c => some (Atom.char c, cs) :=
    Local.given fun c => Local.done (Atom.char c)
  have hbraced : Local 0 fun cs => readHexBraced f (cs.length + 1) none (skip f cs) :=
    Local.fuelled (fun n => local_readHexBraced (n + 1) none)
      (fun hn hm => readHexBraced_eq (Nat.lt_succ_of_le hn) (Nat.lt_succ_of_le hm)) (along_skip f)
      Nat.le_refl
  have hdigits (c : Char) : Local 0 fun cs => readHexDigits f (n + 1) 0 (c :: cs) :=
    Local.given fun d => (local_readHexDigits n (16 * 0 + d)).after (along_skip f)
  have hcode : Local 0 (readCode f (n + 1)) := by
    refine Local.cons rfl fun c => ?_
    by_cases hc : c = '\x7b'
    · exact (hbraced.bind hchar).congr fun cs => by rw [readCode, if_pos hc]; rfl
    · exact ((hdigits c).bind hchar).congr fun cs => by rw [readCode, if_neg hc]; rfl
  exact (hcode.after (along_skip f)).congr fun cs => rfl

/-- An escape that is no number and no word boundary is up to its letter alone. -/
theorem readEscape_cons {c : Char} (hx : c ≠ 'x') (hu : c ≠ 'u') (hl : c ≠ 'U') (hb : c ≠ 'b')
    (cs : List Char) :
    readEscape f (c :: cs) = ((readEscape f [c]).map (·.1)).map (·, cs) := by
  unfold readEscape
  dsimp only
  split
  case h_1 => exact absurd rfl hx
  case h_2 => exact absurd rfl hu
  case h_3 => exact absurd rfl hl
  case h_18 => exact absurd rfl hb
  case h_22 => split <;> rfl
  all_goals simp [Option.map_map, Function.comp_def]

theorem local_readEscape {c : Char} (hb : c ≠ 'b') : Local 0 fun cs => readEscape f (c :: cs) := by
  by_cases hx : c = 'x'
  · exact hx ▸ local_readHex 1
  by_cases hu : c = 'u'
  · exact hu ▸ local_readHex 3
  by_cases hl : c = 'U'
  · exact hl ▸ local_readHex 7
  have hdone (a : Atom) : Local 0 fun cs => some (a, cs) := Local.done a
  refine (Local.given (o := (readEscape f [c]).map (·.1)) hdone).congr fun cs => ?_
  exact (readEscape_cons hx hu hl hb cs).trans Option.map_eq_bind

/-! ### Word boundaries -/

/-- The word boundary with a name. -/
def boundaryOf? (f : Flags) (name : List Char) : Option Look :=
  match String.ofList name with
  | "start" => some (.wordStart f.unicode)
  | "end" => some (.wordEnd f.unicode)
  | "start-half" => some (.wordStartHalf f.unicode)
  | "end-half" => some (.wordEndHalf f.unicode)
  | _ => none

/-- A word boundary by its name, with the brace behind it. -/
def readSpecial (f : Flags) (cs : List Char) : Option (Look × List Char) :=
  match readWordName f cs.length cs with
  | (name, '\x7d' :: rest) => (boundaryOf? f name).map (·, rest)
  | _ => none

theorem local_readWordName (n : Nat) : Local 0 fun cs => some (readWordName f n cs) := by
  induction n with
  | zero => exact Local.done []
  | succ n ih =>
    have hmore (c : Char) : Local 0 fun cs =>
        (some (readWordName f n (skip f cs))).bind fun x => some (c :: x.1, x.2) :=
      (ih.after (along_skip f)).bind fun name => Local.done (c :: name)
    refine Local.either (q := fun c => (c.isAlpha || c = '-') = true) (by decide) (fun c _ => hmore c)
      (Local.done []) (fun c cs hc => ?_) fun cs hcs => ?_
    · rw [readWordName, if_pos hc]
      rfl
    · cases cs with
      | nil => rfl
      | cons c cs => rw [readWordName, if_neg (hcs c rfl)]

theorem readWordName_eq (hn : cs.length ≤ n) (hm : cs.length ≤ m) :
    readWordName f n cs = readWordName f m cs := by
  induction n generalizing m cs with
  | zero =>
    obtain rfl := List.eq_nil_of_length_eq_zero (Nat.le_zero.1 hn)
    cases m <;> rfl
  | succ n ih =>
    cases m with
    | zero =>
      obtain rfl := List.eq_nil_of_length_eq_zero (Nat.le_zero.1 hm)
      rfl
    | succ m =>
      cases cs with
      | nil => rfl
      | cons c cs =>
        have hle := (along_skip f).length_le cs
        rw [List.length_cons] at hn hm
        have hrest : readWordName f n (skip f cs) = readWordName f m (skip f cs) :=
          ih (by omega) (by omega)
        simp only [readWordName, hrest]

theorem local_readSpecial : Local 0 (readSpecial f) := by
  have hname : Local 0 fun cs => some (readWordName f cs.length cs) :=
    Local.fuelled local_readWordName (fun hn hm => congrArg some (readWordName_eq hn hm)) along_id
      Nat.le_refl
  have hdone (l : Look) : Local 0 fun cs => some (l, cs) := Local.done l
  refine (hname.bind fun name => Local.ifNext '\x7d' (by decide)
    (g := fun cs => if cs.head? = some '\x7d' then (boundaryOf? f name).map (·, cs.tail) else none)
    (Local.given (o := boundaryOf? f name) hdone) Local.none (fun cs => ?_) fun cs hcs => ?_).congr
      fun cs => ?_
  · rw [if_pos (by rfl), Option.map_eq_bind]
    rfl
  · rw [if_neg hcs]
  · rw [readSpecial, Option.bind_some]
    split
    case h_1 name rest h => rw [h]; rfl
    case h_2 x h =>
      rw [if_neg]
      intro hhead
      obtain ⟨rest, hrest⟩ := List.head?_eq_some_iff.1 hhead
      exact h _ rest (Prod.ext rfl hrest)

theorem readBoundary_of_ne (h : cs.head? ≠ some '\x7b') :
    readBoundary f cs = some (.boundary f.unicode, cs) := by
  unfold readBoundary
  split
  · exact absurd rfl h
  · rfl

theorem readBoundary_of_nil (h : skip f cs = []) : readBoundary f ('\x7b' :: cs) = none := by
  simp only [readBoundary, h]

theorem readBoundary_of_cons {c : Char} (h : skip f cs = c :: rest) :
    readBoundary f ('\x7b' :: cs) =
      if c.isAlpha || c = '-' then readSpecial f (c :: rest)
      else some (.boundary f.unicode, '\x7b' :: cs) := by
  simp only [readBoundary, readSpecial, h, List.length_cons]
  generalize readWordName f (rest.length + 1) (c :: rest) = word
  split
  · split
    · unfold boundaryOf?
      split <;> simp_all
    · simp_all
  · rfl

theorem readBoundary_isSuffix {l : Look} (h : readBoundary f cs = some (l, rest)) : rest <:+ cs := by
  by_cases hb : cs.head? = some '\x7b'
  · obtain ⟨inner, rfl⟩ := List.head?_eq_some_iff.1 hb
    cases hs : skip f inner with
    | nil =>
      rw [readBoundary_of_nil hs] at h
      cases h
    | cons c left =>
      rw [readBoundary_of_cons hs] at h
      have hsuffix := (along_skip f).isSuffix inner
      rw [hs] at hsuffix
      split at h
      · exact ((local_readSpecial.isSuffix h).trans hsuffix).trans (List.suffix_cons _ inner)
      · cases h
        exact List.suffix_refl _
  · rw [readBoundary_of_ne hb] at h
    cases h
    exact List.suffix_refl _

theorem takes_readEscape : Takes (readEscape f) := by
  intro cs a rest h
  cases cs with
  | nil => cases h
  | cons c cs =>
    by_cases hc : c = 'b'
    · subst hc
      obtain ⟨x, hx, heq⟩ := Option.map_eq_some_iff.1 h
      obtain ⟨rfl, rfl⟩ := Prod.mk.inj heq
      exact Nat.lt_succ_of_le (readBoundary_isSuffix hx).length_le
    · exact Nat.lt_succ_of_le ((local_readEscape hc).length_le h)

/-- No brace comes next behind a text that does not go on with one. -/
theorem Behind.head?_ne (hk : Behind cs k) (ht : Closing t) (h : cs.head? ≠ some '\x7b') :
    (k t).head? ≠ some '\x7b' := by
  cases cs with
  | nil =>
    obtain ⟨u, rfl⟩ := ht.eq_cons
    obtain hk | hk := hk.of_nil <;> simp [hk]
  | cons c cs =>
    rw [hk.of_cons]
    exact h

theorem readBoundary_keeps {l : Look} (hk : Behind cs k) (h : readBoundary f cs = some (l, rest)) :
    ∃ k', Behind rest k' ∧ ∀ t, Closing t → readBoundary f (k t) = some (l, k' t) := by
  by_cases hb : cs.head? = some '\x7b'
  · obtain ⟨inner, rfl⟩ := List.head?_eq_some_iff.1 hb
    obtain ⟨k', hk', hskip⟩ := (along_skip f).keeps (.goes inner)
    cases hs : skip f inner with
    | nil =>
      rw [readBoundary_of_nil hs] at h
      cases h
    | cons c left =>
      rw [hs] at hk'
      have hwith {t : List Char} (ht : Closing t) :
          readBoundary f (k t) =
            if c.isAlpha || c = '-' then readSpecial f (c :: (left ++ t))
            else some (.boundary f.unicode, k t) := by
        rw [hk.of_cons, readBoundary_of_cons ((hskip t ht).trans (hk'.of_cons t))]
      rw [readBoundary_of_cons hs] at h
      split at h
      · rename_i hc
        obtain ⟨k'', hk'', hspecial⟩ := local_readSpecial.keeps (.goes (c :: left)) h
        exact ⟨k'', hk'', fun t ht => (hwith ht).trans ((if_pos hc).trans (hspecial t ht))⟩
      · rename_i hc
        cases h
        exact ⟨k, hk, fun t ht => (hwith ht).trans (if_neg hc)⟩
  · rw [readBoundary_of_ne hb] at h
    cases h
    exact ⟨k, hk, fun t ht => readBoundary_of_ne (hk.head?_ne ht hb)⟩

/-- A word boundary that is one only with the end of the wrapping behind it leaves that end behind a brace,
where it can be no repetition. -/
theorem readBoundary_breaks {l : Look} (hk : Behind cs k) (hn : readBoundary f cs = none)
    (ht : Closing t) (hs : readBoundary f (k t) = some (l, rest)) :
    rest.length < t.length ∨ ∃ inner, skip f inner = t ∧ rest = '\x7b' :: inner := by
  by_cases hb : cs.head? = some '\x7b'
  · obtain ⟨inner, rfl⟩ := List.head?_eq_some_iff.1 hb
    obtain ⟨k', hk', hskip⟩ := (along_skip f).keeps (.goes inner)
    rw [hk.of_cons t] at hs
    cases hown : skip f inner with
    | nil =>
      rw [hown] at hk'
      obtain hgoes | hgone := hk'.of_nil
      · have hskip := (hskip t ht).trans (hgoes t)
        obtain ⟨u, rfl⟩ := ht.eq_cons
        rw [readBoundary_of_cons hskip, if_neg (by decide)] at hs
        cases hs
        exact Or.inr ⟨_, hskip, rfl⟩
      · rw [readBoundary_of_nil ((hskip t ht).trans (hgone t))] at hs
        cases hs
    | cons c left =>
      rw [hown] at hk'
      rw [readBoundary_of_cons ((hskip t ht).trans (hk'.of_cons t))] at hs
      rw [readBoundary_of_cons hown] at hn
      split at hs
      · rename_i hc
        rw [if_pos hc] at hn
        exact Or.inl (local_readSpecial.breaks (.goes (c :: left)) hn ht hs)
      · rename_i hc
        rw [if_neg hc] at hn
        cases hn
  · rw [readBoundary_of_ne hb] at hn
    cases hn

end Regex

end GroupConsumer
