import GroupConsumer.Proofs.Pattern.Escapes

/-!
# Character classes with something behind them

Character classes are read locally (`local_readBracketed`): a class that is not closed in the pattern by
itself takes the end of the wrapping for its items. The escape for a word boundary stands for nothing in a
class (`local_readClassAtom_bind`).
-/

namespace GroupConsumer

namespace Regex

variable {α : Type} {cs rest t : List Char} {k : List Char → List Char} {f : Flags} {n m : Nat}
  {slack : Nat}

/-! ### Items -/

/-- What goes on behind a character or an escape of a class, if nothing goes on behind a word boundary. -/
theorem local_readClassAtom_bind {h : Atom → List Char → Option (α × List Char)}
    (hh : ∀ a, Local slack (h a)) (hlook : ∀ l cs, h (.look l) cs = none) :
    Local slack fun cs => (readClassAtom f cs).bind fun x => h x.1 x.2 := by
  refine Local.cons rfl fun c => ?_
  by_cases hc : c = '\x5c'
  · subst hc
    refine Local.cons rfl fun d => ?_
    by_cases hd : d = 'b'
    · refine Local.none.congr fun cs => ?_
      subst hd
      show ((readBoundary f cs).map fun r => (Atom.look r.1, r.2)).bind _ = none
      rw [Option.bind_map]
      exact Option.bind_eq_none_iff.2 fun x _ => hlook x.1 x.2
    · exact (local_readEscape hd).loosen.bind hh
  · refine ((Local.done (Atom.char c)).bind hh).congr fun cs => ?_
    have hatom : readClassAtom f (c :: cs) = some (.char c, cs) := by
      unfold readClassAtom
      split <;> simp_all
    rw [hatom]

/-- The characters that an item stands for by itself. -/
def Atom.alone : Atom → Option CharSet
  | .char c => some (.single c)
  | .set s => some s
  | .look _ => none

/-- The characters between two atoms. -/
def endRange (first last : Atom) (cs : List Char) : Option (CharSet × List Char) :=
  match first, last with
  | .char a, .char b => if a ≤ b then some (.range a b, cs) else none
  | _, _ => none

/-- The end of a range that begins with an atom. -/
def readLast (f : Flags) (first : Atom) (cs : List Char) : Option (CharSet × List Char) :=
  (readClassAtom f cs).bind fun x => endRange first x.1 x.2

/-- The item that begins with an atom; `cs` is what follows it. -/
def readRange (f : Flags) (first : Atom) (cs : List Char) : Option (CharSet × List Char) :=
  match cs with
  | [] => none
  | '-' :: behind =>
    match skip f behind with
    | ']' :: _ => first.alone.map (·, cs)
    | '-' :: _ => first.alone.map (·, cs)
    | [] => none
    | behind => readLast f first behind
  | _ => first.alone.map (·, cs)

theorem readClassItem_eq (cs : List Char) :
    readClassItem f cs = (readClassAtom f cs).bind fun x => readRange f x.1 (skip f x.2) := by
  unfold readClassItem
  show (readClassAtom f cs).bind _ = _
  congr 1
  funext x
  obtain ⟨first, rest⟩ := x
  dsimp only
  generalize skip f rest = left
  unfold readRange
  cases first <;> rfl

theorem local_endRange (first last : Atom) : Local slack (endRange first last) := by
  unfold endRange
  cases first with
  | char a =>
    cases last with
    | char b =>
      by_cases hle : a ≤ b
      · exact (Local.done (CharSet.range a b)).congr fun cs => if_pos hle
      · exact Local.none.congr fun cs => if_neg hle
    | _ => exact Local.none
  | _ => exact Local.none

theorem local_readLast (first : Atom) : Local 0 (readLast f first) :=
  local_readClassAtom_bind (local_endRange first) fun l cs => by cases first <;> rfl

section Ranges

variable {first : Atom} {c : Char}

theorem readRange_of_ne (h : c ≠ '-') :
    readRange f first (c :: cs) = first.alone.map (·, c :: cs) := by
  unfold readRange
  split <;> simp_all

theorem readRange_of_nil (h : skip f cs = []) : readRange f first ('-' :: cs) = none := by
  simp only [readRange, h]

theorem readRange_of_lone (h : skip f cs = c :: rest) (hc : c = ']' ∨ c = '-') :
    readRange f first ('-' :: cs) = first.alone.map (·, '-' :: cs) := by
  obtain rfl | rfl := hc <;> simp only [readRange, h]

theorem readRange_of_last (h : skip f cs = c :: rest) (hc : ¬ (c = ']' ∨ c = '-')) :
    readRange f first ('-' :: cs) = readLast f first (c :: rest) := by
  simp only [readRange, h]
  split <;> simp_all

theorem readRange_isSuffix {s : CharSet} (h : readRange f first cs = some (s, rest)) : rest <:+ cs := by
  have halone {cs : List Char} (h : first.alone.map (·, cs) = some (s, rest)) : rest <:+ cs := by
    obtain ⟨_, _, heq⟩ := Option.map_eq_some_iff.1 h
    obtain ⟨-, rfl⟩ := Prod.mk.inj heq
    exact List.suffix_refl _
  cases cs with
  | nil => cases h
  | cons d cs =>
    by_cases hd : d = '-'
    · subst hd
      cases hs : skip f cs with
      | nil =>
        rw [readRange_of_nil hs] at h
        cases h
      | cons c left =>
        by_cases hc : c = ']' ∨ c = '-'
        · exact halone ((readRange_of_lone hs hc).symm.trans h)
        · have hsuffix := (along_skip f).isSuffix cs
          rw [hs] at hsuffix
          rw [readRange_of_last hs hc] at h
          exact (((local_readLast first).isSuffix h).trans hsuffix).trans (List.suffix_cons _ cs)
    · exact halone ((readRange_of_ne hd).symm.trans h)

theorem readRange_keeps {s : CharSet} (hk : Behind cs k) (h : readRange f first cs = some (s, rest)) :
    ∃ k', Behind rest k' ∧ ∀ t, Closing t → readRange f first (k t) = some (s, k' t) := by
  have halone {cs : List Char} (h : first.alone.map (·, cs) = some (s, rest)) :
      first.alone = some s ∧ cs = rest := by
    obtain ⟨_, hs, heq⟩ := Option.map_eq_some_iff.1 h
    obtain ⟨rfl, rfl⟩ := Prod.mk.inj heq
    exact ⟨hs, rfl⟩
  cases cs with
  | nil => cases h
  | cons d cs =>
    by_cases hd : d = '-'
    · subst hd
      obtain ⟨k', hk', hskip⟩ := (along_skip f).keeps (.goes cs)
      cases hs : skip f cs with
      | nil =>
        rw [readRange_of_nil hs] at h
        cases h
      | cons c left =>
        rw [hs] at hk'
        have hwith {t : List Char} (ht : Closing t) : skip f (cs ++ t) = c :: (left ++ t) :=
          (hskip t ht).trans (hk'.of_cons t)
        by_cases hc : c = ']' ∨ c = '-'
        · obtain ⟨hset, rfl⟩ := halone ((readRange_of_lone hs hc).symm.trans h)
          refine ⟨k, hk, fun t ht => ?_⟩
          rw [hk.of_cons t, readRange_of_lone (hwith ht) hc, hset]
          rfl
        · rw [readRange_of_last hs hc] at h
          obtain ⟨k'', hk'', hlast⟩ := (local_readLast first).keeps (.goes (c :: left)) h
          refine ⟨k'', hk'', fun t ht => ?_⟩
          rw [hk.of_cons t, readRange_of_last (hwith ht) hc]
          exact hlast t ht
    · obtain ⟨hset, rfl⟩ := halone ((readRange_of_ne hd).symm.trans h)
      refine ⟨k, hk, fun t ht => ?_⟩
      rw [hk.of_cons t, readRange_of_ne hd, hset]
      rfl

theorem readRange_breaks {s : CharSet} (hk : Behind cs k) (hn : readRange f first cs = none)
    (ht : Closing t) (hs : readRange f first (k t) = some (s, rest)) : rest.length < t.length + 1 := by
  cases cs with
  | nil =>
    obtain hk | hk := hk.of_nil
    · rw [hk] at hs
      exact Nat.lt_succ_of_le (readRange_isSuffix hs).length_le
    · rw [hk] at hs
      cases hs
  | cons d cs =>
    rw [hk.of_cons t] at hs
    by_cases hd : d = '-'
    · subst hd
      obtain ⟨k', hk', hskip⟩ := (along_skip f).keeps (.goes cs)
      cases hown : skip f cs with
      | nil =>
        rw [hown] at hk'
        obtain hgoes | hgone := hk'.of_nil
        · have hskip := (hskip t ht).trans (hgoes t)
          obtain ⟨u, rfl⟩ := ht.eq_cons
          rw [readRange_of_last hskip (by decide)] at hs
          exact Nat.lt_succ_of_le ((local_readLast first).length_le hs)
        · rw [readRange_of_nil ((hskip t ht).trans (hgone t))] at hs
          cases hs
      | cons c left =>
        rw [hown] at hk'
        have hwith := (hskip t ht).trans (hk'.of_cons t)
        by_cases hc : c = ']' ∨ c = '-'
        · rw [readRange_of_lone hown hc] at hn
          rw [readRange_of_lone hwith hc, Option.map_eq_none_iff.1 hn] at hs
          cases hs
        · rw [readRange_of_last hown hc] at hn
          rw [readRange_of_last hwith hc] at hs
          exact Nat.lt_succ_of_lt ((local_readLast first).breaks (.goes (c :: left)) hn ht hs)
    · rw [readRange_of_ne hd] at hn
      rw [readRange_of_ne hd, Option.map_eq_none_iff.1 hn] at hs
      cases hs

end Ranges

theorem local_readRange (first : Atom) : Local 1 (readRange f first) :=
  ⟨readRange_isSuffix, readRange_keeps, readRange_breaks⟩

theorem local_readClassItem : Local 1 (readClassItem f) := by
  refine (local_readClassAtom_bind (h := fun a cs => readRange f a (skip f cs))
    (fun a => (local_readRange a).after (along_skip f)) fun l cs => ?_).congr readClassItem_eq
  cases hs : skip f cs with
  | nil => rfl
  | cons c rest =>
    by_cases hc : c = '-'
    · subst hc
      cases hrest : skip f rest with
      | nil => exact readRange_of_nil hrest
      | cons d left =>
        by_cases hd : d = ']' ∨ d = '-'
        · exact readRange_of_lone hrest hd
        · rw [readRange_of_last hrest hd, readLast]
          exact Option.bind_eq_none_iff.2 fun x _ => rfl
    · exact readRange_of_ne hc

theorem takes_readClassAtom : Takes (readClassAtom f) := by
  intro cs a rest h
  unfold readClassAtom at h
  split at h
  · cases h
  · exact Nat.lt_succ_of_lt (takes_readEscape h)
  · cases h
    exact Nat.lt_succ_self _

theorem takes_readClassItem : Takes (readClassItem f) := by
  intro cs s rest h
  rw [readClassItem_eq] at h
  obtain ⟨x, hatom, hrange⟩ := Option.bind_eq_some_iff.1 h
  calc
    rest.length ≤ (skip f x.2).length := (local_readRange x.1).length_le hrange
    _ ≤ x.2.length := (along_skip f).length_le x.2
    _ < cs.length := takes_readClassAtom hatom

/-! ### The head of a class -/

theorem readHyphens_of_ne (h : cs.head? ≠ some '-') : readHyphens f n cs = (0, cs) := by
  unfold readHyphens
  split
  · exact absurd rfl h
  · rfl

theorem local_readHyphens (n : Nat) : Local slack fun cs => some (readHyphens f n cs) := by
  induction n with
  | zero => exact Local.done 0
  | succ n ih =>
    have hmore : Local slack fun cs =>
        (some (readHyphens f n (skip f cs))).bind fun x => some (x.1 + 1, x.2) :=
      (ih.after (along_skip f)).bind fun n => Local.done (n + 1)
    exact Local.ifNext '-' (by decide) hmore (Local.done 0) (fun cs => rfl)
      fun cs hcs => congrArg some (readHyphens_of_ne hcs)

theorem readHyphens_eq (hn : cs.length ≤ n) (hm : cs.length ≤ m) :
    readHyphens f n cs = readHyphens f m cs := by
  induction n generalizing m cs with
  | zero =>
    obtain rfl := List.eq_nil_of_length_eq_zero (Nat.le_zero.1 hn)
    cases m <;> rfl
  | succ n ih =>
    cases m with
    | zero =>
      obtain rfl := List.eq_nil_of_length_eq_zero (Nat.le_zero.1 hm)
      rfl
    | succ m =>
      by_cases hcs : cs.head? = some '-'
      · obtain ⟨cs, rfl⟩ := List.head?_eq_some_iff.1 hcs
        have hle := (along_skip f).length_le cs
        rw [List.length_cons] at hn hm
        have hrest : readHyphens f n (skip f cs) = readHyphens f m (skip f cs) :=
          ih (by omega) (by omega)
        simp only [readHyphens, hrest]
      · rw [readHyphens_of_ne hcs, readHyphens_of_ne hcs]

/-- A class that begins with so many hyphens; a bracket that would close it at once stands for itself. -/
def beginClass (f : Flags) (negated : Bool) (hyphens : Nat) (cs : List Char) :
    Option (ClassLevel × List Char) :=
  let items := List.replicate hyphens (⟨.single '-', 0⟩ : SetPiece)
  match hyphens, cs with
  | 0, ']' :: rest => some (⟨negated, [⟨.single ']', 0⟩], none⟩, skip f rest)
  | _, [] => none
  | _, cs => some (⟨negated, items, none⟩, cs)

/-- The head of a class behind the sign that negates it, if there is one. -/
def openSigned (f : Flags) (negated : Bool) (cs : List Char) : Option (ClassLevel × List Char) :=
  (some (readHyphens f cs.length cs)).bind fun x => beginClass f negated x.1 x.2

theorem local_beginClass (negated : Bool) (hyphens : Nat) :
    Local 1 (beginClass f negated hyphens) := by
  have hmore := Local.more
    (⟨negated, List.replicate hyphens (⟨.single '-', 0⟩ : SetPiece), none⟩ : ClassLevel)
  cases hyphens with
  | zero =>
    refine Local.ifNext ']' (by decide)
      ((along_skip f).done (⟨negated, [⟨.single ']', 0⟩], none⟩ : ClassLevel)) hmore
      (fun cs => rfl) fun cs hcs => ?_
    unfold beginClass
    dsimp only
    split <;> simp_all
  | succ n =>
    refine hmore.congr fun cs => ?_
    cases cs <;> rfl

theorem local_openSigned (negated : Bool) : Local 1 (openSigned f negated) :=
  Local.bind (Local.fuelled local_readHyphens (fun hn hm => congrArg some (readHyphens_eq hn hm)) along_id
    Nat.le_refl) (local_beginClass negated)

theorem local_openClass : Local 1 (openClass f) := by
  have hsign : Local 1 fun cs =>
      if cs.head? = some '^' then openSigned f true (skip f cs.tail) else openSigned f false cs :=
    Local.ifNext '^' (by decide) ((local_openSigned true).after (along_skip f)) (local_openSigned false)
      (fun cs => if_pos rfl) fun cs hcs => if_neg hcs
  refine (hsign.after (along_skip f)).congr fun cs => ?_
  by_cases hhead : (skip f cs).head? = some '^'
  · rw [if_pos hhead]
    obtain ⟨rest, hrest⟩ := List.head?_eq_some_iff.1 hhead
    simp only [openClass, hrest]
    rfl
  · rw [if_neg hhead]
    have hne (rest : List Char) : skip f cs = '^' :: rest → False := fun h => hhead (by rw [h]; rfl)
    simp only [openClass]
    rfl

/-! ### Classes with a name -/

/-- The name of a class, behind the colon and the sign that negates it. -/
def readClassName (f : Flags) (negated : Bool) (cs : List Char) : Option (CharSet × List Char) :=
  match cs.dropWhile (· != ':') with
  | ':' :: ']' :: rest =>
    (CharSet.ofName? (String.ofList (cs.takeWhile (· != ':')))).map fun s =>
      (if negated then .complement (foldCase f s) else foldCase f s, rest)
  | _ => none

theorem readClassName_of_end {negated : Bool} (h : cs.dropWhile (· != ':') = ':' :: ']' :: rest) :
    readClassName f negated cs = (CharSet.ofName? (String.ofList (cs.takeWhile (· != ':')))).map fun s =>
      (if negated then .complement (foldCase f s) else foldCase f s, rest) := by
  simp only [readClassName, h]

theorem readClassName_of_ne {negated : Bool}
    (h : ∀ rest, cs.dropWhile (· != ':') ≠ ':' :: ']' :: rest) : readClassName f negated cs = none := by
  unfold readClassName
  split
  · rename_i rest heq
    exact absurd heq (h rest)
  · rfl

theorem sure_readClassName (negated : Bool) : Sure (readClassName f negated) := by
  refine ⟨fun {cs s rest} h => ?_, fun cs t ht => ?_⟩
  · unfold readClassName at h
    split at h
    · rename_i left hleft
      obtain ⟨_, _, heq⟩ := Option.map_eq_some_iff.1 h
      obtain ⟨-, rfl⟩ := Prod.mk.inj heq
      have hsuffix := List.dropWhile_suffix (· != ':') (l := cs)
      rw [hleft] at hsuffix
      exact ((List.suffix_cons _ _).trans (List.suffix_cons _ _)).trans hsuffix
    · cases h
  · cases hown : cs.dropWhile (· != ':') with
    | nil =>
      have hwith := dropWhile_append_of_nil hown ht (by decide) (by decide)
      rw [readClassName_of_ne (by simp [hwith]), readClassName_of_ne (by simp [hown])]
      rfl
    | cons c left =>
      have hwith := dropWhile_append_of_cons hown t
      by_cases hend : c = ':' ∧ ∃ rest, left = ']' :: rest
      · obtain ⟨rfl, rest, rfl⟩ := hend
        rw [readClassName_of_end hown, readClassName_of_end hwith, takeWhile_append_of_dropWhile hown,
          Option.map_map]
        rfl
      · have hleft (rest : List Char) (hc : c = ':') (h : left ++ t = ']' :: rest) : False := by
          cases left with
          | nil =>
            obtain ⟨u, rfl⟩ := ht.eq_cons
            cases h
          | cons d left =>
            obtain ⟨rfl, -⟩ := List.cons.inj h
            exact hend ⟨hc, left, rfl⟩
        rw [readClassName_of_ne, readClassName_of_ne]
        · rfl
        · rw [hown]
          intro rest h
          obtain ⟨hc, rfl⟩ := List.cons.inj h
          exact hend ⟨hc, rest, rfl⟩
        · rw [hwith]
          intro rest h
          obtain ⟨hc, h⟩ := List.cons.inj h
          exact hleft rest hc h

theorem readNamed?_of_ne (h : cs.head? ≠ some ':') : readNamed? f cs = none := by
  unfold readNamed?
  split
  · exact absurd rfl h
  · rfl

theorem readNamed?_colon (cs : List Char) :
    readNamed? f (':' :: cs) =
      if cs.head? = some '^' then readClassName f true cs.tail else readClassName f false cs := by
  split
  · rename_i h
    obtain ⟨rest, rfl⟩ := List.head?_eq_some_iff.1 h
    rfl
  · rename_i h
    have hne (rest : List Char) : cs = '^' :: rest → False := fun he => h (by rw [he]; rfl)
    simp only [readNamed?]
    rfl

theorem sure_readNamed? : Sure (readNamed? f) := by
  refine ⟨fun {cs s rest} h => ?_, fun cs t ht => ?_⟩
  · by_cases hcs : cs.head? = some ':'
    · obtain ⟨cs, rfl⟩ := List.head?_eq_some_iff.1 hcs
      rw [readNamed?_colon] at h
      split at h
      · have hsuffix := ((sure_readClassName true).isSuffix h).trans (List.tail_suffix cs)
        exact hsuffix.trans (List.suffix_cons _ cs)
      · exact ((sure_readClassName false).isSuffix h).trans (List.suffix_cons _ cs)
    · rw [readNamed?_of_ne hcs] at h
      cases h
  · obtain ⟨u, rfl⟩ := ht.eq_cons
    cases cs with
    | nil => rfl
    | cons c cs =>
      by_cases hc : c = ':'
      · subst hc
        rw [List.cons_append, readNamed?_colon, readNamed?_colon]
        cases cs with
        | nil =>
          rw [if_neg (by simp), if_neg (by simp)]
          exact (sure_readClassName false).append [] _ ht
        | cons d cs =>
          by_cases hd : d = '^'
          · rw [if_pos (by simp [hd]), if_pos (by simp [hd])]
            exact (sure_readClassName true).append cs _ ht
          · rw [if_neg (by simp [hd]), if_neg (by simp [hd])]
            exact (sure_readClassName false).append (d :: cs) _ ht
      · rw [readNamed?_of_ne (by simp [hc]), readNamed?_of_ne (by simp [hc])]
        rfl

/-! ### Whole classes -/

/-- A class from its next item on, with nothing left to leave out in front of it. -/
def readPart (f : Flags) (fuel : Nat) (l : ClassLevel) (around : List ClassLevel) (cs : List Char) :
    Option (SetPiece × List Char) :=
  let operation (op : SetOp) (rest : List Char) :=
    readClass f fuel { l with items := [], waiting := some (l.combine f, op) } around rest
  match cs with
  | [] => none
  | '[' :: rest =>
    match readNamed? f rest with
    | some (s, rest) => readClass f fuel { l with items := ⟨s, 0⟩ :: l.items } around rest
    | none => do
      let (inner, rest) ← openClass f rest
      readClass f fuel inner (l :: around) rest
  | ']' :: rest =>
    let s := l.close f
    match around with
    | [] => some (s, rest)
    | outer :: around => readClass f fuel { outer with items := s :: outer.items } around rest
  | '&' :: '&' :: rest => operation .inter rest
  | '-' :: '-' :: rest => operation .diff rest
  | '~' :: '~' :: rest => operation .symmDiff rest
  | cs => do
    let (s, rest) ← readClassItem f cs
    readClass f fuel { l with items := ⟨s, 0⟩ :: l.items } around rest

/-- An item of a class, and the class from there on. -/
def readItems (f : Flags) (fuel : Nat) (l : ClassLevel) (around : List ClassLevel) (cs : List Char) :
    Option (SetPiece × List Char) :=
  (readClassItem f cs).bind fun x =>
    readClass f fuel { l with items := ⟨x.1, 0⟩ :: l.items } around x.2

theorem readClass_succ (l : ClassLevel) (around : List ClassLevel) (cs : List Char) :
    readClass f (n + 1) l around cs = readPart f n l around (skip f cs) := rfl

theorem readPart_item (l : ClassLevel) (around : List ClassLevel) (hnil : cs ≠ [])
    (hb : cs.head? ∉ [some '[', some ']'])
    (ho : ∀ c, c = '&' ∨ c = '-' ∨ c = '~' → ∀ rest, cs ≠ c :: c :: rest) :
    readPart f n l around cs = readItems f n l around cs := by
  unfold readPart
  dsimp only
  split
  · exact absurd rfl hnil
  · exact absurd (by simp) hb
  · exact absurd (by simp) hb
  · exact absurd rfl (ho '&' (by simp) _)
  · exact absurd rfl (ho '-' (by simp) _)
  · exact absurd rfl (ho '~' (by simp) _)
  · rfl

theorem local_readPart
    (hclass : ∀ l around, Local 0 (readClass f n l around) ∧ Takes (readClass f n l around))
    (l : ClassLevel) (around : List ClassLevel) (c : Char) :
    Local 0 fun cs => readPart f n l around (c :: cs) := by
  have hnext (s : CharSet) := hclass { l with items := ⟨s, 0⟩ :: l.items } around
  have hitems : Local 0 (readItems f n l around) :=
    local_readClassItem.bind_takes (fun s => (hnext s).1) fun s => (hnext s).2
  have htakes : Takes (readItems f n l around) := by
    intro cs s rest h
    obtain ⟨x, hitem, hrest⟩ := Option.bind_eq_some_iff.1 h
    exact Nat.lt_trans ((hclass _ _).2 hrest) (takes_readClassItem hitem)
  -- Two signs in a row are an operation; one by itself is an item.
  have hoperation {c : Char} (op : SetOp) (hc : c ≠ ')') (hb : some c ∉ [some '[', some ']'])
      (heq : ∀ cs, readPart f n l around (c :: c :: cs) =
        readClass f n { l with items := [], waiting := some (l.combine f, op) } around cs) :
      Local 0 fun cs => readPart f n l around (c :: cs) := by
    refine Local.ifNext c hc (hclass _ _).1 (hitems.under htakes c) heq fun cs hcs => ?_
    refine readPart_item l around (by simp) hb fun d _ rest h => hcs ?_
    obtain ⟨rfl, rfl⟩ := List.cons.inj h
    rfl
  by_cases hopen : c = '['
  · subst hopen
    have hinner : Local 0 fun cs =>
        (openClass f cs).bind fun x => readClass f n x.1 (l :: around) x.2 :=
      local_openClass.bind_takes (fun inner => (hclass inner (l :: around)).1)
        fun inner => (hclass inner (l :: around)).2
    have hnamed : Sure (readNamed? f) := sure_readNamed?
    refine (hnamed.orElse (fun s => (hnext s).1) hinner).congr fun cs => ?_
    simp only [readPart]
    cases readNamed? f cs <;> rfl
  by_cases hclose : c = ']'
  · subst hclose
    cases around with
    | nil => exact Local.done (l.close f)
    | cons outer around => exact (hclass _ around).1
  by_cases hand : c = '&'
  · exact hand ▸ hoperation .inter (by decide) (by decide) fun cs => rfl
  by_cases hminus : c = '-'
  · exact hminus ▸ hoperation .diff (by decide) (by decide) fun cs => rfl
  by_cases htilde : c = '~'
  · exact htilde ▸ hoperation .symmDiff (by decide) (by decide) fun cs => rfl
  refine (hitems.under htakes c).congr fun cs => readPart_item l around (by simp) (by simp [hopen, hclose])
    fun d hd rest h => ?_
  obtain ⟨rfl, -⟩ := List.cons.inj h
  obtain rfl | rfl | rfl := hd
  · exact hand rfl
  · exact hminus rfl
  · exact htilde rfl

theorem local_readClass (n : Nat) (l : ClassLevel) (around : List ClassLevel) :
    Local 0 (readClass f n l around) ∧ Takes (readClass f n l around) := by
  induction n generalizing l around with
  | zero => exact ⟨Local.none, fun h => by cases h⟩
  | succ n ih =>
    have hpart := local_readPart ih l around
    refine ⟨(Local.cons rfl hpart).after (along_skip f), fun {cs s rest} h => ?_⟩
    exact Nat.lt_of_lt_of_le (Local.takes_of_cons rfl hpart h) ((along_skip f).length_le cs)

theorem readClass_eq {l : ClassLevel} {around : List ClassLevel} (hn : cs.length < n)
    (hm : cs.length < m) : readClass f n l around cs = readClass f m l around cs := by
  induction n generalizing m l around cs with
  | zero => cases hn
  | succ n ih =>
    cases m with
    | zero => cases hm
    | succ m =>
      have hle := (along_skip f).length_le cs
      rw [readClass_succ, readClass_succ]
      generalize skip f cs = left at hle ⊢
      have hrest {l : ClassLevel} {around : List ClassLevel} {rest : List Char}
          (h : rest.length < left.length) :
          readClass f n l around rest = readClass f m l around rest :=
        ih (by omega) (by omega)
      unfold readPart
      dsimp only
      split
      · rfl
      · rename_i rest
        cases hnamed : readNamed? f rest with
        | some x =>
          obtain ⟨s, rest'⟩ := x
          exact hrest (Nat.lt_succ_of_le (sure_readNamed?.isSuffix hnamed).length_le)
        | none =>
          cases hopen : openClass f rest with
          | none => rfl
          | some x =>
            obtain ⟨inner, rest'⟩ := x
            exact hrest (Nat.lt_succ_of_le (local_openClass.length_le hopen))
      · cases around with
        | nil => rfl
        | cons outer around => exact hrest (Nat.lt_succ_self _)
      · exact hrest (Nat.lt_add_of_pos_right Nat.two_pos)
      · exact hrest (Nat.lt_add_of_pos_right Nat.two_pos)
      · exact hrest (Nat.lt_add_of_pos_right Nat.two_pos)
      · cases hitem : readClassItem f left with
        | none => rfl
        | some x =>
          obtain ⟨s, rest⟩ := x
          exact hrest (takes_readClassItem hitem)

theorem local_readBracketed : Local 0 (readBracketed f) := by
  have hclass (l : ClassLevel) : Local 0 fun cs => readClass f (cs.length + 1) l [] cs :=
    Local.fuelled (fun n => (local_readClass (n + 1) l []).1)
      (fun hn hm => readClass_eq (Nat.lt_succ_of_le hn) (Nat.lt_succ_of_le hm)) along_id Nat.le_refl
  have htakes (l : ClassLevel) : Takes fun cs => readClass f (cs.length + 1) l [] cs :=
    fun h => (local_readClass _ l []).2 h
  have hopen : Local 1 (openClass f) := local_openClass
  refine (hopen.bind_takes hclass htakes).congr fun cs => ?_
  show (openClass f cs).bind _ = _
  cases hopen : openClass f cs with
  | none => rfl
  | some x =>
    obtain ⟨l, rest⟩ := x
    have hle := local_openClass.length_le hopen
    exact readClass_eq (by omega) (Nat.lt_succ_self _)

end Regex

end GroupConsumer
