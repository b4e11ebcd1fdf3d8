import GroupConsumer.Proofs.Pattern.Classes

/-!
# Items with something behind them

What is left of the reader: repetitions and the heads of groups are read locally, and so is each item of a
pattern. One that is an item only with the end of the wrapping behind it has taken the closing bracket, or
it leaves a brace that is no repetition (`step_breaks`).
-/

namespace GroupConsumer

namespace Regex

variable {cs rest t : List Char} {k : List Char → List Char} {f : Flags} {n m : Nat} {slack : Nat}
  {r r' : Reader}

/-! ### Repetitions -/

theorem along_dropBlanks : Along dropBlanks := by
  refine ⟨fun cs => List.dropWhile_suffix Text.isBlank, fun {cs k} hk => ?_⟩
  cases hk with
  | goes =>
    refine ⟨_, .goes (dropBlanks cs), fun t ht => ?_⟩
    obtain ⟨u, rfl⟩ := ht.eq_cons
    have hstop : dropBlanks (')' :: u) = ')' :: u := List.dropWhile_cons_of_neg (by decide)
    unfold dropBlanks at hstop ⊢
    rw [List.dropWhile_append]
    split
    · rename_i h
      rw [List.isEmpty_iff.1 h, hstop]
      rfl
    · rfl
  | gone => exact ⟨_, .gone, fun _ _ => rfl⟩

theorem readDigits_of_ne (h : ∀ c, cs.head? = some c → ¬ c.isDigit = true) :
    readDigits f n cs = ([], cs) := by
  unfold readDigits
  split
  · rename_i c cs
    rw [if_neg (h c rfl)]
  · rfl

theorem local_readDigits (n : Nat) : Local slack fun cs => some (readDigits f n cs) := by
  induction n with
  | zero => exact Local.done []
  | succ n ih =>
    have hmore (c : Char) : Local slack fun cs =>
        (some (readDigits f n (skip f cs))).bind fun x => some (c :: x.1, x.2) :=
      (ih.after (along_skip f)).bind fun ds => Local.done (c :: ds)
    refine Local.either (q := fun c => c.isDigit = true) (by decide) (fun c _ => hmore c) (Local.done [])
      (fun c cs hc => ?_) fun cs hcs => congrArg some (readDigits_of_ne hcs)
    rw [readDigits, if_pos hc]
    rfl

theorem readDigits_eq (hn : cs.length ≤ n) (hm : cs.length ≤ m) :
    readDigits f n cs = readDigits f m cs := by
  induction n generalizing m cs with
  | zero =>
    obtain rfl := List.eq_nil_of_length_eq_zero (Nat.le_zero.1 hn)
    cases m <;> rfl
  | succ n ih =>
    cases m with
    | zero =>
      obtain rfl := List.eq_nil_of_length_eq_zero (Nat.le_zero.1 hm)
      rfl
    | succ m =>
      cases cs with
      | nil => rfl
      | cons c cs =>
        have hle := (along_skip f).length_le cs
        rw [List.length_cons] at hn hm
        have hrest : readDigits f n (skip f cs) = readDigits f m (skip f cs) :=
          ih (by omega) (by omega)
        simp only [readDigits, hrest]

/-- The number that digits stand for, if there are any. -/
def countOf? (ds : List Char) : Option (Option Nat) :=
  if ds.isEmpty then some none
  else if decimalValue ds < UInt32.size then some (some (decimalValue ds))
  else none

theorem local_readCount : Local 0 (readCount f) := by
  have hdigits : Local 0 fun cs => some (readDigits f cs.length (dropBlanks cs)) :=
    Local.fuelled local_readDigits (fun hn hm => congrArg some (readDigits_eq hn hm)) along_dropBlanks
      Nat.le_refl
  have hcount (ds : List Char) :
      Local 0 fun cs => (countOf? ds).bind fun n => some (n, skip f (dropBlanks cs)) :=
    Local.given fun n => ((along_skip f).comp along_dropBlanks).done n
  refine (hdigits.bind hcount).congr fun cs => ?_
  rw [Option.bind_some]
  unfold readCount countOf?
  dsimp only
  split
  · rfl
  · split <;> rfl

/-- The brace that ends the bounds of a repetition. -/
def endBounds (f : Flags) (n m : Nat) (cs : List Char) : Option ((Nat × Option Nat) × List Char) :=
  match cs with
  | '\x7d' :: rest => if n ≤ m then some ((n, some m), skip f rest) else none
  | _ => none

/-- The bounds of a repetition behind the comma. -/
def readUpper (f : Flags) (least : Option Nat) (cs : List Char) :
    Option ((Nat × Option Nat) × List Char) :=
  match cs with
  | '\x7d' :: rest => least.map fun n => ((n, none), skip f rest)
  | rest => do
    let n ← least
    let (most, rest) ← readCount f rest
    let m ← most
    endBounds f n m rest

/-- The bounds of a repetition behind the lower one. -/
def readRest (f : Flags) (least : Option Nat) (cs : List Char) :
    Option ((Nat × Option Nat) × List Char) :=
  match cs with
  | '\x7d' :: rest => least.map fun n => ((n, some n), skip f rest)
  | ',' :: rest => readUpper f least (skip f rest)
  | _ => none

theorem readBounds_eq (cs : List Char) :
    readBounds f cs = (readCount f (skip f cs)).bind fun x => readRest f x.1 x.2 := rfl

theorem local_endBounds (n m : Nat) : Local 0 (endBounds f n m) := by
  have hend : Local 0 fun cs => if n ≤ m then some ((n, some m), skip f cs) else none := by
    by_cases hle : n ≤ m
    · exact ((along_skip f).done (n, some m)).congr fun cs => if_pos hle
    · exact Local.none.congr fun cs => if_neg hle
  refine Local.ifNext '\x7d' (by decide) hend Local.none (fun cs => rfl) fun cs hcs => ?_
  unfold endBounds
  split
  · exact absurd rfl hcs
  · rfl

theorem local_readUpper (least : Option Nat) : Local 0 (readUpper f least) := by
  have hopen : Local 0 fun cs => least.map fun n => ((n, (none : Option Nat)), skip f cs) :=
    (Local.given fun n => (along_skip f).done (n, (none : Option Nat))).congr fun _ =>
      Option.map_eq_bind
  have hcount : Local 0 (readCount f) := local_readCount
  have hboth : Local 0 fun cs => least.bind fun n => (readCount f cs).bind fun x =>
      x.1.bind fun m => endBounds f n m x.2 :=
    Local.given fun n => hcount.bind (h := fun most cs => most.bind fun m => endBounds f n m cs)
      fun most => Local.given fun m => local_endBounds n m
  refine Local.ifNext '\x7d' (by decide) hopen hboth (fun cs => rfl) fun cs hcs => ?_
  unfold readUpper
  split
  · exact absurd rfl hcs
  · rfl

theorem local_readRest (least : Option Nat) : Local 0 (readRest f least) := by
  have hexact : Local 0 fun cs => least.map fun n => ((n, some n), skip f cs) :=
    (Local.given fun n => (along_skip f).done (n, some n)).congr fun _ => Option.map_eq_bind
  have hcomma : Local 0 fun cs => if cs.head? = some ',' then readUpper f least (skip f cs.tail) else none :=
    Local.ifNext ',' (by decide) ((local_readUpper least).after (along_skip f)) Local.none
      (fun cs => if_pos rfl) fun cs hcs => if_neg hcs
  refine Local.ifNext '\x7d' (by decide) hexact hcomma (fun cs => rfl) fun cs hcs => ?_
  unfold readRest
  split
  · exact absurd rfl hcs
  · rfl
  · rename_i hne
    rw [if_neg]
    intro hhead
    obtain ⟨left, hleft⟩ := List.head?_eq_some_iff.1 hhead
    exact hne left hleft

theorem local_readBounds : Local 0 (readBounds f) := by
  have hcount : Local 0 fun cs => readCount f (skip f cs) := local_readCount.after (along_skip f)
  exact (hcount.bind local_readRest).congr readBounds_eq

/-- No repetition has its bounds in the end of the wrapping. -/
theorem readBounds_closing (ht : Closing t) (h : skip f cs = t) : readBounds f cs = none := by
  have hblanks : dropBlanks t = t := by cases ht <;> decide
  have hdigits : readDigits f t.length t = ([], t) :=
    readDigits_of_ne fun c hc => by cases ht <;> cases hc <;> decide
  have hcount : readCount f t = some (none, t) := by
    simp only [readCount, hblanks, hdigits, skip_closing ht]
    rfl
  rw [readBounds_eq, h, hcount, Option.bind_some]
  cases ht <;> rfl

theorem dropLazy_of_ne (h : cs.head? ≠ some '?') : dropLazy cs = cs := by
  unfold dropLazy
  split
  · exact absurd rfl h
  · rfl

theorem along_dropLazy : Along dropLazy := by
  refine ⟨fun cs => ?_, fun {cs k} hk => ?_⟩
  · unfold dropLazy
    split
    · exact List.suffix_cons _ _
    · exact List.suffix_refl _
  · cases hk with
    | goes =>
      cases cs with
      | nil => exact ⟨_, .goes [], fun t ht => dropLazy_of_ne (by obtain ⟨u, rfl⟩ := ht.eq_cons; simp)⟩
      | cons c cs =>
        by_cases hc : c = '?'
        · subst hc
          exact ⟨_, .goes cs, fun _ _ => rfl⟩
        · rw [dropLazy_of_ne (by simp [hc])]
          exact ⟨_, .goes (c :: cs), fun t _ => dropLazy_of_ne (by simp [hc])⟩
    | gone => exact ⟨_, .gone, fun _ _ => rfl⟩

/-! ### Groups -/

/-- What is known of the flags of a group before the end of them. -/
structure FlagsRead where
  flags : Flags
  seen : List Char
  negated : Bool
  dangling : Bool

/-- What is known behind one more character. -/
def FlagsRead.next? (s : FlagsRead) (c : Char) : Option FlagsRead :=
  if c = '-' then
    if s.negated then none else some { s with negated := true, dangling := true }
  else if s.seen.contains c then none
  else (s.flags.set? (!s.negated) c).map fun f => { s with flags := f, seen := c :: s.seen, dangling := false }

/-- The flags of a group from a place among them on. -/
def FlagsRead.read (s : FlagsRead) (cs : List Char) : Option ((Flags × Bool) × List Char) :=
  (readFlags s.flags s.seen s.negated s.dangling cs).map fun x => ((x.1, x.2.1), x.2.2)

theorem FlagsRead.read_cons (s : FlagsRead) (c : Char) (cs : List Char) :
    s.read (c :: cs) = if c = ':' ∨ c = ')' then
      if s.dangling then none else some ((s.flags, s.seen.isEmpty && !s.negated), c :: cs)
      else (s.next? c).bind fun s => s.read cs := by
  unfold read next?
  rw [readFlags]
  by_cases hstop : c = ':' ∨ c = ')'
  · rw [if_pos hstop, if_pos (by simpa using hstop)]
    split <;> rfl
  · rw [if_neg hstop, if_neg (by simpa using hstop)]
    split
    · split <;> rfl
    · split
      · rfl
      · cases s.flags.set? (!s.negated) c <;> rfl

/-- What is read with something behind it is what is read by itself, or it is read in what is behind it. -/
theorem FlagsRead.read_append (s : FlagsRead) (cs t : List Char) :
    (∀ {a rest}, s.read cs = some (a, rest) → rest <:+ cs ∧ s.read (cs ++ t) = some (a, rest ++ t)) ∧
      (s.read cs = none → s.read (cs ++ t) = none ∨ ∃ s', s.read (cs ++ t) = read s' t) := by
  induction cs generalizing s with
  | nil => exact ⟨fun h => (by cases h), fun _ => Or.inr ⟨s, rfl⟩⟩
  | cons c cs ih =>
    rw [List.cons_append, read_cons, read_cons]
    split
    · split
      · exact ⟨fun h => (by cases h), fun _ => Or.inl rfl⟩
      · exact ⟨fun h => (by cases h; exact ⟨List.suffix_refl _, rfl⟩), fun h => (by cases h)⟩
    · cases s.next? c with
      | none => exact ⟨fun h => (by cases h), fun _ => Or.inl rfl⟩
      | some s' =>
        obtain ⟨hsome, hnone⟩ := ih s'
        refine ⟨fun h => ?_, hnone⟩
        obtain ⟨hsuffix, hread⟩ := hsome h
        exact ⟨hsuffix.trans (List.suffix_cons c cs), hread⟩

theorem FlagsRead.local_read (s : FlagsRead) : Local 1 s.read where
  isSuffix h := ((s.read_append _ []).1 h).1
  keeps {cs k a rest} hk h := by
    cases hk with
    | goes => exact ⟨_, .goes rest, fun t _ => ((s.read_append cs t).1 h).2⟩
    | gone => cases h
  breaks {cs k t a rest} hk hn ht hs := by
    cases hk with
    | goes =>
      obtain hnone | ⟨s', hread⟩ := (s.read_append cs t).2 hn
      · rw [hnone] at hs
        cases hs
      · rw [hread] at hs
        exact Nat.lt_succ_of_le ((s'.read_append t []).1 hs).1.length_le
    | gone => cases hs

theorem readName_of_nil (h : cs.dropWhile (· != '>') = []) : readName cs = none := by
  unfold readName
  dsimp only
  split
  · rename_i heq
    rw [h] at heq
    cases heq
  · rfl

theorem sure_readName : Sure readName := by
  refine ⟨fun {cs name rest} h => ?_, fun cs t ht => ?_⟩
  · unfold readName at h
    dsimp only at h
    split at h
    · rename_i hdrop
      split at h
      · cases h
        have hsuffix := List.dropWhile_suffix (· != '>') (l := cs)
        rw [hdrop] at hsuffix
        exact (List.suffix_cons _ _).trans hsuffix
      · cases h
    · cases h
  · cases hdrop : cs.dropWhile (· != '>') with
    | nil =>
      rw [readName_of_nil hdrop,
        readName_of_nil (dropWhile_append_of_nil hdrop ht (by decide) (by decide))]
      rfl
    | cons c rest =>
      unfold readName
      rw [takeWhile_append_of_dropWhile hdrop, dropWhile_append_of_cons hdrop, hdrop]
      cases cs.takeWhile (· != '>') with
      | nil => rfl
      | cons d name =>
        dsimp only
        split <;> rfl

/-- A group behind its opening bracket, with nothing left to leave out in front of it. -/
def openHead (r : Reader) (cs : List Char) : Option (Reader × List Char) :=
  match cs with
  | '?' :: 'P' :: '<' :: rest => openGroup.named r rest
  | '?' :: '<' :: rest => openGroup.named r rest
  | '?' :: rest => do
    let (f, bare, rest) ← readFlags r.flags [] false false rest
    match rest with
    | ')' :: rest =>
      if bare then none
      else some ({ r with flags := f }.push { regex := .empty, repeatable := false }, rest)
    | _ :: rest => some (r.enter f, rest)
    | [] => none
  | rest => some (r.enter r.flags, rest)

/-- What the flags of a group end in: a bracket sets them for what follows, a colon for a group. -/
def endFlags (r : Reader) (f : Flags) (bare : Bool) (cs : List Char) : Option (Reader × List Char) :=
  match cs with
  | ')' :: rest =>
    if bare then none
    else some ({ r with flags := f }.push { regex := .empty, repeatable := false }, rest)
  | _ :: rest => some (r.enter f, rest)
  | [] => none

/-- A group behind the question mark that its flags begin with. -/
def openFlags (r : Reader) (cs : List Char) : Option (Reader × List Char) :=
  (FlagsRead.read ⟨r.flags, [], false, false⟩ cs).bind fun x => endFlags r x.1.1 x.1.2 x.2

theorem openGroup_eq (r : Reader) (cs : List Char) :
    openGroup r cs = openHead r (skip r.flags cs) := rfl

theorem endFlags_cons {bare : Bool} (c : Char) :
    Local 0 fun cs => endFlags r f bare (c :: cs) := by
  by_cases hc : c = ')'
  · subst hc
    cases bare with
    | true => exact Local.none
    | false => exact Local.done _
  · refine (Local.done (r.enter f)).congr fun cs => ?_
    unfold endFlags
    split
    · rename_i h
      exact absurd (List.cons.inj h).1 hc
    · rename_i h
      rw [(List.cons.inj h).2]
    · rename_i h
      cases h

theorem local_openFlags : Local 0 (openFlags r) := by
  have hend (x : Flags × Bool) (c : Char) : Local 0 fun cs => endFlags r x.1 x.2 (c :: cs) :=
    endFlags_cons c
  exact (FlagsRead.local_read ⟨r.flags, [], false, false⟩).bind_takes
    (h := fun x cs => endFlags r x.1 x.2 cs) (fun x => Local.cons rfl (hend x))
    fun x => Local.takes_of_cons rfl (hend x)

theorem local_named : Local 0 (openGroup.named r) := by
  have henter (name : List Char) : Local 0 fun cs => if r.names.contains name then none
      else some ({ r with names := name :: r.names }.enter r.flags, cs) := by
    cases hname : r.names.contains name with
    | true => exact Local.none.congr fun cs => if_pos rfl
    | false => exact (Local.done _).congr fun cs => if_neg (by simp)
  exact sure_readName.isLocal.bind henter

theorem openHead_flags (hname : ∀ rest, cs ≠ '<' :: rest ∧ cs ≠ 'P' :: '<' :: rest) :
    openHead r ('?' :: cs) = openFlags r cs := by
  unfold openHead
  split
  · rename_i h
    exact absurd (List.cons.inj h).2 (hname _).2
  · rename_i h
    exact absurd (List.cons.inj h).2 (hname _).1
  · rename_i h
    obtain rfl := (List.cons.inj h).2
    unfold openFlags FlagsRead.read
    rw [Option.bind_map]
    rfl
  · rename_i h
    exact absurd rfl (h cs)

theorem local_openHead : Local 0 (openHead r) := by
  have hquestion : Local 0 fun cs => openHead r ('?' :: cs) := by
    have hangle : Local 0 fun cs => if cs.head? = some '<' then openGroup.named r cs.tail else
        openFlags r cs :=
      Local.ifNext '<' (by decide) local_named local_openFlags (fun cs => if_pos rfl)
        fun cs hcs => if_neg hcs
    -- A letter behind the question mark that is no flag is there for the sake of a name.
    have hletter : Local 0 fun cs => openHead r ('?' :: 'P' :: cs) := by
      refine Local.ifNext '<' (by decide) local_named Local.none (fun cs => rfl) fun cs hcs => ?_
      rw [openHead_flags, openFlags, FlagsRead.read_cons, if_neg (by decide)]
      · rfl
      · refine fun rest => ⟨by simp, ?_⟩
        rintro h
        obtain rfl := (List.cons.inj h).2
        exact hcs rfl
    refine Local.ifNext 'P' (by decide) hletter hangle (fun cs => rfl) fun cs hcs => ?_
    by_cases hname : cs.head? = some '<'
    · obtain ⟨rest, rfl⟩ := List.head?_eq_some_iff.1 hname
      rfl
    · rw [if_neg hname]
      refine openHead_flags fun rest => ⟨?_, ?_⟩
      · rintro rfl
        exact hname rfl
      · rintro rfl
        exact hcs rfl
  refine Local.ifNext '?' (by decide) hquestion (Local.done (r.enter r.flags)) (fun cs => rfl)
    fun cs hcs => ?_
  unfold openHead
  split
  · exact absurd rfl hcs
  · exact absurd rfl hcs
  · exact absurd rfl hcs
  · rfl

theorem local_openGroup : Local 0 (openGroup r) :=
  (local_openHead.after (along_skip r.flags)).congr (openGroup_eq r)

/-! ### Items -/

/-- An item that is no group, no class, no repetition and no escape is up to its character alone. -/
theorem step_cons {c : Char} (hc : c ∉ ['(', '[', '?', '*', '+', '\x7b', '\x5c']) (cs : List Char) :
    step r (c :: cs) = ((step r [c]).map (·.1)).map (·, cs) := by
  simp only [List.mem_cons, List.not_mem_nil, or_false, not_or] at hc
  obtain ⟨hgroup, hclass, hoption, hstar, hplus, hbrace, hescape⟩ := hc
  unfold step
  dsimp only
  split
  case h_1 => exact absurd rfl hgroup
  case h_4 => exact absurd rfl hclass
  case h_5 => exact absurd rfl hoption
  case h_6 => exact absurd rfl hstar
  case h_7 => exact absurd rfl hplus
  case h_8 => exact absurd rfl hbrace
  case h_9 => exact absurd rfl hescape
  case h_2 => simp [Option.map_map, Function.comp_def]
  case h_10 => split <;> rfl
  case h_13 => cases (Atom.char c).piece r.flags <;> rfl
  all_goals rfl

/-- Whatever the last piece is repeated how often, what follows may ask for few. -/
theorem local_repeatLast (least : Nat) (most : Option Nat) :
    Local 0 fun cs => (repeatLast r least most).map (·, dropLazy cs) :=
  (Local.given fun r' => along_dropLazy.done r').congr fun _ => Option.map_eq_bind

theorem local_step {c : Char} (hc : c ≠ '\x5c') : Local 0 fun cs => step r (c :: cs) := by
  by_cases hgroup : c = '('
  · exact hgroup ▸ local_openGroup
  by_cases hclass : c = '['
  · subst hclass
    have hpush (s : SetPiece) : Local 0 fun cs =>
        some (r.push { regex := .one s.set, height := s.height }, cs) := Local.done _
    exact local_readBracketed.bind hpush
  by_cases hoption : c = '?'
  · exact hoption ▸ local_repeatLast 0 (some 1)
  by_cases hstar : c = '*'
  · exact hstar ▸ local_repeatLast 0 none
  by_cases hplus : c = '+'
  · exact hplus ▸ local_repeatLast 1 none
  by_cases hbrace : c = '\x7b'
  · subst hbrace
    have hrepeat (b : Nat × Option Nat) : Local 0 fun cs =>
        (repeatLast r b.1 b.2).bind fun r' => some (r', dropLazy cs) :=
      Local.given fun r' => along_dropLazy.done r'
    exact local_readBounds.bind hrepeat
  have hdone (r' : Reader) : Local 0 fun cs => some (r', cs) := Local.done r'
  refine (Local.given (o := (step r [c]).map (·.1)) hdone).congr fun cs => ?_
  rw [step_cons (by simp [*])]
  exact Option.map_eq_bind

theorem local_step_escape {d : Char} (hd : d ≠ 'b') : Local 0 fun cs => step r ('\x5c' :: d :: cs) := by
  have hpush (a : Atom) : Local 0 fun cs =>
      (a.piece r.flags).bind fun p => some (r.push p, cs) :=
    Local.given fun p => Local.done _
  exact (local_readEscape hd).bind hpush

theorem step_boundary (cs : List Char) : step r ('\x5c' :: 'b' :: cs) =
    (readBoundary r.flags cs).map fun x => (r.push { regex := .look x.1 }, x.2) := by
  show ((readBoundary r.flags cs).map fun x => (Atom.look x.1, x.2)).bind _ = _
  cases readBoundary r.flags cs <;> rfl

theorem takes_step : Takes (step r) := by
  intro cs r' rest h
  cases cs with
  | nil => cases h
  | cons c cs =>
    by_cases hc : c = '\x5c'
    · subst hc
      obtain ⟨x, hescape, h⟩ := Option.bind_eq_some_iff.1 h
      obtain ⟨p, _, h⟩ := Option.bind_eq_some_iff.1 h
      cases h
      exact Nat.lt_succ_of_lt (takes_readEscape hescape)
    · exact Nat.lt_succ_of_le ((local_step hc).length_le h)

/-- How an item is read is seen from its first character, or from the second one of an escape. -/
theorem step_induction {P : List Char → Prop} (hnil : P [])
    (hcons : ∀ c cs, (Local 0 fun cs => step r (c :: cs)) → P (c :: cs)) (hlone : P ['\x5c'])
    (hescape : ∀ d cs, (Local 0 fun cs => step r ('\x5c' :: d :: cs)) → P ('\x5c' :: d :: cs))
    (hboundary : ∀ cs, P ('\x5c' :: 'b' :: cs)) (cs : List Char) : P cs := by
  cases cs with
  | nil => exact hnil
  | cons c cs =>
    by_cases hc : c = '\x5c'
    · subst hc
      cases cs with
      | nil => exact hlone
      | cons d cs =>
        by_cases hd : d = 'b'
        · exact hd ▸ hboundary cs
        · exact hescape d cs (local_step_escape hd)
    · exact hcons c cs (local_step hc)

theorem step_isSuffix (h : step r cs = some (r', rest)) : rest <:+ cs := by
  induction cs using step_induction (r := r) with
  | hnil => cases h
  | hlone => cases h
  | hcons c cs hlocal => exact (hlocal.isSuffix h).trans (List.suffix_cons c cs)
  | hescape d cs hlocal =>
    exact ((hlocal.isSuffix h).trans (List.suffix_cons d cs)).trans (List.suffix_cons _ _)
  | hboundary cs =>
    rw [step_boundary] at h
    obtain ⟨x, hx, heq⟩ := Option.map_eq_some_iff.1 h
    obtain ⟨-, rfl⟩ := Prod.mk.inj heq
    exact ((readBoundary_isSuffix hx).trans (List.suffix_cons _ cs)).trans (List.suffix_cons _ _)

theorem step_keeps (hk : Behind cs k) (h : step r cs = some (r', rest)) :
    ∃ k', Behind rest k' ∧ ∀ t, Closing t → step r (k t) = some (r', k' t) := by
  induction cs using step_induction (r := r) with
  | hnil => cases h
  | hlone => cases h
  | hcons c cs hlocal =>
    obtain ⟨k', hk', hstep⟩ := hlocal.keeps (.goes cs) h
    exact ⟨k', hk', fun t ht => hk.of_cons t ▸ hstep t ht⟩
  | hescape d cs hlocal =>
    obtain ⟨k', hk', hstep⟩ := hlocal.keeps (.goes cs) h
    exact ⟨k', hk', fun t ht => hk.of_cons t ▸ hstep t ht⟩
  | hboundary cs =>
    rw [step_boundary] at h
    obtain ⟨x, hx, heq⟩ := Option.map_eq_some_iff.1 h
    obtain ⟨rfl, rfl⟩ := Prod.mk.inj heq
    obtain ⟨k', hk', hboundary⟩ := readBoundary_keeps (.goes cs) hx
    refine ⟨k', hk', fun t ht => ?_⟩
    rw [hk.of_cons t, List.cons_append, step_boundary, hboundary t ht]
    rfl

/-- What is an item only with the end of the wrapping behind it takes the closing bracket, or leaves it
behind a brace. -/
theorem step_breaks (hk : Behind cs k) (hcs : cs ≠ []) (hn : step r cs = none) (ht : Closing t)
    (hs : step r (k t) = some (r', rest)) :
    rest.length < t.length ∨
      ∃ inner, skip r.flags inner = t ∧ r'.flags = r.flags ∧ rest = '\x7b' :: inner := by
  induction cs using step_induction (r := r) with
  | hnil => exact absurd rfl hcs
  | hlone =>
    obtain ⟨u, rfl⟩ := ht.eq_cons
    rw [hk.of_cons] at hs
    exact Or.inl (Nat.lt_succ_of_le ((local_step_escape (by decide)).length_le hs))
  | hcons c cs hlocal =>
    rw [hk.of_cons t] at hs
    exact Or.inl (hlocal.breaks (.goes cs) hn ht hs)
  | hescape d cs hlocal =>
    rw [hk.of_cons t] at hs
    exact Or.inl (hlocal.breaks (.goes cs) hn ht hs)
  | hboundary cs =>
    rw [hk.of_cons t, List.cons_append, step_boundary] at hs
    rw [step_boundary, Option.map_eq_none_iff] at hn
    obtain ⟨x, hx, heq⟩ := Option.map_eq_some_iff.1 hs
    obtain ⟨rfl, rfl⟩ := Prod.mk.inj heq
    exact (readBoundary_breaks (.goes cs) hn ht hx).imp_right fun ⟨inner, hskip, hrest⟩ =>
      ⟨inner, hskip, rfl, hrest⟩

end Regex

end GroupConsumer
