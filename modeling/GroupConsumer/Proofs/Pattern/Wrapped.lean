import GroupConsumer.Proofs.Pattern.Items
import GroupConsumer.Proofs.Pattern.Reach

/-!
# Reading a pattern inside a group

A reader goes through a pattern the same way when more groups are open around those of the pattern
(`step_within`), and so a pattern that is one by itself is read in the wrapping as it is by itself
(`run_keeps`). One that is not can only be read in the wrapping if it closes a group that it has not opened
(`run_breaks`).
-/

namespace GroupConsumer

namespace Regex

variable {cs rest left t : List Char} {k : List Char → List Char} {f : Flags} {c : Char}
  {r r' q : Reader} {ls : List Level}

/-! ### What an item does -/

/-- What an item that closes no group does to the reader. -/
inductive Change (r : Reader) : Reader → Prop
  | enter (names : List (List Char)) (f : Flags) : Change r ({ r with names }.enter f)
  | push (f : Flags) {p : Piece} (h : p.regex.Ordered) : Change r ({ r with flags := f }.push p)
  | branch : Change r { r with level := { r.level with
      branches := joinPieces r.level.pieces :: r.level.branches, pieces := [] } }
  | repeated {least : Nat} {most : Option Nat} {r' : Reader} (h : ∀ n, most = some n → least ≤ n)
      (hr : repeatLast r least most = some r') : Change r r'

theorem Change.pushed {p : Piece} (h : p.regex.Ordered) : Change r (r.push p) := .push r.flags h

theorem change_of_named (h : openGroup.named r cs = some (r', rest)) : Change r r' := by
  obtain ⟨x, -, h⟩ := Option.bind_eq_some_iff.1 h
  dsimp only at h
  split at h
  · cases h
  · cases h
    exact .enter _ r.flags

theorem change_of_openGroup (h : openGroup r cs = some (r', rest)) : Change r r' := by
  rw [openGroup_eq] at h
  unfold openHead at h
  split at h
  · exact change_of_named h
  · exact change_of_named h
  · obtain ⟨x, -, h⟩ := Option.bind_eq_some_iff.1 h
    dsimp only at h
    split at h
    · split at h
      · cases h
      · cases h
        exact .push _ trivial
    · cases h
      exact .enter r.names _
    · cases h
  · cases h
    exact .enter r.names r.flags

theorem ordered_of_readBounds {b : Nat × Option Nat} (h : readBounds f cs = some (b, rest)) :
    ∀ n, b.2 = some n → b.1 ≤ n := by
  obtain ⟨⟨least, mid⟩, -, h⟩ := Option.bind_eq_some_iff.1 ((readBounds_eq cs).symm.trans h)
  unfold readRest at h
  dsimp only at h
  split at h
  · obtain ⟨n, _, heq⟩ := Option.map_eq_some_iff.1 h
    obtain ⟨rfl, -⟩ := Prod.mk.inj heq
    intro m hm
    exact Nat.le_of_eq (Option.some.inj hm)
  · unfold readUpper at h
    split at h
    · obtain ⟨n, _, heq⟩ := Option.map_eq_some_iff.1 h
      obtain ⟨rfl, -⟩ := Prod.mk.inj heq
      intro m hm
      cases hm
    · obtain ⟨n, -, h⟩ := Option.bind_eq_some_iff.1 h
      obtain ⟨⟨most, left⟩, -, h⟩ := Option.bind_eq_some_iff.1 h
      obtain ⟨m, -, h⟩ := Option.bind_eq_some_iff.1 h
      unfold endBounds at h
      split at h
      · split at h
        · rename_i hle
          cases h
          intro o ho
          exact Option.some.inj ho ▸ hle
        · cases h
      · cases h
  · cases h

theorem ordered_of_piece {a : Atom} {p : Piece} (h : a.piece f = some p) : p.regex.Ordered := by
  unfold Atom.piece at h
  split at h
  · split at h <;> cases h <;> trivial
  · cases h
    trivial
  · cases h
    trivial

/-- An item is a bracket that closes a group, or it changes the reader in one of a few ways. -/
theorem step_cases (h : step r (c :: cs) = some (r', rest)) :
    (c = ')' ∧ closeGroup r = some r') ∨ (c ≠ ')' ∧ Change r r') := by
  have hrepeat {least : Nat} {most : Option Nat} (hb : ∀ n, most = some n → least ≤ n)
      (h : (repeatLast r least most).map (·, dropLazy cs) = some (r', rest)) : Change r r' := by
    obtain ⟨_, hr, heq⟩ := Option.map_eq_some_iff.1 h
    obtain ⟨rfl, -⟩ := Prod.mk.inj heq
    exact .repeated hb hr
  unfold step at h
  dsimp only at h
  split at h
  case h_1 => exact Or.inr ⟨by decide, change_of_openGroup h⟩
  case h_2 =>
    obtain ⟨_, hr, heq⟩ := Option.map_eq_some_iff.1 h
    obtain ⟨rfl, -⟩ := Prod.mk.inj heq
    exact Or.inl ⟨rfl, hr⟩
  case h_3 =>
    cases h
    exact Or.inr ⟨by decide, .branch⟩
  case h_4 =>
    obtain ⟨x, -, h⟩ := Option.bind_eq_some_iff.1 h
    cases h
    exact Or.inr ⟨by decide, .pushed trivial⟩
  case h_5 => exact Or.inr ⟨by decide, hrepeat (by simp) h⟩
  case h_6 => exact Or.inr ⟨by decide, hrepeat (by simp) h⟩
  case h_7 => exact Or.inr ⟨by decide, hrepeat (by simp) h⟩
  case h_8 =>
    obtain ⟨x, hbounds, h⟩ := Option.bind_eq_some_iff.1 h
    obtain ⟨r'', hr, h⟩ := Option.bind_eq_some_iff.1 h
    cases h
    exact Or.inr ⟨by decide, .repeated (ordered_of_readBounds hbounds) hr⟩
  case h_9 =>
    obtain ⟨x, -, h⟩ := Option.bind_eq_some_iff.1 h
    obtain ⟨p, hp, h⟩ := Option.bind_eq_some_iff.1 h
    cases h
    exact Or.inr ⟨by decide, .pushed (ordered_of_piece hp)⟩
  case h_10 =>
    split at h
    · cases h
      exact Or.inr ⟨by decide, .pushed trivial⟩
    · cases h
  case h_11 =>
    cases h
    exact Or.inr ⟨by decide, .pushed trivial⟩
  case h_12 =>
    cases h
    exact Or.inr ⟨by decide, .pushed trivial⟩
  case h_13 hc _ _ _ _ _ _ _ _ _ _ =>
    obtain ⟨p, hp, h⟩ := Option.bind_eq_some_iff.1 h
    cases h
    exact Or.inr ⟨hc, .pushed (ordered_of_piece hp)⟩

/-! ### More groups around -/

/-- The reader with more groups open around its own. -/
def Reader.within (r : Reader) (ls : List Level) : Reader := { r with around := r.around ++ ls }

theorem closeGroup_within (h : r.around ≠ []) (ls : List Level) :
    closeGroup (r.within ls) = (closeGroup r).map (·.within ls) := by
  unfold closeGroup Reader.within
  cases hr : r.around with
  | nil => exact absurd hr h
  | cons outer around => rfl

theorem repeatLast_within (r : Reader) (ls : List Level) (least : Nat) (most : Option Nat) :
    repeatLast (r.within ls) least most = (repeatLast r least most).map (·.within ls) := by
  unfold repeatLast Reader.within
  dsimp only
  split
  · split <;> rfl
  · rfl

theorem openGroup_within (r : Reader) (ls : List Level) (cs : List Char) :
    openGroup (r.within ls) cs = (openGroup r cs).map fun x => (x.1.within ls, x.2) := by
  have hnamed (cs : List Char) : openGroup.named (r.within ls) cs =
      (openGroup.named r cs).map fun x => (x.1.within ls, x.2) := by
    unfold openGroup.named
    show (readName cs).bind _ = ((readName cs).bind _).map _
    cases readName cs with
    | none => rfl
    | some x =>
      show (if r.names.contains x.1 then _ else _) = Option.map _ (if r.names.contains x.1 then _ else _)
      split <;> rfl
  rw [openGroup_eq, openGroup_eq]
  show openHead (r.within ls) (skip r.flags cs) = _
  unfold openHead
  split
  · exact hnamed _
  · exact hnamed _
  · rename_i rest _ _ _
    show (readFlags r.flags [] false false rest).bind _ =
      ((readFlags r.flags [] false false rest).bind _).map _
    cases readFlags r.flags [] false false rest with
    | none => rfl
    | some x =>
      dsimp only [Option.bind_some]
      split
      · split <;> rfl
      · rfl
      · rfl
  · rfl

theorem step_within (h : c = ')' → r.around ≠ []) (cs : List Char) (ls : List Level) :
    step (r.within ls) (c :: cs) = (step r (c :: cs)).map fun x => (x.1.within ls, x.2) := by
  unfold step
  dsimp only
  split
  case h_1 => exact openGroup_within r ls cs
  case h_2 => rw [closeGroup_within (h rfl), Option.map_map, Option.map_map]; rfl
  case h_4 => 
    show (readBracketed r.flags cs).bind _ = ((readBracketed r.flags cs).bind _).map _
    cases readBracketed r.flags cs <;> rfl
  case h_5 => rw [repeatLast_within, Option.map_map, Option.map_map]; rfl
  case h_6 => rw [repeatLast_within, Option.map_map, Option.map_map]; rfl
  case h_7 => rw [repeatLast_within, Option.map_map, Option.map_map]; rfl
  case h_8 =>
    show (readBounds r.flags cs).bind _ = ((readBounds r.flags cs).bind _).map _
    cases readBounds r.flags cs with
    | none => rfl
    | some x =>
      show (repeatLast (r.within ls) x.1.1 x.1.2).bind _ = ((repeatLast r x.1.1 x.1.2).bind _).map _
      rw [repeatLast_within]
      cases repeatLast r x.1.1 x.1.2 <;> rfl
  case h_9 =>
    show (readEscape r.flags cs).bind _ = ((readEscape r.flags cs).bind _).map _
    cases readEscape r.flags cs with
    | none => rfl
    | some x =>
      show (x.1.piece r.flags).bind _ = ((x.1.piece r.flags).bind _).map _
      cases x.1.piece r.flags <;> rfl
  case h_10 =>
    show (if r.flags.unicode then _ else _) = _
    split <;> rfl
  case h_13 => 
    show ((Atom.char c).piece r.flags).bind _ = (((Atom.char c).piece r.flags).bind _).map _
    cases (Atom.char c).piece r.flags <;> rfl
  all_goals rfl

theorem around_of_step (h : step r (c :: cs) = some (r', rest)) (hc : c = ')') : r.around ≠ [] := by
  intro ha
  obtain ⟨-, hclose⟩ | ⟨hne, -⟩ := step_cases h
  · unfold closeGroup at hclose
    rw [ha] at hclose
    cases hclose
  · exact hne hc

/-! ### Runs -/

theorem run_of_nil (h : skip r.flags cs = []) : run r cs = some r := by
  rw [run]
  simp only [h]

theorem run_of_none (h : skip r.flags cs = c :: left) (hs : step r (c :: left) = none) :
    run r cs = none := by
  rw [run]
  simp only [h, hs]

theorem run_of_step (h : skip r.flags cs = c :: left) (hs : step r (c :: left) = some (r', rest)) :
    run r cs = run r' rest := by
  have hle := (along_skip r.flags).length_le cs
  rw [h] at hle
  rw [run]
  simp only [h, hs]
  rw [if_pos (Nat.lt_of_lt_of_le (takes_step hs) hle)]

theorem run_congr {cs' : List Char} (h : skip r.flags cs = skip r.flags cs') : run r cs = run r cs' := by
  cases hs : skip r.flags cs with
  | nil => rw [run_of_nil hs, run_of_nil (h.symm.trans hs)]
  | cons c left =>
    cases hstep : step r (c :: left) with
    | none => rw [run_of_none hs hstep, run_of_none (h.symm.trans hs) hstep]
    | some x =>
      obtain ⟨r', rest⟩ := x
      rw [run_of_step hs hstep, run_of_step (h.symm.trans hs) hstep]

/-- A text is read item by item, to its end or to what is no item. -/
theorem run_induction {P : Reader → List Char → Prop}
    (hend : ∀ r cs, skip r.flags cs = [] → P r cs)
    (hstop : ∀ r cs c left, skip r.flags cs = c :: left → step r (c :: left) = none → P r cs)
    (hstep : ∀ r cs c left r' rest, skip r.flags cs = c :: left →
      step r (c :: left) = some (r', rest) → P r' rest → P r cs)
    (r : Reader) (cs : List Char) : P r cs := by
  cases hs : skip r.flags cs with
  | nil => exact hend r cs hs
  | cons c left =>
    cases h : step r (c :: left) with
    | none => exact hstop r cs c left hs h
    | some x =>
      have hlt : x.2.length < cs.length :=
        Nat.lt_of_lt_of_le (takes_step h) (hs ▸ (along_skip r.flags).length_le cs)
      exact hstep r cs c left x.1 x.2 hs h (run_induction hend hstop hstep x.1 x.2)
termination_by cs.length

/-- An item is the same one with more groups around and something behind it. -/
theorem run_behind (hk : Behind cs k) (hs : skip r.flags cs = c :: left)
    (hstep : step r (c :: left) = some (r', rest)) :
    ∃ k', Behind rest k' ∧ ∀ t, Closing t → ∀ ls,
      run (r.within ls) (k t) = run (r'.within ls) (k' t) := by
  obtain ⟨k₁, hk₁, hskip⟩ := (along_skip r.flags).keeps hk
  rw [hs] at hk₁
  obtain ⟨k', hk', hitem⟩ := step_keeps hk₁ hstep
  refine ⟨k', hk', fun t ht ls => ?_⟩
  have hwithin : step (r.within ls) (c :: (left ++ t)) = some (r'.within ls, k' t) := by
    rw [step_within (around_of_step hstep), ← hk₁.of_cons t, hitem t ht]
    rfl
  exact run_of_step (r := r.within ls) ((hskip t ht).trans (hk₁.of_cons t)) hwithin

/-- A pattern that is read to its end by itself is read so with more groups around, and what is behind it is
left, unless a comment at its end has taken it in. -/
theorem run_keeps (hk : Behind cs k) (h : run r cs = some q) :
    ∃ k', Behind [] k' ∧ ∀ t, Closing t → ∀ ls, run (r.within ls) (k t) = run (q.within ls) (k' t) := by
  induction r, cs using run_induction generalizing k with
  | hend r cs hs =>
    obtain rfl := Option.some.inj ((run_of_nil hs).symm.trans h)
    obtain ⟨k', hk', hskip⟩ := (along_skip r.flags).keeps hk
    rw [hs] at hk'
    refine ⟨k', hk', fun t ht ls => run_congr ((hskip t ht).trans ?_)⟩
    obtain hgoes | hgone := hk'.of_nil
    · rw [hgoes]
      exact (skip_closing ht).symm
    · rw [hgone]
      exact (skip_nil _).symm
  | hstop r cs c left hs hstep =>
    rw [run_of_none hs hstep] at h
    cases h
  | hstep r cs c left r' rest hs hstep ih =>
    obtain ⟨k₁, hk₁, hnext⟩ := run_behind hk hs hstep
    obtain ⟨k', hk', hrun⟩ := ih hk₁ ((run_of_step hs hstep).symm.trans h)
    exact ⟨k', hk', fun t ht ls => (hnext t ht ls).trans (hrun t ht ls)⟩

/-- The reader comes to a closing bracket when no group is open. -/
inductive Unopened : Reader → List Char → Prop
  | here {r : Reader} {cs left : List Char} (hs : skip r.flags cs = ')' :: left) (ha : r.around = []) :
      Unopened r cs
  | later {r r' : Reader} {cs left rest : List Char} {c : Char} (hs : skip r.flags cs = c :: left)
      (hstep : step r (c :: left) = some (r', rest)) (h : Unopened r' rest) : Unopened r cs

/-- The anchor behind the closing bracket closes no group. -/
theorem around_of_run_anchor (hrest : rest = [] ∨ rest = ['$']) (h : run r rest = some q) :
    q.around = r.around := by
  obtain rfl | rfl := hrest
  · rw [run_of_nil (skip_nil _)] at h
    cases h
    rfl
  · have hstep : step r ['$'] = some (r.push
        { regex := .look (if r.flags.multiLine then .lineEnd r.flags.crlf else .textEnd) }, []) := rfl
    rw [run_of_step (skip_of_ne (by decide) (by decide)) hstep, run_of_nil (skip_nil _)] at h
    cases h
    rfl

theorem suffix_anchor (hsuffix : rest <:+ cs ++ [')', '$']) (hlt : rest.length < [')', '$'].length) :
    rest = [] ∨ rest = ['$'] := by
  have hrest := List.suffix_of_suffix_length_le hsuffix (List.suffix_append cs _) (Nat.le_of_lt hlt)
  obtain rfl | hrest := List.suffix_cons_iff.1 hrest
  · exact absurd hlt (Nat.lt_irrefl _)
  · obtain rfl | hrest := List.suffix_cons_iff.1 hrest
    · exact Or.inr rfl
    · exact Or.inl (List.suffix_nil.1 hrest)

/-- A pattern that can be read in the wrapping can be read by itself, or it closes a group that it has not
opened. -/
theorem run_breaks (hk : Behind cs k) (hls : ls ≠ [])
    (h : run (r.within ls) (k [')', '$']) = some q) (hq : q.around = []) :
    (∃ q', run r cs = some q' ∧ q'.around = []) ∨ Unopened r cs := by
  have ht : Closing [')', '$'] := .anchored
  -- A group of the wrapping that is open behind the closing bracket stays so.
  have hanchor {r : Reader} {rest : List Char} (hrest : rest = [] ∨ rest = ['$'])
      (h : run (r.within ls) rest = some q) : False := by
    have ha := (around_of_run_anchor hrest h).symm.trans hq
    exact hls (List.append_eq_nil_iff.1 ha).2
  induction r, cs using run_induction generalizing k with
  | hend r cs hs =>
    obtain ⟨k', hk', hskip⟩ := (along_skip r.flags).keeps hk
    rw [hs] at hk'
    have hskip := hskip _ ht
    obtain hgoes | hgone := hk'.of_nil
    · rw [hgoes] at hskip
      cases ha : r.around with
      | nil => exact Or.inl ⟨r, run_of_nil hs, ha⟩
      | cons outer around =>
        have hwithin := step_within (c := ')') (r := r) (fun _ => by simp [ha]) ['$'] ls
        have hclose : step r [')', '$'] = (closeGroup r).map (·, ['$']) := rfl
        rw [hclose, closeGroup, ha] at hwithin
        rw [run_of_step (r := r.within ls) hskip hwithin] at h
        exact absurd h fun h => hanchor (Or.inr rfl) h
    · rw [hgone] at hskip
      rw [run_of_nil (r := r.within ls) hskip, ← run_of_nil (skip_nil _)] at h
      exact absurd h fun h => hanchor (Or.inl rfl) h
  | hstop r cs c left hs hstep =>
    obtain ⟨k', hk', hskip⟩ := (along_skip r.flags).keeps hk
    rw [hs] at hk'
    have hskip := (hskip _ ht).trans (hk'.of_cons _)
    by_cases hun : c = ')' ∧ r.around = []
    · obtain ⟨rfl, ha⟩ := hun
      exact Or.inr (.here hs ha)
    exfalso
    have hwithin := step_within (fun hc ha => hun ⟨hc, ha⟩) (left ++ [')', '$']) ls
    cases hown : step r (c :: (left ++ [')', '$'])) with
    | none =>
      rw [hown] at hwithin
      rw [run_of_none (r := r.within ls) hskip hwithin] at h
      cases h
    | some x =>
      obtain ⟨r', rest⟩ := x
      rw [hown] at hwithin
      rw [run_of_step (r := r.within ls) hskip hwithin] at h
      obtain hshort | ⟨inner, hinner, hflags, rfl⟩ :=
        step_breaks (.goes (c :: left)) (List.cons_ne_nil _ _) hstep ht hown
      · have hsuffix : rest <:+ (c :: left) ++ [')', '$'] := step_isSuffix hown
        exact hanchor (suffix_anchor hsuffix hshort) h
      · have hbounds : readBounds (r'.within ls).flags inner = none :=
          readBounds_closing ht (hflags ▸ hinner)
        have hbrace : step (r'.within ls) ('\x7b' :: inner) = none := by
          show (readBounds (r'.within ls).flags inner).bind _ = none
          rw [hbounds]
          rfl
        rw [run_of_none (skip_of_ne (by decide) (by decide)) hbrace] at h
        cases h
  | hstep r cs c left r' rest hs hstep ih =>
    obtain ⟨k', hk', hnext⟩ := run_behind hk hs hstep
    obtain ⟨q', hrun, hq'⟩ | hun := ih hk' ((hnext _ ht ls).symm.trans h)
    · exact Or.inl ⟨q', (run_of_step hs hstep).trans hrun, hq'⟩
    · exact Or.inr (.later hs hstep hun)

end Regex

end GroupConsumer
