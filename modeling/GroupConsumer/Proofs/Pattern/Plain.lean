import GroupConsumer.Proofs.Pattern.Wrapped

/-!
# Plain patterns

Letters, digits, the anchors of the text, groups without a name, rows and alternatives are read the same way
by every library of regular expressions. `Plain` says which texts are made of them and what they stand for,
and the reader makes of them what it should (`Plain.grasped`).
-/

namespace GroupConsumer

namespace Regex

/-- What a plain text is: a single item, items in a row, or alternatives. -/
inductive Kind where
  | item
  | row
  | whole

/-- A text of letters, digits, anchors, groups and alternatives, and what it stands for. -/
inductive Plain : Kind → List Char → Regex → Prop
  | letter {c : Char} (h : c.isAlphanum = true) : Plain .item [c] (.one (.single c))
  | textStart : Plain .item ['^'] (.look .textStart)
  | textEnd : Plain .item ['$'] (.look .textEnd)
  | group {x : List Char} {a : Regex} (h : Plain .whole x a) :
      Plain .item ('(' :: '?' :: ':' :: (x ++ [')'])) a
  | nil : Plain .row [] .empty
  | cons {x y : List Char} {a b : Regex} (hx : Plain .item x a) (hy : Plain .row y b) :
      Plain .row (x ++ y) (.seq a b)
  | alone {x : List Char} {a : Regex} (h : Plain .row x a) : Plain .whole x a
  | either {x y : List Char} {a b : Regex} (hx : Plain .row x a) (hy : Plain .whole y b) :
      Plain .whole (x ++ '|' :: y) (.alt a b)

/-- Two expressions match the same parts of every text. -/
def Alike (a b : Regex) : Prop := ∀ t i j, Spans t a i j ↔ Spans t b i j

variable {t : List Char} {a b : Regex} {i j k : Nat} {ps bs : List Piece} {p : Piece} {kind : Kind}
  {x y : List Char} {r : Reader}

theorem Alike.symm (h : Alike a b) : Alike b a := fun t i j => (h t i j).symm

theorem Alike.trans {c : Regex} (h : Alike a b) (h' : Alike b c) : Alike a c :=
  fun t i j => (h t i j).trans (h' t i j)

theorem spans_empty_iff : Spans t .empty i j ↔ i = j := by
  constructor
  · intro h
    cases h
    rfl
  · rintro rfl
    exact .empty

theorem spans_seq_iff : Spans t (.seq a b) i k ↔ ∃ j, Spans t a i j ∧ Spans t b j k := by
  constructor
  · intro h
    cases h with
    | seq ha hb => exact ⟨_, ha, hb⟩
  · rintro ⟨j, ha, hb⟩
    exact .seq ha hb

theorem spans_alt_iff : Spans t (.alt a b) i j ↔ Spans t a i j ∨ Spans t b i j := by
  constructor
  · intro h
    cases h with
    | altLeft h => exact Or.inl h
    | altRight h => exact Or.inr h
  · rintro (h | h)
    · exact .altLeft h
    · exact .altRight h

theorem Alike.seq {c d : Regex} (h : Alike a b) (h' : Alike c d) : Alike (.seq a c) (.seq b d) := by
  intro t i j
  rw [spans_seq_iff, spans_seq_iff]
  exact exists_congr fun m => and_congr (h t i m) (h' t m j)

/-! ### Pieces that are joined -/

theorem alike_seq_empty (a : Regex) : Alike (.seq a .empty) a := by
  intro t i j
  rw [spans_seq_iff]
  constructor
  · rintro ⟨m, ha, hm⟩
    obtain rfl := spans_empty_iff.1 hm
    exact ha
  · intro ha
    exact ⟨j, ha, .empty⟩

theorem alike_joinPieces (ps : List Piece) :
    Alike (joinPieces ps).regex (ps.foldl (fun acc p => .seq p.regex acc) .empty) := by
  unfold joinPieces
  split
  · exact fun _ _ _ => Iff.rfl
  · exact (alike_seq_empty _).symm
  · exact fun _ _ _ => Iff.rfl

/-- Pieces are joined last first. -/
theorem alike_joinPieces_concat (ps : List Piece) (p : Piece) :
    Alike (joinPieces (ps ++ [p])).regex (.seq p.regex (joinPieces ps).regex) := by
  refine (alike_joinPieces (ps ++ [p])).trans ?_
  rw [List.foldl_append]
  exact Alike.seq (fun _ _ _ => Iff.rfl) (alike_joinPieces ps).symm

theorem spans_foldl_alt (ps : List Piece) :
    Spans t (ps.foldl (fun acc q => .alt q.regex acc) a) i j ↔
      Spans t a i j ∨ ∃ q ∈ ps, Spans t q.regex i j := by
  induction ps generalizing a with
  | nil => simp
  | cons p ps ih =>
    simp only [List.foldl_cons, ih, spans_alt_iff, List.mem_cons, exists_eq_or_imp]
    exact or_assoc.trans or_left_comm

theorem spans_joinBranches_cons :
    Spans t (joinBranches (p :: ps)).regex i j ↔ ∃ q ∈ p :: ps, Spans t q.regex i j := by
  cases ps with
  | nil => simp [joinBranches]
  | cons q ps =>
    refine (spans_foldl_alt (q :: ps)).trans ?_
    simp only [List.mem_cons, exists_eq_or_imp]

/-! ### Plain texts are read as what they stand for -/

/-- The reader goes through a text and adds what it stands for to what it has read. -/
def Grasped : Kind → List Char → Regex → Prop
  | .item, x, a => ∃ p : Piece, Alike p.regex a ∧
      ∀ (r : Reader) (rest : List Char), r.flags = {} → run r (x ++ rest) = run (r.push p) rest
  | .row, x, a => ∃ ps, Alike (joinPieces ps).regex a ∧
      ∀ (r : Reader) (rest : List Char), r.flags = {} → run r (x ++ rest) =
        run { r with level := { r.level with pieces := ps ++ r.level.pieces } } rest
  | .whole, x, a => ∃ ps bs, Alike (joinBranches (joinPieces ps :: bs)).regex a ∧
      ∀ (r : Reader) (rest : List Char), r.flags = {} → r.level.pieces = [] → run r (x ++ rest) =
        run { r with level :=
          { r.level with branches := bs ++ r.level.branches, pieces := ps } } rest

theorem run_cons {c : Char} {cs rest : List Char} {r' : Reader} (hr : r.flags = {})
    (h : step r (c :: cs) = some (r', rest)) : run r (c :: cs) = run r' rest := by
  have hskip : skip r.flags (c :: cs) = c :: cs := by rw [hr]; rfl
  exact run_of_step hskip h

theorem step_bracket (r : Reader) (cs : List Char) :
    step r (')' :: cs) = (closeGroup r).map (·, cs) := rfl

theorem step_bar (r : Reader) (cs : List Char) : step r ('|' :: cs) = some ({ r with level :=
    { r.level with branches := joinPieces r.level.pieces :: r.level.branches, pieces := [] } }, cs) := rfl

theorem step_letter {c : Char} (hc : c.isAlphanum = true) (hr : r.flags = {}) (cs : List Char) :
    step r (c :: cs) = some (r.push { regex := .one (.single c) }, cs) := by
  have hpiece : (Atom.char c).piece r.flags = some { regex := .one (.single c) } := by
    rw [hr]
    rfl
  unfold step
  dsimp only
  split
  case h_13 => rw [hpiece]; rfl
  all_goals exact absurd hc (by decide)

theorem Plain.grasped (h : Plain kind x a) : Grasped kind x a := by
  induction h with
  | @letter c hc =>
    refine ⟨{ regex := .one (.single c) }, fun _ _ _ => Iff.rfl, ?_⟩
    intro r rest hr
    exact run_cons hr (step_letter hc hr rest)
  | textStart =>
    refine ⟨{ regex := .look .textStart }, fun _ _ _ => Iff.rfl, ?_⟩
    intro r rest hr
    refine run_cons hr ?_
    show some (r.push { regex := .look (if r.flags.multiLine then _ else _) }, rest) = _
    rw [hr]
    rfl
  | textEnd =>
    refine ⟨{ regex := .look .textEnd }, fun _ _ _ => Iff.rfl, ?_⟩
    intro r rest hr
    refine run_cons hr ?_
    show some (r.push { regex := .look (if r.flags.multiLine then _ else _) }, rest) = _
    rw [hr]
    rfl
  | @group x a _ ih =>
    obtain ⟨ps, bs, halike, hrun⟩ := ih
    let p := joinBranches (joinPieces ps :: bs)
    refine ⟨{ p with height := p.height + 1, repeatable := true }, halike, ?_⟩
    intro r rest hr
    have hopen : step r ('(' :: '?' :: ':' :: (x ++ [')'] ++ rest)) =
        some (r.enter {}, x ++ [')'] ++ rest) := by
      show openGroup r ('?' :: ':' :: (x ++ [')'] ++ rest)) = _
      rw [openGroup, hr]
      rfl
    refine (run_cons hr hopen).trans ?_
    rw [List.append_assoc, hrun (r.enter {}) _ rfl rfl]
    refine run_cons rfl ((step_bracket _ _).trans ?_)
    simp [closeGroup, Reader.enter, Reader.push, Level.close, hr, p]
  | nil =>
    refine ⟨[], fun _ _ _ => Iff.rfl, ?_⟩
    intro r rest _
    rfl
  | cons _ _ ihx ihy =>
    obtain ⟨p, hp, hrunx⟩ := ihx
    obtain ⟨ps, hps, hruny⟩ := ihy
    refine ⟨ps ++ [p], (alike_joinPieces_concat ps p).trans (hp.seq hps), ?_⟩
    intro r rest hr
    rw [List.append_assoc, hrunx r _ hr, hruny (r.push p) rest hr, List.append_assoc]
    rfl
  | alone _ ih =>
    obtain ⟨ps, hps, hrun⟩ := ih
    refine ⟨ps, [], hps, ?_⟩
    intro r rest hr hnil
    rw [hrun r rest hr, hnil, List.append_nil]
    rfl
  | either _ _ ihx ihy =>
    obtain ⟨ps, hps, hrunx⟩ := ihx
    obtain ⟨qs, bs, hqs, hruny⟩ := ihy
    refine ⟨qs, bs ++ [joinPieces ps], ?_, ?_⟩
    · intro t i j
      rw [spans_alt_iff, ← hps t i j, ← hqs t i j, spans_joinBranches_cons, spans_joinBranches_cons,
        ← List.cons_append]
      simp only [List.mem_append, List.mem_singleton, or_and_right, exists_or, exists_eq_left]
      exact or_comm
    · intro r rest hr hnil
      rw [List.append_assoc, hrunx r _ hr, hnil, List.append_nil]
      refine (run_cons (by exact hr) (step_bar _ _)).trans ?_
      refine (hruny _ rest (by exact hr) rfl).trans ?_
      simp only [List.append_assoc]
      rfl

/-- What a plain text is read as, by itself and in front of a bracket that closes nothing. -/
theorem Plain.run_start (h : Plain .whole x a) : ∃ l : Level, Alike l.close.regex a ∧
    ∀ rest, run { level := { outer := {} } } (x ++ rest) = run { level := l } rest := by
  obtain ⟨ps, bs, halike, hrun⟩ := h.grasped
  refine ⟨{ branches := bs ++ [], pieces := ps, outer := {} }, ?_, ?_⟩
  · rw [List.append_nil]
    exact halike
  · intro rest
    exact hrun { level := { outer := {} } } rest rfl rfl

end Regex

end GroupConsumer
