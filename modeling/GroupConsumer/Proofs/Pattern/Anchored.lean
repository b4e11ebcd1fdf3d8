import GroupConsumer.Pattern.Basic
import GroupConsumer.Proofs.Pattern.Plain

/-!
# Patterns between the anchors of the text

A pattern is put between an opening group and the anchors of the text before it is read. If it is a pattern
by itself, what results is a pattern unless a comment at its end takes in the closing bracket or it is nested
too deeply for two more levels, and its tree is that of the pattern between the anchors (`read?_wrap`). A
text that is no pattern by itself is accepted only if it closes a group that it has not opened, and with it
the group around it (`unopened_of_wrap`).
-/

namespace GroupConsumer

namespace Regex

variable {cs rest left t : List Char} {k : List Char → List Char} {f : Flags} {c : Char}
  {r r' q : Reader} {p : Piece}

/-! ### What a reader keeps -/

/-- No repetition of a group asks for more matches than it allows. -/
def Level.Ordered (l : Level) : Prop := ∀ p ∈ l.branches ++ l.pieces, p.regex.Ordered

theorem ordered_foldl_seq (ps : List Piece) {acc : Regex} (hacc : acc.Ordered)
    (h : ∀ p ∈ ps, p.regex.Ordered) : (ps.foldl (fun acc p => .seq p.regex acc) acc).Ordered := by
  induction ps generalizing acc with
  | nil => exact hacc
  | cons p ps ih =>
    exact ih ⟨h p List.mem_cons_self, hacc⟩ fun q hq => h q (List.mem_cons_of_mem p hq)

theorem ordered_foldl_alt (ps : List Piece) {acc : Regex} (hacc : acc.Ordered)
    (h : ∀ p ∈ ps, p.regex.Ordered) : (ps.foldl (fun acc p => .alt p.regex acc) acc).Ordered := by
  induction ps generalizing acc with
  | nil => exact hacc
  | cons p ps ih =>
    exact ih ⟨h p List.mem_cons_self, hacc⟩ fun q hq => h q (List.mem_cons_of_mem p hq)

theorem ordered_joinPieces {ps : List Piece} (h : ∀ p ∈ ps, p.regex.Ordered) :
    (joinPieces ps).regex.Ordered := by
  unfold joinPieces
  split
  · trivial
  · exact h _ List.mem_cons_self
  · exact ordered_foldl_seq ps trivial h

theorem ordered_joinBranches {ps : List Piece} (h : ∀ p ∈ ps, p.regex.Ordered) :
    (joinBranches ps).regex.Ordered := by
  unfold joinBranches
  split
  · trivial
  · exact h _ List.mem_cons_self
  · exact ordered_foldl_alt _ (h _ List.mem_cons_self) fun q hq => h q (List.mem_cons_of_mem _ hq)

theorem Level.Ordered.close {l : Level} (h : l.Ordered) : l.close.regex.Ordered := by
  refine ordered_joinBranches fun p hp => ?_
  obtain rfl | hp := List.mem_cons.1 hp
  · exact ordered_joinPieces fun p hp => h p (List.mem_append_right _ hp)
  · exact h p (List.mem_append_left _ hp)

theorem Level.Ordered.push {l : Level} (h : l.Ordered) (hp : p.regex.Ordered) :
    Level.Ordered { l with pieces := p :: l.pieces } := by
  intro q hq
  obtain hq | hq := List.mem_append.1 hq
  · exact h q (List.mem_append_left _ hq)
  · obtain rfl | hq := List.mem_cons.1 hq
    · exact hp
    · exact h q (List.mem_append_right _ hq)

/-- The flags that hold behind each of the groups that are open, the innermost first. -/
def Reader.outers (r : Reader) : List Flags := (r.level :: r.around).map (·.outer)

/-- No repetition asks for more than it allows, and no flag holds behind the outermost group. -/
structure Reader.Sane (r : Reader) : Prop where
  level : r.level.Ordered
  around : ∀ l ∈ r.around, l.Ordered
  outermost : r.outers.getLast? = some {}

theorem Change.sane (h : Change r r') (hr : r.Sane) : r'.Sane := by
  cases h with
  | enter names f =>
    refine ⟨fun p hp => absurd hp List.not_mem_nil, fun l hl => ?_, ?_⟩
    · obtain rfl | hl := List.mem_cons.1 hl
      · exact hr.level
      · exact hr.around l hl
    · exact hr.outermost
  | push f hp => exact ⟨hr.level.push hp, hr.around, hr.outermost⟩
  | branch =>
    refine ⟨fun p hp => ?_, hr.around, hr.outermost⟩
    obtain rfl | hp := List.mem_cons.1 (List.append_nil _ ▸ hp)
    · exact ordered_joinPieces fun p hp => hr.level p (List.mem_append_right _ hp)
    · exact hr.level p (List.mem_append_left _ hp)
  | repeated hbounds hrepeat =>
    unfold repeatLast at hrepeat
    split at hrepeat
    · rename_i p ps hpieces
      split at hrepeat
      · cases hrepeat
        have hp (q : Piece) (hq : q ∈ p :: ps) : q.regex.Ordered :=
          hr.level q (List.mem_append_right _ (hpieces ▸ hq))
        refine ⟨fun q hq => ?_, hr.around, hr.outermost⟩
        obtain hq | hq := List.mem_append.1 hq
        · exact hr.level q (List.mem_append_left _ hq)
        · obtain rfl | hq := List.mem_cons.1 hq
          · exact ⟨hp p List.mem_cons_self, hbounds⟩
          · exact hp q (List.mem_cons_of_mem p hq)
      · cases hrepeat
    · cases hrepeat

theorem sane_of_closeGroup (h : closeGroup r = some r') (hr : r.Sane) : r'.Sane := by
  unfold closeGroup at h
  split at h
  · cases h
  · rename_i outer around ha
    cases h
    refine ⟨Level.Ordered.push (hr.around outer ?_) hr.level.close, fun l hl => hr.around l ?_, ?_⟩
    · exact ha ▸ List.mem_cons_self
    · exact ha ▸ List.mem_cons_of_mem outer hl
    · have hlast := hr.outermost
      unfold Reader.outers at hlast
      rw [ha] at hlast
      exact hlast

theorem sane_of_step (h : step r (c :: cs) = some (r', rest)) (hr : r.Sane) : r'.Sane := by
  obtain ⟨-, hclose⟩ | ⟨-, hchange⟩ := step_cases h
  · exact sane_of_closeGroup hclose hr
  · exact hchange.sane hr

theorem sane_of_run (h : run r cs = some q) (hr : r.Sane) : q.Sane := by
  induction r, cs using run_induction with
  | hend r cs hs =>
    obtain rfl := Option.some.inj ((run_of_nil hs).symm.trans h)
    exact hr
  | hstop r cs c left hs hstep =>
    rw [run_of_none hs hstep] at h
    cases h
  | hstep r cs c left r' rest hs hstep ih =>
    exact ih ((run_of_step hs hstep).symm.trans h) (sane_of_step hstep hr)

/-! ### Patterns by themselves and in the wrapping -/

/-- The reader before it has read anything. -/
def start : Reader := { level := { outer := {} } }

theorem sane_start : start.Sane :=
  ⟨fun _ hp => absurd hp List.not_mem_nil, fun _ hl => absurd hl List.not_mem_nil, rfl⟩

/-- A text as a pattern by itself, however deeply it is nested. -/
def whole? (cs : List Char) : Option Piece :=
  (run start cs).bind fun r => if r.around.isEmpty then some r.level.close else none

theorem read?_eq (cs : List Char) :
    read? cs = (whole? cs).bind fun p => if p.height ≤ mostNested then some p.regex else none := by
  have hstart : ({ level := { outer := {} } } : Reader) = start := rfl
  unfold read? whole?
  rw [hstart]
  cases run start cs with
  | none => rfl
  | some r =>
    cases ha : r.around with
    | nil => simp [ha]
    | cons l ls => simp [ha]

theorem whole?_eq_some : whole? cs = some p ↔
    ∃ q, run start cs = some q ∧ q.around = [] ∧ q.level.close = p := by
  unfold whole?
  rw [Option.bind_eq_some_iff]
  refine exists_congr fun q => and_congr_right fun _ => ?_
  cases q.around with
  | nil => simp
  | cons l ls => simp

/-- The group that the wrapping opens is in the outermost one, behind the anchor. -/
def wrapping : Level := { pieces := [{ regex := .look .textStart }], outer := {} }

/-- An expression between the anchors of the text. -/
def anchored (r : Regex) : Regex := .seq (.look .textStart) (.seq r (.seq (.look .textEnd) .empty))

theorem run_wrap (source : String) :
    run start (Pattern.wrap source) = run (start.within [wrapping]) (source.toList ++ [')', '$']) := by
  have hwrap : Pattern.wrap source = '^' :: '(' :: '?' :: ':' :: (source.toList ++ [')', '$']) := rfl
  have hstart (rest : List Char) : step start ('^' :: rest) =
      some (start.push { regex := .look .textStart }, rest) := rfl
  have hgroup (rest : List Char) : step (start.push { regex := .look .textStart })
      ('(' :: '?' :: ':' :: rest) = some (start.within [wrapping], rest) := rfl
  rw [hwrap, run_of_step rfl (hstart _), run_of_step rfl (hgroup _)]

/-- What the end of the wrapping makes of a pattern that has been read in it. -/
theorem run_end (hq : q.Sane) (ha : q.around = []) : ∃ q', run (q.within [wrapping]) [')', '$'] = some q' ∧
    q'.around = [] ∧ q'.level.close =
      { regex := anchored q.level.close.regex, height := q.level.close.height + 2 } := by
  have houter : q.level.outer = {} := by
    have hlast := hq.outermost
    rw [Reader.outers, ha] at hlast
    exact Option.some.inj hlast
  have hclose : step (q.within [wrapping]) [')', '$'] = some ({ q with
      level := { wrapping with pieces :=
        { q.level.close with height := q.level.close.height + 1, repeatable := true } :: wrapping.pieces }
      around := [], flags := {} }, ['$']) := by
    show (closeGroup (q.within [wrapping])).map _ = _
    simp only [closeGroup, Reader.within, ha, houter, List.nil_append, Option.map_some]
  refine ⟨_, (run_of_step (skip_of_ne (by decide) (by decide)) hclose).trans
    ((run_of_step rfl rfl).trans (run_of_nil rfl)), rfl, ?_⟩
  simp [Level.close, Reader.push, joinBranches, joinPieces, wrapping, anchored]

/-- A pattern by itself is one in the wrapping too, unless a comment at its end takes in the bracket that is
put behind it. -/
theorem whole?_wrap {source : String} (h : whole? source.toList = some p) :
    (whole? (source.toList ++ [')']) = none ∧ whole? (Pattern.wrap source) =
        some { regex := anchored p.regex, height := p.height + 2 }) ∨
      (whole? (source.toList ++ [')']) = some p ∧ whole? (Pattern.wrap source) = none) := by
  obtain ⟨q, hrun, ha, rfl⟩ := whole?_eq_some.1 h
  have hq : q.Sane := sane_of_run hrun sane_start
  obtain ⟨k, hk, hwith⟩ := run_keeps (.goes source.toList) hrun
  have hbracket : run start (source.toList ++ [')']) = run (q.within []) (k [')']) :=
    hwith _ .bracket []
  have hwrap := (run_wrap source).trans (hwith _ .anchored [wrapping])
  obtain hgoes | hgone := hk.of_nil
  · left
    rw [hgoes] at hbracket hwrap
    have hclose : step (q.within []) [')'] = none := by
      show (closeGroup (q.within [])).map _ = none
      simp [closeGroup, Reader.within, ha]
    obtain ⟨q', hend, ha', hlevel⟩ := run_end hq ha
    refine ⟨?_, whole?_eq_some.2 ⟨q', hwrap.trans hend, ha', hlevel⟩⟩
    rw [whole?, hbracket, run_of_none (skip_of_ne (by decide) (by decide)) hclose]
    rfl
  · right
    rw [hgone, run_of_nil (skip_nil _)] at hbracket hwrap
    refine ⟨whole?_eq_some.2 ⟨q.within [], hbracket, (List.append_nil _).trans ha, rfl⟩, ?_⟩
    rw [whole?, hwrap, Option.bind_some]
    simp [Reader.within]

/-- How deeply the parts of a pattern are nested. -/
def nesting (cs : List Char) : Nat := (whole? cs).elim 0 (·.height)

theorem read?_eq_some {regex : Regex} : read? cs = some regex ↔
    ∃ p, whole? cs = some p ∧ p.height ≤ mostNested ∧ p.regex = regex := by
  rw [read?_eq, Option.bind_eq_some_iff]
  refine exists_congr fun p => and_congr_right fun _ => ?_
  split
  · rename_i hle
    simp [hle]
  · rename_i hle
    simp [hle]

/-- The tree of a pattern asks for no repetition that it does not allow. -/
theorem ordered_of_read? {regex : Regex} (h : read? cs = some regex) : regex.Ordered := by
  obtain ⟨p, hp, -, rfl⟩ := read?_eq_some.1 h
  obtain ⟨q, hrun, -, rfl⟩ := whole?_eq_some.1 hp
  exact (sane_of_run hrun sane_start).level.close

/-- A pattern that is read in a frame, unless a bracket behind it is taken in, is one there if its parts may
be nested more deeply by the levels of the frame. -/
theorem read?_framed {framed : List Char} {p' : Piece} {levels : Nat} {tree regex : Regex}
    (hp : whole? cs = some p) (hle : p.height ≤ mostNested)
    (h : (whole? (cs ++ [')']) = none ∧ whole? framed = some p') ∨
      (whole? (cs ++ [')']) = some p ∧ whole? framed = none))
    (hheight : p'.height = p.height + levels) (htree : p'.regex = tree) :
    read? framed = some regex ↔
      (read? (cs ++ [')']) = none ∧ nesting cs + levels ≤ mostNested) ∧ regex = tree := by
  have hnesting : nesting cs = p.height := by rw [nesting, hp]; rfl
  obtain ⟨hbracket, hframed⟩ | ⟨hbracket, hframed⟩ := h
  · have hnone : read? (cs ++ [')']) = none := by rw [read?_eq, hbracket]; rfl
    rw [read?_eq, hframed, Option.bind_some, hnesting, ← hheight, ← htree]
    split
    · rename_i hfits
      simp [hnone, hfits, eq_comm]
    · rename_i hfits
      simp [hfits]
  · have hsome : read? (cs ++ [')']) = some p.regex := read?_eq_some.2 ⟨p, hbracket, hle, rfl⟩
    rw [read?_eq, hframed, hsome]
    simp

/-- The tree of a pattern in the wrapping is its own tree between the anchors of the text. -/
theorem read?_wrap {source : String} {regex r : Regex} (h : read? source.toList = some regex) :
    read? (Pattern.wrap source) = some r ↔ (read? (source.toList ++ [')']) = none ∧
      nesting source.toList + 2 ≤ mostNested) ∧ r = anchored regex := by
  obtain ⟨p, hp, hle, rfl⟩ := read?_eq_some.1 h
  exact read?_framed hp hle (whole?_wrap hp) rfl rfl

/-- What is a pattern only in the wrapping closes a group that it has not opened. -/
theorem unopened_of_wrap {source : String} {r : Regex} (h : read? (Pattern.wrap source) = some r)
    (hn : read? source.toList = none) : Unopened start source.toList := by
  obtain ⟨p, hwrap, hheight, -⟩ := read?_eq_some.1 h
  obtain ⟨q, hrun, ha, -⟩ := whole?_eq_some.1 hwrap
  obtain ⟨q', hown, ha'⟩ | hun :=
    run_breaks (.goes source.toList) (List.cons_ne_nil _ _) ((run_wrap source).symm.trans hrun) ha
  · have hwhole := whole?_eq_some.2 ⟨q', hown, ha', rfl⟩
    rw [read?_eq, hwhole, Option.bind_some] at hn
    obtain ⟨-, heq⟩ | ⟨-, heq⟩ := whole?_wrap hwhole
    · obtain rfl := Option.some.inj (heq.symm.trans hwrap)
      rw [if_pos (Nat.le_of_add_right_le hheight)] at hn
      cases hn
    · rw [heq] at hwrap
      cases hwrap
  · exact hun

theorem before_isNone {t : List Char} {i : Nat} (hi : i ≤ t.length) :
    (before t i).isNone = true ↔ i = 0 := by
  cases i with
  | zero => simp [before]
  | succ i =>
    rw [before, List.getElem?_eq_getElem hi]
    simp

/-- Between the anchors of the text an expression matches the whole text or nothing. -/
theorem spans_anchored {r : Regex} {t : List Char} {i j : Nat} (hi : i ≤ t.length) :
    Spans t (anchored r) i j ↔ i = 0 ∧ j = t.length ∧ Spans t r 0 t.length := by
  constructor
  · intro hspans
    cases hspans with
    | seq hstart hrest =>
      cases hstart with
      | look hstart =>
        obtain rfl := (before_isNone hi).1 hstart
        cases hrest with
        | seq hbody hrest =>
          cases hrest with
          | seq hend hempty =>
            cases hend with
            | look hend =>
              cases hempty
              have hle := hbody.le_length hi
              have hge := List.getElem?_eq_none_iff.1 (Option.isNone_iff_eq_none.1 hend)
              obtain rfl := Nat.le_antisymm hle hge
              exact ⟨rfl, rfl, hbody⟩
  · rintro ⟨rfl, rfl, hspans⟩
    refine .seq (.look rfl) (.seq hspans (.seq (.look ?_) .empty))
    rw [List.getElem?_eq_none (Nat.le_refl _)]
    rfl

/-! ### Patterns in a group -/

/-- A text in a group. -/
def grouped (cs : List Char) : List Char := '(' :: '?' :: ':' :: (cs ++ [')'])

theorem wrap_eq (source : String) : Pattern.wrap source = '^' :: (grouped source.toList ++ ['$']) := by
  simp [Pattern.wrap, grouped]

theorem run_grouped (cs : List Char) :
    run start (grouped cs) = run (start.within [start.level]) (cs ++ [')']) := by
  have hopen : step start (grouped cs) = some (start.within [start.level], cs ++ [')']) := rfl
  exact run_of_step rfl hopen

/-- A pattern by itself is one in a group too, unless a comment at its end takes in the bracket that closes
the group. -/
theorem whole?_grouped (h : whole? cs = some p) :
    (whole? (cs ++ [')']) = none ∧
        whole? (grouped cs) = some { p with height := p.height + 1, repeatable := true }) ∨
      (whole? (cs ++ [')']) = some p ∧ whole? (grouped cs) = none) := by
  obtain ⟨q, hrun, ha, rfl⟩ := whole?_eq_some.1 h
  obtain ⟨k, hk, hwith⟩ := run_keeps (.goes cs) hrun
  have hbracket : run start (cs ++ [')']) = run (q.within []) (k [')']) := hwith _ .bracket []
  have hgroup := (run_grouped cs).trans (hwith _ .bracket [start.level])
  obtain hgoes | hgone := hk.of_nil
  · left
    rw [hgoes] at hbracket hgroup
    have hopen : closeGroup (q.within []) = none := by
      simp [closeGroup, Reader.within, ha]
    obtain ⟨q', hclose, ha', hlevel⟩ : ∃ q', closeGroup (q.within [start.level]) = some q' ∧
        q'.around = [] ∧ q'.level.close =
          { q.level.close with height := q.level.close.height + 1, repeatable := true } := by
      refine ⟨_, by rw [closeGroup, Reader.within, ha]; rfl, rfl, ?_⟩
      simp [Level.close, joinBranches, joinPieces, start]
    have hskip (f : Flags) : skip f [')'] = [')'] := skip_of_ne (by decide) (by decide)
    refine ⟨?_, whole?_eq_some.2 ⟨q', hgroup.trans ?_, ha', hlevel⟩⟩
    · rw [whole?, hbracket, run_of_none (hskip _) ((step_bracket _ _).trans (by rw [hopen]; rfl))]
      rfl
    · refine (run_of_step (hskip _) ?_).trans (run_of_nil (skip_nil _))
      rw [step_bracket, hclose]
      rfl
  · right
    rw [hgone, run_of_nil (skip_nil _)] at hbracket hgroup
    refine ⟨whole?_eq_some.2 ⟨q.within [], hbracket, (List.append_nil _).trans ha, rfl⟩, ?_⟩
    rw [whole?, hgroup, Option.bind_some]
    simp [Reader.within]

/-- The tree of a pattern in a group is its own. -/
theorem read?_grouped {regex r : Regex} (h : read? cs = some regex) : read? (grouped cs) = some r ↔
    (read? (cs ++ [')']) = none ∧ nesting cs + 1 ≤ mostNested) ∧ r = regex := by
  obtain ⟨p, hp, hle, rfl⟩ := read?_eq_some.1 h
  exact read?_framed hp hle (whole?_grouped hp) rfl rfl

end Regex

end GroupConsumer
