import GroupConsumer.Proofs.Pattern.Anchored

/-!
# Matches of whole names

Whatever library of regular expressions is used, as long as it does what the documentation of their syntax
says (`RegexLibrary.Documented`): a pattern that is an expression by itself picks a topic exactly if it matches
from the first character of its name to the last one. A text that is none by itself may be accepted all the
same, if it closes the group that is put around it, and then it picks names of which it matches only the
beginning or the end (`matches_whole_names`, and `matches_part_of_name` for one such text). The library that
is run here keeps to the documentation (`library_documented`); for it, the texts that are accepted can be
told exactly (`picks_whole_names`).
-/

namespace GroupConsumer

open Regex (Plain grouped)

/-! ### What is documented of regular expressions -/

/-- What a library of regular expressions promises. `spans r t i j` says that the expression `r` matches the
part of the text `t` from place `i` to place `j`. Nothing is said of which expressions are compiled, as there
are limits on their size and their nesting. -/
structure RegexLibrary.Documented (L : RegexLibrary)
    (spans : L.Program → List Char → Nat → Nat → Prop) : Prop where
  /-- A match is a part of the text. -/
  within {x : List Char} {r : L.Program} : L.compile x = some r →
    ∀ t i j, spans r t i j → i ≤ j ∧ j ≤ t.length
  /-- The search finds a match anywhere in the text. -/
  search {x : List Char} {r : L.Program} : L.compile x = some r →
    ∀ text, L.isMatch r text = true ↔ ∃ i j, spans r text.toList i j
  /-- Letters and digits stand for themselves, `^` and `$` for the ends of the text; what stands in a row
  matches in a row, and of alternatives each matches. -/
  plain {x : List Char} {a : Regex} {r : L.Program} : Plain .whole x a → L.compile x = some r →
    ∀ t i j, i ≤ t.length → (spans r t i j ↔ Regex.Spans t a i j)
  /-- A bracket that closes no group is an error. -/
  unopened {x rest : List Char} {a : Regex} : Plain .whole x a → L.compile (x ++ ')' :: rest) = none
  /-- A group matches what stands in it. -/
  group {x : List Char} {r g : L.Program} : L.compile x = some r → L.compile (grouped x) = some g →
    ∀ t i j, spans g t i j ↔ spans r t i j
  /-- A group that can be compiled between other items can be compiled alone. -/
  alone {x : List Char} {r w : L.Program} : L.compile x = some r →
    L.compile ('^' :: (grouped x ++ ['$'])) = some w → ∃ g, L.compile (grouped x) = some g
  /-- A group in a row with the anchors matches where the anchors do. -/
  anchors {x : List Char} {r g w : L.Program} : L.compile x = some r → L.compile (grouped x) = some g →
    L.compile ('^' :: (grouped x ++ ['$'])) = some w →
    ∀ t i j, spans w t i j ↔ i = 0 ∧ j = t.length ∧ spans g t i j

namespace CompiledPattern

variable {L : RegexLibrary} {source : String}

theorem compile_of_ofSource {p : CompiledPattern L} (h : ofSource L source = .ok p) :
    Text.blank source = false ∧ L.compile (Pattern.wrap source) = some p.program := by
  unfold ofSource at h
  split at h
  · cases h
  · rename_i hblank
    split at h
    · rename_i program hcompile
      cases h
      exact ⟨Bool.eq_false_iff.2 hblank, hcompile⟩
    · cases h

theorem ofSource_of_compile {program : L.Program} (hblank : Text.blank source = false)
    (h : L.compile (Pattern.wrap source) = some program) :
    ∃ p, ofSource L source = .ok p ∧ p.source = source := by
  unfold ofSource
  rw [hblank, if_neg Bool.false_ne_true]
  split
  · exact ⟨_, rfl, rfl⟩
  · rename_i hnone
    rw [h] at hnone
    cases hnone

theorem ofSource_of_none (hblank : Text.blank source = false)
    (h : L.compile (Pattern.wrap source) = none) :
    ofSource L source = .error (.invalidArgument .invalidPattern) := by
  unfold ofSource
  rw [hblank, if_neg Bool.false_ne_true]
  split
  · rename_i hsome
    rw [h] at hsome
    cases hsome
  · rfl

variable {spans : L.Program → List Char → Nat → Nat → Prop}

/-- The wrapping of an expression matches a text as a whole or not at all. -/
theorem picks_iff_of_compile (hL : L.Documented spans) {p : CompiledPattern L}
    (hp : ofSource L source = .ok p) {r : L.Program} (hr : L.compile source.toList = some r)
    (topic : String) : p.picks topic = true ↔ spans r topic.toList 0 topic.toList.length := by
  have hw := (compile_of_ofSource hp).2
  have hanchors : L.compile ('^' :: (grouped source.toList ++ ['$'])) = some p.program := by
    rwa [Regex.wrap_eq] at hw
  obtain ⟨g, hg⟩ := hL.alone hr hanchors
  rw [picks, hL.search hw]
  constructor
  · rintro ⟨i, j, hspans⟩
    obtain ⟨rfl, rfl, hgroup⟩ := (hL.anchors hr hg hanchors _ i j).1 hspans
    exact (hL.group hr hg _ _ _).1 hgroup
  · intro hspans
    exact ⟨0, _, (hL.anchors hr hg hanchors _ _ _).2 ⟨rfl, rfl, (hL.group hr hg _ _ _).2 hspans⟩⟩

/-- With the wrapping, a text that closes the group around it makes two alternatives, of which one is held
by the beginning of the text and the other by its end. -/
theorem plain_wrap {x y : List Char} {a b : Regex} (hx : Plain .whole x a) (hy : Plain .whole y b)
    (h : source.toList = x ++ ")|(?:".toList ++ y) :
    Plain .whole (Pattern.wrap source) (.alt (.seq (.look .textStart) (.seq a .empty))
      (.seq b (.seq (.look .textEnd) .empty))) := by
  have hwrap : Pattern.wrap source =
      (['^'] ++ (grouped x ++ [])) ++ '|' :: (grouped y ++ (['$'] ++ [])) := by
    simp [Pattern.wrap, grouped, h]
  rw [hwrap]
  exact .either (.cons .textStart (.cons (.group hx) .nil))
    (.alone (.cons (.group hy) (.cons .textEnd .nil)))

theorem spans_held {t : List Char} {a b : Regex} :
    (∃ i j, i ≤ t.length ∧ Regex.Spans t (.alt (.seq (.look .textStart) (.seq a .empty))
      (.seq b (.seq (.look .textEnd) .empty))) i j) ↔
    (∃ j, Regex.Spans t a 0 j) ∨ ∃ i, i ≤ t.length ∧ Regex.Spans t b i t.length := by
  constructor
  · rintro ⟨i, j, hi, hspans⟩
    obtain hspans | hspans := Regex.spans_alt_iff.1 hspans
    · obtain ⟨k, hstart, ha⟩ := Regex.spans_seq_iff.1 hspans
      cases hstart with
      | look hstart =>
        obtain rfl := (Regex.before_isNone hi).1 hstart
        exact Or.inl ⟨j, (Regex.alike_seq_empty a t _ _).1 ha⟩
    · obtain ⟨k, hb, hend⟩ := Regex.spans_seq_iff.1 hspans
      have hlast := (Regex.alike_seq_empty _ t _ _).1 hend
      cases hlast with
      | look hlast =>
        have hge := List.getElem?_eq_none_iff.1 (Option.isNone_iff_eq_none.1 hlast)
        obtain rfl := Nat.le_antisymm (hb.le_length hi) hge
        exact Or.inr ⟨i, hi, hb⟩
  · rintro (⟨j, ha⟩ | ⟨i, hi, hb⟩)
    · exact ⟨0, j, Nat.zero_le _, .altLeft (.seq (.look rfl) (.seq ha .empty))⟩
    · refine ⟨i, _, hi, .altRight (.seq hb (.seq (.look ?_) .empty))⟩
      rw [List.getElem?_eq_none (Nat.le_refl _)]
      rfl

/-- With any library of regular expressions: a blank text is refused, and any other one is accepted exactly
if the library compiles its wrapping. Once accepted, a text that is an expression by itself picks the topics
whose whole name it matches. A text that closes the group around it and opens another one is no expression by
itself; once accepted, it picks the topics whose names begin with what the one part of it matches or end with
what the other part matches. -/
theorem matches_whole_names (hL : L.Documented spans) (source : String) :
    (Text.blank source = true → ofSource L source = .error (.invalidArgument .emptyPattern)) ∧
    (Text.blank source = false →
      (L.compile (Pattern.wrap source) = none →
        ofSource L source = .error (.invalidArgument .invalidPattern)) ∧
      ∀ w, L.compile (Pattern.wrap source) = some w →
        ∃ p, ofSource L source = .ok p ∧ p.source = source) ∧
    ∀ p, ofSource L source = .ok p →
      (∀ r, L.compile source.toList = some r → ∀ topic,
        p.picks topic = true ↔ spans r topic.toList 0 topic.toList.length) ∧
      ∀ x y a b, Plain .whole x a → Plain .whole y b → source.toList = x ++ ")|(?:".toList ++ y →
        L.compile source.toList = none ∧ ∀ topic, p.picks topic = true ↔
          (∃ j, Regex.Spans topic.toList a 0 j) ∨
            ∃ i, i ≤ topic.toList.length ∧ Regex.Spans topic.toList b i topic.toList.length := by
  refine ⟨?_, ?_, ?_⟩
  · intro hblank
    rw [ofSource, if_pos hblank]
  · intro hblank
    exact ⟨ofSource_of_none hblank, fun w hw => ofSource_of_compile hblank hw⟩
  · intro p hp
    refine ⟨fun r hr topic => picks_iff_of_compile hL hp hr topic, ?_⟩
    intro x y a b hx hy h
    have hw := (compile_of_ofSource hp).2
    refine ⟨?_, fun topic => ?_⟩
    · rw [h, List.append_assoc]
      exact hL.unopened hx
    · rw [picks, hL.search hw, ← spans_held]
      refine exists_congr fun i => exists_congr fun j => ?_
      constructor
      · intro hspans
        obtain ⟨hle, hlen⟩ := hL.within hw _ i j hspans
        have hi := Nat.le_trans hle hlen
        exact ⟨hi, (hL.plain (plain_wrap hx hy h) hw _ i j hi).1 hspans⟩
      · rintro ⟨hi, hspans⟩
        exact (hL.plain (plain_wrap hx hy h) hw _ i j hi).2 hspans

end CompiledPattern

/-! ### The library that is run -/

namespace Regex

/-- A match of an expression that begins in the text. -/
def SpansWithin (r : Regex) (t : List Char) (i j : Nat) : Prop := i ≤ t.length ∧ Spans t r i j

theorem Spans.le {t : List Char} {r : Regex} {i j : Nat} (h : Spans t r i j) : i ≤ j := by
  induction h with
  | empty | look | repDone => exact Nat.le_refl _
  | one => exact Nat.le_succ _
  | seq _ _ ihr ihs => exact Nat.le_trans ihr ihs
  | altLeft _ ih | altRight _ ih => exact ih
  | repMore _ _ _ ihr ihs => exact Nat.le_trans ihr ihs

theorem read?_plain {x : List Char} {a r : Regex} (hx : Plain .whole x a) (h : read? x = some r) :
    Alike r a := by
  obtain ⟨l, halike, hrun⟩ := hx.run_start
  obtain ⟨p, hp, -, rfl⟩ := read?_eq_some.1 h
  obtain ⟨q, hq, -, rfl⟩ := whole?_eq_some.1 hp
  have hend := hrun []
  rw [List.append_nil, run_of_nil (skip_nil _)] at hend
  obtain rfl := Option.some.inj (hend.symm.trans hq)
  exact halike

theorem read?_unopened {x rest : List Char} {a : Regex} (hx : Plain .whole x a) :
    read? (x ++ ')' :: rest) = none := by
  obtain ⟨l, -, hrun⟩ := hx.run_start
  have hskip : skip ({} : Flags) (')' :: rest) = ')' :: rest := skip_of_ne (by decide) (by decide)
  have hstop : run { level := l } (')' :: rest) = none := run_of_none hskip rfl
  rw [read?, hrun, hstop]

/-- The library that is run does what is documented. -/
theorem library_documented : library.Documented SpansWithin where
  within := by
    rintro x r - t i j ⟨hi, hspans⟩
    exact ⟨hspans.le, hspans.le_length hi⟩
  search hr text := search_iff (ordered_of_read? hr) text
  plain := by
    intro x a r hx hr t i j hi
    exact (and_iff_right hi).trans (read?_plain hx hr t i j)
  unopened hx := read?_unopened hx
  group := by
    intro x r g hr hg t i j
    obtain ⟨-, rfl⟩ := (read?_grouped hr).1 hg
    exact Iff.rfl
  alone := by
    intro x r w hr hw
    have hwrap : read? (Pattern.wrap (String.ofList x)) = some w := by
      rw [wrap_eq, String.toList_ofList]
      exact hw
    obtain ⟨⟨hbracket, hfits⟩, -⟩ := (read?_wrap (by rw [String.toList_ofList]; exact hr)).1 hwrap
    rw [String.toList_ofList] at hbracket hfits
    exact ⟨r, (read?_grouped hr).2 ⟨⟨hbracket, Nat.le_of_succ_le hfits⟩, rfl⟩⟩
  anchors := by
    intro x r g w hr hg hw t i j
    have hwrap : read? (Pattern.wrap (String.ofList x)) = some w := by
      rw [wrap_eq, String.toList_ofList]
      exact hw
    obtain ⟨-, rfl⟩ := (read?_wrap (by rw [String.toList_ofList]; exact hr)).1 hwrap
    obtain ⟨-, rfl⟩ := (read?_grouped hr).1 hg
    constructor
    · rintro ⟨hi, hspans⟩
      obtain ⟨rfl, rfl, hbody⟩ := (spans_anchored hi).1 hspans
      exact ⟨rfl, rfl, hi, hbody⟩
    · rintro ⟨rfl, rfl, hi, hspans⟩
      exact ⟨hi, (spans_anchored hi).2 ⟨rfl, rfl, hspans⟩⟩

end Regex

namespace Pattern

variable {source : String}

/-- With the library that is run here, a text that is a pattern by itself is accepted exactly if it is not
blank, no comment at its end takes in a bracket that is put behind it, and its parts may be nested two levels
more deeply; once accepted it picks the topics whose whole name it matches. A text that is accepted and is no
pattern by itself closes a group that it has not opened. -/
theorem picks_whole_names (source : String) :
    (∀ regex, Regex.read? source.toList = some regex →
      ((∃ p, ofSource source = .ok p) ↔ Text.blank source = false ∧
        Regex.read? (source.toList ++ [')']) = none ∧
          Regex.nesting source.toList + 2 ≤ Regex.mostNested) ∧
      ∀ p, ofSource source = .ok p → ∀ topic, p.picks topic = true ↔
        Regex.Spans topic.toList regex 0 topic.toList.length) ∧
    ∀ p, ofSource source = .ok p → Regex.read? source.toList = none →
      Regex.Unopened Regex.start source.toList := by
  refine ⟨fun regex hread => ⟨⟨?_, ?_⟩, ?_⟩, fun p hp hnone => ?_⟩
  · rintro ⟨p, hp⟩
    obtain ⟨hblank, hwrap⟩ := CompiledPattern.compile_of_ofSource hp
    exact ⟨hblank, ((Regex.read?_wrap hread).1 hwrap).1⟩
  · rintro ⟨hblank, hfits⟩
    obtain ⟨p, hp, -⟩ := CompiledPattern.ofSource_of_compile (L := Regex.library) hblank
      ((Regex.read?_wrap hread).2 ⟨hfits, rfl⟩)
    exact ⟨p, hp⟩
  · intro p hp topic
    refine (CompiledPattern.picks_iff_of_compile Regex.library_documented hp hread topic).trans ?_
    exact and_iff_right (Nat.zero_le _)
  · exact Regex.unopened_of_wrap (CompiledPattern.compile_of_ofSource hp).2 hnone

/-- A pattern with flags and alternatives picks a name that its second alternative matches as a whole. A
text that closes the group around it picks a name that only ends with what its second part matches. -/
theorem matches_whole_names_flagged :
    Regex.library.Documented Regex.SpansWithin ∧
    (∃ p r, ofSource "(?i)a|(?:b)c+" = .ok p ∧ Regex.read? "(?i)a|(?:b)c+".toList = some r ∧
      p.picks "BCC" = true ∧ Regex.SpansWithin r "BCC".toList 0 3) ∧
    ∃ p, ofSource "a)|(?:b" = .ok p ∧ Regex.read? "a)|(?:b".toList = none ∧ p.picks "xb" = true := by
  have hflagged :=
    CompiledPattern.matches_whole_names Regex.library_documented "(?i)a|(?:b)c+"
  have hclosing := CompiledPattern.matches_whole_names Regex.library_documented "a)|(?:b"
  refine ⟨Regex.library_documented, ?_, ?_⟩
  · have hread : (Regex.read? "(?i)a|(?:b)c+".toList).isSome = true := by decide +kernel
    have heval : (Regex.read? (wrap "(?i)a|(?:b)c+")).map (·.search "BCC") = some true := by
      decide +kernel
    obtain ⟨r, hr⟩ := Option.isSome_iff_exists.1 hread
    obtain ⟨w, hw, hsearch⟩ := Option.map_eq_some_iff.1 heval
    obtain ⟨p, hp, -⟩ := (hflagged.2.1 (by decide +kernel)).2 w hw
    have hpick : p.picks "BCC" = true := by
      obtain rfl := Option.some.inj ((CompiledPattern.compile_of_ofSource hp).2.symm.trans hw)
      exact hsearch
    exact ⟨p, r, hp, hr, hpick, ((hflagged.2.2 p hp).1 r hr "BCC").1 hpick⟩
  · have hread : (Regex.read? (wrap "a)|(?:b")).isSome = true := by decide +kernel
    obtain ⟨w, hw⟩ := Option.isSome_iff_exists.1 hread
    obtain ⟨p, hp, -⟩ := (hclosing.2.1 (by decide +kernel)).2 w hw
    have hletter {c : Char} (hc : c.isAlphanum = true) :
        Plain .whole [c] (.seq (.one (.single c)) .empty) :=
      .alone (.cons (.letter hc) .nil)
    obtain ⟨hnone, hpicks⟩ :=
      (hclosing.2.2 p hp).2 ['a'] ['b'] _ _ (hletter (by decide)) (hletter (by decide)) (by decide)
    refine ⟨p, hp, hnone, (hpicks "xb").2 (Or.inr ⟨1, by decide, .seq (.one (c := 'b') rfl ?_) .empty⟩)⟩
    decide +kernel

/-- A text that closes the group around it is accepted, though it is no pattern by itself, and picks a name
of which it matches the beginning only. -/
theorem matches_part_of_name :
    ∃ p, ofSource "a)|(?:b" = .ok p ∧ Regex.read? "a)|(?:b".toList = none ∧ p.picks "ax" = true := by
  have heval : (Regex.read? (wrap "a)|(?:b")).map (·.search "ax") = some true := by decide +kernel
  obtain ⟨w, hw, hsearch⟩ := Option.map_eq_some_iff.1 heval
  have hblank : Text.blank "a)|(?:b" = false := by decide +kernel
  obtain ⟨p, hp, -⟩ := CompiledPattern.ofSource_of_compile (L := Regex.library) hblank hw
  refine ⟨p, hp, by decide +kernel, ?_⟩
  obtain rfl := Option.some.inj ((CompiledPattern.compile_of_ofSource hp).2.symm.trans hw)
  exact hsearch

end Pattern

end GroupConsumer
