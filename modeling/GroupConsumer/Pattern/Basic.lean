import GroupConsumer.Fault
import GroupConsumer.Pattern.Library
import GroupConsumer.Pattern.Reader

/-!
# Topic patterns

A pattern picks topics by their names. Its text is put between an opening group and the anchors of
the text before it is compiled, and a topic is picked if the expression that results matches anywhere
in its name. Two patterns are the same if their texts are.

Which texts can be compiled and what they match is up to the library. The one that is run here is
`Regex.library`.
-/

namespace GroupConsumer

/-- The text that is compiled for a pattern. -/
def Pattern.wrap (source : String) : List Char := "^(?:".toList ++ source.toList ++ ")$".toList

/-- A text that a library can compile as a pattern, and what it is compiled to. -/
structure CompiledPattern (L : RegexLibrary) where
  source : String
  program : L.Program
  compiled : L.compile (Pattern.wrap source) = some program

namespace CompiledPattern

variable {L : RegexLibrary}

theorem eq_of_source_eq {p q : CompiledPattern L} (h : p.source = q.source) : p = q := by
  obtain ⟨s, r, hr⟩ := p
  obtain ⟨s', r', hr'⟩ := q
  simp only at h
  subst h
  have : r = r' := Option.some.inj (hr.symm.trans hr')
  subst this
  rfl

instance : DecidableEq (CompiledPattern L) := fun p q =>
  if h : p.source = q.source then isTrue (eq_of_source_eq h)
  else isFalse fun e => h (e ▸ rfl)

/-- The pattern with a text; a blank text is refused before it is compiled. -/
def ofSource (L : RegexLibrary) (source : String) : Except Fault (CompiledPattern L) :=
  if Text.blank source then .error (.invalidArgument .emptyPattern)
  else
    match h : L.compile (Pattern.wrap source) with
    | some program => .ok ⟨source, program, h⟩
    | none => .error (.invalidArgument .invalidPattern)

/-- Whether a pattern picks a topic. -/
def picks (p : CompiledPattern L) (topic : String) : Bool := L.isMatch p.program topic

end CompiledPattern

/-- The library that patterns are compiled and matched by. -/
def Regex.library : RegexLibrary := ⟨Regex, read?, search⟩

/-- A text that can be compiled as a pattern. -/
abbrev Pattern := CompiledPattern Regex.library

/-- The pattern with a text. -/
def Pattern.ofSource (source : String) : Except Fault Pattern :=
  CompiledPattern.ofSource Regex.library source

end GroupConsumer
