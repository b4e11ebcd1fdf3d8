import GroupConsumer.Text.Blank
import GroupConsumer.Text.Fold
import GroupConsumer.Text.Word

/-!
# Sets of characters in a topic pattern

A `CharSet` is what a pattern says about one character. `contains` is its meaning; the lemmas below
it read off each form.
-/

namespace GroupConsumer

open Text

/-- What a pattern says about one character. -/
inductive CharSet where
  | ranges (rs : CharRanges)
  | caseless (s : CharSet)
  | complement (s : CharSet)
  | union (s t : CharSet)
  | inter (s t : CharSet)
  | diff (s t : CharSet)
  | symmDiff (s t : CharSet)
deriving DecidableEq

namespace CharSet

/-- Whether a character is in the set. -/
def contains : CharSet → Char → Bool
  | ranges rs, c => rs.contains c
  | caseless s, c => (caseVariants c).any s.contains
  | complement s, c => !s.contains c
  | union s t, c => s.contains c || t.contains c
  | inter s t, c => s.contains c && t.contains c
  | diff s t, c => s.contains c && !t.contains c
  | symmDiff s t, c => s.contains c != t.contains c

/-- No character. -/
def none : CharSet := ranges []

/-- The characters from one to another, both included. -/
def range (a b : Char) : CharSet := ranges [(a.toNat, b.toNat)]

/-- One character. -/
def single (c : Char) : CharSet := range c c

/-- Every character. -/
def any : CharSet := complement none

/-- The characters of a list of ranges given by their ends. -/
def ofPairs (ps : List (Char × Char)) : CharSet := ranges (ps.map fun p => (p.1.toNat, p.2.toNat))

@[simp] theorem contains_none (c : Char) : none.contains c = false := rfl

@[simp] theorem contains_any (c : Char) : any.contains c = true := rfl

@[simp] theorem contains_complement (s : CharSet) (c : Char) :
    (complement s).contains c = !s.contains c := rfl

theorem contains_single {a c : Char} : (single a).contains c = true ↔ c = a := by
  simp only [single, range, contains, CharRanges.contains, List.any_cons, List.any_nil,
    Bool.or_false, Bool.and_eq_true, decide_eq_true_eq]
  constructor
  · intro h
    exact Char.toNat_inj.1 (by omega)
  · rintro rfl
    omega

/-! ### Classes with a name -/

/-- Decimal digits, of every script or ASCII alone. -/
def digits (unicode : Bool) : CharSet :=
  if unicode then ranges digitRanges else range '0' '9'

/-- White space, of every script or ASCII alone. -/
def blanks (unicode : Bool) : CharSet :=
  if unicode then ranges blankRanges else ofPairs [('\t', '\r'), (' ', ' ')]

/-- Word characters, of every script or ASCII alone. -/
def words (unicode : Bool) : CharSet :=
  if unicode then ranges wordRanges
  else ofPairs [('0', '9'), ('A', 'Z'), ('_', '_'), ('a', 'z')]

/-- The ASCII class with a name. -/
def ofName? : String → Option CharSet
  | "alnum" => some (ofPairs [('0', '9'), ('A', 'Z'), ('a', 'z')])
  | "alpha" => some (ofPairs [('A', 'Z'), ('a', 'z')])
  | "ascii" => some (range '\x00' '\x7f')
  | "blank" => some (ofPairs [('\t', '\t'), (' ', ' ')])
  | "cntrl" => some (ofPairs [('\x00', '\x1f'), ('\x7f', '\x7f')])
  | "digit" => some (range '0' '9')
  | "graph" => some (range '!' '~')
  | "lower" => some (range 'a' 'z')
  | "print" => some (range ' ' '~')
  | "punct" => some (ofPairs [('!', '/'), (':', '@'), ('[', '\x60'), ('\x7b', '~')])
  | "space" => some (ofPairs [('\t', '\r'), (' ', ' ')])
  | "upper" => some (range 'A' 'Z')
  | "word" => some (words false)
  | "xdigit" => some (ofPairs [('0', '9'), ('A', 'F'), ('a', 'f')])
  | _ => Option.none

end CharSet

end GroupConsumer
