/-!
# Sets of characters given by ranges

A `CharRanges` lists ranges of code points, both ends included. It is how the properties of Unicode
are written down, and how a character class of a topic pattern is held.
-/

namespace GroupConsumer.Text

/-- Ranges of code points, both ends included. -/
abbrev CharRanges := List (Nat × Nat)

/-- Whether a character lies in one of the ranges. -/
def CharRanges.contains (rs : CharRanges) (c : Char) : Bool :=
  rs.any fun r => r.1 ≤ c.toNat && c.toNat ≤ r.2

theorem CharRanges.contains_iff {rs : CharRanges} {c : Char} :
    rs.contains c = true ↔ ∃ r ∈ rs, r.1 ≤ c.toNat ∧ c.toNat ≤ r.2 := by
  simp [CharRanges.contains]

@[simp] theorem CharRanges.contains_append {rs ss : CharRanges} {c : Char} :
    CharRanges.contains (rs ++ ss) c = (rs.contains c || ss.contains c) := by
  simp [CharRanges.contains]

end GroupConsumer.Text
