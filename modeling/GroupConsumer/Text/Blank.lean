import GroupConsumer.Text.CharRanges

/-!
# Blank characters and blank texts

The characters with the Unicode property White_Space, and the texts made of them alone.
-/

namespace GroupConsumer.Text

/-- Code points with the property White_Space. -/
def blankRanges : CharRanges := [
  (0x9, 0xD), (0x20, 0x20), (0x85, 0x85), (0xA0, 0xA0), (0x1680, 0x1680), (0x2000, 0x200A),
  (0x2028, 0x2029), (0x202F, 0x202F), (0x205F, 0x205F), (0x3000, 0x3000)]

/-- Whether a character is white space. -/
def isBlank (c : Char) : Bool := blankRanges.contains c

/-- Whether a text holds no character other than white space. -/
def blank (s : String) : Bool := s.toList.all isBlank

/-- The empty text is blank. -/
theorem blank_empty : blank "" = true := rfl

theorem isBlank_of_isWhitespace {c : Char} (h : c.isWhitespace = true) : isBlank c = true := by
  simp only [Char.isWhitespace, Bool.or_eq_true, decide_eq_true_eq] at h
  rcases h with ((rfl | rfl) | rfl) | rfl <;> decide

end GroupConsumer.Text
