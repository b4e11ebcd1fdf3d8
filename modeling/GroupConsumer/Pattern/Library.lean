/-!
# Libraries of regular expressions

A pattern is compiled and matched by a library of regular expressions. All that is asked of one is here: it
compiles a text, unless the text is no expression, and tells whether a compiled expression matches any part
of a text.
-/

namespace GroupConsumer

/-- A library of regular expressions. -/
structure RegexLibrary where
  /-- Compiled expressions. -/
  Program : Type
  /-- The expression that a text is compiled to, if it is one. -/
  compile : List Char → Option Program
  /-- Whether an expression matches some part of a text. -/
  isMatch : Program → String → Bool

end GroupConsumer
