import GroupConsumer.Pattern.CharSet

/-!
# Regular expressions and where they match

A `Regex` is the tree of a pattern. `Spans r t i j` says that `r` matches the part of the text `t`
from place `i` to place `j`; what surrounds the part counts, because anchors and word boundaries
look at it. `reach` computes, for all starting places at once, the places where a match can end,
and `search` asks whether there is a match anywhere.

Sets of places are masks: lists of truth values, one per place from before the first character to
behind the last.
-/

namespace GroupConsumer

/-- A condition on a place in a text. -/
inductive Look where
  | textStart
  | textEnd
  | lineStart (crlf : Bool)
  | lineEnd (crlf : Bool)
  | boundary (unicode : Bool)
  | notBoundary (unicode : Bool)
  | wordStart (unicode : Bool)
  | wordEnd (unicode : Bool)
  | wordStartHalf (unicode : Bool)
  | wordEndHalf (unicode : Bool)
deriving DecidableEq

namespace Look

/-- Whether there is a word character, of every script or ASCII alone. -/
def isWordChar (unicode : Bool) (c : Option Char) : Bool := c.any (CharSet.words unicode).contains

/-- Whether a condition holds at a place, given the characters before and behind it. -/
def holds (before behind : Option Char) : Look → Bool
  | textStart => before.isNone
  | textEnd => behind.isNone
  | lineStart false => before.isNone || before == some '\n'
  | lineStart true =>
    before.isNone || before == some '\n' || (before == some '\r' && behind != some '\n')
  | lineEnd false => behind.isNone || behind == some '\n'
  | lineEnd true =>
    behind.isNone || behind == some '\r' || (behind == some '\n' && before != some '\r')
  | boundary u => isWordChar u before != isWordChar u behind
  | notBoundary u => isWordChar u before == isWordChar u behind
  | wordStart u => !isWordChar u before && isWordChar u behind
  | wordEnd u => isWordChar u before && !isWordChar u behind
  | wordStartHalf u => !isWordChar u before
  | wordEndHalf u => !isWordChar u behind

end Look

/-- The tree of a pattern; groups leave no trace in it. -/
inductive Regex where
  /-- The empty part of a text. -/
  | empty
  /-- One character of a set. -/
  | one (set : CharSet)
  /-- The empty part, at a place where a condition holds. -/
  | look (l : Look)
  /-- One expression and then another. -/
  | seq (r s : Regex)
  /-- One expression or the other. -/
  | alt (r s : Regex)
  /-- Some number of matches in a row, within bounds. -/
  | rep (r : Regex) (least : Nat) (most : Option Nat)
deriving DecidableEq

namespace Regex

/-- The character before a place. -/
def before (t : List Char) : Nat → Option Char
  | 0 => none
  | i + 1 => t[i]?

/-- `r` matches the part of `t` from place `i` to place `j`. -/
inductive Spans (t : List Char) : Regex → Nat → Nat → Prop where
  | empty {i : Nat} : Spans t .empty i i
  | one {set : CharSet} {i : Nat} {c : Char} : t[i]? = some c → set.contains c = true →
      Spans t (.one set) i (i + 1)
  | look {l : Look} {i : Nat} : l.holds (before t i) t[i]? = true → Spans t (.look l) i i
  | seq {r s : Regex} {i j k : Nat} : Spans t r i j → Spans t s j k → Spans t (.seq r s) i k
  | altLeft {r s : Regex} {i j : Nat} : Spans t r i j → Spans t (.alt r s) i j
  | altRight {r s : Regex} {i j : Nat} : Spans t s i j → Spans t (.alt r s) i j
  | repDone {r : Regex} {most : Option Nat} {i : Nat} : Spans t (.rep r 0 most) i i
  | repMore {r : Regex} {least : Nat} {most : Option Nat} {i j k : Nat} : most ≠ some 0 →
      Spans t r i j → Spans t (.rep r (least - 1) (most.map (· - 1))) j k →
      Spans t (.rep r least most) i k

/-- Places of a text, by truth values. -/
abbrev Mask := List Bool

namespace Mask

/-- The places of either mask. -/
def union (m n : Mask) : Mask := List.zipWith (· || ·) m n

/-- Whether every place of the one mask is in the other. -/
def subset (m n : Mask) : Bool := (List.zipWith (fun a b => !a || b) m n).all id

/-- Every place of a text. -/
def all (t : List Char) : Mask := List.replicate (t.length + 1) true

/-- The places behind a character of the set that stands at a place of the mask. -/
def advance (set : CharSet) (t : List Char) (m : Mask) : Mask :=
  false :: List.zipWith (fun c b => b && set.contains c) t m

/-- The places of the mask at which a condition holds; `prev` is the character before the first. -/
def restrict (l : Look) (prev : Option Char) : List Char → Mask → Mask
  | _, [] => []
  | [], b :: _ => [b && l.holds prev none]
  | c :: t, b :: m => (b && l.holds prev (some c)) :: restrict l (some c) t m

end Mask

/-- `f` done `n` times, or until it changes nothing. -/
def iterate (f : Mask → Mask) : Nat → Mask → Mask
  | 0, m => m
  | n + 1, m =>
    let m' := f m
    if m' = m then m else iterate f n m'

/-- All that is reached from `m` by doing `f` at most `n` times; `acc` is what was reached before. -/
def gather (f : Mask → Mask) : Nat → Mask → Mask → Mask
  | 0, _, acc => acc
  | n + 1, m, acc =>
    let m' := f m
    if m'.subset acc then acc else gather f n m' (acc.union m')

/-- The places at which a match of `r` that starts at a place of the mask can end. -/
def reach (t : List Char) : Regex → Mask → Mask
  | .empty, m => m
  | .one set, m => Mask.advance set t m
  | .look l, m => Mask.restrict l none t m
  | .seq r s, m => s.reach t (r.reach t m)
  | .alt r s, m => (r.reach t m).union (s.reach t m)
  | .rep r least most, m =>
    let m' := iterate (r.reach t) least m
    gather (r.reach t) ((most.map (· - least)).getD (t.length + 1)) m' m'

/-- Whether `r` matches some part of the text. -/
def search (r : Regex) (text : String) : Bool :=
  (r.reach text.toList (Mask.all text.toList)).any id

end Regex

end GroupConsumer
