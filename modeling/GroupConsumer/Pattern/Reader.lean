import GroupConsumer.Pattern.Regex
import GroupConsumer.Text.Hex

/-!
# Reading a pattern

The syntax of topic patterns: literals, `.`, anchors, escapes, character classes with set
operations, groups with or without a name, alternatives, repetitions, and flags that hold from
where they stand to the end of their group. `read?` gives the tree of a pattern, or nothing for a
text that is not a pattern.

The reader goes through the characters once. Open groups are kept on a stack of levels; `step`
reads one item and `run` repeats it. Under the flag `verbose`, white space and comments between
items count for nothing (`skip`).

Left out are sets of characters by a property (`\p`), a limit on how large an expression may become
(only its nesting is limited, by `mostNested`), and what it means for bytes and for case that the flag
`unicode` is off.
-/

namespace GroupConsumer

namespace Regex

/-- What the flags of a group change. -/
structure Flags where
  caseless : Bool := false
  multiLine : Bool := false
  dotAll : Bool := false
  swapGreed : Bool := false
  unicode : Bool := true
  crlf : Bool := false
  verbose : Bool := false
deriving DecidableEq

/-- The letter of a flag and a new value, applied. -/
def Flags.set? (f : Flags) (value : Bool) : Char → Option Flags
  | 'i' => some { f with caseless := value }
  | 'm' => some { f with multiLine := value }
  | 's' => some { f with dotAll := value }
  | 'U' => some { f with swapGreed := value }
  | 'u' => some { f with unicode := value }
  | 'R' => some { f with crlf := value }
  | 'x' => some { f with verbose := value }
  | _ => none

/-- The expressions of a level are nested no deeper than this. -/
def mostNested : Nat := 250

/-- A part of a pattern: its tree, how deeply its parts are nested, and whether it may be repeated. -/
structure Piece where
  regex : Regex
  height : Nat := 0
  repeatable : Bool := true

/-- An open group: its finished alternatives and the pieces of the current one, both last first, and
the flags that hold again behind it. -/
structure Level where
  branches : List Piece := []
  pieces : List Piece := []
  outer : Flags

/-- The state of the reader: the innermost open group, those around it, the flags that hold, and the
group names in use. -/
structure Reader where
  level : Level
  around : List Level := []
  flags : Flags := {}
  names : List (List Char) := []

/-! ### White space and comments -/

/-- The rest of a text behind the end of the line. -/
def skipLine : List Char → List Char
  | [] => []
  | c :: cs => if c = '\n' then cs else skipLine cs

theorem length_skipLine (cs : List Char) : (skipLine cs).length ≤ cs.length := by
  induction cs with
  | nil => simp [skipLine]
  | cons c cs ih =>
    unfold skipLine
    split
    · simp
    · exact Nat.le_succ_of_le ih

/-- The text without leading white space and comments. -/
def skipVerbose : List Char → List Char
  | [] => []
  | c :: cs =>
    if Text.isBlank c then skipVerbose cs
    else if c = '#' then skipVerbose (skipLine cs)
    else c :: cs
termination_by cs => cs.length
decreasing_by
  · simp
  · exact Nat.lt_succ_of_le (length_skipLine cs)

/-- The text without what counts for nothing at its head. -/
def skip (f : Flags) (cs : List Char) : List Char := if f.verbose then skipVerbose cs else cs

/-! ### Escapes -/

/-- What an escape stands for. -/
inductive Atom where
  | char (c : Char)
  | set (s : CharSet)
  | look (l : Look)

/-- Characters with a meaning of their own in a pattern. -/
def isMeta (c : Char) : Bool :=
  ['\x5c', '.', '+', '*', '?', '(', ')', '|', '[', ']', '\x7b', '\x7d', '^', '$', '#', '&', '-',
    '~'].contains c

/-- Characters that stand for themselves behind a backslash. -/
def isEscapable (c : Char) : Bool :=
  isMeta c || (c.toNat < 128 && !c.isAlphanum && c != '<' && c != '>')

/-- The character with a code point. -/
def charOf? (n : Nat) : Option Char :=
  if n.isValidChar then some (Char.ofNat n) else none

/-- A given number of hexadecimal digits. -/
def readHexDigits (f : Flags) : Nat → Nat → List Char → Option (Nat × List Char)
  | 0, acc, cs => some (acc, cs)
  | n + 1, acc, cs =>
    match cs with
    | [] => none
    | c :: cs => do
      let d ← Text.hexValue? c
      readHexDigits f n (16 * acc + d) (skip f cs)

/-- Hexadecimal digits up to a closing brace, which is left; `fuel` bounds their number. -/
def readHexBraced (f : Flags) : Nat → Option Nat → List Char → Option (Nat × List Char)
  | 0, _, _ => none
  | fuel + 1, acc, cs =>
    match cs with
    | [] => none
    | c :: cs =>
      if c = '\x7d' then acc.map (·, skip f cs)
      else do
        let d ← Text.hexValue? c
        readHexBraced f fuel (some (16 * acc.getD 0 + d)) (skip f cs)

/-- A character given by its code point; `cs` is what follows the letter. -/
def readHex (f : Flags) (digits : Nat) (cs : List Char) : Option (Atom × List Char) :=
  match skip f cs with
  | [] => none
  | c :: rest => do
    let (n, rest) ←
      if c = '\x7b' then readHexBraced f (rest.length + 1) none (skip f rest)
      else readHexDigits f digits 0 (c :: rest)
    let c ← charOf? n
    return (.char c, rest)

/-- The letters and hyphens at the head of a text, white space between them left out. -/
def readWordName (f : Flags) : Nat → List Char → List Char × List Char
  | 0, cs => ([], cs)
  | _ + 1, [] => ([], [])
  | fuel + 1, c :: cs =>
    if c.isAlpha || c = '-' then
      let (name, rest) := readWordName f fuel (skip f cs)
      (c :: name, rest)
    else ([], c :: cs)

/-- A special word boundary in braces, if the brace does not open a repetition. -/
def readBoundary (f : Flags) (cs : List Char) : Option (Look × List Char) :=
  match cs with
  | '\x7b' :: inner =>
    match skip f inner with
    | [] => none
    | c :: rest =>
      if c.isAlpha || c = '-' then
        match readWordName f (rest.length + 1) (c :: rest) with
        | (name, '\x7d' :: rest) =>
          match String.ofList name with
          | "start" => some (.wordStart f.unicode, rest)
          | "end" => some (.wordEnd f.unicode, rest)
          | "start-half" => some (.wordStartHalf f.unicode, rest)
          | "end-half" => some (.wordEndHalf f.unicode, rest)
          | _ => none
        | _ => none
      else some (.boundary f.unicode, cs)
  | _ => some (.boundary f.unicode, cs)

/-- A class of characters by its letter; one of ASCII alone has no complement. -/
def perlClass (f : Flags) (negated : Bool) (s : Bool → CharSet) : Option CharSet :=
  if negated then if f.unicode then some (.complement (s true)) else none
  else some (s f.unicode)

/-- An escape; `cs` is what follows the backslash. -/
def readEscape (f : Flags) (cs : List Char) : Option (Atom × List Char) :=
  match cs with
  | [] => none
  | c :: cs =>
    match c with
    | 'x' => readHex f 2 cs
    | 'u' => readHex f 4 cs
    | 'U' => readHex f 8 cs
    | 'd' => (perlClass f false CharSet.digits).map (.set ·, cs)
    | 'D' => (perlClass f true CharSet.digits).map (.set ·, cs)
    | 's' => (perlClass f false CharSet.blanks).map (.set ·, cs)
    | 'S' => (perlClass f true CharSet.blanks).map (.set ·, cs)
    | 'w' => (perlClass f false CharSet.words).map (.set ·, cs)
    | 'W' => (perlClass f true CharSet.words).map (.set ·, cs)
    | 'a' => some (.char '\x07', cs)
    | 'f' => some (.char '\x0c', cs)
    | 't' => some (.char '\t', cs)
    | 'n' => some (.char '\n', cs)
    | 'r' => some (.char '\r', cs)
    | 'v' => some (.char '\x0b', cs)
    | 'A' => some (.look .textStart, cs)
    | 'z' => some (.look .textEnd, cs)
    | 'b' => (readBoundary f cs).map fun r => (.look r.1, r.2)
    | 'B' => some (.look (.notBoundary f.unicode), cs)
    | '<' => some (.look (.wordStart f.unicode), cs)
    | '>' => some (.look (.wordEnd f.unicode), cs)
    | _ => if isEscapable c then some (.char c, cs) else none

/-! ### Character classes -/

/-- How two sets of a class are combined. -/
inductive SetOp where
  | inter
  | diff
  | symmDiff

/-- A set of characters and how deeply its parts are nested. -/
structure SetPiece where
  set : CharSet
  height : Nat := 0

/-- An open class: whether it is negated, its items, last first, and the operation that waits for its
right side. -/
structure ClassLevel where
  negated : Bool
  items : List SetPiece
  waiting : Option (SetPiece × SetOp)

/-- The characters of any item. -/
def joinItems : List SetPiece → SetPiece
  | [] => ⟨.none, 0⟩
  | [s] => s
  | items =>
    ⟨items.foldl (fun acc s => .union s.set acc) .none, (items.map (·.height)).foldl max 0 + 1⟩

/-- A set closed under change of case, if case does not count. -/
def foldCase (f : Flags) (s : CharSet) : CharSet := if f.caseless then .caseless s else s

/-- Ends the items of a class: what waits for a right side gets it. -/
def ClassLevel.combine (f : Flags) (l : ClassLevel) : SetPiece :=
  let right := joinItems l.items
  match l.waiting with
  | none => right
  | some (left, op) =>
    let a := foldCase f left.set
    let b := foldCase f right.set
    let set := match op with
      | .inter => CharSet.inter a b
      | .diff => CharSet.diff a b
      | .symmDiff => CharSet.symmDiff a b
    ⟨set, max left.height right.height + 1⟩

/-- The characters of a class. -/
def ClassLevel.close (f : Flags) (l : ClassLevel) : SetPiece :=
  let body := l.combine f
  let set := foldCase f body.set
  ⟨if l.negated then .complement set else set, body.height + 1⟩

/-- The hyphens at the head of a class stand for themselves. -/
def readHyphens (f : Flags) : Nat → List Char → Nat × List Char
  | fuel + 1, '-' :: cs =>
    let (n, rest) := readHyphens f fuel (skip f cs)
    (n + 1, rest)
  | _, cs => (0, cs)

/-- The head of a class, behind its opening bracket. -/
def openClass (f : Flags) (cs : List Char) : Option (ClassLevel × List Char) :=
  let cs := skip f cs
  let (negated, cs) := match cs with
    | '^' :: rest => (true, skip f rest)
    | _ => (false, cs)
  let (n, cs) := readHyphens f cs.length cs
  let items := List.replicate n (⟨.single '-', 0⟩ : SetPiece)
  match n, cs with
  | 0, ']' :: rest => some (⟨negated, [⟨.single ']', 0⟩], none⟩, skip f rest)
  | _, [] => none
  | _, cs => some (⟨negated, items, none⟩, cs)

/-- A class with a name, such as the letters, behind its opening bracket. -/
def readNamed? (f : Flags) (cs : List Char) : Option (CharSet × List Char) :=
  match cs with
  | ':' :: cs =>
    let (negated, cs) := match cs with
      | '^' :: rest => (true, rest)
      | _ => (false, cs)
    let name := cs.takeWhile (· != ':')
    match cs.dropWhile (· != ':') with
    | ':' :: ']' :: rest =>
      (CharSet.ofName? (String.ofList name)).map fun s =>
        (if negated then .complement (foldCase f s) else foldCase f s, rest)
    | _ => none
  | _ => none

/-- A character or an escape of a class. -/
def readClassAtom (f : Flags) : List Char → Option (Atom × List Char)
  | [] => none
  | '\x5c' :: cs => readEscape f cs
  | c :: cs => some (.char c, cs)

/-- A character, a range or an escape of a class. -/
def readClassItem (f : Flags) (cs : List Char) : Option (CharSet × List Char) := do
  let (first, rest) ← readClassAtom f cs
  let rest := skip f rest
  let alone : Option (CharSet × List Char) :=
    match first with
    | .char c => some (.single c, rest)
    | .set s => some (s, rest)
    | .look _ => none
  match rest with
  | [] => none
  | '-' :: behind =>
    match skip f behind with
    | ']' :: _ => alone
    | '-' :: _ => alone
    | [] => none
    | behind => do
      let (last, rest) ← readClassAtom f behind
      match first, last with
      | .char a, .char b => if a ≤ b then some (.range a b, rest) else none
      | _, _ => none
  | _ => alone

/-- Reads the items of a class up to the bracket that closes it. `around` are the classes that are
open around `l`; `fuel` bounds the number of items. -/
def readClass (f : Flags) : Nat → ClassLevel → List ClassLevel → List Char →
    Option (SetPiece × List Char)
  | 0, _, _, _ => none
  | fuel + 1, l, around, cs =>
    let operation (op : SetOp) (rest : List Char) :=
      readClass f fuel { l with items := [], waiting := some (l.combine f, op) } around rest
    match skip f cs with
    | [] => none
    | '[' :: rest =>
      match readNamed? f rest with
      | some (s, rest) => readClass f fuel { l with items := ⟨s, 0⟩ :: l.items } around rest
      | none => do
        let (inner, rest) ← openClass f rest
        readClass f fuel inner (l :: around) rest
    | ']' :: rest =>
      let s := l.close f
      match around with
      | [] => some (s, rest)
      | outer :: around => readClass f fuel { outer with items := s :: outer.items } around rest
    | '&' :: '&' :: rest => operation .inter rest
    | '-' :: '-' :: rest => operation .diff rest
    | '~' :: '~' :: rest => operation .symmDiff rest
    | cs => do
      let (s, rest) ← readClassItem f cs
      readClass f fuel { l with items := ⟨s, 0⟩ :: l.items } around rest

/-- A class, behind its opening bracket. -/
def readBracketed (f : Flags) (cs : List Char) : Option (SetPiece × List Char) := do
  let (l, rest) ← openClass f cs
  readClass f (2 * cs.length + 2) l [] rest

/-! ### Repetitions -/

/-- White space at the head of a text left out. -/
def dropBlanks (cs : List Char) : List Char := cs.dropWhile Text.isBlank

/-- Decimal digits at the head of a text; `fuel` bounds their number. -/
def readDigits (f : Flags) : Nat → List Char → List Char × List Char
  | fuel + 1, c :: cs =>
    if c.isDigit then
      let (ds, rest) := readDigits f fuel (skip f cs)
      (c :: ds, rest)
    else ([], c :: cs)
  | _, cs => ([], cs)

/-- The number that decimal digits stand for. -/
def decimalValue (ds : List Char) : Nat :=
  ds.foldl (fun acc c => 10 * acc + (c.toNat - '0'.toNat)) 0

/-- A decimal number of 32 bits, with white space around it; the number may be missing. -/
def readCount (f : Flags) (cs : List Char) : Option (Option Nat × List Char) :=
  let (ds, rest) := readDigits f cs.length (dropBlanks cs)
  let rest := skip f (dropBlanks rest)
  if ds.isEmpty then some (none, rest)
  else if decimalValue ds < UInt32.size then some (some (decimalValue ds), rest)
  else none

/-- The bounds of a repetition in braces, behind the opening brace. -/
def readBounds (f : Flags) (cs : List Char) : Option ((Nat × Option Nat) × List Char) := do
  let (least, rest) ← readCount f (skip f cs)
  match rest with
  | '\x7d' :: rest => least.map fun n => ((n, some n), skip f rest)
  | ',' :: rest =>
    match skip f rest with
    | '\x7d' :: rest => least.map fun n => ((n, none), skip f rest)
    | rest => do
      let n ← least
      let (most, rest) ← readCount f rest
      let m ← most
      match rest with
      | '\x7d' :: rest => if n ≤ m then some ((n, some m), skip f rest) else none
      | _ => none
  | _ => none

/-- A question mark behind a repetition asks for few instead of many, which is all the same here. -/
def dropLazy : List Char → List Char
  | '?' :: cs => cs
  | cs => cs

/-! ### Groups -/

/-- The flags at the head of a group, up to the colon or bracket behind them, which is left. `seen`
are the flags set so far, `negated` whether a hyphen came, `dangling` whether it came just now. -/
def readFlags (f : Flags) (seen : List Char) (negated dangling : Bool) :
    List Char → Option (Flags × Bool × List Char)
  | [] => none
  | c :: cs =>
    if c = ':' || c = ')' then
      if dangling then none else some (f, seen.isEmpty && !negated, c :: cs)
    else if c = '-' then
      if negated then none else readFlags f seen true true cs
    else if seen.contains c then none
    else do
      let f ← f.set? (!negated) c
      readFlags f (c :: seen) negated false cs

/-- Whether a character can stand in the name of a group. -/
def isNameChar (first : Bool) (c : Char) : Bool :=
  c = '_' ||
    if first then Text.isLetter c
    else c = '.' || c = '[' || c = ']' || Text.isAlphanumeric c

/-- The name of a group, up to the bracket that ends it. -/
def readName (cs : List Char) : Option (List Char × List Char) :=
  let name := cs.takeWhile (· != '>')
  match name, cs.dropWhile (· != '>') with
  | c :: name, _ :: rest =>
    if isNameChar true c && name.all (isNameChar false) then some (c :: name, rest) else none
  | _, _ => none

namespace Reader

/-- A piece put behind the others of its alternative. -/
def push (r : Reader) (p : Piece) : Reader :=
  { r with level := { r.level with pieces := p :: r.level.pieces } }

/-- A group opened under flags of its own. -/
def enter (r : Reader) (inner : Flags) : Reader :=
  { r with level := { outer := r.flags }, around := r.level :: r.around, flags := inner }

end Reader

/-- Pieces in a row, the last first. -/
def joinPieces : List Piece → Piece
  | [] => { regex := .empty }
  | [p] => p
  | ps =>
    { regex := ps.foldl (fun acc p => .seq p.regex acc) .empty
      height := (ps.map (·.height)).foldl max 0 + 1 }

/-- Alternatives, the last first. -/
def joinBranches : List Piece → Piece
  | [] => { regex := .empty }
  | [p] => p
  | p :: ps =>
    { regex := ps.foldl (fun acc q => .alt q.regex acc) p.regex
      height := ((p :: ps).map (·.height)).foldl max 0 + 1 }

/-- What stands in an open group so far. -/
def Level.close (l : Level) : Piece := joinBranches (joinPieces l.pieces :: l.branches)

/-- What a group begins with, behind its opening bracket. -/
def openGroup (r : Reader) (cs : List Char) : Option (Reader × List Char) :=
  match skip r.flags cs with
  | '?' :: 'P' :: '<' :: rest => named rest
  | '?' :: '<' :: rest => named rest
  | '?' :: rest => do
    let (f, bare, rest) ← readFlags r.flags [] false false rest
    match rest with
    | ')' :: rest =>
      if bare then none
      else some ({ r with flags := f }.push { regex := .empty, repeatable := false }, rest)
    | _ :: rest => some (r.enter f, rest)
    | [] => none
  | rest => some (r.enter r.flags, rest)
where
  named (rest : List Char) : Option (Reader × List Char) := do
    let (name, rest) ← readName rest
    if r.names.contains name then none
    else some ({ r with names := name :: r.names }.enter r.flags, rest)

/-- Closes the innermost group. -/
def closeGroup (r : Reader) : Option Reader :=
  match r.around with
  | [] => none
  | outer :: around =>
    let p := r.level.close
    some { r with
      level := { outer with pieces := { p with height := p.height + 1, repeatable := true }
        :: outer.pieces }
      around, flags := r.level.outer }

/-- Repeats the last piece. -/
def repeatLast (r : Reader) (least : Nat) (most : Option Nat) : Option Reader :=
  match r.level.pieces with
  | p :: ps =>
    if p.repeatable then
      let q : Piece := { regex := .rep p.regex least most, height := p.height + 1 }
      some { r with level := { r.level with pieces := q :: ps } }
    else none
  | [] => none

/-- The piece that an escape or a character stands for. -/
def Atom.piece (f : Flags) : Atom → Option Piece
  | .char c =>
    if f.caseless then some { regex := .one (.caseless (.single c)) }
    else some { regex := .one (.single c) }
  | .set s => some { regex := .one s }
  | .look l => some { regex := .look l }

/-- The characters a dot stands for. -/
def dotSet (f : Flags) : CharSet :=
  if f.dotAll then .any
  else if f.crlf then .complement (.ofPairs [('\n', '\n'), ('\r', '\r')])
  else .complement (.single '\n')

/-- Reads one item. -/
def step (r : Reader) : List Char → Option (Reader × List Char)
  | [] => none
  | c :: cs =>
    let f := r.flags
    match c with
    | '(' => openGroup r cs
    | ')' => (closeGroup r).map (·, cs)
    | '|' =>
      let l := r.level
      some ({ r with level := { l with branches := joinPieces l.pieces :: l.branches, pieces := [] } },
        cs)
    | '[' => do
      let (s, rest) ← readBracketed f cs
      return (r.push { regex := .one s.set, height := s.height }, rest)
    | '?' => (repeatLast r 0 (some 1)).map (·, dropLazy cs)
    | '*' => (repeatLast r 0 none).map (·, dropLazy cs)
    | '+' => (repeatLast r 1 none).map (·, dropLazy cs)
    | '\x7b' => do
      let ((least, most), rest) ← readBounds f cs
      let r ← repeatLast r least most
      return (r, dropLazy rest)
    | '\x5c' => do
      let (a, rest) ← readEscape f cs
      let p ← a.piece f
      return (r.push p, rest)
    | '.' => if f.unicode then some (r.push { regex := .one (dotSet f) }, cs) else none
    | '^' => some (r.push { regex := .look (if f.multiLine then .lineStart f.crlf else .textStart) }, cs)
    | '$' => some (r.push { regex := .look (if f.multiLine then .lineEnd f.crlf else .textEnd) }, cs)
    | c => do
      let p ← (Atom.char c).piece f
      return (r.push p, cs)

/-- Reads items to the end of the text. Every item takes up at least one character. -/
def run (r : Reader) (cs : List Char) : Option Reader :=
  match skip r.flags cs with
  | [] => some r
  | c :: rest =>
    match step r (c :: rest) with
    | none => none
    | some (r, left) => if left.length < cs.length then run r left else none
termination_by cs.length

/-- The tree of a pattern. -/
def read? (cs : List Char) : Option Regex :=
  match run { level := { outer := {} } } cs with
  | some r =>
    let p := r.level.close
    if r.around.isEmpty && p.height ≤ mostNested then some p.regex else none
  | none => none

end Regex

end GroupConsumer
