import GroupConsumer.Text.Unprintable

/-!
# Texts in quotation marks, and records

`quote` writes a text between quotation marks so that it can be read back: a quotation mark, a
backslash and the common controls have an escape of two characters, and a character that is not
shown as itself is written by its code point. `record` lays out named fields.
-/

namespace GroupConsumer.Text

/-- The escape of a character that has one of its own. -/
def shortEscape? : Char → Option Char
  | '\x00' => some '0'
  | '\t' => some 't'
  | '\r' => some 'r'
  | '\n' => some 'n'
  | '\x22' => some '\x22'
  | '\x5c' => some '\x5c'
  | _ => none

/-- A character as it stands in a quoted text. -/
def quoteChar (c : Char) : List Char :=
  match shortEscape? c with
  | some e => ['\x5c', e]
  | none =>
    if isUnprintable c then
      ['\x5c', 'u', '\x7b'] ++ Nat.toDigits 16 c.toNat ++ ['\x7d']
    else [c]

/-- A text between quotation marks. -/
def quote (s : String) : String :=
  String.ofList ('\x22' :: s.toList.flatMap quoteChar ++ ['\x22'])

/-- A record with its name and its fields in order. -/
def record (name : String) (fields : List (String × String)) : String :=
  name ++ " \x7b " ++ ", ".intercalate (fields.map fun f => f.1 ++ ": " ++ f.2) ++ " \x7d"

/-- Items between braces, in order. -/
def braced (items : List String) : String := "\x7b" ++ ", ".intercalate items ++ "\x7d"

theorem quote_empty : quote "" = "\"\"" := by decide +kernel

end GroupConsumer.Text
