/-!
# Bytes in hexadecimal digits

`hex` writes bytes with two lower-case digits each, and `ofHex?` reads such a text; digits in upper
case are read too.
-/

namespace GroupConsumer.Text

/-- The value of a hexadecimal digit. -/
def hexValue? (c : Char) : Option Nat :=
  if '0' ≤ c && c ≤ '9' then some (c.toNat - '0'.toNat)
  else if 'a' ≤ c && c ≤ 'f' then some (c.toNat - 'a'.toNat + 10)
  else if 'A' ≤ c && c ≤ 'F' then some (c.toNat - 'A'.toNat + 10)
  else none

/-- A byte in two digits. -/
def hexByte (b : UInt8) : List Char := [Nat.digitChar (b.toNat / 16), Nat.digitChar (b.toNat % 16)]

/-- Bytes in digits. -/
def hex (bs : List UInt8) : String := String.ofList (bs.flatMap hexByte)

/-- The bytes that a list of digits stands for. -/
def readHex? : List Char → Option (List UInt8)
  | [] => some []
  | [_] => none
  | a :: b :: cs => do
    let byte := 16 * (← hexValue? a) + (← hexValue? b)
    return byte.toUInt8 :: (← readHex? cs)

/-- The bytes that a text stands for. -/
def ofHex? (s : String) : Option (List UInt8) := readHex? s.toList

theorem readHex?_hexByte (b : UInt8) (cs : List Char) :
    readHex? (hexByte b ++ cs) = (readHex? cs).map (b :: ·) := by
  have h : ∀ n < 256, (do
      let x ← hexValue? (Nat.digitChar (n / 16))
      let y ← hexValue? (Nat.digitChar (n % 16))
      pure (16 * x + y)) = some n := by decide +kernel
  have hb := h b.toNat b.toNat_lt
  simp only [Option.bind_eq_bind, Option.bind_eq_some_iff, Option.pure_def, Option.some.injEq] at hb
  obtain ⟨x, hx, y, hy, hn⟩ := hb
  have hb' : (16 * x + y).toUInt8 = b := by rw [hn]; exact UInt8.ofNat_toNat
  simp only [hexByte, List.cons_append, List.nil_append, readHex?, hx, hy, Option.bind_eq_bind,
    Option.bind_some, hb']
  cases readHex? cs <;> rfl

/-- What is written is read back. -/
theorem ofHex?_hex (bs : List UInt8) : ofHex? (hex bs) = some bs := by
  simp only [ofHex?, hex, String.toList_ofList]
  induction bs with
  | nil => rfl
  | cons b bs ih => rw [List.flatMap_cons, readHex?_hexByte, ih]; rfl

end GroupConsumer.Text
