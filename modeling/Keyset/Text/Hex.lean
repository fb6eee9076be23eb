/-! # Hexadecimal text

Bytes as pairs of hexadecimal digits: written in lower case, read in either case.  What is written
reads back. -/

namespace Keyset.Text.Hex

/-- The number that a hexadecimal digit of either case stands for. -/
def value? (c : Char) : Option Nat :=
  let n := c.toNat
  if 48 ≤ n ∧ n ≤ 57 then some (n - 48)
  else if 65 ≤ n ∧ n ≤ 70 then some (n - 55)
  else if 97 ≤ n ∧ n ≤ 102 then some (n - 87)
  else none

/-- The digit of a number below sixteen, in lower case. -/
def digit (n : Nat) : Char := Nat.digitChar n

/-- The two digits of a byte. -/
def byteText (b : UInt8) : List Char := [digit (b.toNat / 16), digit (b.toNat % 16)]

/-- The digits of some bytes. -/
def bytesText (bytes : List UInt8) : List Char := bytes.flatMap byteText

/-- Reads pairs of digits as bytes. -/
def readBytes? : List Char → Option (List UInt8)
  | [] => some []
  | [_] => none
  | h :: l :: rest =>
      match value? h, value? l, readBytes? rest with
      | some hi, some lo, some bytes => some (UInt8.ofNat (16 * hi + lo) :: bytes)
      | _, _, _ => none

theorem value?_digit {n : Nat} (h : n < 16) : value? (digit n) = some n :=
  (by decide : ∀ m < 16, value? (digit m) = some m) n h

/-- The digits of some bytes read as those bytes. -/
theorem readBytes?_bytesText (bytes : List UInt8) : readBytes? (bytesText bytes) = some bytes := by
  induction bytes with
  | nil => rfl
  | cons b rest ih =>
    have hb : b.toNat < 256 := UInt8.toNat_lt b
    have h : 16 * (b.toNat / 16) + b.toNat % 16 = b.toNat := by omega
    show readBytes? (digit (b.toNat / 16) :: digit (b.toNat % 16) :: bytesText rest) = _
    rw [readBytes?, value?_digit (by omega), value?_digit (by omega), ih]
    simp [h]

/-- Each byte takes two digits. -/
theorem length_bytesText (bytes : List UInt8) : (bytesText bytes).length = 2 * bytes.length := by
  induction bytes with
  | nil => rfl
  | cons b rest ih =>
    show (byteText b ++ bytesText rest).length = _
    rw [List.length_append, ih]
    simp only [byteText, List.length_cons, List.length_nil]
    omega

end Keyset.Text.Hex
