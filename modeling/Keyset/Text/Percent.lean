import Keyset.Text.Hex

/-! # Percent escapes

Four characters would break the structure of a payload of `key=value` pairs; each is written as a
percent sign and the two hexadecimal digits of its byte.  Reading works on bytes: a percent sign
names the byte that the next two bytes spell, and every other byte stands for itself.  Elsewhere a
percent sign may also stand for itself. -/

namespace Keyset.Text.Percent

/-- The escape of a character, or the character itself. -/
def escapeChar : Char → List Char
  | '%' => ['%', '2', '5']
  | '&' => ['%', '2', '6']
  | '=' => ['%', '3', 'D']
  | '+' => ['%', '2', 'B']
  | c => [c]

/-- Escapes the characters that have a meaning in a payload. -/
def escape (cs : List Char) : List Char := cs.flatMap escapeChar

/-- The number that a byte stands for as a hexadecimal digit of either case. -/
def hexDigit? (byte : UInt8) : Option Nat := Hex.value? (Char.ofNat byte.toNat)

/-- The byte spelled by the two bytes after a percent sign: two digits, or a plus sign and one
digit. -/
def spelled? (high low : UInt8) : Option UInt8 :=
  match hexDigit? high, hexDigit? low with
  | some h, some l => some (UInt8.ofNat (16 * h + l))
  | none, some l => if high = 43 then some (UInt8.ofNat l) else none
  | _, none => none

/-- Replaces each escape by its byte; `none` if a percent sign is followed by no escape. -/
def unescape : List UInt8 → Option (List UInt8)
  | [] => some []
  | byte :: rest =>
      if byte = 37 then
        match rest with
        | high :: low :: more => do
            let named ← spelled? high low
            let bytes ← unescape more
            return named :: bytes
        | _ => none
      else (unescape rest).map (byte :: ·)

/-- Replaces each escape of two digits by its byte; a percent sign that begins none stands for
itself. -/
def expand : List UInt8 → List UInt8
  | [] => []
  | [a] => [a]
  | [a, b] => [a, b]
  | a :: b :: c :: rest =>
      match hexDigit? b, hexDigit? c with
      | some h, some l =>
          if a = 37 then UInt8.ofNat (16 * h + l) :: expand rest else a :: expand (b :: c :: rest)
      | _, _ => a :: expand (b :: c :: rest)

end Keyset.Text.Percent
