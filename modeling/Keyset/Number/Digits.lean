/-! # Decimal digits

Natural numbers and integers as decimal text.  Written numbers have no sign unless negative and no
leading zero; read numbers may carry a plus sign and leading zeros.  What is written reads back. -/

namespace Keyset.Number

/-- The number that a decimal digit stands for. -/
def digitValue (c : Char) : Nat := c.toNat - 48

/-- Whether a character is one of the ten ASCII digits. -/
def isDigit (c : Char) : Bool := '0' ≤ c && c ≤ '9'

/-- The number spelled by digits after the number `start`. -/
def ofDigitsFrom (start : Nat) (cs : List Char) : Nat :=
  cs.foldl (fun n c => 10 * n + digitValue c) start

/-- The number spelled by digits. -/
def ofDigits (cs : List Char) : Nat := ofDigitsFrom 0 cs

/-- Reads a nonempty run of digits. -/
def readDigits? (cs : List Char) : Option Nat :=
  if cs ≠ [] ∧ cs.all isDigit then some (ofDigits cs) else none

/-- The digits of a number. -/
def digits (n : Nat) : List Char := Nat.toDigits 10 n

/-- The text of an integer. -/
def integerText (n : Int) : List Char :=
  if n < 0 then '-' :: digits n.natAbs else digits n.natAbs

/-- Reads digits that may follow a plus sign. -/
def readUnsigned? : List Char → Option Nat
  | '+' :: rest => readDigits? rest
  | cs => readDigits? cs

/-- Reads digits that may follow a sign. -/
def readSigned? : List Char → Option Int
  | '-' :: rest => (readDigits? rest).map fun n => -(n : Int)
  | cs => (readUnsigned? cs).map Int.ofNat

/-- The largest count: counts have 64 bits. -/
def maxCount : Nat := 18446744073709551615

/-- Reads a count. -/
def readCount? (cs : List Char) : Option UInt64 :=
  match readUnsigned? cs with
  | some n => if n ≤ maxCount then some (UInt64.ofNat n) else none
  | none => none

/-- The integer of 64 bits that a number is. -/
def int64? (n : Int) : Option Int64 :=
  if -9223372036854775808 ≤ n ∧ n ≤ 9223372036854775807 then some (Int64.ofInt n) else none

/-- The integer of 32 bits that a number is. -/
def int32? (n : Int) : Option Int32 :=
  if -2147483648 ≤ n ∧ n ≤ 2147483647 then some (Int32.ofInt n) else none

/-- The word of 32 bits, which has no sign, that a number is. -/
def word32? (n : Int) : Option UInt32 :=
  if 0 ≤ n ∧ n ≤ 4294967295 then some (UInt32.ofNat n.toNat) else none

/-- Reads an integer of 64 bits. -/
def readInt64? (cs : List Char) : Option Int64 := (readSigned? cs).bind int64?

/-- Reads an integer of 32 bits. -/
def readInt32? (cs : List Char) : Option Int32 := (readSigned? cs).bind int32?

/-- The sum of two counts, held at the largest one. -/
def addCapped (a b : UInt64) : UInt64 :=
  if a.toNat + b.toNat ≤ maxCount then a + b else UInt64.ofNat maxCount

/-- Reads a count, held at `cutoff` if there is one; a strict reading refuses zero. -/
def readLimited? (text : String) (strict : Bool) (cutoff : Option UInt64) : Option UInt64 :=
  match readCount? text.toList with
  | none => none
  | some n =>
      if strict && n == 0 then none
      else match cutoff with
        | some bound => some (min n bound)
        | none => some n

/-! ## What is written reads back -/

theorem ofDigitsFrom_append (start : Nat) (cs ds : List Char) :
    ofDigitsFrom start (cs ++ ds) = ofDigitsFrom (ofDigitsFrom start cs) ds :=
  List.foldl_append

theorem digitValue_digitChar {n : Nat} (h : n < 10) : digitValue (Nat.digitChar n) = n := by
  match n, h with
  | 0, _ | 1, _ | 2, _ | 3, _ | 4, _ | 5, _ | 6, _ | 7, _ | 8, _ | 9, _ => rfl

theorem isDigit_digitChar {n : Nat} (h : n < 10) : isDigit (Nat.digitChar n) = true := by
  match n, h with
  | 0, _ | 1, _ | 2, _ | 3, _ | 4, _ | 5, _ | 6, _ | 7, _ | 8, _ | 9, _ => rfl

theorem digits_of_lt {n : Nat} (h : n < 10) : digits n = [Nat.digitChar n] := by
  rw [digits, Nat.toDigits_of_lt_base h]

theorem digits_of_le {n : Nat} (h : 10 ≤ n) :
    digits n = digits (n / 10) ++ [Nat.digitChar (n % 10)] := by
  rw [digits, Nat.toDigits_eq_if (by decide), if_neg (Nat.not_lt.2 h), digits]

theorem digits_ne_nil (n : Nat) : digits n ≠ [] := Nat.toDigits_ne_nil

/-- The digits of a number are ASCII digits. -/
theorem all_isDigit_digits (n : Nat) : (digits n).all isDigit = true := by
  induction n using Nat.strongRecOn with
  | ind n ih =>
    by_cases h : n < 10
    · rw [digits_of_lt h]
      simp [isDigit_digitChar h]
    · have h' : 10 ≤ n := Nat.not_lt.1 h
      rw [digits_of_le h', List.all_append, ih (n / 10) (by omega)]
      simp [isDigit_digitChar (show n % 10 < 10 by omega)]

/-- The digits of a number spell it. -/
theorem ofDigits_digits (n : Nat) : ofDigits (digits n) = n := by
  induction n using Nat.strongRecOn with
  | ind n ih =>
    by_cases h : n < 10
    · rw [digits_of_lt h]
      show 10 * 0 + digitValue (Nat.digitChar n) = n
      rw [digitValue_digitChar h]
      omega
    · have h' : 10 ≤ n := Nat.not_lt.1 h
      rw [digits_of_le h', ofDigits, ofDigitsFrom_append]
      show 10 * ofDigits (digits (n / 10)) + digitValue (Nat.digitChar (n % 10)) = n
      rw [ih (n / 10) (by omega), digitValue_digitChar (by omega)]
      omega

theorem readDigits?_digits (n : Nat) : readDigits? (digits n) = some n := by
  rw [readDigits?, if_pos ⟨digits_ne_nil n, all_isDigit_digits n⟩, ofDigits_digits]

end Keyset.Number
