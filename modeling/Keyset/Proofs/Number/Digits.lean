import Keyset.Number.Digits

/-! # Written numbers read back

    A text of digits begins with a digit, so the readers of signed and unsigned
    numbers see no sign in it and read the number.  The words of 64 bits keep
    their value: a count as a natural number, an integer as a signed one. -/

namespace Keyset.Number

/-! ## Digits -/

/-- The digits of a number begin with one. -/
theorem digits_eq_cons (n : Nat) : ∃ c cs, digits n = c :: cs ∧ isDigit c = true := by
  have hall := all_isDigit_digits n
  cases hd : digits n with
  | nil => exact absurd hd (digits_ne_nil n)
  | cons c cs =>
    rw [hd, List.all_cons, Bool.and_eq_true_iff] at hall
    exact ⟨c, cs, rfl, hall.1⟩

theorem ne_of_isDigit {c mark : Char} (hc : isDigit c = true) (hm : isDigit mark = false) :
    c ≠ mark := by
  rintro rfl
  rw [hc] at hm
  exact nomatch hm

/-- No character but digits stands in the digits of a number. -/
theorem not_mem_digits {mark : Char} (h : isDigit mark = false) (n : Nat) : mark ∉ digits n :=
  fun hmem => ne_of_isDigit (List.all_eq_true.mp (all_isDigit_digits n) _ hmem) h rfl

/-- A text that begins with a digit has no plus sign to read. -/
theorem readUnsigned?_of_isDigit {c : Char} (h : isDigit c = true) (cs : List Char) :
    readUnsigned? (c :: cs) = readDigits? (c :: cs) := by
  unfold readUnsigned?
  split
  · next heq => exact absurd (List.cons.inj heq).1 (ne_of_isDigit h rfl)
  · rfl

/-- A text that begins with a digit has no sign to read. -/
theorem readSigned?_of_isDigit {c : Char} (h : isDigit c = true) (cs : List Char) :
    readSigned? (c :: cs) = (readDigits? (c :: cs)).map Int.ofNat := by
  rw [← readUnsigned?_of_isDigit h]
  unfold readSigned?
  split
  · next heq => exact absurd (List.cons.inj heq).1 (ne_of_isDigit h rfl)
  · rfl

theorem readUnsigned?_digits (n : Nat) : readUnsigned? (digits n) = some n := by
  obtain ⟨c, cs, hd, hc⟩ := digits_eq_cons n
  rw [hd, readUnsigned?_of_isDigit hc, ← hd, readDigits?_digits]

/-- The text of an integer reads as it. -/
theorem readSigned?_integerText (n : Int) : readSigned? (integerText n) = some n := by
  unfold integerText
  by_cases h : n < 0
  · rw [if_pos h, readSigned?, readDigits?_digits]
    show some (-(n.natAbs : Int)) = some n
    rw [show -(n.natAbs : Int) = n by omega]
  · rw [if_neg h]
    obtain ⟨c, cs, hd, hc⟩ := digits_eq_cons n.natAbs
    rw [hd, readSigned?_of_isDigit hc, ← hd, readDigits?_digits]
    show some (n.natAbs : Int) = some n
    rw [show (n.natAbs : Int) = n by omega]

/-! ## Words -/

theorem toNat_le_maxCount (n : UInt64) : n.toNat ≤ maxCount := Nat.le_of_lt_succ n.toNat_lt

/-- A number that no count exceeds is the value of its count. -/
theorem toNat_ofNat {n : Nat} (h : n ≤ maxCount) : (UInt64.ofNat n).toNat = n := by
  rw [UInt64.toNat_ofNat']
  exact Nat.mod_eq_of_lt (Nat.lt_succ_of_le h)

theorem readCount?_digits (n : UInt64) : readCount? (digits n.toNat) = some n := by
  rw [readCount?, readUnsigned?_digits]
  show (if n.toNat ≤ maxCount then _ else _) = _
  rw [if_pos (toNat_le_maxCount n), UInt64.ofNat_toNat]

theorem readInt64?_integerText (n : Int64) : readInt64? (integerText n.toInt) = some n := by
  have hle := n.le_toInt
  have hlt := n.toInt_lt
  rw [readInt64?, readSigned?_integerText, Option.bind_some, int64?, if_pos (by omega),
    Int64.ofInt_toInt]

/-- A sum of counts that is no larger than the largest count is the sum of their values. -/
theorem toNat_addCapped {a b : UInt64} (h : a.toNat + b.toNat ≤ maxCount) :
    (addCapped a b).toNat = a.toNat + b.toNat := by
  rw [addCapped, if_pos h, UInt64.toNat_add]
  exact Nat.mod_eq_of_lt (Nat.lt_succ_of_le h)

/-- A sum of counts never falls below the smaller of the sum of values and the largest count. -/
theorem toNat_addCapped_eq_min (a b : UInt64) :
    (addCapped a b).toNat = min (a.toNat + b.toNat) maxCount := by
  by_cases h : a.toNat + b.toNat ≤ maxCount
  · rw [toNat_addCapped h, Nat.min_eq_left h]
  · rw [addCapped, if_neg h, toNat_ofNat (Nat.le_refl _), Nat.min_eq_right (by omega)]

/-- The smaller of two counts has the smaller of their values. -/
theorem toNat_min (a b : UInt64) : (min a b).toNat = min a.toNat b.toNat := by
  show (if a ≤ b then a else b).toNat = _
  by_cases h : a ≤ b
  · rw [if_pos h, Nat.min_eq_left (UInt64.le_iff_toNat_le.mp h)]
  · rw [if_neg h, Nat.min_eq_right (Nat.le_of_not_le fun hle => h (UInt64.le_iff_toNat_le.mpr hle))]

/-- A count that a reader holds at a cutoff. -/
def heldAt (cutoff : Option UInt64) (n : UInt64) : UInt64 :=
  match cutoff with
  | some bound => min n bound
  | none => n

/-- A count that zero may be is read like any count, and then held at the cutoff. -/
theorem readLimited?_eq (text : String) (cutoff : Option UInt64) :
    readLimited? text false cutoff = (readCount? text.toList).map (heldAt cutoff) := by
  cases hcount : readCount? text.toList with
  | none => simp [readLimited?, hcount]
  | some n => cases cutoff <;> simp [readLimited?, hcount, heldAt]

theorem readLimited?_digits (n : UInt64) (cutoff : Option UInt64) :
    readLimited? (String.ofList (digits n.toNat)) false cutoff = some (heldAt cutoff n) := by
  rw [readLimited?_eq, String.toList_ofList, readCount?_digits, Option.map_some]

/-- A count within the cutoff stays as it is. -/
theorem heldAt_of_le {cutoff : Option UInt64} {n : UInt64}
    (h : ∀ bound, cutoff = some bound → n.toNat ≤ bound.toNat) : heldAt cutoff n = n := by
  cases cutoff with
  | none => rfl
  | some bound =>
    have hle : n ≤ bound := UInt64.le_iff_toNat_le.mpr (h bound rfl)
    exact if_pos hle

end Keyset.Number
