import Keyset.Proofs.Number.DoubleText
import Mathlib.Data.List.TakeWhile

/-! # The texts of numbers

    What a reader of numbers accepts is a grammar: digits with a sign for counts
    and integers (`Unsigned`, `Signed`), and for doubles digits with a point and
    a power of ten among them, or a name (`Numeral`).  Each reader reads exactly
    the texts of its grammar and gives the number that they spell
    (`readCount?_eq_some_iff`, `readInt64?_eq_some_iff`,
    `readDouble?_eq_some_iff`).

    A number that is read into a word of 64 bits is one that the word can hold,
    so nothing more is said of its size than that it is the word's value. -/

namespace Keyset.Number

/-! ## Counts and integers -/

/-- Some digits, and the number that they spell. -/
inductive Spelled : List Char → Nat → Prop
  | digits {cs : List Char} (hne : cs ≠ []) (h : ∀ c ∈ cs, isDigit c = true) :
      Spelled cs (ofDigits cs)

/-- Digits that may follow a plus sign. -/
inductive Unsigned : List Char → Nat → Prop
  | bare {cs : List Char} {n : Nat} (h : Spelled cs n) : Unsigned cs n
  | plus {cs : List Char} {n : Nat} (h : Spelled cs n) : Unsigned ('+' :: cs) n

/-- Digits that may follow either sign. -/
inductive Signed : List Char → Int → Prop
  | positive {cs : List Char} {n : Nat} (h : Unsigned cs n) : Signed cs n
  | negative {cs : List Char} {n : Nat} (h : Spelled cs n) : Signed ('-' :: cs) (-n)

theorem readDigits?_eq_some_iff {cs : List Char} {n : Nat} :
    readDigits? cs = some n ↔ Spelled cs n := by
  constructor
  · intro h
    rw [readDigits?] at h
    split at h
    · next hdigits =>
      obtain rfl := Option.some.inj h
      exact .digits hdigits.1 (List.all_eq_true.mp hdigits.2)
    · cases h
  · rintro ⟨hne, h⟩
    exact if_pos ⟨hne, List.all_eq_true.mpr h⟩

/-- Digits begin with one. -/
theorem Spelled.eq_cons {cs : List Char} {n : Nat} (h : Spelled cs n) :
    ∃ c rest, cs = c :: rest ∧ isDigit c = true := by
  obtain ⟨hne, h⟩ := h
  obtain ⟨c, rest, rfl⟩ := List.exists_cons_of_ne_nil hne
  exact ⟨c, rest, rfl, h c List.mem_cons_self⟩

theorem readUnsigned?_eq_some_iff {cs : List Char} {n : Nat} :
    readUnsigned? cs = some n ↔ Unsigned cs n := by
  constructor
  · intro h
    unfold readUnsigned? at h
    split at h
    · exact .plus (readDigits?_eq_some_iff.mp h)
    · exact .bare (readDigits?_eq_some_iff.mp h)
  · intro h
    cases h with
    | bare h =>
      obtain ⟨c, rest, rfl, hc⟩ := h.eq_cons
      rw [readUnsigned?_of_isDigit hc]
      exact readDigits?_eq_some_iff.mpr h
    | plus h => exact readDigits?_eq_some_iff.mpr h

/-- A text without a minus sign in front is read as one without any sign but a plus. -/
theorem readSigned?_of_unsigned {cs : List Char} {n : Nat} (h : Unsigned cs n) :
    readSigned? cs = some (n : Int) := by
  have hread := readUnsigned?_eq_some_iff.mpr h
  unfold readSigned?
  split
  · next rest =>
    -- no digit is a minus sign
    cases h with
    | bare h =>
      obtain ⟨c, rest', hcons, hc⟩ := h.eq_cons
      exact absurd (List.cons.inj hcons).1.symm (ne_of_isDigit hc rfl)
  · rw [hread]
    rfl

theorem readSigned?_minus (cs : List Char) :
    readSigned? ('-' :: cs) = (readDigits? cs).map fun n : Nat => -(n : Int) := by
  rw [readSigned?]
  cases readDigits? cs <;> rfl

theorem readSigned?_eq_some_iff {cs : List Char} {n : Int} :
    readSigned? cs = some n ↔ Signed cs n := by
  constructor
  · intro h
    by_cases hminus : ∃ rest, cs = '-' :: rest
    · obtain ⟨rest, rfl⟩ := hminus
      rw [readSigned?_minus] at h
      obtain ⟨m, hm, rfl⟩ := Option.map_eq_some_iff.mp h
      exact .negative (readDigits?_eq_some_iff.mp hm)
    · unfold readSigned? at h
      split at h
      · next rest => exact absurd ⟨rest, rfl⟩ hminus
      · obtain ⟨m, hm, rfl⟩ := Option.map_eq_some_iff.mp h
        exact .positive (readUnsigned?_eq_some_iff.mp hm)
  · intro h
    cases h with
    | positive h => exact readSigned?_of_unsigned h
    | negative h => rw [readSigned?_minus, readDigits?_eq_some_iff.mpr h, Option.map_some]

/-- A count is read from the texts of its value. -/
theorem readCount?_eq_some_iff {cs : List Char} {n : UInt64} :
    readCount? cs = some n ↔ Unsigned cs n.toNat := by
  rw [← readUnsigned?_eq_some_iff, readCount?]
  cases readUnsigned? cs with
  | none => simp
  | some m =>
    show (if m ≤ maxCount then some (UInt64.ofNat m) else none) = some n ↔ some m = some n.toNat
    rw [Option.some.injEq]
    constructor
    · intro h
      split at h
      · next hle =>
        obtain rfl := Option.some.inj h
        exact (toNat_ofNat hle).symm
      · cases h
    · rintro rfl
      rw [if_pos (toNat_le_maxCount n), UInt64.ofNat_toNat]

/-- An integer of 64 bits is read from the texts of its value. -/
theorem readInt64?_eq_some_iff {cs : List Char} {n : Int64} :
    readInt64? cs = some n ↔ Signed cs n.toInt := by
  rw [← readSigned?_eq_some_iff, readInt64?, Option.bind_eq_some_iff]
  constructor
  · rintro ⟨m, hread, h⟩
    rw [int64?] at h
    split at h
    · next hrange =>
      obtain rfl := Option.some.inj h
      have hlt : m < 9223372036854775808 := by omega
      rw [hread, Int64.toInt_ofInt_of_le hrange.1 hlt]
    · cases h
  · intro hread
    have hle := n.le_toInt
    have hlt := n.toInt_lt
    refine ⟨n.toInt, hread, ?_⟩
    rw [int64?, if_pos (by omega), Int64.ofInt_toInt]

/-! ## Doubles -/

/-- The power of ten at the end of a numeral: none, or the letter `e` in either case and an
    exponent. -/
inductive Power : List Char → Int → Prop
  | absent : Power [] 0
  | written {mark : Char} {cs : List Char} {e : Int} (hmark : mark = 'e' ∨ mark = 'E')
      (h : Signed cs e) : Power (mark :: cs) e

/-- Digits, a point before, among or after them if there is one, and a power of ten. -/
inductive Figures : List Char → Decimal → Prop
  | whole {whole power : List Char} {n : Nat} {e : Int} (hdigits : Spelled whole n)
      (hpower : Power power e) : Figures (whole ++ power) ⟨n, e⟩
  | point {whole places power : List Char} {n : Nat} {e : Int}
      (hdigits : Spelled (whole ++ places) n) (hpower : Power power e) :
      Figures (whole ++ '.' :: (places ++ power)) ⟨n, e - places.length⟩

/-- A double without its sign: figures stand for the nearest one, and names may be in any case. -/
inductive Magnitude.Numeral (negative : Bool) : List Char → Double → Prop
  | figures {cs : List Char} {d : Decimal} (h : Figures cs d) :
      Numeral negative cs (d.toDouble negative)
  | infinity {cs : List Char}
      (h : cs.map lowerAscii = ['i', 'n', 'f'] ∨
        cs.map lowerAscii = ['i', 'n', 'f', 'i', 'n', 'i', 't', 'y']) :
      Numeral negative cs (.infinite negative)
  | notNumber {cs : List Char} (h : cs.map lowerAscii = ['n', 'a', 'n']) :
      Numeral negative cs (.nan negative)

/-- A double with a sign or without one. -/
inductive Numeral : List Char → Double → Prop
  | bare {cs : List Char} {d : Double} (h : Magnitude.Numeral false cs d) : Numeral cs d
  | plus {cs : List Char} {d : Double} (h : Magnitude.Numeral false cs d) : Numeral ('+' :: cs) d
  | minus {cs : List Char} {d : Double} (h : Magnitude.Numeral true cs d) : Numeral ('-' :: cs) d

/-- What ends a numeral begins with no digit. -/
theorem Power.head?_eq {cs : List Char} {e : Int} (h : Power cs e) :
    ∀ c ∈ cs.head?, isDigit c = false := by
  cases h with
  | absent => exact fun c hc => nomatch hc
  | written hmark _ =>
    intro c hc
    obtain rfl := Option.some.inj hc
    rcases hmark with rfl | rfl <;> rfl

theorem Power.head?_ne_point {cs : List Char} {e : Int} (h : Power cs e) :
    cs.head? ≠ some '.' := by
  cases h with
  | absent => exact fun hc => nomatch hc
  | written hmark _ =>
    intro hc
    obtain rfl := Option.some.inj hc
    rcases hmark with h | h <;> exact nomatch h

theorem toNat_lowerAscii (c : Char) :
    (lowerAscii c).toNat = if 65 ≤ c.toNat ∧ c.toNat ≤ 90 then c.toNat + 32 else c.toNat := by
  have hcode : 65 ≤ c.toNat ∧ c.toNat ≤ 90 →
      (Char.ofNat (c.toNat + 32)).toNat = c.toNat + 32 := by
    rintro ⟨-, hle⟩
    rw [Char.ofNat, dif_pos (Or.inl (by omega))]
    rfl
  show (if 65 ≤ c.toNat ∧ c.toNat ≤ 90 then Char.ofNat (c.toNat + 32) else c).toNat = _
  split
  · next h => exact hcode h
  · rfl

theorem lowerAscii_eq_e_iff {c : Char} : lowerAscii c = 'e' ↔ c = 'e' ∨ c = 'E' := by
  rw [← Char.toNat_inj, ← Char.toNat_inj, ← Char.toNat_inj, toNat_lowerAscii]
  show _ = 101 ↔ c.toNat = 101 ∨ c.toNat = 69
  split <;> omega

theorem readPower?_eq_some_iff {cs : List Char} {e : Int} :
    readPower? cs = some e ↔ Power cs e := by
  cases cs with
  | nil =>
    constructor
    · intro h
      obtain rfl := Option.some.inj h
      exact .absent
    · rintro ⟨⟩
      rfl
  | cons mark cs =>
    rw [readPower?]
    constructor
    · intro h
      split at h
      · next hmark => exact .written (lowerAscii_eq_e_iff.mp hmark) (readSigned?_eq_some_iff.mp h)
      · cases h
    · intro h
      cases h with
      | written hmark h =>
        rw [if_pos (lowerAscii_eq_e_iff.mpr hmark), readSigned?_eq_some_iff.mpr h]

/-- The digits in front of a text and what is after them make it up. -/
theorem of_spanDigits {cs ds rest : List Char} (h : spanDigits cs = (ds, rest)) :
    cs = ds ++ rest ∧ ∀ c ∈ ds, isDigit c = true := by
  obtain ⟨rfl, rfl⟩ := Prod.mk.inj h
  exact ⟨List.takeWhile_append_dropWhile.symm, fun c hc => List.mem_takeWhile_imp hc⟩

theorem readDecimal?_of_point {cs whole more places rest : List Char}
    (hspan : spanDigits cs = (whole, '.' :: more)) (hspan' : spanDigits more = (places, rest)) :
    readDecimal? cs = if whole ++ places = [] then none else
      (readPower? rest).map fun e => ⟨ofDigits (whole ++ places), e - places.length⟩ := by
  unfold readDecimal?
  simp only [hspan, hspan']
  cases readPower? rest <;> rfl

theorem readDecimal?_of_no_point {cs whole rest : List Char}
    (hspan : spanDigits cs = (whole, rest)) (hpoint : rest.head? ≠ some '.') :
    readDecimal? cs = if whole = [] then none else
      (readPower? rest).map fun e => ⟨ofDigits whole, e⟩ := by
  unfold readDecimal?
  simp only [hspan]
  split
  · exact absurd rfl hpoint
  · simp only [List.append_nil, List.length_nil, Int.natCast_zero, Int.sub_zero]
    cases readPower? rest <;> rfl

theorem readDecimal?_eq_some_iff {cs : List Char} {d : Decimal} :
    readDecimal? cs = some d ↔ Figures cs d := by
  constructor
  · intro h
    obtain ⟨whole, after, hspan⟩ : ∃ whole after, spanDigits cs = (whole, after) := ⟨_, _, rfl⟩
    obtain ⟨rfl, hwhole⟩ := of_spanDigits hspan
    by_cases hpoint : after.head? = some '.'
    · obtain ⟨more, rfl⟩ := List.head?_eq_some_iff.mp hpoint
      obtain ⟨places, rest, hspan'⟩ : ∃ places rest, spanDigits more = (places, rest) :=
        ⟨_, _, rfl⟩
      obtain ⟨rfl, hplaces⟩ := of_spanDigits hspan'
      rw [readDecimal?_of_point hspan hspan'] at h
      split at h
      · exact nomatch h
      · next hne =>
        obtain ⟨e, hpower, rfl⟩ := Option.map_eq_some_iff.mp h
        refine .point (.digits hne ?_) (readPower?_eq_some_iff.mp hpower)
        intro c hc
        rcases List.mem_append.mp hc with hc | hc
        · exact hwhole c hc
        · exact hplaces c hc
    · rw [readDecimal?_of_no_point hspan hpoint] at h
      split at h
      · exact nomatch h
      · next hne =>
        obtain ⟨e, hpower, rfl⟩ := Option.map_eq_some_iff.mp h
        exact .whole (.digits hne hwhole) (readPower?_eq_some_iff.mp hpower)
  · intro h
    cases h with
    | @whole whole power n e hdigits hpower =>
      obtain ⟨hne, hall⟩ := hdigits
      have hspan := spanDigits_of_all (List.all_eq_true.mpr hall) power hpower.head?_eq
      rw [readDecimal?_of_no_point hspan hpower.head?_ne_point, if_neg hne,
        readPower?_eq_some_iff.mpr hpower, Option.map_some]
    | @point whole places power n e hdigits hpower =>
      obtain ⟨hne, hall⟩ := hdigits
      have hwhole : whole.all isDigit := List.all_eq_true.mpr fun c hc =>
        hall c (List.mem_append_left _ hc)
      have hplaces : places.all isDigit := List.all_eq_true.mpr fun c hc =>
        hall c (List.mem_append_right _ hc)
      have hspan := spanDigits_of_all hwhole ('.' :: (places ++ power))
        fun c hc => by obtain rfl := Option.some.inj hc; rfl
      have hspan' := spanDigits_of_all hplaces power hpower.head?_eq
      rw [readDecimal?_of_point hspan hspan', if_neg hne, readPower?_eq_some_iff.mpr hpower,
        Option.map_some]

/-- Figures begin with a digit or a point. -/
theorem Figures.eq_cons {cs : List Char} {d : Decimal} (h : Figures cs d) :
    ∃ c rest, cs = c :: rest ∧ (isDigit c = true ∨ c = '.') := by
  cases h with
  | whole hdigits _ =>
    obtain ⟨c, rest, rfl, hc⟩ := hdigits.eq_cons
    exact ⟨c, _, rfl, .inl hc⟩
  | @point whole places power n e hdigits _ =>
    cases whole with
    | nil => exact ⟨'.', _, rfl, .inr rfl⟩
    | cons c whole =>
      obtain ⟨c', rest, hcons, hc⟩ := hdigits.eq_cons
      obtain ⟨rfl, -⟩ := List.cons.inj hcons
      exact ⟨c, _, rfl, .inl hc⟩

/-- Neither digits nor points have a lower case, so figures are no name. -/
theorem Figures.map_lowerAscii_ne {cs : List Char} {d : Decimal} (h : Figures cs d) {first : Char}
    (hfirst : 97 ≤ first.toNat) (name : List Char) : cs.map lowerAscii ≠ first :: name := by
  obtain ⟨c, rest, rfl, hc⟩ := h.eq_cons
  intro heq
  have hlower : (lowerAscii c).toNat = first.toNat := congrArg Char.toNat (List.cons.inj heq).1
  have hle : c.toNat ≤ 57 := by
    rcases hc with hc | rfl
    · exact (decide_eq_true_iff.mp (Bool.and_eq_true_iff.mp hc).2 : c ≤ '9')
    · decide
  rw [toNat_lowerAscii, if_neg (by omega)] at hlower
  omega

theorem readUnsignedDouble?_eq_some_iff {negative : Bool} {cs : List Char} {d : Double} :
    readUnsignedDouble? negative cs = some d ↔ Magnitude.Numeral negative cs d := by
  constructor
  · intro h
    unfold readUnsignedDouble? at h
    split at h
    · next dec hdec =>
      obtain rfl := Option.some.inj h
      exact .figures (readDecimal?_eq_some_iff.mp hdec)
    · simp only at h
      split at h
      · next hname =>
        obtain rfl := Option.some.inj h
        exact .infinity hname
      · split at h
        · next hname =>
          obtain rfl := Option.some.inj h
          exact .notNumber hname
        · exact nomatch h
  · intro h
    unfold readUnsignedDouble?
    cases h with
    | figures h => rw [readDecimal?_eq_some_iff.mpr h]
    | infinity h =>
      have hnone : readDecimal? cs = none := by
        rw [Option.eq_none_iff_forall_ne_some]
        intro dec hdec
        have hfigures := readDecimal?_eq_some_iff.mp hdec
        rcases h with h | h
        · exact hfigures.map_lowerAscii_ne (by decide) _ h
        · exact hfigures.map_lowerAscii_ne (by decide) _ h
      rw [hnone]
      exact if_pos h
    | notNumber h =>
      have hnone : readDecimal? cs = none := by
        rw [Option.eq_none_iff_forall_ne_some]
        intro dec hdec
        exact (readDecimal?_eq_some_iff.mp hdec).map_lowerAscii_ne (by decide) _ h
      rw [hnone]
      simp [h]

/-- A double without its sign begins with no sign. -/
theorem Magnitude.Numeral.head?_ne {negative : Bool} {cs : List Char} {d : Double}
    (h : Magnitude.Numeral negative cs d) {sign : Char} (hsign : sign = '-' ∨ sign = '+') :
    cs.head? ≠ some sign := by
  intro hhead
  obtain ⟨rest, rfl⟩ := List.head?_eq_some_iff.mp hhead
  cases h with
  | figures h =>
    obtain ⟨c, rest', hcons, hc⟩ := h.eq_cons
    obtain ⟨rfl, -⟩ := List.cons.inj hcons
    rcases hsign with rfl | rfl <;> exact absurd hc (by decide)
  | infinity h =>
    rcases hsign with rfl | rfl <;> rcases h with h | h <;>
      exact absurd (List.cons.inj h).1 (by decide)
  | notNumber h =>
    rcases hsign with rfl | rfl <;> exact absurd (List.cons.inj h).1 (by decide)

/-- A double is read from its numerals. -/
theorem readDouble?_eq_some_iff {cs : List Char} {d : Double} :
    readDouble? cs = some d ↔ Numeral cs d := by
  constructor
  · intro h
    unfold readDouble? at h
    split at h
    · exact .minus (readUnsignedDouble?_eq_some_iff.mp h)
    · exact .plus (readUnsignedDouble?_eq_some_iff.mp h)
    · exact .bare (readUnsignedDouble?_eq_some_iff.mp h)
  · intro h
    cases h with
    | bare h =>
      unfold readDouble?
      split
      · exact absurd rfl (h.head?_ne (.inl rfl))
      · exact absurd rfl (h.head?_ne (.inr rfl))
      · exact readUnsignedDouble?_eq_some_iff.mpr h
    | plus h => exact readUnsignedDouble?_eq_some_iff.mpr h
    | minus h => exact readUnsignedDouble?_eq_some_iff.mpr h

end Keyset.Number
