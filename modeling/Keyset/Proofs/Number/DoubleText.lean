import Keyset.Number.Reading
import Keyset.Proofs.Number.Digits

/-! # Doubles read back

    The text of a double reads as that double (`readDouble?_text`); only the
    sign of what is no number is not written.  The decimal that is written is
    either one that was found to read back, or the exact value, and the exact
    value reads back because rounding depends on a fraction alone and not on how
    it is expanded (`nearest?_mul`), and leaves a magnitude as it is
    (`nearest?_units`).  The positional layout moves the point of a decimal and
    keeps its value (`readDecimal?_positional`). -/

namespace Keyset.Number

/-! ## Powers -/

theorem power_five_mul_twoTo (n : Nat) : power 5 n * twoTo n = tenTo n :=
  (Nat.mul_pow 5 2 n).symm

/-- A power of five has more than twice as many binary digits as its exponent says. -/
theorem le_log2_mul_power_five {u : Nat} (hu : u ≠ 0) (n : Nat) :
    2 * n ≤ (u * power 5 n).log2 := by
  have hpow : 2 ^ (2 * n) ≤ u * power 5 n :=
    calc 2 ^ (2 * n) = 4 ^ n := Nat.pow_mul 2 2 n
      _ ≤ power 5 n := Nat.pow_le_pow_left (by decide) n
      _ ≤ u * power 5 n := Nat.le_mul_of_pos_left _ (Nat.pos_of_ne_zero hu)
  have hpos : 0 < u * power 5 n := Nat.lt_of_lt_of_le (Nat.two_pow_pos _) hpow
  exact (Nat.le_log2 (Nat.ne_of_gt hpos)).mpr hpow

namespace Decimal

/-! ## Which decimals are rounded -/

theorem isHuge_iff {d : Decimal} : d.isHuge = true ↔ d.coefficient ≠ 0 ∧ 400 < d.exponent := by
  simp [isHuge]

theorem isTiny_eq_false {d : Decimal} (hne : d.coefficient ≠ 0)
    (h : -3 * d.exponent ≤ (d.coefficient.log2 : Int) + 1100) : d.isTiny = false := by
  rw [isTiny, decide_eq_false hne, Bool.false_or, decide_eq_false (by omega)]

theorem nearest?_eq_zero {d : Decimal} (h : d.coefficient = 0) : d.nearest? = some .zero := by
  have hhuge : d.isHuge = false := by simp [isHuge, h]
  have htiny : d.isTiny = true := by simp [isTiny, h]
  rw [nearest?, hhuge, htiny, if_neg Bool.false_ne_true, if_pos rfl]

theorem unitFraction_negSucc (coefficient n : Nat) :
    unitFraction ⟨coefficient, Int.negSucc n⟩
      = (coefficient * Magnitude.unitsOfOne, tenTo (n + 1)) := rfl

theorem nearest?_ofNat {coefficient e : Nat} (hne : coefficient ≠ 0) (hle : e ≤ 400) :
    nearest? ⟨coefficient, Int.ofNat e⟩
      = Magnitude.nearest? (coefficient * tenTo e * Magnitude.unitsOfOne) 1 := by
  have hhuge : ¬ isHuge ⟨coefficient, Int.ofNat e⟩ = true := by
    intro hhuge
    have hlt : (400 : Int) < Int.ofNat e := (isHuge_iff.mp hhuge).2
    rw [Int.ofNat_eq_natCast] at hlt
    omega
  have htiny : isTiny ⟨coefficient, Int.ofNat e⟩ = false :=
    isTiny_eq_false hne (by simp only [Int.ofNat_eq_natCast]; omega)
  rw [nearest?, if_neg hhuge, htiny, if_neg Bool.false_ne_true]
  rfl

/-- Only zero and what is not huge has a nearest magnitude. -/
theorem le_of_nearest?_eq_some {coefficient e : Nat} {m : Magnitude} (hne : coefficient ≠ 0)
    (h : nearest? ⟨coefficient, Int.ofNat e⟩ = some m) : e ≤ 400 := by
  refine Nat.le_of_not_lt fun hlt => ?_
  have hexp : (400 : Int) < Int.ofNat e := by
    rw [Int.ofNat_eq_natCast]
    omega
  rw [nearest?, if_pos (isHuge_iff.mpr ⟨hne, hexp⟩)] at h
  exact nomatch h

end Decimal

namespace Magnitude

/-! ## Rounding -/

theorem roundHalfEven_mul_self (n : Nat) {k : Nat} (hk : 0 < k) : roundHalfEven (n * k) k = n := by
  unfold roundHalfEven
  rw [Nat.mul_mod_left, Nat.mul_div_cancel n hk]
  exact if_pos (.inl hk)

/-- Rounding a quotient does not depend on how the fraction is expanded. -/
theorem roundHalfEven_mul (a b : Nat) {k : Nat} (hk : 0 < k) :
    roundHalfEven (a * k) (b * k) = roundHalfEven a b := by
  have hlt : 2 * (a % b * k) < b * k ↔ 2 * (a % b) < b := by
    rw [← Nat.mul_assoc]
    exact Nat.mul_lt_mul_right hk
  have heq : 2 * (a % b * k) = b * k ↔ 2 * (a % b) = b := by
    rw [← Nat.mul_assoc]
    exact Nat.mul_left_inj (Nat.ne_of_gt hk)
  unfold roundHalfEven
  rw [Nat.mul_div_mul_right _ _ hk, Nat.mul_mod_mul_right]
  simp only [hlt, heq]

/-- The nearest magnitude depends on the fraction alone. -/
theorem nearest?_mul (a b : Nat) {k : Nat} (hk : 0 < k) :
    nearest? (a * k) (b * k) = nearest? a b := by
  have hround : ∀ scale, roundHalfEven (a * k) (b * k * twoTo scale)
      = roundHalfEven a (b * twoTo scale) := by
    intro scale
    rw [Nat.mul_right_comm, roundHalfEven_mul _ _ hk]
  unfold nearest?
  rw [Nat.mul_div_mul_right _ _ hk]
  simp only [hround]

theorem ofParts?_self (m : Magnitude) : ofParts? m.significand m.scale = some m :=
  dif_pos ⟨m.significand_lt, m.scale_le, m.canonical⟩

/-- The binary length of a magnitude gives its scale. -/
theorem log2_units_sub (m : Magnitude) : m.units.log2 - 52 = m.scale := by
  have hlt : m.significand < 2 ^ 53 := m.significand_lt
  -- below the normal range the scale is zero, within it the significand fills 53 digits
  rcases m.canonical with hscale | hle
  · have hunits : m.units = m.significand := by
      rw [units, hscale]
      exact Nat.mul_one _
    rcases Nat.eq_zero_or_pos m.significand with hzero | hpos
    · rw [hunits, hzero, hscale]
      rfl
    · have hlog : m.significand.log2 < 53 := (Nat.log2_lt (Nat.ne_of_gt hpos)).mpr hlt
      rw [hunits, hscale]
      omega
  · have hle' : 2 ^ 52 ≤ m.significand := hle
    have hlow : 2 ^ (52 + m.scale) ≤ m.units := by
      rw [Nat.pow_add]
      exact Nat.mul_le_mul_right _ hle'
    have hhigh : m.units < 2 ^ (52 + m.scale + 1) := by
      rw [Nat.add_right_comm, Nat.pow_add]
      exact Nat.mul_lt_mul_of_pos_right hlt (twoTo_pos _)
    have hpos : 0 < m.units := Nat.lt_of_lt_of_le (Nat.two_pow_pos _) hlow
    rw [(Nat.log2_eq_iff (Nat.ne_of_gt hpos)).mpr ⟨hlow, hhigh⟩]
    omega

/-- A magnitude is the nearest one to itself. -/
theorem nearest?_units (m : Magnitude) : nearest? m.units 1 = some m := by
  have hne : m.significand ≠ 9007199254740992 := Nat.ne_of_lt m.significand_lt
  have hround : roundHalfEven m.units (1 * twoTo m.scale) = m.significand := by
    rw [Nat.one_mul]
    exact roundHalfEven_mul_self m.significand (twoTo_pos m.scale)
  unfold nearest?
  -- the units are a multiple of the scale, so nothing is rounded and no digit is carried over
  rw [Nat.div_one, log2_units_sub]
  simp only [hround]
  rw [if_neg hne, ofParts?_self]

/-! ## The written decimal -/

theorem eq_zero_of_units {m : Magnitude} (h : m.units = 0) : m = zero := by
  have hsig : m.significand = 0 := by
    rcases Nat.mul_eq_zero.mp h with hsig | hscale
    · exact hsig
    · exact absurd hscale (Nat.ne_of_gt (twoTo_pos _))
  obtain ⟨significand, scale, hlt, hle, hcanonical⟩ := m
  have hscale : scale = 0 := by
    rcases hcanonical with hscale | hnormal
    · exact hscale
    · simp only at hsig
      omega
  subst hsig hscale
  rfl

/-- The exact value of a magnitude is not taken for zero. -/
theorem isTiny_exactDecimal {m : Magnitude} (h : m.units ≠ 0) : m.exactDecimal.isTiny = false := by
  have hlog := le_log2_mul_power_five h 1074
  have hne : m.units * power 5 1074 ≠ 0 :=
    Nat.mul_ne_zero h (Nat.ne_of_gt (power_pos (by decide) 1074))
  refine Decimal.isTiny_eq_false hne ?_
  simp only [exactDecimal]
  omega

/-- The exact value of a magnitude reads as it. -/
theorem nearest?_exactDecimal {m : Magnitude} (h : m.units ≠ 0) :
    m.exactDecimal.nearest? = some m := by
  have hhuge : m.exactDecimal.isHuge = false := Bool.and_false _
  -- its fraction is that of the units, expanded by a power of ten
  have hexact : m.exactDecimal = ⟨m.units * power 5 1074, Int.negSucc 1073⟩ := rfl
  have hfraction : m.exactDecimal.unitFraction = (m.units * tenTo 1074, 1 * tenTo 1074) := by
    rw [hexact, Decimal.unitFraction_negSucc, unitsOfOne_eq, Nat.mul_assoc, power_five_mul_twoTo,
      Nat.one_mul]
  rw [Decimal.nearest?, hhuge, isTiny_exactDecimal h, hfraction, if_neg Bool.false_ne_true,
    if_neg Bool.false_ne_true, nearest?_mul _ _ (tenTo_pos 1074), nearest?_units]

/-- A decimal that was found to be short enough reads as the magnitude. -/
theorem nearest?_of_shortest? {m : Magnitude} {tie : Tie} {d : Decimal}
    (h : m.shortest? tie = some d) : d.nearest? = some m := by
  obtain ⟨places, -, hfind⟩ := List.exists_of_findSome?_eq_some h
  have hreads : m.readsBack d = true := List.find?_some hfind
  exact eq_of_beq hreads

/-- The decimal that is written for a magnitude reads as it. -/
theorem nearest?_decimal (m : Magnitude) (tie : Tie) : (m.decimal tie).nearest? = some m := by
  unfold decimal
  by_cases hzero : m.units = 0
  · rw [if_pos hzero, eq_zero_of_units hzero]
    rfl
  · rw [if_neg hzero]
    cases hs : m.shortest? tie with
    | none => exact nearest?_exactDecimal hzero
    | some d => exact nearest?_of_shortest? hs

end Magnitude

/-! ## The positional layout -/

/-- The digits in front of a text are split off, up to the first other character. -/
theorem spanDigits_of_all {ds : List Char} (h : ds.all isDigit = true) (rest : List Char)
    (hrest : ∀ c ∈ rest.head?, isDigit c = false) : spanDigits (ds ++ rest) = (ds, rest) := by
  have hds : ∀ c ∈ ds, isDigit c = true := List.all_eq_true.mp h
  have htake : rest.takeWhile isDigit = [] := by
    cases rest with
    | nil => rfl
    | cons c rest => rw [List.takeWhile_cons, hrest c rfl]; rfl
  have hdrop : rest.dropWhile isDigit = rest := by
    cases rest with
    | nil => rfl
    | cons c rest => rw [List.dropWhile_cons, hrest c rfl]; rfl
  rw [spanDigits, List.takeWhile_append_of_pos hds, List.dropWhile_append_of_pos hds, htake, hdrop,
    List.append_nil]

/-- Digits alone read as a whole number. -/
theorem readDecimal?_digits (n : Nat) : readDecimal? (digits n) = some ⟨n, 0⟩ := by
  have hspan : spanDigits (digits n) = (digits n, []) := by
    have h := spanDigits_of_all (all_isDigit_digits n) [] (fun _ h => nomatch h)
    rwa [List.append_nil] at h
  unfold readDecimal?
  rw [hspan]
  simp only [List.append_nil, if_neg (digits_ne_nil n), ofDigits_digits]
  rfl

/-- Digits around a point read as the number that they spell together, with a place for each digit
after the point. -/
theorem readDecimal?_point {whole places : List Char} (hwhole : whole.all isDigit = true)
    (hplaces : places.all isDigit = true) (hne : whole ≠ []) :
    readDecimal? (whole ++ '.' :: places) = some ⟨ofDigits (whole ++ places), -places.length⟩ := by
  have hspan : spanDigits (whole ++ '.' :: places) = (whole, '.' :: places) :=
    spanDigits_of_all hwhole _ (fun c hc => by obtain rfl := Option.some.inj hc; rfl)
  have hspan' : spanDigits places = (places, []) := by
    have h := spanDigits_of_all hplaces [] (fun _ h => nomatch h)
    rwa [List.append_nil] at h
  have hsome : whole ++ places ≠ [] := fun h => hne (List.append_eq_nil_iff.mp h).1
  unfold readDecimal?
  simp only [hspan, hspan', if_neg hsome, readPower?, Int.zero_sub]

theorem ofDigits_zeros (n : Nat) (ds : List Char) :
    ofDigits (List.replicate n '0' ++ ds) = ofDigits ds := by
  induction n with
  | zero => rfl
  | succ n ih => exact ih

/-- The digits of a number with a point among them read as that number and as many places. -/
theorem readDecimal?_withPoint (n places : Nat) :
    readDecimal? (Decimal.withPoint places (digits n)) = some ⟨n, -places⟩ := by
  have hall := List.all_eq_true.mp (all_isDigit_digits n)
  unfold Decimal.withPoint
  -- the point stands among the digits, or zeros fill the places in front of them
  by_cases h : places < (digits n).length
  · have hwhole : ((digits n).take ((digits n).length - places)).all isDigit = true :=
      List.all_eq_true.mpr fun c hc => hall c (List.mem_of_mem_take hc)
    have hplaces : ((digits n).drop ((digits n).length - places)).all isDigit = true :=
      List.all_eq_true.mpr fun c hc => hall c (List.mem_of_mem_drop hc)
    have hne : (digits n).take ((digits n).length - places) ≠ [] := by
      rw [ne_eq, List.take_eq_nil_iff, not_or]
      exact ⟨by omega, digits_ne_nil n⟩
    have hlen : ((digits n).drop ((digits n).length - places)).length = places := by
      rw [List.length_drop]
      omega
    rw [if_pos h, readDecimal?_point hwhole hplaces hne, List.take_append_drop, ofDigits_digits,
      hlen]
  · have hplaces :
        (List.replicate (places - (digits n).length) '0' ++ digits n).all isDigit = true := by
      rw [List.all_append, all_isDigit_digits, Bool.and_true]
      exact List.all_eq_true.mpr fun c hc => by rw [List.eq_of_mem_replicate hc]; rfl
    have hlen : (List.replicate (places - (digits n).length) '0' ++ digits n).length = places := by
      rw [List.length_append, List.length_replicate]
      omega
    rw [if_neg h]
    have hzero : ['0'].all isDigit = true := rfl
    refine (readDecimal?_point hzero hplaces (by decide)).trans ?_
    rw [hlen]
    show some (⟨ofDigits (List.replicate _ '0' ++ digits n), _⟩ : Decimal) = _
    rw [ofDigits_zeros, ofDigits_digits]

/-- A whole number keeps its nearest magnitude when its zeros are written out. -/
theorem nearest?_writtenOut {c e : Nat} {m : Magnitude}
    (h : Decimal.nearest? ⟨c, Int.ofNat e⟩ = some m) :
    Decimal.nearest? ⟨c * tenTo e, Int.ofNat 0⟩ = some m := by
  by_cases hc : c = 0
  · rw [Decimal.nearest?_eq_zero hc] at h
    rw [Decimal.nearest?_eq_zero (show c * tenTo e = 0 by rw [hc, Nat.zero_mul]), h]
  · have hne : c * tenTo e ≠ 0 := Nat.mul_ne_zero hc (Nat.ne_of_gt (tenTo_pos e))
    have hten : tenTo 0 = 1 := rfl
    -- both are rounded as the same fraction, since neither is huge
    rw [Decimal.nearest?_ofNat hne (Nat.zero_le _), hten, Nat.mul_one]
    rw [Decimal.nearest?_ofNat hc (Decimal.le_of_nearest?_eq_some hc h)] at h
    exact h

/-- A decimal that has a nearest magnitude keeps it in positional form. -/
theorem readDecimal?_positional {d : Decimal} {m : Magnitude} (h : d.nearest? = some m) :
    ∃ d', readDecimal? (d.positional false) = some d' ∧ d'.nearest? = some m := by
  obtain ⟨coefficient, exponent⟩ := d
  cases exponent with
  | negSucc e => exact ⟨_, readDecimal?_withPoint coefficient (e + 1), h⟩
  | ofNat e =>
    refine ⟨⟨coefficient * tenTo e, 0⟩, ?_, nearest?_writtenOut h⟩
    show readDecimal? (digits (coefficient * tenTo e) ++ []) = _
    rw [List.append_nil, readDecimal?_digits]

/-- The positional form of a decimal begins with a digit. -/
theorem positional_eq_cons (d : Decimal) :
    ∃ c cs, d.positional false = c :: cs ∧ isDigit c = true := by
  obtain ⟨coefficient, exponent⟩ := d
  cases exponent with
  | ofNat e =>
    obtain ⟨c, cs, hds, hc⟩ := digits_eq_cons (coefficient * tenTo e)
    refine ⟨c, cs, ?_, hc⟩
    show digits (coefficient * tenTo e) ++ [] = _
    rw [List.append_nil, hds]
  | negSucc e =>
    show ∃ c cs, Decimal.withPoint (e + 1) (digits coefficient) = c :: cs ∧ _
    unfold Decimal.withPoint
    by_cases h : e + 1 < (digits coefficient).length
    · obtain ⟨c, cs, hds, hc⟩ := digits_eq_cons coefficient
      rw [if_pos h, hds]
      rw [hds] at h
      obtain ⟨n, hn⟩ := Nat.exists_eq_add_one_of_ne_zero
        (show (c :: cs).length - (e + 1) ≠ 0 by omega)
      rw [hn]
      exact ⟨c, _, rfl, hc⟩
    · rw [if_neg h]
      exact ⟨'0', _, rfl, rfl⟩

/-! ## Doubles -/

namespace Double

theorem text_finite (negative : Bool) (m : Magnitude) :
    text (finite negative m)
      = (if negative then ['-'] else []) ++ (m.decimal .upward).positional false := rfl

/-- The text of a double reads as that double. -/
theorem readDouble?_text {d : Double} (h : d.isNaN = false) : readDouble? d.text = some d := by
  match d with
  | nan _ => exact nomatch h
  | infinite true => rfl
  | infinite false => rfl
  | finite negative m =>
    obtain ⟨d', hread, hnearest⟩ := readDecimal?_positional (m.nearest?_decimal .upward)
    have hunsigned : readUnsignedDouble? negative ((m.decimal .upward).positional false)
        = some (finite negative m) := by
      rw [readUnsignedDouble?, hread]
      show some (ofMagnitude? negative d'.nearest?) = _
      rw [hnearest]
      rfl
    rw [text_finite]
    cases negative with
    | true => exact hunsigned
    | false =>
      obtain ⟨c, cs, hcs, hc⟩ := positional_eq_cons (m.decimal .upward)
      show readDouble? ((m.decimal .upward).positional false) = _
      rw [← hunsigned, hcs]
      unfold readDouble?
      -- a text that begins with a digit has no sign
      split
      · next heq => exact absurd (List.cons.inj heq).1 (ne_of_isDigit hc rfl)
      · next heq => exact absurd (List.cons.inj heq).1 (ne_of_isDigit hc rfl)
      · rfl

/-- What the text of a double tells of it: all but the sign of what is no number. -/
def kept : Double → Double
  | nan _ => nan false
  | d => d

theorem place_kept (d : Double) : d.kept.place = d.place := by
  cases d <;> rfl

/-- The text of a double reads as what it tells of the double. -/
theorem readDouble?_text_kept (d : Double) : readDouble? d.text = some d.kept := by
  cases d with
  | nan negative => rfl
  | infinite negative => exact readDouble?_text rfl
  | finite negative m => exact readDouble?_text rfl

end Double

end Keyset.Number
