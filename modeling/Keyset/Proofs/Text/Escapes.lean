import Keyset.Proofs.Text.Percent
import Mathlib.Data.List.Infix

/-! # What escaped bytes spell

    A percent sign should be followed by two hexadecimal digits, and the three
    bytes then stand for the one that the digits name (`Spells Digits`).  The
    reading is that relation for a larger set of names (`unescape_eq_some_iff`):
    besides two digits, a plus sign and one digit name a byte too
    (`spelled?_eq_some_iff`).

    No percent sign is itself a digit, so each of them begins an escape of its
    own, and the bytes can be spelled exactly if every percent sign is followed
    by two digits (`exists_spells_iff_escaped`).  A plus sign after a percent
    sign is all that the two readings differ in (`spells_digits_iff`). -/

namespace Keyset.Text.Percent

/-! ## Digits -/

/-- The bytes of the hexadecimal digits, in either case, and their numbers. -/
inductive Digit : UInt8 → Nat → Prop
  | decimal {n : Nat} (h : n < 10) : Digit (UInt8.ofNat ('0'.toNat + n)) n
  | lower {n : Nat} (h : n < 6) : Digit (UInt8.ofNat ('a'.toNat + n)) (10 + n)
  | upper {n : Nat} (h : n < 6) : Digit (UInt8.ofNat ('A'.toNat + n)) (10 + n)

/-- Two digits and the byte that they name. -/
def Digits (high low named : UInt8) : Prop :=
  ∃ h l, Digit high h ∧ Digit low l ∧ named = UInt8.ofNat (16 * h + l)

/-- A plus sign and a digit, and the byte of the digit's number. -/
def Signed (high low named : UInt8) : Prop :=
  high = 43 ∧ ∃ l, Digit low l ∧ named = UInt8.ofNat l

/-- The two bytes after a percent sign that are read as the name of a byte. -/
def Named (high low named : UInt8) : Prop := Digits high low named ∨ Signed high low named

theorem hexDigit?_eq_some_iff {byte : UInt8} {n : Nat} :
    hexDigit? byte = some n ↔ Digit byte n := by
  constructor
  · intro h
    have hcode : (Char.ofNat byte.toNat).toNat = byte.toNat := by
      have hlt := UInt8.toNat_lt byte
      rw [Char.ofNat, dif_pos (Or.inl (by omega))]
      rfl
    -- a byte is known by its distance from the first digit of its kind
    have hbyte : ∀ {code m : Nat}, byte.toNat = code + m → byte = UInt8.ofNat (code + m) := by
      intro code m heq
      rw [← heq, UInt8.ofNat_toNat]
    simp only [hexDigit?, Hex.value?, hcode] at h
    split at h
    · next hrange =>
      obtain ⟨m, hm⟩ := Nat.exists_eq_add_of_le hrange.1
      obtain rfl : m = n := by simpa [hm] using h
      rw [hbyte hm]
      exact .decimal (by omega)
    · split at h
      · next hrange =>
        obtain ⟨m, hm⟩ := Nat.exists_eq_add_of_le hrange.1
        obtain rfl : 10 + m = n := by
          have := Option.some.inj h
          omega
        rw [hbyte hm]
        exact .upper (by omega)
      · split at h
        · next hrange =>
          obtain ⟨m, hm⟩ := Nat.exists_eq_add_of_le hrange.1
          obtain rfl : 10 + m = n := by
            have := Option.some.inj h
            omega
          rw [hbyte hm]
          exact .lower (by omega)
        · exact nomatch h
  · intro h
    cases h with
    | @decimal n h => exact (by decide : ∀ n < 10, hexDigit? (UInt8.ofNat (48 + n)) = some n) n h
    | @lower n h =>
      exact (by decide : ∀ n < 6, hexDigit? (UInt8.ofNat (97 + n)) = some (10 + n)) n h
    | @upper n h =>
      exact (by decide : ∀ n < 6, hexDigit? (UInt8.ofNat (65 + n)) = some (10 + n)) n h

/-- A percent sign is no digit. -/
theorem not_digit_percent (n : Nat) : ¬ Digit 37 n := by
  intro h
  exact nomatch hexDigit?_eq_some_iff.mpr h

/-- A plus sign is no digit. -/
theorem not_digit_plus (n : Nat) : ¬ Digit 43 n := by
  intro h
  exact nomatch hexDigit?_eq_some_iff.mpr h

theorem spelled?_eq_some_iff {high low named : UInt8} :
    spelled? high low = some named ↔ Named high low named := by
  simp only [Named, Digits, Signed, ← hexDigit?_eq_some_iff, spelled?]
  cases hhigh : hexDigit? high with
  | some h =>
    have hplus : high ≠ 43 := by
      rintro rfl
      exact nomatch hhigh
    cases hexDigit? low <;> simp [hplus, eq_comm]
  | none =>
    cases hexDigit? low with
    | none => simp
    | some l =>
      by_cases hplus : high = 43
      · simp [hplus, eq_comm]
      · simp [hplus]

theorem Digits.high_ne {high low named : UInt8} (h : Digits high low named) :
    high ≠ 37 ∧ high ≠ 43 := by
  obtain ⟨n, -, hhigh, -⟩ := h
  constructor
  · rintro rfl
    exact not_digit_percent n hhigh
  · rintro rfl
    exact not_digit_plus n hhigh

theorem Digits.low_ne {high low named : UInt8} (h : Digits high low named) : low ≠ 37 := by
  obtain ⟨-, n, -, hlow, -⟩ := h
  rintro rfl
  exact not_digit_percent n hlow

/-! ## Spelling -/

/-- The bytes that some bytes spell: three that begin with a percent sign spell the byte that the two
    others name, and any other byte spells itself. -/
inductive Spells (Names : UInt8 → UInt8 → UInt8 → Prop) : List UInt8 → List UInt8 → Prop
  | nil : Spells Names [] []
  | byte {byte : UInt8} {bytes out : List UInt8} (h : byte ≠ 37) (hrest : Spells Names bytes out) :
      Spells Names (byte :: bytes) (byte :: out)
  | escape {high low named : UInt8} {bytes out : List UInt8} (h : Names high low named)
      (hrest : Spells Names bytes out) : Spells Names (37 :: high :: low :: bytes) (named :: out)

/-- The reading gives the bytes that are spelled by digits or with a sign, and none if none are. -/
theorem unescape_eq_some_iff {bytes out : List UInt8} :
    unescape bytes = some out ↔ Spells Named bytes out := by
  constructor
  · intro h
    fun_induction unescape bytes generalizing out with
    | case1 =>
      obtain rfl := Option.some.inj h
      exact .nil
    | case2 high low more ih =>
      obtain ⟨named, hnamed, h⟩ := Option.bind_eq_some_iff.mp h
      obtain ⟨rest, hrest, h⟩ := Option.bind_eq_some_iff.mp h
      obtain rfl := Option.some.inj h
      exact .escape (spelled?_eq_some_iff.mp hnamed) (ih hrest)
    | case3 => exact nomatch h
    | case4 byte rest hbyte ih =>
      obtain ⟨out, hrest, rfl⟩ := Option.map_eq_some_iff.mp h
      exact .byte hbyte (ih hrest)
  · intro h
    induction h with
    | nil => rfl
    | byte h _ ih => rw [unescape_byte h, ih, Option.map_some]
    | escape h _ ih => rw [unescape_spelled (spelled?_eq_some_iff.mpr h), ih, Option.map_some]

/-! ## Strict escapes -/

/-- Every percent sign is followed by two digits. -/
def Escaped (bytes : List UInt8) : Prop :=
  ∀ after, 37 :: after <:+ bytes →
    ∃ high low named rest, after = high :: low :: rest ∧ Digits high low named

theorem escaped_nil : Escaped [] := by
  intro after h
  exact nomatch List.suffix_nil.mp h

theorem escaped_cons_iff {byte : UInt8} {bytes : List UInt8} :
    Escaped (byte :: bytes) ↔
      (byte = 37 → ∃ high low named rest, bytes = high :: low :: rest ∧ Digits high low named) ∧
      Escaped bytes := by
  constructor
  · intro h
    refine ⟨?_, fun after hafter => h after (List.suffix_cons_iff.mpr (.inr hafter))⟩
    rintro rfl
    exact h bytes (List.suffix_refl _)
  · rintro ⟨hbyte, hbytes⟩ after hafter
    rcases List.suffix_cons_iff.mp hafter with heq | hafter
    · obtain ⟨rfl, rfl⟩ := List.cons.inj heq
      exact hbyte rfl
    · exact hbytes after hafter

/-- Every percent sign is followed by two digits exactly if the digits spell some bytes. -/
theorem exists_spells_iff_escaped {bytes : List UInt8} :
    (∃ out, Spells Digits bytes out) ↔ Escaped bytes := by
  constructor
  · rintro ⟨out, h⟩
    induction h with
    | nil => exact escaped_nil
    | byte h _ ih => exact escaped_cons_iff.mpr ⟨fun heq => absurd heq h, ih⟩
    | escape h _ ih =>
      -- the digits themselves begin no escape
      refine escaped_cons_iff.mpr ⟨fun _ => ⟨_, _, _, _, rfl, h⟩, escaped_cons_iff.mpr ⟨?_, ?_⟩⟩
      · exact fun heq => absurd heq h.high_ne.1
      · exact escaped_cons_iff.mpr ⟨fun heq => absurd heq h.low_ne, ih⟩
  · intro h
    fun_induction unescape bytes with
    | case1 => exact ⟨_, .nil⟩
    | case2 high low more ih =>
      obtain ⟨hfirst, hbytes⟩ := escaped_cons_iff.mp h
      obtain ⟨high', low', named, rest, hcons, hdigits⟩ := hfirst rfl
      obtain ⟨rfl, rfl, -⟩ : high = high' ∧ low = low' ∧ more = rest := by simpa using hcons
      obtain ⟨out, hout⟩ := ih (escaped_cons_iff.mp (escaped_cons_iff.mp hbytes).2).2
      exact ⟨_, .escape hdigits hout⟩
    | case3 rest hshort =>
      obtain ⟨high, low, _, more, rfl, -⟩ := (escaped_cons_iff.mp h).1 rfl
      exact (hshort high low more rfl).elim
    | case4 byte rest hbyte ih =>
      obtain ⟨out, hout⟩ := ih (escaped_cons_iff.mp h).2
      exact ⟨_, .byte hbyte hout⟩

/-- A plus sign after a percent sign is sought behind any other byte. -/
theorem infix_cons_iff_of_ne {byte : UInt8} (h : byte ≠ 37) {bytes : List UInt8} :
    [37, 43] <:+: byte :: bytes ↔ [37, 43] <:+: bytes := by
  rw [List.infix_cons_iff]
  refine or_iff_right ?_
  intro hfirst
  exact h (List.cons_prefix_cons.mp hfirst).1.symm

/-- Digits spell the bytes that are read exactly if no plus sign follows a percent sign. -/
theorem spells_digits_iff {bytes out : List UInt8} :
    Spells Digits bytes out ↔ Spells Named bytes out ∧ ¬ [37, 43] <:+: bytes := by
  constructor
  · intro h
    induction h with
    | nil => exact ⟨.nil, fun h => nomatch List.infix_nil.mp h⟩
    | byte h _ ih =>
      rw [infix_cons_iff_of_ne h]
      exact ⟨.byte h ih.1, ih.2⟩
    | escape h _ ih =>
      rw [List.infix_cons_iff, infix_cons_iff_of_ne h.high_ne.1, infix_cons_iff_of_ne h.low_ne]
      refine ⟨.escape (.inl h) ih.1, ?_⟩
      rintro (hfirst | hsigned)
      · have hrest := (List.cons_prefix_cons.mp hfirst).2
        exact h.high_ne.2 (List.cons_prefix_cons.mp hrest).1.symm
      · exact ih.2 hsigned
  · rintro ⟨h, hsigned⟩
    induction h with
    | nil => exact .nil
    | byte h _ ih =>
      rw [infix_cons_iff_of_ne h] at hsigned
      exact .byte h (ih hsigned)
    | @escape high low named bytes out h _ ih =>
      rcases h with h | ⟨rfl, -⟩
      · rw [List.infix_cons_iff, infix_cons_iff_of_ne h.high_ne.1,
          infix_cons_iff_of_ne h.low_ne] at hsigned
        exact .escape h (ih fun hrest => hsigned (.inr hrest))
      · exact absurd (List.prefix_append [37, 43] (low :: bytes)).isInfix hsigned

end Keyset.Text.Percent
