import Keyset.Proofs.Text.Escapes
import Keyset.Proofs.Token.Pieces

/-! # Escapes in the values of a payload

    The value of a key is text in which an escape may stand for a byte.  It is
    read if its bytes spell a text (`unescape_eq_ok_iff`), and a token with a
    value that is not read is malformed (`decode_of_unreadable`), whichever piece
    is the first that cannot be taken.

    Two digits after every percent sign are what an escape should have, and
    values without a plus sign after a percent sign are read by that rule
    (`unescape_escapes`).  A plus sign and one digit are read as well
    (`unescape_signed`). -/

namespace Keyset.Token

open Text.Percent

/-- A value is read as the text that its bytes spell. -/
theorem unescape_eq_ok_iff {value : List Char} {text : String} :
    unescape value = .ok text ↔ Spells Named (Text.utf8 (String.ofList value)) (Text.utf8 text) := by
  rw [← unescape_eq_some_iff, unescape]
  cases Text.Percent.unescape (Text.utf8 (String.ofList value)) with
  | none => simp
  | some bytes =>
    simp only [Option.some.injEq, ← Text.ofUtf8?_eq_some_iff]
    cases Text.ofUtf8? bytes <;> simp

/-- A payload is not read if one of its values is not. -/
theorem readFields_of_unreadable {payload : List Char} {k : Key} {value : List Char}
    (hvalue : value ∈ valuesOf k (payload.splitOn '&')) (h : ∀ text, unescape value ≠ .ok text) :
    ∃ why, readFields payload = .error why := by
  cases hfields : readFields payload with
  | error why => exact ⟨why, rfl⟩
  | ok fs =>
    obtain ⟨-, hsets⟩ := (foldlM_takePiece_eq_ok_iff _ _ _).mp hfields
    have hkey := hsets k
    -- a key with a value has it alone, and the value is read
    generalize fs.get? k = after, Fields.empty.get? k = before,
      valuesOf k (payload.splitOn '&') = values at hkey hvalue
    cases hkey with
    | keeps => exact nomatch hvalue
    | sets htext =>
      obtain rfl := List.mem_singleton.mp hvalue
      exact absurd htext (h _)

/-- A token with a value that is not read is malformed. -/
theorem decode_of_unreadable {text : String} {payload : List Char} (htext : Carries text payload)
    {k : Key} {value : List Char} (hvalue : value ∈ valuesOf k (payload.splitOn '&'))
    (h : ∀ text, unescape value ≠ .ok text) (cutoff : Option UInt64) :
    ∃ why, decode cutoff (some text) = .error (.malformed why) := by
  have hpayload : payload ≠ [] := by
    rintro rfl
    cases k <;> exact nomatch hvalue
  obtain ⟨why, hwhy⟩ := readFields_of_unreadable hvalue h
  refine ⟨why, ?_⟩
  rw [decode_of_carries htext hpayload, readCursor, hwhy]
  rfl

/-- A value is read exactly if its bytes, with two digits or a plus sign and one digit after each
    percent sign, spell a text; two digits alone spell it exactly if no plus sign follows a percent
    sign, and they spell some bytes exactly if they follow every percent sign.  A token with a value
    that is not read is malformed. -/
theorem unescape_escapes (value : List Char) :
    (∀ text, unescape value = .ok text ↔
      Spells Named (Text.utf8 (String.ofList value)) (Text.utf8 text)) ∧
    (∀ text, Spells Digits (Text.utf8 (String.ofList value)) (Text.utf8 text) ↔
      unescape value = .ok text ∧ ¬ [37, 43] <:+: Text.utf8 (String.ofList value)) ∧
    ((∃ bytes, Spells Digits (Text.utf8 (String.ofList value)) bytes) ↔
      Escaped (Text.utf8 (String.ofList value))) ∧
    ∀ {text : String} {payload : List Char} {k : Key}, Carries text payload →
      value ∈ valuesOf k (payload.splitOn '&') → (∀ text, unescape value ≠ .ok text) →
      ∀ cutoff, ∃ why, decode cutoff (some text) = .error (.malformed why) := by
  refine ⟨fun text => unescape_eq_ok_iff, ?_, exists_spells_iff_escaped, ?_⟩
  · intro text
    rw [unescape_eq_ok_iff]
    exact spells_digits_iff
  · intro text payload k htext hvalue h cutoff
    exact decode_of_unreadable htext hvalue h cutoff

/-- A payload with a value that is not read, after one whose escapes are two digits each. -/
def misspelled : List Char := ['o', '=', '%', '3', '7', '&', 'p', '=', '%', 'z', 'z']

/-- The escape of letters that are no digits is refused, whatever the other values are. -/
theorem unescape_escapes_misspelled :
    Carries (carrier misspelled) misspelled ∧
    ['%', 'z', 'z'] ∈ valuesOf .position (misspelled.splitOn '&') ∧
    ¬ Escaped (Text.utf8 (String.ofList ['%', 'z', 'z'])) ∧
    (∀ text, unescape ['%', 'z', 'z'] ≠ .ok text) ∧
    ∃ why, decode none (some (carrier misspelled)) = .error (.malformed why) := by
  have hcarries : Carries (carrier misspelled) misspelled := carries_carrier (by decide)
  have hvalue : ['%', 'z', 'z'] ∈ valuesOf .position (misspelled.splitOn '&') := by decide
  have hbytes : Text.utf8 (String.ofList ['%', 'z', 'z']) = [37, 122, 122] := Text.utf8_ofList _
  obtain ⟨-, hstrict, hescaped, hmalformed⟩ := unescape_escapes ['%', 'z', 'z']
  have hnot : ¬ Escaped (Text.utf8 (String.ofList ['%', 'z', 'z'])) := by
    rw [hbytes, escaped_cons_iff]
    rintro ⟨hfirst, -⟩
    obtain ⟨high, low, named, rest, hcons, n, -, hhigh, -⟩ := hfirst rfl
    obtain ⟨rfl, -⟩ := List.cons.inj hcons
    exact nomatch hexDigit?_eq_some_iff.mpr hhigh
  have hunread : ∀ text, unescape ['%', 'z', 'z'] ≠ .ok text := by
    intro text htext
    have hplain : ¬ [37, 43] <:+: Text.utf8 (String.ofList ['%', 'z', 'z']) := by
      rw [hbytes]
      decide
    exact hnot (hescaped.mp ⟨_, (hstrict text).mpr ⟨htext, hplain⟩⟩)
  exact ⟨hcarries, hvalue, hnot, hunread, hmalformed hcarries hvalue hunread none⟩

/-- A payload with a plus sign and one digit after the percent sign. -/
def signed : List Char := ['p', '=', '%', '+', '5']

/-- A plus sign takes the place of a digit: the token is accepted although two digits do not follow
    the percent sign, and the position is the character of the one digit's number. -/
theorem unescape_signed :
    ¬ Escaped (Text.utf8 (String.ofList ['%', '+', '5'])) ∧
    unescape ['%', '+', '5'] = .ok "\x05" ∧
    decode none (some (carrier signed)) = .ok (some ⟨0, false, some ⟨"\x05"⟩⟩) := by
  have hbytes : Text.utf8 (String.ofList ['%', '+', '5']) = [37, 43, 53] := Text.utf8_ofList _
  have hnot : ¬ Escaped (Text.utf8 (String.ofList ['%', '+', '5'])) := by
    rw [hbytes, escaped_cons_iff]
    rintro ⟨hfirst, -⟩
    obtain ⟨high, low, named, rest, hcons, hdigits⟩ := hfirst rfl
    exact hdigits.high_ne.2 (List.cons.inj hcons).1.symm
  have hread : unescape ['%', '+', '5'] = .ok "\x05" := by
    rw [unescape_eq_ok_iff, hbytes, ← unescape_eq_some_iff]
    rfl
  have hcarries : Carries (carrier signed) signed := carries_carrier (by decide)
  have hdescribes : Describes none (signed.splitOn '&') ⟨0, false, some ⟨"\x05"⟩⟩ :=
    ⟨by decide, .unsaid rfl, .unsaid rfl, .said rfl hread rfl⟩
  exact ⟨hnot, hread, (decode_eq_ok_iff hcarries (by decide)).mpr ⟨_, rfl, hdescribes⟩⟩

end Keyset.Token
