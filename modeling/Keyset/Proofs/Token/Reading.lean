import Keyset.Proofs.Token.RoundTrip

/-! # What a cutoff does to a token

    A token may be forged, and what it says is then up to its sender.  A cutoff
    has no say in whether the token is read; it only holds the offset that is
    read (`decode_eq_map`), so no cursor comes with an offset beyond the cutoff
    (`offset_le_of_decode`). -/

namespace Keyset

open Number

/-- The cursor with its offset held at a cutoff. -/
def Cursor.held (cutoff : Option UInt64) (c : Cursor) : Cursor :=
  { c with offset := heldAt cutoff c.offset }

namespace Token

theorem readOffset_eq_map (cutoff : Option UInt64) (text : Option String) :
    readOffset cutoff text = (readOffset none text).map (heldAt cutoff) := by
  cases text with
  | none =>
    have hzero : heldAt cutoff 0 = 0 := heldAt_of_le fun bound _ => Nat.zero_le _
    show Except.ok 0 = Except.ok (heldAt cutoff 0)
    rw [hzero]
  | some text =>
    rw [readOffset, readOffset, readLimited?_eq, readLimited?_eq]
    cases readCount? text.toList <;> rfl

theorem toCursor_eq_map (cutoff : Option UInt64) (fields : Fields) :
    fields.toCursor cutoff = (fields.toCursor none).map (Cursor.held cutoff) := by
  rw [Fields.toCursor, Fields.toCursor, readOffset_eq_map]
  cases readOffset none fields.offset with
  | error error => rfl
  | ok offset => cases readReverse fields.reverse <;> rfl

theorem readCursor_eq_map (cutoff : Option UInt64) (payload : List Char) :
    readCursor cutoff payload = (readCursor none payload).map (Cursor.held cutoff) := by
  cases hfields : readFields payload with
  | error why =>
    simp only [readCursor, hfields]
    rfl
  | ok fields => simp only [readCursor, hfields, toCursor_eq_map cutoff fields]

/-- A token that is read with a cutoff is read without it too, and the cutoff holds the offset. -/
theorem decode_eq_map (cutoff : Option UInt64) (token : Option String) :
    decode cutoff token = (decode none token).map (Option.map (Cursor.held cutoff)) := by
  cases token with
  | none => rfl
  | some text =>
    rw [decode, decode]
    by_cases hempty : text = ""
    · rw [if_pos hempty, if_pos hempty]
      rfl
    by_cases hlong : maxLength < text.utf8ByteSize
    · rw [if_neg hempty, if_pos hlong, if_neg hempty, if_pos hlong]
      rfl
    rw [if_neg hempty, if_neg hlong, if_neg hempty, if_neg hlong]
    cases readPayload text with
    | error why => rfl
    | ok payload =>
      show (readCursor cutoff payload).map some = ((readCursor none payload).map some).map _
      rw [readCursor_eq_map]
      cases readCursor none payload <;> rfl

theorem offset_le_of_decode {bound : UInt64} {token : Option String} {c : Cursor}
    (h : decode (some bound) token = .ok (some c)) : c.offset.toNat ≤ bound.toNat := by
  rw [decode_eq_map] at h
  cases hread : decode none token with
  | error error =>
    rw [hread] at h
    exact nomatch h
  | ok cursor =>
    rw [hread] at h
    obtain ⟨d, -, rfl⟩ := Option.map_eq_some_iff.mp (Except.ok.inj h)
    show (min d.offset bound).toNat ≤ bound.toNat
    rw [toNat_min]
    exact Nat.min_le_right _ _

end Token

end Keyset
