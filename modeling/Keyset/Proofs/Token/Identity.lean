import Keyset.Proofs.Token.RoundTrip

/-! # A token stands for one cursor

    Tokens are made of the characters that an address leaves alone
    (`char_of_mem_encode`), and only the cursor of the first page has the empty
    one (`encode_eq_empty_iff`).

    A token carries the whole cursor: the fields of the payload are those of the
    cursor, so cursors that share a token are one cursor (`encode_injective`).
    What a reader makes of a token is then the cursor itself, its offset held at
    the reader's cutoff (`decode_encode`). -/

namespace Keyset.Token

open Number

/-- A symbol stands for a letter, a digit, a hyphen or an underscore. -/
theorem char_symbol {n : Nat} (h : n < 64) :
    (Char.ofNat (Text.Base64.urlSafe.symbol n).toNat).isAlphanum ∨
      Char.ofNat (Text.Base64.urlSafe.symbol n).toNat = '-' ∨
      Char.ofNat (Text.Base64.urlSafe.symbol n).toNat = '_' :=
  (by decide : ∀ m < 64, (Char.ofNat (Text.Base64.urlSafe.symbol m).toNat).isAlphanum ∨
    Char.ofNat (Text.Base64.urlSafe.symbol m).toNat = '-' ∨
    Char.ofNat (Text.Base64.urlSafe.symbol m).toNat = '_') n h

/-- The characters of a token are letters, digits, hyphens and underscores. -/
theorem char_of_mem_encode {c : Cursor} {ch : Char} (h : ch ∈ (encode c).toList) :
    ch.isAlphanum ∨ ch = '-' ∨ ch = '_' := by
  rw [encode, Text.Base64.encodeText, String.toList_ofList] at h
  obtain ⟨byte, hbyte, rfl⟩ := List.mem_map.mp h
  obtain ⟨n, hn, rfl⟩ := Text.Base64.exists_symbol_of_mem_encode hbyte
  exact char_symbol hn

theorem encode_start : encode .start = "" := rfl

theorem encode_eq_empty_iff {c : Cursor} : encode c = "" ↔ c = .start := by
  constructor
  · intro h
    exact Decidable.byContradiction fun hstart => encode_ne_empty hstart h
  · rintro rfl
    exact encode_start

/-- The cursor of a payload is the one that it was written for. -/
theorem readCursor_payload {c : Cursor} (h : c ≠ .start) (cutoff : Option UInt64) :
    readCursor cutoff (payload c) = .ok { c with offset := heldAt cutoff c.offset } := by
  rw [readCursor, readFields_payload h]
  exact toCursor_ofCursor cutoff c

/-- Cursors that share a token are one cursor. -/
theorem encode_injective {c d : Cursor} (h : encode c = encode d) : c = d := by
  by_cases hstart : c = .start
  · rw [hstart, encode_start] at h
    rw [hstart, encode_eq_empty_iff.mp h.symm]
  · have hstart' : d ≠ .start := by
      rintro rfl
      exact hstart (encode_eq_empty_iff.mp h)
    have hpayload : payload c = payload d := by
      have hread := readPayload_encode c
      rw [h, readPayload_encode d] at hread
      exact (Except.ok.inj hread).symm
    -- without a cutoff the payload gives the cursor as it was
    have hc := readCursor_payload hstart none
    rw [hpayload, readCursor_payload hstart' none] at hc
    exact (Except.ok.inj hc).symm

/-- Tokens are fit for an address, the empty one is that of the first page and stands for no cursor,
    any other is read as its cursor with the offset held at the cutoff, and no two cursors share a
    token. -/
theorem encode_faithful (c : Cursor) (cutoff : Option UInt64) :
    (∀ ch ∈ (encode c).toList, ch.isAlphanum ∨ ch = '-' ∨ ch = '_') ∧
    (encode c = "" ↔ c.isStart = true) ∧
    decode cutoff (some (encode .start)) = .ok none ∧
    (c.isStart = false → (encode c).utf8ByteSize ≤ maxLength →
      decode cutoff (some (encode c))
        = .ok (some ⟨heldAt cutoff c.offset, c.reverse, c.position⟩)) ∧
    ∀ d : Cursor, encode c = encode d → c = d := by
  refine ⟨fun ch hch => char_of_mem_encode hch, ?_, rfl, ?_, fun d h => encode_injective h⟩
  · rw [encode_eq_empty_iff, Cursor.isStart_iff]
  · intro hstart hfits
    refine decode_encode (fun h => ?_) hfits cutoff
    rw [Cursor.isStart_iff.mpr h] at hstart
    exact nomatch hstart

/-- A cursor with every field, and marks of a payload in its position. -/
def markedCursor : Cursor := ⟨7, true, some ⟨"s5:%26&=+é"⟩⟩

/-- The offset of that cursor is held at a cutoff of four; the rest is read as it was. -/
theorem encode_faithful_marked :
    markedCursor.isStart = false ∧ (encode markedCursor).utf8ByteSize ≤ maxLength ∧
    decode (some 4) (some (encode markedCursor)) = .ok (some ⟨4, true, some ⟨"s5:%26&=+é"⟩⟩) := by
  have hstart : markedCursor.isStart = false := rfl
  have hfits : (encode markedCursor).utf8ByteSize ≤ maxLength :=
    utf8ByteSize_encode_le rfl (by decide)
  exact ⟨hstart, hfits, (encode_faithful markedCursor (some 4)).2.2.2.1 hstart hfits⟩

end Keyset.Token
