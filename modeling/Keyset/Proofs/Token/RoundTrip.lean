import Keyset.Proofs.Number.TextLength
import Keyset.Proofs.Position.RoundTrip
import Keyset.Proofs.Text.Base64
import Keyset.Proofs.Text.Percent
import Keyset.Token.Basic

/-! # Tokens read back

    The token of a cursor reads as that cursor, its offset held at the cutoff
    (`decode_encode`).  The cursor of the first page has the empty token, which
    reads as no cursor; the theorem leaves it out.

    Each piece of a payload is one field under its letter; escaped values and
    numbers are free of the marks between pieces, so splitting the payload gives
    the pieces back, and taking them one by one sets the fields of the cursor
    (`readFields_payload`).  A token is about a third longer than its payload
    (`utf8ByteSize_encode`). -/

namespace Keyset.Token

open Number

/-! ## Values of fields -/

/-- A text without percent signs stands for itself. -/
theorem unescape_of_not_mem {cs : List Char} (h : '%' ∉ cs) :
    unescape cs = .ok (String.ofList cs) := by
  have hbytes : ∀ byte ∈ Text.utf8 (String.ofList cs), byte ≠ 37 := by
    intro byte hbyte heq
    rw [Text.utf8_ofList] at hbyte
    obtain ⟨c, hc, hmem⟩ := List.mem_flatMap.mp hbyte
    have hcode : c.toNat = 37 := by
      rw [Text.toNat_eq_of_mem_utf8EncodeChar hmem (by rw [heq]; decide), heq]
      rfl
    have hpercent : c = '%' := Char.toNat_inj.mp hcode
    exact h (hpercent ▸ hc)
  have hread := Text.Percent.unescape_append hbytes []
  rw [List.append_nil, Text.Percent.unescape, Option.map_some, List.append_nil] at hread
  rw [unescape, hread]
  simp only [Text.ofUtf8?_utf8]

/-- An escaped text stands for the text. -/
theorem unescape_escape (s : String) : unescape (Text.Percent.escape s.toList) = .ok s := by
  rw [unescape, Text.utf8_ofList, Text.Percent.unescape_escape, ← Text.utf8_eq]
  simp only [Text.ofUtf8?_utf8]

/-! ## Pieces -/

/-- A piece sets the field of its key, if it is not set already. -/
theorem takePiece_piece {fs : Fields} {k : Key} {value : List Char} {text : String}
    (hunset : fs.get? k = none) (hvalue : unescape value = .ok text) :
    takePiece fs (piece k value) = .ok (fs.set k text) := by
  have hletter : '=' ∉ [k.letter] := by cases k <;> decide
  have hsplit : Text.splitAt? '=' (piece k value) = some ([k.letter], value) :=
    Text.splitAt?_append hletter value
  simp only [takePiece, hsplit, Key.ofText?_eq_some_iff.mpr rfl, hunset, hvalue]
  rfl

/-- The fields that the token of a cursor has. -/
def Fields.ofCursor (c : Cursor) : Fields where
  offset := if c.offset = 0 then none else some (String.ofList (digits c.offset.toNat))
  reverse := if c.reverse then some "1" else none
  position := c.position.map Position.text

theorem foldlM_piece {fs : Fields} {k : Key} {value : List Char} {text : String}
    (hunset : fs.get? k = none) (hvalue : unescape value = .ok text) :
    [piece k value].foldlM takePiece fs = .ok (fs.set k text) := by
  rw [List.foldlM_cons, takePiece_piece hunset hvalue]
  rfl

theorem foldlM_takePiece_append {fs fs' : Fields} {front : List (List Char)}
    (h : front.foldlM takePiece fs = .ok fs') (rest : List (List Char)) :
    (front ++ rest).foldlM takePiece fs = rest.foldlM takePiece fs' := by
  rw [List.foldlM_append, h]
  rfl

/-- Taking the pieces of a cursor one by one sets its fields. -/
theorem foldlM_takePiece_pieces (c : Cursor) :
    (pieces c).foldlM takePiece .empty = .ok (Fields.ofCursor c) := by
  let fs := Fields.ofCursor c
  have hoffset : (if c.offset = 0 then [] else [piece .offset (digits c.offset.toNat)]).foldlM
      takePiece .empty = .ok ⟨fs.offset, none, none⟩ := by
    show _ = Except.ok (⟨if c.offset = 0 then none else _, none, none⟩ : Fields)
    split
    · rfl
    · exact foldlM_piece rfl (unescape_of_not_mem (not_mem_digits rfl _))
  have hreverse : (if c.reverse then [piece .reverse ['1']] else []).foldlM
      takePiece ⟨fs.offset, none, none⟩ = .ok ⟨fs.offset, fs.reverse, none⟩ := by
    show _ = Except.ok (⟨fs.offset, if c.reverse then some "1" else none, none⟩ : Fields)
    split
    · exact foldlM_piece rfl (unescape_of_not_mem (by decide))
    · rfl
  rw [pieces, List.append_assoc, foldlM_takePiece_append hoffset, foldlM_takePiece_append hreverse]
  show _ = Except.ok (⟨fs.offset, fs.reverse, c.position.map Position.text⟩ : Fields)
  cases c.position with
  | none => rfl
  | some p => exact foldlM_piece rfl (unescape_escape p.text)

/-- A cursor other than that of the first page has some piece. -/
theorem pieces_ne_nil {c : Cursor} (h : c ≠ .start) : pieces c ≠ [] := by
  intro hnil
  simp only [pieces, List.append_eq_nil_iff] at hnil
  obtain ⟨⟨hoffset, hreverse⟩, hposition⟩ := hnil
  refine h (Cursor.isStart_iff.mp ?_)
  have hzero : c.offset = 0 := by
    split at hoffset
    · assumption
    · exact nomatch hoffset
  have hforward : c.reverse = false := by
    cases hr : c.reverse with
    | false => rfl
    | true => rw [hr] at hreverse; exact nomatch hreverse
  have hnone : c.position = none := by
    cases hp : c.position with
    | none => rfl
    | some p => rw [hp] at hposition; exact nomatch hposition
  rw [Cursor.isStart, hzero, hforward, hnone]
  rfl

/-- No piece holds the mark between pieces. -/
theorem ampersand_not_mem {c : Cursor} {cs : List Char} (h : cs ∈ pieces c) : '&' ∉ cs := by
  have hpiece : ∀ (k : Key) (value : List Char), '&' ∉ value → '&' ∉ piece k value := by
    intro k value hvalue hmem
    rcases List.mem_cons.mp hmem with hletter | hmem
    · revert hletter
      cases k <;> decide
    · rcases List.mem_cons.mp hmem with heq | hmem
      · exact absurd heq (by decide)
      · exact hvalue hmem
  simp only [pieces, List.mem_append] at h
  rcases h with (h | h) | h
  · split at h
    · exact nomatch h
    · obtain rfl := List.mem_singleton.mp h
      exact hpiece _ _ (not_mem_digits rfl _)
  · split at h
    · obtain rfl := List.mem_singleton.mp h
      exact hpiece _ _ (by decide)
    · exact nomatch h
  · split at h
    · exact nomatch h
    · obtain rfl := List.mem_singleton.mp h
      exact hpiece _ _ (Text.Percent.not_mem_escape (.inl rfl) _)

/-- The payload of a cursor has the fields of the cursor. -/
theorem readFields_payload {c : Cursor} (h : c ≠ .start) :
    readFields (payload c) = .ok (Fields.ofCursor c) := by
  rw [readFields, payload,
    List.splitOn_intercalate '&' (fun _ hmem => ampersand_not_mem hmem) (pieces_ne_nil h),
    foldlM_takePiece_pieces]

/-! ## Cursors -/

theorem readOffset_ofCursor (cutoff : Option UInt64) (c : Cursor) :
    readOffset cutoff (Fields.ofCursor c).offset = .ok (heldAt cutoff c.offset) := by
  show readOffset cutoff (if c.offset = 0 then _ else _) = _
  by_cases hzero : c.offset = 0
  · rw [if_pos hzero, hzero, heldAt_of_le fun bound _ => Nat.zero_le _]
    rfl
  · rw [if_neg hzero, readOffset, readLimited?_digits]

theorem readReverse_ofCursor (c : Cursor) :
    readReverse (Fields.ofCursor c).reverse = .ok c.reverse := by
  obtain ⟨offset, reverse, position⟩ := c
  cases reverse with
  | false => rfl
  | true =>
    show readReverse (some "1") = .ok true
    have hone : readInt64? "1".toList = some 1 := by decide
    rw [readReverse, hone]
    rfl

/-- The fields of a cursor read as the cursor, its offset held at the cutoff. -/
theorem toCursor_ofCursor (cutoff : Option UInt64) (c : Cursor) :
    (Fields.ofCursor c).toCursor cutoff = .ok { c with offset := heldAt cutoff c.offset } := by
  have hposition : (Fields.ofCursor c).position.map Position.mk = c.position := by
    show (c.position.map Position.text).map Position.mk = c.position
    rw [Option.map_map]
    exact Option.map_id_apply
  simp only [Fields.toCursor, readOffset_ofCursor, readReverse_ofCursor, hposition, bind,
    Except.bind]
  rfl

/-! ## Tokens -/

/-- The text that carries a payload. -/
def carrier (payload : List Char) : String :=
  Text.Base64.encodeText Text.Base64.urlSafe (Text.utf8 (String.ofList payload))

/-- The text that carries a payload has four bytes for every three of the payload. -/
theorem utf8ByteSize_carrier (payload : List Char) :
    (carrier payload).utf8ByteSize = (Position.byteCount payload * 4 + 2) / 3 := by
  rw [← Text.length_utf8, carrier, Text.Base64.utf8_encodeText, Text.Base64.length_encode,
    Text.length_utf8, ← Position.byteCount_eq]

theorem readPayload_carrier (payload : List Char) :
    readPayload (carrier payload) = .ok payload := by
  rw [readPayload, carrier, Text.Base64.utf8_encodeText, Text.Base64.decode_encode]
  simp only [Text.ofUtf8?_utf8, String.toList_ofList]

/-- A token has four bytes for every three of its payload. -/
theorem utf8ByteSize_encode (c : Cursor) :
    (encode c).utf8ByteSize = (Position.byteCount (payload c) * 4 + 2) / 3 :=
  utf8ByteSize_carrier (payload c)

/-- Only the cursor of the first page has the empty token. -/
theorem encode_ne_empty {c : Cursor} (h : c ≠ .start) : encode c ≠ "" := by
  have hpayload : payload c ≠ [] := by
    intro hnil
    have hsplit := List.splitOn_intercalate '&' (fun _ hmem => ampersand_not_mem hmem)
      (pieces_ne_nil h)
    rw [← payload, hnil] at hsplit
    -- a piece is never empty, but the only piece of the empty payload is
    have hmem : [] ∈ pieces c := hsplit ▸ List.mem_cons_self
    simp only [pieces, piece, List.mem_append] at hmem
    rcases hmem with (hmem | hmem) | hmem <;> split at hmem <;> simp at hmem
  intro hempty
  have hsize := utf8ByteSize_encode c
  rw [hempty] at hsize
  have hpos : 0 < Position.byteCount (payload c) := by
    obtain ⟨first, rest, hcons⟩ := List.exists_cons_of_ne_nil hpayload
    rw [hcons]
    exact Nat.add_pos_left first.utf8Size_pos _
  have hzero : "".utf8ByteSize = 0 := rfl
  omega

theorem readPayload_encode (c : Cursor) : readPayload (encode c) = .ok (payload c) :=
  readPayload_carrier (payload c)

/-- A token reads as the cursor that it was written for, its offset held at the cutoff. -/
theorem decode_encode {c : Cursor} (hstart : c ≠ .start)
    (hfits : (encode c).utf8ByteSize ≤ maxLength) (cutoff : Option UInt64) :
    decode cutoff (some (encode c)) = .ok (some { c with offset := heldAt cutoff c.offset }) := by
  rw [decode, if_neg (encode_ne_empty hstart), if_neg (Nat.not_lt.mpr hfits)]
  simp only [readPayload_encode, readCursor, readFields_payload hstart, toCursor_ofCursor]
  rfl

/-! ## How long tokens are -/

theorem byteCount_piece (k : Key) (value : List Char) :
    Position.byteCount (piece k value) = 2 + Position.byteCount value := by
  cases k <;> simp only [piece, Position.byteCount, Key.letter] <;>
    exact (Nat.add_assoc 1 1 _).symm

/-- A payload is at least as long as each of its pieces. -/
theorem byteCount_le_intercalate {cs : List Char} {ls : List (List Char)} (h : cs ∈ ls) :
    Position.byteCount cs ≤ Position.byteCount (List.intercalate ['&'] ls) := by
  induction ls with
  | nil => exact nomatch h
  | cons l ls ih =>
    cases ls with
    | nil =>
      rw [List.mem_singleton.mp h]
      simp [List.intercalate]
    | cons l' ls =>
      rw [List.intercalate_cons_cons, Position.byteCount_append, Position.byteCount_append]
      rcases List.mem_cons.mp h with rfl | h
      · omega
      · have := ih h
        omega

/-- Escaping never makes a text shorter. -/
theorem le_byteCount_escape (cs : List Char) :
    Position.byteCount cs ≤ Position.byteCount (Text.Percent.escape cs) := by
  induction cs with
  | nil => exact Nat.le_refl 0
  | cons c cs ih =>
    have hc : c.utf8Size ≤ Position.byteCount (Text.Percent.escapeChar c) := by
      unfold Text.Percent.escapeChar
      split
      case h_5 => exact Nat.le_refl _
      all_goals decide
    show _ ≤ Position.byteCount (Text.Percent.escapeChar c ++ Text.Percent.escape cs)
    rw [Position.byteCount_append, Position.byteCount]
    omega

/-- A token is at least as long as the position in it. -/
theorem utf8ByteSize_position_le {c : Cursor} {p : Position} (hp : c.position = some p) :
    p.text.utf8ByteSize ≤ (encode c).utf8ByteSize := by
  have hmem : piece .position (Text.Percent.escape p.text.toList) ∈ pieces c := by
    rw [pieces, hp]
    exact List.mem_append_right _ List.mem_cons_self
  have hpiece := byteCount_le_intercalate hmem
  have hescape := le_byteCount_escape p.text.toList
  rw [Position.byteCount_eq p.text.toList, String.ofList_toList] at hescape
  rw [byteCount_piece] at hpiece
  rw [utf8ByteSize_encode, payload]
  omega

/-- Escaping makes a text at most three times as long. -/
theorem byteCount_escape_le (cs : List Char) :
    Position.byteCount (Text.Percent.escape cs) ≤ 3 * Position.byteCount cs := by
  induction cs with
  | nil => exact Nat.le_refl 0
  | cons c cs ih =>
    have hc : Position.byteCount (Text.Percent.escapeChar c) ≤ 3 * c.utf8Size := by
      have hpos := c.utf8Size_pos
      unfold Text.Percent.escapeChar
      split
      case h_5 => simp only [Position.byteCount]; omega
      all_goals decide
    show Position.byteCount (Text.Percent.escapeChar c ++ Text.Percent.escape cs) ≤ _
    rw [Position.byteCount_append, Position.byteCount]
    omega

theorem byteCount_intercalate_le (ls : List (List Char)) :
    Position.byteCount (List.intercalate ['&'] ls)
      ≤ Position.byteCount ls.flatten + ls.length := by
  induction ls with
  | nil => exact Nat.le_refl 0
  | cons l ls ih =>
    have hmark : Position.byteCount ['&'] = 1 := rfl
    cases ls with
    | nil => simp [List.intercalate]
    | cons l' ls =>
      rw [List.intercalate_cons_cons, Position.byteCount_append, Position.byteCount_append,
        List.flatten_cons, Position.byteCount_append, List.length_cons, hmark]
      omega

/-- Beside an escaped position a payload is short. -/
theorem byteCount_payload_le (c : Cursor) :
    Position.byteCount (payload c)
      ≤ 90 + (c.position.map fun p => Position.byteCount (Text.Percent.escape p.text.toList)).getD
        0 := by
  have hdigits : (digits c.offset.toNat).length ≤ 20 :=
    length_digits_le (by decide) (Nat.lt_of_lt_of_le c.offset.toNat_lt (by decide))
  have hoffset := Position.byteCount_le (digits c.offset.toNat)
  have hone : Position.byteCount ['1'] = 1 := rfl
  have hnil : Position.byteCount [] = 0 := rfl
  refine Nat.le_trans (byteCount_intercalate_le (pieces c)) ?_
  simp only [pieces, List.flatten_append, Position.byteCount_append, List.length_append]
  cases c.position <;> split <;> split <;>
    simp only [List.flatten_cons, List.flatten_nil, List.length_cons, List.length_nil,
      Position.byteCount_append, byteCount_piece, hone, hnil, Option.map_some, Option.map_none,
      Option.getD_some, Option.getD_none] <;>
    omega

/-- The token of a short position is not too long to be read. -/
theorem utf8ByteSize_encode_le {c : Cursor} {p : Position} (hp : c.position = some p)
    (h : p.text.utf8ByteSize ≤ 2000) : (encode c).utf8ByteSize ≤ maxLength := by
  have hescape := byteCount_escape_le p.text.toList
  rw [Position.byteCount_eq p.text.toList, String.ofList_toList] at hescape
  have hpayload := byteCount_payload_le c
  rw [hp, Option.map_some, Option.getD_some] at hpayload
  have hlimit : maxLength = 8192 := rfl
  rw [utf8ByteSize_encode, hlimit]
  omega

/-- The token of a cursor without a position is not too long to be read. -/
theorem utf8ByteSize_encode_le_of_none {c : Cursor} (h : c.position = none) :
    (encode c).utf8ByteSize ≤ maxLength := by
  have hpayload := byteCount_payload_le c
  rw [h, Option.map_none, Option.getD_none] at hpayload
  have hlimit : maxLength = 8192 := rfl
  rw [utf8ByteSize_encode, hlimit]
  omega

end Keyset.Token
