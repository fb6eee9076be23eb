import Keyset.Position
import Keyset.Proofs.FieldValue.Order
import Keyset.Proofs.Number.DoubleText
import Keyset.Proofs.Text.Utf8

/-! # Positions read back

    The position of some values reads as what is KEPT of them (`decode_encode`):
    the values themselves, but for the sign of what is no number, which is not
    written.  So it reads as values that tie with them, one by one
    (`values_ofValues`).

    A component carries the length of its content, so it reads back whatever
    follows it, and no content is searched for marks.  The length is a count of
    64 bits; a position whose bytes can be counted at all is long enough for the
    lengths in it to be counted too. -/

namespace Keyset

open Number

/-! ## What is kept -/

/-- What a position keeps of a value: all but the sign of what is no number. -/
def FieldValue.kept : FieldValue → FieldValue
  | float d => float d.kept
  | v => v

theorem FieldValue.ties_kept (v : FieldValue) : v.kept.ties v = true := by
  cases v with
  | float d =>
    rw [ties_iff]
    show d.kept.compare d = .eq
    rw [Double.compare_eq_place, d.place_kept, Double.Place.compare_self]
  | _ => exact ties_refl _

/-- What is kept of some values ties with them one by one. -/
theorem tiedValues_kept (vs : List FieldValue) :
    tiedValues (vs.map FieldValue.kept) vs = true := by
  induction vs with
  | nil => rfl
  | cons v vs ih => exact Bool.and_eq_true_iff.mpr ⟨v.ties_kept, ih⟩

namespace Position

/-! ## Bytes -/

/-- The bytes that characters take are those of their UTF-8 form. -/
theorem byteCount_eq (cs : List Char) : byteCount cs = (String.ofList cs).utf8ByteSize := by
  rw [← Text.length_utf8, Text.utf8_ofList]
  induction cs with
  | nil => rfl
  | cons c cs ih =>
    rw [byteCount, ih, List.flatMap_cons, List.length_append, String.length_utf8EncodeChar]

theorem byteCount_append (cs ds : List Char) :
    byteCount (cs ++ ds) = byteCount cs + byteCount ds := by
  induction cs with
  | nil => exact (Nat.zero_add _).symm
  | cons c cs ih => rw [List.cons_append, byteCount, byteCount, ih, Nat.add_assoc]

theorem byteCount_le (cs : List Char) : byteCount cs ≤ 4 * cs.length := by
  induction cs with
  | nil => exact Nat.le_refl 0
  | cons c cs ih =>
    have hc := c.utf8Size_le_four
    rw [byteCount, List.length_cons]
    omega

/-- As many bytes as a text has split off just that text. -/
theorem splitBytes?_append (text rest : List Char) :
    splitBytes? (byteCount text) (text ++ rest) = some (text, rest) := by
  induction text with
  | nil => cases rest <;> rfl
  | cons c text ih =>
    obtain ⟨n, hn⟩ := Nat.exists_eq_add_one_of_ne_zero
      (show byteCount (c :: text) ≠ 0 from Nat.ne_of_gt (Nat.add_pos_left c.utf8Size_pos _))
    have hcount : c.utf8Size + byteCount text = n + 1 := hn
    have hle : c.utf8Size ≤ n + 1 := by omega
    have hrest : n + 1 - c.utf8Size = byteCount text := by omega
    rw [hn, List.cons_append, splitBytes?, if_pos hle, hrest, ih]
    rfl

/-! ## Components -/

/-- The content of a value reads as what is kept of it. -/
theorem readContent_content (v : FieldValue) : readContent (tag v) (content v) = .ok v.kept := by
  cases v with
  | null => rfl
  | bool b => cases b <;> rfl
  | int n =>
    show (require .badInteger (readInt64? (integerText n.toInt))).map FieldValue.int = _
    rw [readInt64?_integerText]
    rfl
  | float d =>
    show (require .badFloat (readDouble? d.text)).map FieldValue.float = _
    rw [d.readDouble?_text_kept]
    rfl
  | string s =>
    show Except.ok (FieldValue.string (String.ofList s.toList)) = _
    rw [String.ofList_toList]
    rfl
  | objectId id =>
    show (require .badObjectId (ObjectId.ofHex? id.toHex)).map FieldValue.objectId = _
    rw [ObjectId.ofHex?_toHex]
    rfl
  | date millis =>
    show (require .badDate (readInt64? (integerText millis.toInt))).map FieldValue.date = _
    rw [readInt64?_integerText]
    rfl

/-- A component reads back, whatever follows it. -/
theorem readComponent_component {v : FieldValue} (h : byteCount (content v) ≤ maxCount)
    (rest : List Char) :
    readComponent (tag v) (digits (byteCount (content v)) ++ ':' :: (content v ++ rest))
      = .ok (v.kept, rest) := by
  have hcount : readCount? (digits (byteCount (content v)))
      = some (UInt64.ofNat (byteCount (content v))) := by
    have hdigits := readCount?_digits (UInt64.ofNat (byteCount (content v)))
    rwa [toNat_ofNat h] at hdigits
  have htaken : splitBytes? (UInt64.ofNat (byteCount (content v))).toNat (content v ++ rest)
      = some (content v, rest) := by
    rw [toNat_ofNat h]
    exact splitBytes?_append _ _
  exact readComponent_steps.mpr ⟨_, _, _, _, Text.splitAt?_append (not_mem_digits rfl _) _, hcount,
    htaken, readContent_content v⟩

/-! ## Lists of values -/

/-- Reading goes on after each component. -/
theorem decode_cons {letter : Char} {cs rest : List Char} {v : FieldValue}
    (h : readComponent letter cs = .ok (v, rest)) :
    decode (letter :: cs) = (decode rest).map (v :: ·) := by
  rw [decode]
  split
  · next fault hfault =>
    rw [h] at hfault
    cases hfault
  · next value left hvalue =>
    rw [h] at hvalue
    obtain ⟨rfl, rfl⟩ := Prod.mk.inj (Except.ok.inj hvalue)
    rfl

theorem encode_cons (v : FieldValue) (vs : List FieldValue) :
    encode (v :: vs)
      = tag v :: (digits (byteCount (content v)) ++ ':' :: (content v ++ encode vs)) := by
  show (tag v :: (digits (byteCount (content v)) ++ ':' :: content v)) ++ encode vs = _
  rw [List.cons_append, List.append_assoc, List.cons_append]

/-- No content is longer than the text that it is part of. -/
theorem byteCount_content_le (v : FieldValue) (vs : List FieldValue) :
    byteCount (content v) + byteCount (encode vs) ≤ byteCount (encode (v :: vs)) := by
  rw [encode_cons, byteCount, byteCount_append, byteCount, byteCount_append]
  omega

/-- The text of some values reads as what is kept of them, if the lengths in it can be counted. -/
theorem decode_encode {vs : List FieldValue} (h : ∀ v ∈ vs, byteCount (content v) ≤ maxCount) :
    decode (encode vs) = .ok (vs.map FieldValue.kept) := by
  induction vs with
  | nil =>
    show decode [] = _
    rw [decode]
    rfl
  | cons v vs ih =>
    rw [encode_cons, decode_cons (readComponent_component (h v List.mem_cons_self) (encode vs)),
      ih fun w hw => h w (List.mem_cons_of_mem v hw)]
    rfl

/-- In a text that can be counted the lengths can be counted too. -/
theorem byteCount_content_le_of_mem {vs : List FieldValue} {v : FieldValue} (h : v ∈ vs) :
    byteCount (content v) ≤ byteCount (encode vs) := by
  induction vs with
  | nil => exact nomatch h
  | cons w vs ih =>
    have hle := byteCount_content_le w vs
    rcases List.mem_cons.mp h with rfl | h
    · omega
    · have := ih h
      omega

/-- The position of some values reads as values that tie with them. -/
theorem values_ofValues {vs : List FieldValue} (h : (ofValues vs).text.utf8ByteSize ≤ maxCount) :
    ∃ read, (ofValues vs).values = .ok read ∧ tiedValues read vs = true := by
  rw [ofValues, ← byteCount_eq] at h
  refine ⟨vs.map FieldValue.kept, ?_, tiedValues_kept vs⟩
  rw [values, ofValues, String.toList_ofList]
  exact decode_encode fun v hv => Nat.le_trans (byteCount_content_le_of_mem hv) h

end Position

end Keyset
