/-! # UTF-8

The bytes of a text and back.  Reading accepts exactly the byte strings that are the UTF-8 form of
some text; a lenient reading replaces what is not part of any. -/

namespace Keyset.Text

/-- The UTF-8 bytes of a text. -/
def utf8 (s : String) : List UInt8 := s.toByteArray.data.toList

/-- The text whose UTF-8 form the bytes are. -/
def ofUtf8? (bytes : List UInt8) : Option String :=
  String.fromUTF8? ⟨bytes.toArray⟩

theorem ofUtf8?_utf8 (s : String) : ofUtf8? (utf8 s) = some s := by
  have h : (⟨(utf8 s).toArray⟩ : ByteArray) = s.toByteArray := by simp [utf8]
  rw [ofUtf8?, h, String.fromUTF8?, dif_pos s.isValidUTF8]
  rfl

theorem utf8_ofUtf8? {bytes : List UInt8} {s : String} (h : ofUtf8? bytes = some s) :
    utf8 s = bytes := by
  rw [ofUtf8?, String.fromUTF8?] at h
  split at h
  · obtain rfl := Option.some.inj h
    simp [utf8, String.fromUTF8]
  · exact nomatch h

/-- Bytes read as a text exactly when they are that text's UTF-8 form. -/
theorem ofUtf8?_eq_some_iff {bytes : List UInt8} {s : String} :
    ofUtf8? bytes = some s ↔ bytes = utf8 s :=
  ⟨fun h => (utf8_ofUtf8? h).symm, fun h => h ▸ ofUtf8?_utf8 s⟩

/-- The character at the front of some bytes and the bytes after it, if they begin with one; `most`
is how many bytes are tried. -/
def utf8Front? (bytes : List UInt8) : Nat → Option (List Char × List UInt8)
  | 0 => none
  | most + 1 =>
      match utf8Front? bytes most with
      | some front => some front
      | none =>
          if most < bytes.length then
            (ofUtf8? (bytes.take (most + 1))).map fun s => (s.toList, bytes.drop (most + 1))
          else none

/-- The text of some bytes, in which a replacement character stands for each byte that is part of no
character. -/
def ofBytes (bytes : List UInt8) : List Char :=
  match bytes with
  | [] => []
  | byte :: rest =>
      match utf8Front? (byte :: rest) 4 with
      | some (cs, after) =>
          if _h : after.length ≤ rest.length then cs ++ ofBytes after else []
      | none => '\ufffd' :: ofBytes rest
termination_by bytes.length

end Keyset.Text
