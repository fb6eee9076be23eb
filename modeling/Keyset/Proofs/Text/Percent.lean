import Keyset.Proofs.Text.Utf8
import Keyset.Text.Percent

/-! # Percent escapes read back

    What `escape` writes, `unescape` reads as the bytes of the text
    (`unescape_escape`), whatever characters it holds: an escape gives back its
    byte, and no other character has the byte of a percent sign in it.  Escaped
    text holds neither of the two characters that separate a payload's pieces
    and fields. -/

namespace Keyset.Text.Percent

/-- A byte other than a percent sign stands for itself. -/
theorem unescape_byte {byte : UInt8} (h : byte ≠ 37) (rest : List UInt8) :
    unescape (byte :: rest) = (unescape rest).map (byte :: ·) := by
  match rest with
  | [] | [_] | _ :: _ :: _ => simp only [unescape, if_neg h]

/-- A percent sign and two bytes that spell a byte stand for that byte. -/
theorem unescape_spelled {high low named : UInt8} (h : spelled? high low = some named)
    (rest : List UInt8) :
    unescape (37 :: high :: low :: rest) = (unescape rest).map (named :: ·) := by
  rw [unescape, if_pos rfl, h]
  cases unescape rest <;> rfl

/-- Bytes other than a percent sign stand for themselves. -/
theorem unescape_append {front : List UInt8} (h : ∀ byte ∈ front, byte ≠ 37) (rest : List UInt8) :
    unescape (front ++ rest) = (unescape rest).map (front ++ ·) := by
  induction front with
  | nil =>
    show unescape rest = (unescape rest).map id
    rw [Option.map_id_apply]
  | cons byte front ih =>
    have hrest := ih fun b hb => h b (List.mem_cons_of_mem _ hb)
    rw [List.cons_append, unescape_byte (h byte List.mem_cons_self), hrest, Option.map_map]
    rfl

/-- The escape of a character, whatever follows it, reads as the character's bytes. -/
theorem unescape_escapeChar (c : Char) (rest : List UInt8) :
    unescape ((escapeChar c).flatMap String.utf8EncodeChar ++ rest)
      = (unescape rest).map (String.utf8EncodeChar c ++ ·) := by
  unfold escapeChar
  split
  · show unescape (37 :: 50 :: 53 :: rest) = _
    exact unescape_spelled rfl rest
  · show unescape (37 :: 50 :: 54 :: rest) = _
    exact unescape_spelled rfl rest
  · show unescape (37 :: 51 :: 68 :: rest) = _
    exact unescape_spelled rfl rest
  · show unescape (37 :: 50 :: 66 :: rest) = _
    exact unescape_spelled rfl rest
  · next hpercent _ _ _ =>
    -- a character that is not escaped has no percent sign among its bytes
    rw [List.flatMap_singleton]
    refine unescape_append ?_ rest
    intro byte hb heq
    have hc : c.toNat = 37 := by
      rw [toNat_eq_of_mem_utf8EncodeChar hb (by rw [heq]; decide), heq]
      rfl
    exact hpercent (Char.toNat_inj.mp hc)

/-- Escaped text reads as the bytes of the text. -/
theorem unescape_escape (cs : List Char) :
    unescape ((escape cs).flatMap String.utf8EncodeChar)
      = some (cs.flatMap String.utf8EncodeChar) := by
  induction cs with
  | nil => rfl
  | cons c cs ih =>
    show unescape ((escapeChar c ++ escape cs).flatMap String.utf8EncodeChar) = _
    rw [List.flatMap_append, unescape_escapeChar, ih]
    rfl

/-- Escaped text is free of the marks that structure a payload. -/
theorem not_mem_escape {mark : Char} (h : mark = '&' ∨ mark = '=') (cs : List Char) :
    mark ∉ escape cs := by
  intro hmem
  obtain ⟨c, -, hc⟩ := List.mem_flatMap.mp hmem
  unfold escapeChar at hc
  split at hc
  case h_5 _ hamp heq _ =>
    rcases h with rfl | rfl
    · exact hamp (List.mem_singleton.mp hc).symm
    · exact heq (List.mem_singleton.mp hc).symm
  all_goals rcases h with rfl | rfl <;> exact absurd hc (by decide)

end Keyset.Text.Percent
