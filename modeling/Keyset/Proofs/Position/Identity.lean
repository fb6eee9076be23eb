import Mathlib.Data.List.Forall2
import Keyset.Proofs.FieldValue.Brackets
import Keyset.Proofs.Number.TextLength
import Keyset.Proofs.Position.RoundTrip

/-! # A position stands for one list of values

    Values of any kind are read back from their position as they were, one by
    one; of what is no number only that it is none is kept (`Same`).  So lists
    share a position only if they are the SAME in this sense, and positions that
    are written one after the other read as the lists one after the other.

    Lengths are counts of 64 bits.  Only the bytes of a string can be too many to
    be counted: every other content is short, that of a double too, though it is
    written without a power of ten (`byteCount_content_le_maxCount`). -/

namespace Keyset

open Number

namespace FieldValue

/-- Two values are one value, or neither of them is a number at all. -/
def Same (a b : FieldValue) : Prop := a = b ∨ (a.isNaN = true ∧ b.isNaN = true)

/-- A string whose bytes can be counted, or a value of another kind. -/
def Countable : FieldValue → Prop
  | string s => s.utf8ByteSize ≤ maxCount
  | _ => True

instance (v : FieldValue) : Decidable v.Countable :=
  match v with
  | string s => inferInstanceAs (Decidable (s.utf8ByteSize ≤ maxCount))
  | null | int _ | float _ | objectId _ | bool _ | date _ => .isTrue trivial

theorem kept_of_isNaN {v : FieldValue} (h : v.isNaN = true) : v.kept = float (.nan false) := by
  match v with
  | float (.nan _) => rfl
  | float (.infinite _) => exact nomatch h
  | float (.finite _ _) => exact nomatch h

theorem kept_of_not_isNaN {v : FieldValue} (h : v.isNaN = false) : v.kept = v := by
  match v with
  | float (.nan _) => exact nomatch h
  | float (.infinite _) => rfl
  | float (.finite _ _) => rfl
  | null | int _ | string _ | objectId _ | bool _ | date _ => rfl

theorem isNaN_kept (v : FieldValue) : v.kept.isNaN = v.isNaN := by
  cases hv : v.isNaN with
  | true => rw [kept_of_isNaN hv]; rfl
  | false => rw [kept_of_not_isNaN hv, hv]

/-- As much is kept of values exactly if they are the same. -/
theorem kept_eq_iff {a b : FieldValue} : a.kept = b.kept ↔ a.Same b := by
  constructor
  · intro h
    have hnan : a.isNaN = b.isNaN := by rw [← isNaN_kept a, h, isNaN_kept b]
    cases ha : a.isNaN with
    | true => exact .inr ⟨ha, hnan ▸ ha⟩
    | false =>
      rw [kept_of_not_isNaN ha, kept_of_not_isNaN (hnan ▸ ha)] at h
      exact .inl h
  · rintro (rfl | ⟨ha, hb⟩)
    · rfl
    · rw [kept_of_isNaN ha, kept_of_isNaN hb]

theorem same_kept (v : FieldValue) : v.kept.Same v := by
  cases hv : v.isNaN with
  | true => exact .inr ⟨(isNaN_kept v).trans hv, hv⟩
  | false => exact .inl (kept_of_not_isNaN hv)

theorem forall₂_same_iff {vs ws : List FieldValue} :
    List.Forall₂ Same vs ws ↔ vs.map kept = ws.map kept := by
  rw [← List.forall₂_eq_eq_eq, List.forall₂_map_left_iff, List.forall₂_map_right_iff]
  simp only [kept_eq_iff]

theorem forall₂_same_kept (vs : List FieldValue) : List.Forall₂ Same (vs.map kept) vs := by
  rw [List.forall₂_map_left_iff, List.forall₂_same]
  exact fun v _ => same_kept v

end FieldValue

namespace Position

open FieldValue

/-! ## How long contents are -/

/-- The content of a value is long only for strings. -/
theorem byteCount_content_le_maxCount {v : FieldValue} (h : v.Countable) :
    byteCount (content v) ≤ maxCount := by
  have hshort : ∀ cs : List Char, cs.length ≤ 5000 → byteCount cs ≤ maxCount := by
    intro cs hcs
    have hle := byteCount_le cs
    have hmax : 20000 ≤ maxCount := by decide
    omega
  cases v with
  | null => exact hshort _ (Nat.zero_le _)
  | bool b => exact hshort _ (by cases b <;> decide)
  | int n => exact hshort _ (Nat.le_trans (length_integerText_le n) (by decide))
  | float d => exact hshort _ d.length_text_le
  | string s =>
    show byteCount s.toList ≤ maxCount
    rw [byteCount_eq, String.ofList_toList]
    exact h
  | objectId id => exact hshort _ (by rw [content, id.length_toHex]; decide)
  | date millis => exact hshort _ (Nat.le_trans (length_integerText_le millis) (by decide))

/-! ## Lists of values -/

theorem values_eq_kept {vs : List FieldValue} (h : ∀ v ∈ vs, v.Countable) :
    (ofValues vs).values = .ok (vs.map kept) := by
  rw [values, ofValues, String.toList_ofList]
  exact decode_encode fun v hv => byteCount_content_le_maxCount (h v hv)

/-- Positions written one after the other are the position of both lists of values. -/
theorem text_append (vs ws : List FieldValue) :
    (ofValues vs).text ++ (ofValues ws).text = (ofValues (vs ++ ws)).text := by
  show String.ofList (encode vs) ++ String.ofList (encode ws) = String.ofList (encode (vs ++ ws))
  rw [← String.ofList_append, encode, encode, encode, List.flatMap_append]

theorem component_kept (v : FieldValue) : component v.kept = component v := by
  match v with
  | .float (.nan _) => rfl
  | .float (.infinite _) => rfl
  | .float (.finite _ _) => rfl
  | .null | .int _ | .string _ | .objectId _ | .bool _ | .date _ => rfl

theorem ofValues_kept (vs : List FieldValue) : ofValues (vs.map kept) = ofValues vs := by
  unfold ofValues encode
  rw [List.flatMap_map]
  simp only [component_kept]

/-- Lists share a position exactly if they are the same. -/
theorem ofValues_eq_iff {vs ws : List FieldValue} (hvs : ∀ v ∈ vs, v.Countable)
    (hws : ∀ w ∈ ws, w.Countable) : ofValues vs = ofValues ws ↔ List.Forall₂ Same vs ws := by
  rw [forall₂_same_iff]
  constructor
  · intro h
    have hread := values_eq_kept hvs
    rw [h, values_eq_kept hws] at hread
    exact (Except.ok.inj hread).symm
  · intro h
    rw [← ofValues_kept vs, h, ofValues_kept]

/-- Values are read back from their position as they were, what is no number as none; lists share a
    position exactly if they are the same; and positions written one after the other read as the
    lists one after the other. -/
theorem values_faithful {vs ws : List FieldValue} (hvs : ∀ v ∈ vs, v.Countable)
    (hws : ∀ w ∈ ws, w.Countable) :
    ∃ read read', (ofValues vs).values = .ok read ∧ List.Forall₂ Same read vs ∧
      (ofValues ws).values = .ok read' ∧ List.Forall₂ Same read' ws ∧
      (ofValues vs = ofValues ws ↔ List.Forall₂ Same vs ws) ∧
      (⟨(ofValues vs).text ++ (ofValues ws).text⟩ : Position).values = .ok (read ++ read') := by
  refine ⟨vs.map kept, ws.map kept, values_eq_kept hvs, forall₂_same_kept vs, values_eq_kept hws,
    forall₂_same_kept ws, ofValues_eq_iff hvs hws, ?_⟩
  have hall : ∀ v ∈ vs ++ ws, v.Countable := by
    intro v hv
    rcases List.mem_append.mp hv with hv | hv
    · exact hvs v hv
    · exact hws v hv
  rw [text_append, ← List.map_append]
  exact values_eq_kept hall

/-- Two strings, the first of which looks like the end of one and the beginning of another, and the
    negative zero. -/
def lookalike : List FieldValue := [.string "a2:s1", .string "b", .float (.finite true .zero)]

/-- The strings cut at another place, and the positive zero. -/
def otherLookalike : List FieldValue := [.string "a", .string "2:s1b", .float .zero]

/-- The two lists do not share a position, and both are read from a text that holds both positions. -/
theorem values_faithful_lookalike :
    (∀ v ∈ lookalike, v.Countable) ∧ (∀ w ∈ otherLookalike, w.Countable) ∧
    ofValues lookalike ≠ ofValues otherLookalike ∧
    ∃ read, (⟨(ofValues lookalike).text ++ (ofValues otherLookalike).text⟩ : Position).values
        = .ok read ∧
      List.Forall₂ Same read (lookalike ++ otherLookalike) := by
  have hvs : ∀ v ∈ lookalike, v.Countable := by decide
  have hws : ∀ w ∈ otherLookalike, w.Countable := by decide
  obtain ⟨read, read', -, hsame, -, hsame', hiff, hboth⟩ := values_faithful hvs hws
  refine ⟨hvs, hws, ?_, read ++ read', hboth, List.rel_append hsame hsame'⟩
  rw [ne_eq, hiff, forall₂_same_iff]
  decide

end Position

end Keyset
