import Keyset.Proofs.Boundary.Selection
import Keyset.Proofs.Position.Identity

/-! # All comparisons agree

    Where a row lies in an order is found in three ways: a boundary goes through
    its keys, an order goes through two lists of values, and of two lists one can
    ask only whether they TIE.  The three agree (`comparisons_agree`), however
    many fields there are and whichever way each of them goes.

    A boundary may also be read from the position of its values.  That keeps
    values that tie with those written (`tiedValues_kept`), and rows compare alike
    with values that tie, so the boundary stays where it is
    (`compare_ofPosition`). -/

namespace Keyset

namespace SortOrder

/-- In either direction, the values of rows compare as equal exactly if they tie. -/
theorem tiedValues_iff_compareValues {α : Type} [HasFields α] (o : SortOrder) (x y : α) :
    tiedValues (o.valuesOf x) (o.valuesOf y) = true ↔
      o.compareValues (o.valuesOf x) (o.valuesOf y) = .eq ∧
      o.invert.compareValues (o.invert.valuesOf x) (o.invert.valuesOf y) = .eq := by
  have hinverted : o.invert.compareRows x y = .eq ↔
      tiedValues (o.valuesOf x) (o.valuesOf y) = true := by
    rw [compareRows_eq_iff, valuesOf_invert, valuesOf_invert]
  constructor
  · intro h
    exact ⟨compareRows_eq_iff.mpr h, hinverted.mpr h⟩
  · rintro ⟨h, -⟩
    exact compareRows_eq_iff.mp h

end SortOrder

namespace Boundary

variable {α : Type} [HasFields α]

/-- A row lies at the boundary at some values where its values lie among them. -/
theorem compare_ofValues {o : SortOrder} {values : List FieldValue} {inclusive : Bool}
    {b : Boundary} (h : ofValues o values inclusive = .ok b) (row : α) :
    b.compare row = o.compareValues (o.valuesOf row) values := by
  obtain ⟨-, rfl⟩ := ofValues_eq_ok_iff.mp h
  exact compareKeys_zipWith row o.fields values

/-- The boundary at the position of some values lies where the boundary at the values does. -/
theorem compare_ofPosition {o : SortOrder} {values : List FieldValue}
    (hlen : values.length = o.fields.length) (hcount : ∀ v ∈ values, v.Countable)
    (inclusive : Bool) :
    ∃ b, ofPosition o (Position.ofValues values) inclusive = .ok b ∧
      ∀ row : α, b.compare row = o.compareValues (o.valuesOf row) values := by
  have hkept : (values.map FieldValue.kept).length = o.fields.length := by
    rw [List.length_map, hlen]
  have hread : ofPosition o (Position.ofValues values) inclusive
      = ofValues o (values.map FieldValue.kept) inclusive := by
    rw [ofPosition, Position.values_eq_kept hcount]
  have hb := hread.trans (if_pos hkept)
  refine ⟨_, hb, fun row => ?_⟩
  -- values that tie with others can be put in their place on the right too
  rw [compare_ofValues (hread.symm.trans hb), SortOrder.compareValues, ← SortOrder.compareBy_swap,
    SortOrder.compareBy_congr_left (tiedValues_kept values), SortOrder.compareBy_swap]
  rfl

/-- The boundary at some values lies where they do, and stays there when they are written as a
    position and read again; rows tie exactly if they compare as equal in either direction; values
    are totally preordered, and compare the other way in the inverted order. -/
theorem comparisons_agree (α : Type) [HasFields α] (o : SortOrder) :
    (∀ (values : List FieldValue) (inclusive : Bool), values.length = o.fields.length →
      ∃ b, ofValues o values inclusive = .ok b ∧
        (∀ row : α, b.compare row = o.compareValues (o.valuesOf row) values) ∧
        ((∀ v ∈ values, v.Countable) →
          ∃ b', ofPosition o (Position.ofValues values) inclusive = .ok b' ∧
            ∀ row : α, b'.compare row = b.compare row)) ∧
    (∀ x y : α, tiedValues (o.valuesOf x) (o.valuesOf y) = true ↔
      o.compareValues (o.valuesOf x) (o.valuesOf y) = .eq ∧
      o.invert.compareValues (o.invert.valuesOf x) (o.invert.valuesOf y) = .eq) ∧
    (∀ as bs, (o.compareValues as bs).swap = o.compareValues bs as) ∧
    (∀ as bs cs : List FieldValue, as.length = o.fields.length → bs.length = o.fields.length →
      cs.length = o.fields.length → (o.compareValues as bs).isLE → (o.compareValues bs cs).isLE →
      (o.compareValues as cs).isLE) ∧
    ∀ as bs, o.invert.compareValues as bs = o.compareValues bs as := by
  refine ⟨fun values inclusive hlen => ?_, o.tiedValues_iff_compareValues, ?_, ?_, ?_⟩
  · have hb : ofValues o values inclusive = .ok _ := if_pos hlen
    refine ⟨_, hb, compare_ofValues hb, fun hcount => ?_⟩
    obtain ⟨b', hb', hcompare⟩ := compare_ofPosition (α := α) hlen hcount inclusive
    refine ⟨b', hb', fun row => ?_⟩
    rw [hcompare, compare_ofValues hb]
  · exact SortOrder.compareBy_swap o.fields
  · intro as bs cs
    exact SortOrder.compareBy_isLE_trans
  · exact o.compareValues_invert

/-- A document with the negative zero in the first field and an integer of another size in the
    third. -/
def mixedDocument' : Document := [("a", .double (.finite true .zero)), ("c", .int64 7)]

/-- The two documents tie in either direction, and lie after the boundary read from its position. -/
theorem comparisons_agree_mixed :
    (∃ b, ofPosition mixedOrder (Position.ofValues mixedValues) true = .ok b ∧
      b.compare mixedDocument = .gt) ∧
    tiedValues (mixedOrder.valuesOf mixedDocument) (mixedOrder.valuesOf mixedDocument') = true ∧
    mixedOrder.invert.compareValues (mixedOrder.invert.valuesOf mixedDocument)
      (mixedOrder.invert.valuesOf mixedDocument') = .eq ∧
    (mixedOrder.compareValues mixedValues (mixedOrder.valuesOf mixedDocument')).isLE := by
  obtain ⟨hboundary, hties, -, htrans, -⟩ := comparisons_agree Document mixedOrder
  have hlen : mixedValues.length = mixedOrder.fields.length := rfl
  obtain ⟨b, -, hb, hposition⟩ := hboundary mixedValues true hlen
  obtain ⟨b', hb', hcompare⟩ := hposition (by decide)
  have hbefore : mixedOrder.compareValues (mixedOrder.valuesOf mixedDocument) mixedValues = .gt := by
    decide +kernel
  have htied : tiedValues (mixedOrder.valuesOf mixedDocument)
      (mixedOrder.valuesOf mixedDocument') = true := by
    decide +kernel
  obtain ⟨hequal, hequal'⟩ := (hties mixedDocument mixedDocument').mp htied
  refine ⟨⟨b', hb', ?_⟩, htied, hequal', ?_⟩
  · rw [hcompare, hb, hbefore]
  · refine htrans _ _ _ hlen (mixedOrder.length_valuesOf mixedDocument)
      (mixedOrder.length_valuesOf mixedDocument') ?_ (by rw [hequal]; rfl)
    decide +kernel

end Boundary

end Keyset
