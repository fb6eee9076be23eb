import Keyset.Boundary
import Keyset.Proofs.SortOrder.Comparison

/-! # What a boundary selects

    A row lies at a boundary where its values lie among the values of the
    boundary, field by field (`compareKeys_zipWith`).  So an inclusive boundary
    selects just the rows that do not come first by their values, and all that
    matters of its values is which rows they tie with (`selects_of_tied`).

    Whatever values a boundary has, one for each field: with a row it selects
    every row that does not come before that row (`selects_of_isLE`). -/

namespace Keyset.Boundary

variable {α : Type} [HasFields α]

theorem compareKeys_zipWith (row : α) (fields : List SortField) (values : List FieldValue) :
    compareKeys row (List.zipWith Key.mk fields values)
      = SortOrder.compareBy fields (fields.map fun f => SortOrder.fieldValue row f.name)
        values := by
  induction fields generalizing values with
  | nil => rfl
  | cons f fields ih =>
    cases values with
    | nil => rfl
    | cons v values =>
      rw [List.zipWith_cons_cons, compareKeys, ih]
      rfl

/-- A boundary has the fields that it was made of, and the values. -/
theorem map_field_zipWith {fields : List SortField} {values : List FieldValue}
    (h : values.length = fields.length) :
    (List.zipWith Key.mk fields values).map Key.field = fields := by
  induction fields generalizing values with
  | nil => rw [List.length_eq_zero_iff.mp h]; rfl
  | cons f fields ih =>
    obtain ⟨v, values, rfl⟩ := List.exists_cons_of_length_eq_add_one h
    rw [List.zipWith_cons_cons, List.map_cons, ih (Nat.succ.inj h)]

theorem map_value_zipWith {fields : List SortField} {values : List FieldValue}
    (h : values.length = fields.length) :
    (List.zipWith Key.mk fields values).map Key.value = values := by
  induction fields generalizing values with
  | nil => rw [List.length_eq_zero_iff.mp h]; rfl
  | cons f fields ih =>
    obtain ⟨v, values, rfl⟩ := List.exists_cons_of_length_eq_add_one h
    rw [List.zipWith_cons_cons, List.map_cons, ih (Nat.succ.inj h)]

/-- A boundary is made of one value for each field, in the sequence of the fields. -/
theorem ofValues_eq_ok_iff {o : SortOrder} {values : List FieldValue} {inclusive : Bool}
    {b : Boundary} : ofValues o values inclusive = .ok b ↔
      values.length = o.fields.length ∧ b = ⟨List.zipWith Key.mk o.fields values, inclusive⟩ := by
  rw [ofValues]
  by_cases hlen : values.length = o.fields.length
  · rw [if_pos hlen, Except.ok.injEq, and_iff_right hlen]
    exact eq_comm
  · rw [if_neg hlen]
    exact iff_of_false (fun h => nomatch h) fun h => hlen h.1

/-- A key of a boundary has one of the fields and one of the values that it was made of. -/
theorem of_mem_zipWith {fields : List SortField} {values : List FieldValue} {k : Key}
    (h : k ∈ List.zipWith Key.mk fields values) : k.field ∈ fields ∧ k.value ∈ values := by
  rw [← List.map_uncurry_zip_eq_zipWith] at h
  obtain ⟨⟨f, v⟩, hmem, rfl⟩ := List.mem_map.mp h
  exact List.of_mem_zip hmem

/-- An inclusive boundary at values that tie with those of a row selects the rows that do not come
    before that row by their values. -/
theorem selects_of_tied {o : SortOrder} {m : α} {values : List FieldValue}
    (h : tiedValues values (o.valuesOf m) = true) (row : α) :
    selects ⟨List.zipWith Key.mk o.fields values, true⟩ row = (o.compareRows row m != .lt) := by
  have hcompare : compare ⟨List.zipWith Key.mk o.fields values, true⟩ row
      = o.compareRows row m := by
    rw [compare, compareKeys_zipWith, ← SortOrder.compareValues_of_tied h]
    rfl
  rw [selects, hcompare]
  cases o.compareRows row m <;> rfl

/-- A boundary selects the rows after it, and those at it if it is inclusive. -/
theorem selects_iff {b : Boundary} (row : α) :
    b.selects row = true ↔ b.compare row = .gt ∨ b.compare row = .eq ∧ b.inclusive = true := by
  rw [selects]
  cases b.compare row <;> simp

/-- An inclusive boundary leaves out just the rows before it. -/
theorem selects_eq_false_iff {b : Boundary} (h : b.inclusive = true) (row : α) :
    b.selects row = false ↔ b.compare row = .lt := by
  rw [selects, h]
  cases b.compare row <;> decide

theorem selects_eq_isLE (o : SortOrder) (values : List FieldValue) (row : α) :
    selects ⟨List.zipWith Key.mk o.fields values, true⟩ row
      = (o.compareValues values (o.valuesOf row)).isLE := by
  have hcompare : compare ⟨List.zipWith Key.mk o.fields values, true⟩ row
      = (o.compareValues values (o.valuesOf row)).swap := by
    rw [compare, compareKeys_zipWith, SortOrder.compareValues, SortOrder.compareBy_swap]
    rfl
  rw [selects, hcompare]
  cases o.compareValues values (o.valuesOf row) <;> rfl

/-- An inclusive boundary with a value for every field selects, with a row, the rows that do not
    come before it. -/
theorem selects_of_isLE {o : SortOrder} {values : List FieldValue}
    (hlen : values.length = o.fields.length) {a b : α} (hab : (o.compareRows a b).isLE)
    (ha : selects ⟨List.zipWith Key.mk o.fields values, true⟩ a = true) :
    selects ⟨List.zipWith Key.mk o.fields values, true⟩ b = true := by
  rw [selects_eq_isLE] at ha ⊢
  exact SortOrder.compareBy_isLE_trans hlen (o.length_valuesOf a) (o.length_valuesOf b) ha hab

/-! ## A small example -/

/-- An order by three fields, turned round: the first descends, the second ascends, the third
    descends. -/
def mixedOrder : SortOrder :=
  SortOrder.invert ⟨[⟨"a", .ascending⟩, ⟨"b", .descending⟩, ⟨"c", .ascending⟩], .ascending,
    by decide, by decide, by decide⟩

/-- The negative zero, null and a string. -/
def mixedValues : List FieldValue := [.float (.finite true .zero), .null, .string "x"]

/-- A document with the integer zero in the first field, nothing in the second and a number in the
    third. -/
def mixedDocument : Document := [("_id", .int32 1), ("a", .int32 0), ("c", .int32 7)]

end Keyset.Boundary
