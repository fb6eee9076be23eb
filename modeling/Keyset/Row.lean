import Keyset.SortOrder

/-! # Rows

A row is anything whose fields can be read by name.  Its values in the fields of an order say where
it belongs; a field that it has no usable value for counts as null. -/

namespace Keyset

/-- Rows whose fields can be read by name. -/
class HasFields (α : Type) where
  /-- The value of a field, if the row has one that can be sorted by. -/
  field? : α → String → Option FieldValue

instance : HasFields Document where
  field? row name := (row.lookup? name).bind FieldValue.ofBson?

/-- A record as it came in, with the document it is stored as. -/
structure Record where
  source : Json
  stored : Document

instance : HasFields Record where
  field? row name := HasFields.field? row.stored name

namespace SortOrder

variable {α : Type} [HasFields α]

/-- The value of a row in a field, null if it has none. -/
def fieldValue (row : α) (name : String) : FieldValue := (HasFields.field? row name).getD .null

/-- The values of a row in the fields of an order. -/
def valuesOf (o : SortOrder) (row : α) : List FieldValue :=
  o.fields.map fun f => fieldValue row f.name

theorem length_valuesOf (o : SortOrder) (row : α) : (o.valuesOf row).length = o.fields.length :=
  List.length_map ..

theorem valuesOf_invert (o : SortOrder) (row : α) : o.invert.valuesOf row = o.valuesOf row := by
  simp [valuesOf, invert, Function.comp_def, SortField.invert]

end SortOrder

end Keyset
