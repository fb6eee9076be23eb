import Keyset.FieldValue
import Keyset.Text.Blank

/-! # Sort orders

A sort order names the fields that rows are sorted by, each in a direction, and the direction in
which rows that tie on all of them are visited.  Its text lists the names with commas between them,
a minus sign before each descending one.  Reading it reports the first name that cannot be used. -/

namespace Keyset

/-- A direction of sorting. -/
inductive Direction where
  | ascending
  | descending
deriving DecidableEq

namespace Direction

/-- The opposite direction. -/
def flip : Direction → Direction
  | ascending => descending
  | descending => ascending

/-- An ascending comparison seen in a direction. -/
def orient : Direction → Ordering → Ordering
  | ascending, o => o
  | descending, o => o.swap

/-- The number that stands for a direction in a sort document. -/
def sign : Direction → Int
  | ascending => 1
  | descending => -1

theorem flip_flip (d : Direction) : d.flip.flip = d := by
  cases d <;> rfl

theorem orient_flip (d : Direction) (o : Ordering) : d.flip.orient o = (d.orient o).swap := by
  cases d <;> cases o <;> rfl

end Direction

/-- A field to sort by. -/
structure SortField where
  name : String
  direction : Direction
deriving DecidableEq

namespace SortField

/-- The same field in the opposite direction. -/
def invert (f : SortField) : SortField := { f with direction := f.direction.flip }

/-- The text of a field. -/
def text (f : SortField) : List Char :=
  match f.direction with
  | .ascending => f.name.toList
  | .descending => '-' :: f.name.toList

/-- Whether a name can be used: not empty, without blanks, and not led by `$` or `-`. -/
def usable (name : List Char) : Bool :=
  match name with
  | [] => false
  | c :: _ => c ≠ '$' && c ≠ '-' && !name.any Text.isBlank

/-- The field that a part of an order's text names: after trimming, one minus sign makes it
descending. -/
def ofText (part : List Char) : SortField :=
  match Text.trim part with
  | '-' :: rest => ⟨String.ofList (Text.trim rest), .descending⟩
  | name => ⟨String.ofList name, .ascending⟩

theorem invert_invert (f : SortField) : f.invert.invert = f := by
  simp [invert, Direction.flip_flip]

end SortField

/-- Why fields do not make an order. -/
inductive OrderFault where
  | empty
  | duplicate (name : String)
  | unusable (name : String)
deriving DecidableEq

/-- The fault in words. -/
def OrderFault.message : OrderFault → String
  | .empty => "ordering must name at least one field"
  | .duplicate name => "field '" ++ name ++ "' appears more than once in ordering"
  | .unusable name => "invalid ordering field '" ++ name ++ "'"

/-- An order of rows: at least one field, usable names, and none of them twice. -/
structure SortOrder where
  fields : List SortField
  /-- The direction in which rows that tie on every field are visited, by their place in storage. -/
  tiebreak : Direction
  fields_ne_nil : fields ≠ []
  usable_name : ∀ f ∈ fields, SortField.usable f.name.toList = true
  nodup_names : (fields.map SortField.name).Nodup

namespace SortOrder

/-- The first fault among fields, when the names `seen` are taken. -/
def firstFault? (seen : List String) : List SortField → Option OrderFault
  | [] => none
  | f :: rest =>
      if SortField.usable f.name.toList then
        if f.name ∈ seen then some (.duplicate f.name) else firstFault? (f.name :: seen) rest
      else some (.unusable f.name)

/-- Fields have no fault exactly when their names are usable, new and distinct. -/
theorem firstFault?_eq_none_iff {seen : List String} {fields : List SortField} :
    firstFault? seen fields = none ↔
      (∀ f ∈ fields, SortField.usable f.name.toList = true) ∧
      (∀ f ∈ fields, f.name ∉ seen) ∧ (fields.map SortField.name).Nodup := by
  induction fields generalizing seen with
  | nil => simp [firstFault?]
  | cons f rest ih =>
    by_cases hu : SortField.usable f.name.toList = true
    · by_cases hs : f.name ∈ seen
      · simp [firstFault?, hu, hs]
      · rw [firstFault?, if_pos hu, if_neg hs, ih]
        simp only [List.mem_cons, List.map_cons, List.nodup_cons, List.mem_map, not_or,
          forall_eq_or_imp]
        constructor
        · rintro ⟨h1, h2, h3⟩
          exact ⟨⟨hu, h1⟩, ⟨hs, fun g hg => (h2 g hg).2⟩,
            fun ⟨g, hg, he⟩ => (h2 g hg).1 he, h3⟩
        · rintro ⟨⟨_, h1⟩, ⟨_, h2⟩, h3, h4⟩
          exact ⟨h1, fun g hg => ⟨fun he => h3 ⟨g, hg, he⟩, h2 g hg⟩, h4⟩
    · simp [firstFault?, hu]

/-- The order of fields. -/
def ofFields (fields : List SortField) : Except OrderFault SortOrder :=
  if h : fields = [] then .error .empty
  else
    match hf : firstFault? [] fields with
    | some fault => .error fault
    | none =>
        have clear := firstFault?_eq_none_iff.1 hf
        .ok ⟨fields, .ascending, h, clear.1, clear.2.2⟩

/-- Reads the text of an order. -/
def parse (text : List Char) : Except OrderFault SortOrder :=
  if Text.trim text = [] then .error .empty
  else ofFields ((text.splitOn ',').map SortField.ofText)

/-- The text of an order. -/
def text (o : SortOrder) : List Char := List.intercalate [','] (o.fields.map SortField.text)

/-- The names of the fields. -/
def names (o : SortOrder) : List String := o.fields.map SortField.name

/-- Whether rows are visited from the end of a declared order. -/
def isInverted (o : SortOrder) : Bool := o.tiebreak == .descending

/-- The order with every direction reversed, the one of tied rows too. -/
def invert (o : SortOrder) : SortOrder where
  fields := o.fields.map SortField.invert
  tiebreak := o.tiebreak.flip
  fields_ne_nil := by
    intro h
    exact o.fields_ne_nil (List.map_eq_nil_iff.1 h)
  usable_name := by
    intro f hf
    obtain ⟨g, hg, rfl⟩ := List.mem_map.1 hf
    exact o.usable_name g hg
  nodup_names := by
    rw [List.map_map]
    exact o.nodup_names

theorem invert_invert (o : SortOrder) : o.invert.invert = o := by
  cases o
  simp [invert, Direction.flip_flip, Function.comp_def, SortField.invert_invert]

/-- The field that identifies a document, by which servers order tied rows. -/
def idField : String := "_id"

/-- The fields that are set in a sort document and their directions: those of the order, and the
identifying field in the direction of tied rows unless the order has it. -/
def sortKeys (o : SortOrder) : List (String × Direction) :=
  let keys := o.fields.map fun f => (f.name, f.direction)
  if idField ∈ o.names then keys else keys ++ [(idField, o.tiebreak)]

/-- The member of a sort document for a field and its direction. -/
def sortMember (key : String × Direction) : String × Bson :=
  (key.1, .int32 (Int32.ofInt key.2.sign))

/-- The sort document. -/
def sortDocument (o : SortOrder) : Document := Document.insertAll [] (o.sortKeys.map sortMember)

theorem names_sortKeys (o : SortOrder) :
    o.sortKeys.map Prod.fst = if idField ∈ o.names then o.names else o.names ++ [idField] := by
  have hfields : (o.fields.map fun f => (f.name, f.direction)).map Prod.fst = o.names := by
    rw [List.map_map]
    rfl
  unfold sortKeys
  split
  · exact hfields
  · rw [List.map_append, hfields]
    rfl

theorem nodup_names_sortKeys (o : SortOrder) : (o.sortKeys.map Prod.fst).Nodup := by
  rw [names_sortKeys]
  split
  · exact o.nodup_names
  · next hid =>
    refine List.nodup_append.mpr ⟨o.nodup_names, List.pairwise_singleton _ _, ?_⟩
    intro name hname other hother heq
    rw [heq, List.mem_singleton.mp hother] at hname
    exact hid hname

/-- No field is set twice, so the sort document lists the fields as they are set. -/
theorem sortDocument_eq (o : SortOrder) : o.sortDocument = o.sortKeys.map sortMember := by
  have hnodup : ((o.sortKeys.map sortMember).map Prod.fst).Nodup := by
    rw [List.map_map]
    exact o.nodup_names_sortKeys
  exact Document.insertAll_of_nodup hnodup

/-! ## Comparing by an order -/

/-- Compares lists of values field by field; what has no field or no partner does not count. -/
def compareBy : List SortField → List FieldValue → List FieldValue → Ordering
  | f :: fs, a :: as, b :: bs => (f.direction.orient (a.compare b)).then (compareBy fs as bs)
  | _, _, _ => .eq

/-- Compares the values that two rows have in the fields of an order. -/
def compareValues (o : SortOrder) (a b : List FieldValue) : Ordering := compareBy o.fields a b

end SortOrder

end Keyset
