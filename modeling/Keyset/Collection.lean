import Keyset.Boundary

/-! # Collections

A query asks for a stretch of the rows of a collection in an order: those after a boundary, without
the first few of them, and no more than a number.  A collection in memory is a list of rows, which is
filtered, sorted and cut; a server is sent a find command. -/

namespace Keyset

/-- A stretch of the rows of a collection. -/
structure Query where
  order : SortOrder
  /-- Where the rows begin; without it they begin at the first one. -/
  boundary : Option Boundary
  /-- How many of these rows are passed over. -/
  skip : UInt64
  /-- How many rows are given at most. -/
  limit : UInt64

/-- Whether the rows that a query asks for may hold a row. -/
def Query.admits {α : Type} [HasFields α] (q : Query) (row : α) : Bool :=
  match q.boundary with
  | none => true
  | some b => b.selects row

/-! ## Rows in memory

The places of rows in the list break ties: a query filters the rows, sorts them by value and then by
place, and takes a stretch of the result. -/

namespace Rows

variable {α : Type} [HasFields α]

/-- A row with its place in the list and its values in the fields of an order. -/
structure Entry (α : Type) where
  row : α
  index : Nat
  values : List FieldValue

/-- The order of entries: by their values, then by their places in the direction of tied rows. -/
def Entry.compare (o : SortOrder) (a b : Entry α) : Ordering :=
  (o.compareValues a.values b.values).then (o.tiebreak.orient (Ord.compare a.index b.index))

/-- The rows that a query may give, with their places and values. -/
def candidates (rows : List α) (q : Query) : List (Entry α) :=
  (rows.zipIdx.filter fun (row, _) => q.admits row).map fun (row, index) =>
    ⟨row, index, q.order.valuesOf row⟩

/-- Entries in an order. -/
def sort (o : SortOrder) (entries : List (Entry α)) : List (Entry α) :=
  entries.mergeSort fun a b => (Entry.compare o a b).isLE

/-- The rows that a query asks for. -/
def read (rows : List α) (q : Query) : List α :=
  (((sort q.order (candidates rows q)).drop q.skip.toNat).take q.limit.toNat).map Entry.row

end Rows

/-! ## Find commands

The command by which a server answers a query.  The server sorts by the fields of the order and then
by the identifying field, so that tied rows have a fixed order too. -/

/-- The largest number that a server takes for the counts of a command. -/
def maxServerCount : UInt64 := 9223372036854775807

/-- What the documents of an answer must meet. -/
inductive Find.Selection where
  /-- What the caller asks of every document. -/
  | base (filter : Document)
  /-- What a boundary asks. -/
  | boundary (filter : Filter)
  | both (base : Document) (boundary : Filter)

/-- A find command. -/
structure Find where
  selection : Find.Selection
  /-- The fields to sort by, each with 1 to go up or -1 to go down. -/
  sort : Document
  /-- Left out when nothing is passed over. -/
  skip : Option UInt64
  limit : UInt64

namespace Find

/-- The selection as a query writes it. -/
def Selection.toDocument : Selection → Document
  | base filter => filter
  | boundary filter => filter.toDocument
  | both asked filter =>
      [("$and", .array [.document asked, .document filter.toDocument])]

/-- The selection of a base filter and a boundary; an empty base filter asks nothing. -/
def select (base : Document) : Option Boundary → Selection
  | none => .base base
  | some b => if base.isEmpty then .boundary b.toFilter else .both base b.toFilter

/-- The command for a query on the documents that meet a base filter. -/
def ofQuery (base : Document) (q : Query) : Find where
  selection := select base q.boundary
  sort := q.order.sortDocument
  skip := if q.skip = 0 then none else some (min q.skip maxServerCount)
  limit := min q.limit maxServerCount

/-- The command's filter as a query writes it. -/
def filter (f : Find) : Document := f.selection.toDocument

end Find

end Keyset
