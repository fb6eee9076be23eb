import Keyset.Row
import Keyset.Position

/-! # Boundaries

A boundary is a place in an order, given by one value for each field.  It selects the rows that come
after it, and if it is inclusive the rows that tie with it.  It can also be written as a filter for a
server whose range operators see only the bracket of their operand: every comparison is then joined
with the brackets that follow. -/

namespace Keyset

/-- A field to sort by and the value that the boundary has in it. -/
structure Boundary.Key where
  field : SortField
  value : FieldValue
deriving DecidableEq

/-- A place in an order; an inclusive one also selects the rows at it. -/
structure Boundary where
  keys : List Boundary.Key
  inclusive : Bool
deriving DecidableEq

namespace Boundary

/-- Why values do not make a boundary, or a position none. -/
inductive Fault where
  | position (fault : Position.Fault)
  | arity (values fields : Nat)
deriving DecidableEq

/-- The boundary of an order at some values, which must be as many as the fields. -/
def ofValues (o : SortOrder) (values : List FieldValue) (inclusive : Bool) :
    Except Fault Boundary :=
  if values.length = o.fields.length then .ok ⟨List.zipWith Key.mk o.fields values, inclusive⟩
  else .error (.arity values.length o.fields.length)

/-- The boundary of an order at a position. -/
def ofPosition (o : SortOrder) (p : Position) (inclusive : Bool) : Except Fault Boundary :=
  match p.values with
  | .ok values => ofValues o values inclusive
  | .error fault => .error (.position fault)

/-! ## Selecting rows -/

section

variable {α : Type} [HasFields α]

/-- Where a row lies, key by key. -/
def compareKeys (row : α) : List Key → Ordering
  | [] => .eq
  | k :: rest =>
      (k.field.direction.orient ((SortOrder.fieldValue row k.field.name).compare k.value)).then
        (compareKeys row rest)

/-- Where a row lies: before the boundary, at it, or after it. -/
def compare (b : Boundary) (row : α) : Ordering := compareKeys row b.keys

/-- Whether the boundary selects a row. -/
def selects (b : Boundary) (row : α) : Bool :=
  match b.compare row with
  | .gt => true
  | .eq => b.inclusive
  | .lt => false

end

end Boundary

/-! ## Filters -/

/-- What a filter asks of one field. -/
inductive Condition where
  /-- The field has this value; null is also what a missing field has. -/
  | equals (value : FieldValue)
  /-- The field is in the bracket of the value and comes after it in the direction, or ties with it
  if that is asked for. -/
  | beyond (direction : Direction) (inclusive : Bool) (value : FieldValue)
  /-- The field is in one of these brackets. -/
  | within (brackets : List Bracket)
deriving DecidableEq

/-- Conditions that must all hold, and alternatives of which one must hold if there are any.  They are
set in one document, one after the other, and a name has one place in it. -/
structure Clause where
  conditions : List (String × Condition)
  alternatives : List (String × Condition)
deriving DecidableEq

/-- What a boundary asks of a document. -/
inductive Filter where
  | nothing
  | clause (c : Clause)
  | anyOf (clauses : List Clause)
deriving DecidableEq

namespace Condition

/-- The range operator of a direction. -/
def operator : Direction → Bool → String
  | .ascending, false => "$gt"
  | .ascending, true => "$gte"
  | .descending, false => "$lt"
  | .descending, true => "$lte"

/-- The condition as a query writes it. -/
def toBson : Condition → Bson
  | equals value => value.toBson
  | beyond direction inclusive value =>
      .document [(operator direction inclusive, value.toBson)]
  | within brackets => .document [("$type", .array (brackets.map fun b => .string b.name))]

end Condition

/-- The clause as a query writes it. -/
def Clause.toDocument (c : Clause) : Document :=
  let conditions := Document.insertAll []
    (c.conditions.map fun (name, condition) => (name, condition.toBson))
  if c.alternatives = [] then conditions
  else conditions.insert "$or" (.array (c.alternatives.map fun (name, condition) =>
    .document [(name, condition.toBson)]))

/-- The filter as a query writes it. -/
def Filter.toDocument : Filter → Document
  | nothing => [("$expr", .bool false)]
  | clause c => c.toDocument
  | anyOf clauses => [("$or", .array (clauses.map fun c => .document c.toDocument))]

namespace Boundary

/-- The values of a key's own bracket that come after it. -/
def Key.beyondInBracket (k : Key) (inclusive : Bool) : List Condition :=
  match k.value with
  | .null => if inclusive then [.equals .null] else []
  | value => [.beyond k.field.direction inclusive value]

/-- The brackets that come after a key.  The null bracket is not among them: it also holds what is
missing, and is asked for by the value null. -/
def Key.bracketsBeyond (k : Key) : List Bracket :=
  match k.field.direction with
  | .ascending => k.value.bracket.after
  | .descending => k.value.bracket.before

/-- The conditions of which a field after a key meets one. -/
def Key.beyond (k : Key) (inclusive : Bool) : List Condition :=
  k.beyondInBracket inclusive
    ++ (if k.bracketsBeyond = [] then [] else [.within k.bracketsBeyond])
    ++ (if k.field.direction = .descending ∧ k.value.bracket ≠ .null then [.equals .null] else [])

/-- The clauses for the rows that have the values of the keys `before` and lie beyond `k`. -/
def clausesAt (before : List Key) (k : Key) (inclusive : Bool) : List Clause :=
  let ties := before.map fun b => (b.field.name, Condition.equals b.value)
  let choices := (k.beyond inclusive).map fun c => (k.field.name, c)
  match ties, choices with
  | [], choices => choices.map fun choice => ⟨[choice], []⟩
  | _, [] => []
  | ties, [choice] => [⟨ties ++ [choice], []⟩]
  | ties, choices => [⟨ties, choices⟩]

/-- The clauses for all keys after the keys `before`; only the last one may be inclusive. -/
def clausesFrom (inclusive : Bool) (before : List Key) : List Key → List Clause
  | [] => []
  | [k] => clausesAt before k inclusive
  | k :: rest => clausesAt before k false ++ clausesFrom inclusive (before ++ [k]) rest

/-- The filter for the rows that the boundary selects. -/
def toFilter (b : Boundary) : Filter :=
  match clausesFrom b.inclusive [] b.keys with
  | [] => .nothing
  | [c] => .clause c
  | clauses => .anyOf clauses

end Boundary

end Keyset
