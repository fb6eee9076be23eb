import Keyset.Collection
import Keyset.Failure
import Keyset.Token.Basic

/-! # Pages

A page is read by one query for one row more than it holds; that row only says whether there is more
to read.  A page that is read backward is a forward page of the inverted order, turned round.  The
tokens at the edges of a page carry the values of the edge row and how many rows tying with it were
already returned, so that neighbours of tied rows are neither lost nor repeated. -/

namespace Keyset

open Number

/-- How many rows a page holds. -/
structure PageSize where
  count : UInt64
  count_ne_zero : count ≠ 0
deriving DecidableEq

/-- The page size of a number; zero is none. -/
def PageSize.ofCount (count : UInt64) : Except ConfigFault PageSize :=
  if h : count = 0 then .error (.badValue "page_size" "0") else .ok ⟨count, h⟩

/-- One page of rows, in the declared order whichever way it was read.  A missing token says that
there is nothing to see on that side. -/
structure Page (α : Type) where
  items : List α
  previous : Option String
  next : Option String
deriving DecidableEq

/-- Reads a collection in pages. -/
structure Pager where
  order : SortOrder
  size : PageSize
  /-- The most rows that the offset of a token may stand for. -/
  cutoff : Option UInt64

namespace Pager

/-- What is read for a page. -/
structure Plan where
  cursor : Option Cursor
  size : PageSize
  query : Query

namespace Plan

/-- Whether the page is read toward the start of the order. -/
def reverse (p : Plan) : Bool :=
  match p.cursor with
  | none => false
  | some c => c.reverse

/-- Whether more rows were read than the page holds. -/
def overflows {α : Type} (p : Plan) (rows : List α) : Bool :=
  decide (p.size.count.toNat < rows.length)

/-- Whether there is anything before the page; `overflow` tells of what lies beyond it in the
direction of reading. -/
def hasPrevious (p : Plan) (overflow : Bool) : Bool :=
  if p.reverse then overflow else p.cursor.isSome

/-- Whether there is anything after the page. -/
def hasNext (p : Plan) (overflow : Bool) : Bool := p.reverse || overflow

end Plan

/-- One row more than a page holds. -/
def lookahead (size : PageSize) : UInt64 := addCapped size.count 1

/-- The query for the page at a cursor.  The row at a boundary and the rows that tie with it and were
already returned are passed over. -/
def queryAt (o : SortOrder) (size : PageSize) : Option Cursor → Except TokenError Query
  | none => .ok ⟨o, none, 0, lookahead size⟩
  | some c =>
      let effective := if c.reverse then o.invert else o
      match c.position with
      | none => .ok ⟨effective, none, c.offset, lookahead size⟩
      | some position =>
          match Boundary.ofPosition effective position true with
          | .error fault => .error (.malformed (.boundary fault))
          | .ok b => .ok ⟨effective, some b, addCapped c.offset 1, lookahead size⟩

/-- What to read for the page of a token. -/
def plan (p : Pager) (token : Option String) (size : PageSize) : Except TokenError Plan :=
  match Token.decode p.cutoff token with
  | .error error => .error error
  | .ok cursor => (queryAt p.order size cursor).map fun query => ⟨cursor, size, query⟩

section

variable {α : Type} [HasFields α]

/-- How many rows of a page tie with some values. -/
def countTied (o : SortOrder) (items : List α) (values : List FieldValue) : Nat :=
  items.countP fun row => tiedValues (o.valuesOf row) values

/-- How many rows tying with those before a page it goes on from: the rows that its cursor counts
and the row at the boundary, if the whole page ties with the boundary and the direction stays. -/
def carried (plan : Plan) (wholePage : Bool) (values : List FieldValue) (reverse : Bool) :
    Option UInt64 :=
  match plan.cursor, plan.query.boundary with
  | some c, some b =>
      if c.reverse = reverse ∧ wholePage ∧ tiedValues (b.keys.map Boundary.Key.value) values then
        some c.offset
      else none
  | _, _ => none

/-- The cursor that goes on from an edge row of a page. -/
def edgeCursor (o : SortOrder) (plan : Plan) (items : List α) (edge : α) (reverse : Bool) :
    Cursor :=
  let values := o.valuesOf edge
  let tied := countTied o items values
  let others := UInt64.ofNat (tied - 1)
  let offset :=
    match carried plan (tied == items.length) values reverse with
    | none => others
    | some before => addCapped (addCapped others before) 1
  ⟨offset, reverse, some (Position.ofValues values)⟩

/-- The page of the rows that were read for it. -/
def assemble (o : SortOrder) (plan : Plan) (rows : List α) : Page α :=
  let overflow := plan.overflows rows
  let kept := rows.take plan.size.count.toNat
  let items := if plan.reverse then kept.reverse else kept
  let link (edge : Option α) (present reverse : Bool) : Option String :=
    if present then edge.map fun row => Token.encode (edgeCursor o plan items row reverse) else none
  ⟨items, link items.head? (plan.hasPrevious overflow) true,
    link items.getLast? (plan.hasNext overflow) false⟩

/-- The page of a token, of a size of its own. -/
def pageOfSize (p : Pager) (read : Query → Except Failure (List α)) (token : Option String)
    (size : UInt64) : Except Failure (Page α) :=
  match PageSize.ofCount size with
  | .error fault => .error (.config fault)
  | .ok size =>
      match p.plan token size with
      | .error error => .error (.token error)
      | .ok plan => (read plan.query).map (assemble p.order plan)

/-- The page of a token. -/
def page (p : Pager) (read : Query → Except Failure (List α)) (token : Option String) :
    Except Failure (Page α) :=
  p.pageOfSize read token p.size.count

end

end Pager

end Keyset
