import Keyset.Proofs.Boundary.Selection
import Keyset.Proofs.Rows.Remaining
import Keyset.Proofs.Token.RoundTrip

/-! # Marks

    The MARK of a stored row is the cursor that goes on after it: the row's
    values, and how many other rows that tie with it were passed.  A token that
    carries a mark reads as the mark (`decode_encode_mark`), and the query at a
    mark reads what remains after the row (`queryAt_mark`).

    Two more cursors take part in walks: none, with which a walk toward the end
    begins, and the one without a position, with which a walk toward the start
    begins; both read all rows.  So a walk is always at a POINT, a row or none,
    which has a cursor (`cursorAt`) and a token (`tokenAt`). -/

namespace Keyset

open Number

/-- The order in which rows are read in a direction. -/
def SortOrder.toward (o : SortOrder) (reverse : Bool) : SortOrder := if reverse then o.invert else o

theorem SortOrder.valuesOf_toward {α : Type} [HasFields α] (o : SortOrder) (reverse : Bool)
    (row : α) : (o.toward reverse).valuesOf row = o.valuesOf row := by
  cases reverse with
  | false => rfl
  | true => exact valuesOf_invert o row

theorem SortOrder.toward_not (o : SortOrder) (reverse : Bool) :
    o.toward (!reverse) = (o.toward reverse).invert := by
  cases reverse with
  | false => rfl
  | true => exact o.invert_invert.symm

namespace Pager

variable {α : Type} [HasFields α]

/-- The cursor that goes on after a stored row in a direction. -/
def mark (o : SortOrder) (rows : List α) (reverse : Bool) (m : α × Nat) : Cursor where
  offset := UInt64.ofNat (Rows.passed (o.toward reverse) rows m - 1)
  reverse := reverse
  position := some (Position.ofValues (o.valuesOf m.1))

/-- A query, read in a direction, that gives some rows one after the other until its limit; its
    boundary, if it has one, ties with a row. -/
structure Begins (o : SortOrder) (rows : List α) (reverse : Bool) (row : Option α)
    (rest : List (α × Nat)) (q : Query) : Prop where
  order : q.order = o.toward reverse
  rest_eq : ((Rows.inOrder q.order rows).filter fun r => q.admits r.1).drop q.skip.toNat = rest
  boundary : match row with
    | none => q.boundary = none
    | some row => ∃ b, q.boundary = some b ∧
        tiedValues (b.keys.map Boundary.Key.value) (o.valuesOf row) = true

/-- What is read by a query that begins with some rows: as many of them as its limit says. -/
theorem Begins.read_eq {o : SortOrder} {rows : List α} {reverse : Bool} {row : Option α}
    {rest : List (α × Nat)} {q : Query} (h : Begins o rows reverse row rest q) :
    Rows.read rows q = (rest.take q.limit.toNat).map Prod.fst := by
  rw [Rows.read_eq, h.rest_eq]

/-! ## Marks -/

theorem mark_ne_start (o : SortOrder) (rows : List α) (reverse : Bool) (m : α × Nat) :
    mark o rows reverse m ≠ .start := by
  intro h
  exact nomatch congrArg Cursor.position h

/-- The offset of a mark counts the rows passed but one. -/
theorem toNat_offset_mark {o : SortOrder} {rows : List α} {m : α × Nat} (reverse : Bool)
    (hlen : rows.length ≤ maxCount) (hm : m ∈ rows.zipIdx) :
    (mark o rows reverse m).offset.toNat + 1 = Rows.passed (o.toward reverse) rows m := by
  have hpos := Rows.passed_pos (o := o.toward reverse) hm
  have hle := Rows.passed_le_length (o.toward reverse) rows m
  show (UInt64.ofNat _).toNat + 1 = _
  rw [toNat_ofNat (by omega)]
  omega

theorem countTied_toward (o : SortOrder) (reverse : Bool) (rows : List α) (row : α) :
    countTied (o.toward reverse) rows ((o.toward reverse).valuesOf row)
      = countTied o rows (o.valuesOf row) := by
  simp only [countTied, SortOrder.valuesOf_toward]

/-- A cutoff leaves a mark alone if no more rows than it, and one more, tie with each other. -/
theorem heldAt_mark {o : SortOrder} {rows : List α} {m : α × Nat} {reverse : Bool}
    {cutoff : Option UInt64} (hlen : rows.length ≤ maxCount) (hm : m ∈ rows.zipIdx)
    (hcutoff : ∀ bound, cutoff = some bound → countTied o rows (o.valuesOf m.1) ≤ bound.toNat + 1) :
    heldAt cutoff (mark o rows reverse m).offset = (mark o rows reverse m).offset := by
  refine heldAt_of_le fun bound hbound => ?_
  have hcount := toNat_offset_mark (o := o) reverse hlen hm
  have hle := Rows.passed_le_countTied (o.toward reverse) rows m
  have htied := countTied_toward o reverse rows m.1
  have := hcutoff bound hbound
  omega

/-- A token that carries a mark reads as the mark, if the cutoff allows for the rows that tie. -/
theorem decode_encode_mark {o : SortOrder} {rows : List α} {m : α × Nat} {reverse : Bool}
    {cutoff : Option UInt64} (hlen : rows.length ≤ maxCount) (hm : m ∈ rows.zipIdx)
    (hcutoff : ∀ bound, cutoff = some bound → countTied o rows (o.valuesOf m.1) ≤ bound.toNat + 1)
    (hfits : (Token.encode (mark o rows reverse m)).utf8ByteSize ≤ Token.maxLength) :
    Token.decode cutoff (some (Token.encode (mark o rows reverse m)))
      = .ok (some (mark o rows reverse m)) := by
  rw [Token.decode_encode (mark_ne_start o rows reverse m) hfits, heldAt_mark hlen hm hcutoff]

/-! ## Queries -/

/-- A query without a boundary begins after the rows that it passes over. -/
theorem begins_of_skip (o : SortOrder) (rows : List α) (reverse : Bool) (skip limit : UInt64) :
    Begins o rows reverse none ((Rows.inOrder (o.toward reverse) rows).drop skip.toNat)
      ⟨o.toward reverse, none, skip, limit⟩ where
  order := rfl
  rest_eq := by
    have hall : (Rows.inOrder (o.toward reverse) rows).filter (fun _ => true)
        = Rows.inOrder (o.toward reverse) rows := List.filter_eq_self.mpr fun _ _ => rfl
    exact congrArg (List.drop skip.toNat) hall
  boundary := rfl

/-- A query without a boundary that passes over nothing begins with all rows. -/
theorem begins_of_no_boundary (o : SortOrder) (rows : List α) (reverse : Bool) (limit : UInt64) :
    Begins o rows reverse none (Rows.inOrder (o.toward reverse) rows)
      ⟨o.toward reverse, none, 0, limit⟩ :=
  begins_of_skip o rows reverse 0 limit

theorem queryAt_of_boundary {o : SortOrder} {position : Position} {b : Boundary} {reverse : Bool}
    (h : Boundary.ofPosition (o.toward reverse) position true = .ok b) (offset : UInt64)
    (size : PageSize) :
    queryAt o size (some ⟨offset, reverse, some position⟩)
      = .ok ⟨o.toward reverse, some b, addCapped offset 1, lookahead size⟩ := by
  simp only [SortOrder.toward] at h ⊢
  simp only [queryAt, h]

theorem queryAt_of_fault {o : SortOrder} {position : Position} {fault : Boundary.Fault}
    {reverse : Bool} (h : Boundary.ofPosition (o.toward reverse) position true = .error fault)
    (offset : UInt64) (size : PageSize) :
    queryAt o size (some ⟨offset, reverse, some position⟩)
      = .error (.malformed (.boundary fault)) := by
  simp only [SortOrder.toward] at h
  simp only [queryAt, h]

/-- At a position that ties with a row the rows before it are left out, and of the others one more
    than the offset says. -/
theorem queryAt_position {o : SortOrder} {values : List FieldValue} {position : Position} {row : α}
    (hvalues : position.values = .ok values) (htied : tiedValues values (o.valuesOf row) = true)
    (rows : List α) (offset : UInt64) (reverse : Bool) (size : PageSize) :
    ∃ q, queryAt o size (some ⟨offset, reverse, some position⟩) = .ok q ∧
      q.limit = lookahead size ∧
      Begins o rows reverse (some row)
        (((Rows.inOrder (o.toward reverse) rows).filter fun r =>
          (o.toward reverse).compareRows r.1 row != .lt).drop (addCapped offset 1).toNat) q := by
  have hlen : values.length = (o.toward reverse).fields.length := by
    rw [tiedValues_length htied, ← SortOrder.length_valuesOf (o.toward reverse) row,
      SortOrder.valuesOf_toward]
  have htied' : tiedValues values ((o.toward reverse).valuesOf row) = true := by
    rw [SortOrder.valuesOf_toward]
    exact htied
  let b : Boundary := ⟨List.zipWith Boundary.Key.mk (o.toward reverse).fields values, true⟩
  have hboundary : Boundary.ofPosition (o.toward reverse) position true = .ok b := by
    rw [Boundary.ofPosition, hvalues]
    exact if_pos hlen
  refine ⟨_, queryAt_of_boundary hboundary offset size, rfl, rfl, ?_, b, rfl, ?_⟩
  · congr 1
    exact List.filter_congr fun r _ => Boundary.selects_of_tied htied' r.1
  · rw [Boundary.map_value_zipWith hlen]
    exact htied

/-- A token that is short enough to be read has a position that can be read. -/
theorem values_of_fits {o : SortOrder} {c : Cursor} {row : α}
    (hposition : c.position = some (Position.ofValues (o.valuesOf row)))
    (hfits : (Token.encode c).utf8ByteSize ≤ Token.maxLength) :
    ∃ values, (Position.ofValues (o.valuesOf row)).values = .ok values ∧
      tiedValues values (o.valuesOf row) = true := by
  have hsize := Token.utf8ByteSize_position_le hposition
  have hlimit : Token.maxLength ≤ maxCount := by decide
  exact Position.values_ofValues (by omega)

/-- At a position that ties with a stored row, and an offset that counts the rows passed at it but
    one, what remains after the row is read. -/
theorem queryAt_passed {o : SortOrder} {rows : List α} {m : α × Nat} {reverse : Bool}
    {values : List FieldValue} {position : Position} {offset : UInt64}
    (hlen : rows.length ≤ maxCount) (hvalues : position.values = .ok values)
    (htied : tiedValues values (o.valuesOf m.1) = true)
    (hoffset : offset.toNat + 1 = Rows.passed (o.toward reverse) rows m) (size : PageSize) :
    ∃ q, queryAt o size (some ⟨offset, reverse, some position⟩) = .ok q ∧
      q.limit = lookahead size ∧
      Begins o rows reverse (some m.1) (Rows.remaining (o.toward reverse) rows (some m)) q := by
  have hle := Rows.passed_le_length (o.toward reverse) rows m
  -- the row itself is passed over too, so as many rows as were passed at it
  have hskip : (addCapped offset 1).toNat = Rows.passed (o.toward reverse) rows m := by
    have hone : (1 : UInt64).toNat = 1 := rfl
    rw [toNat_addCapped (by omega), hone, hoffset]
  rw [← Rows.drop_passed, ← hskip]
  exact queryAt_position hvalues htied rows offset reverse size

/-- At a mark what remains after the row is read. -/
theorem queryAt_mark {o : SortOrder} {rows : List α} {m : α × Nat} {reverse : Bool}
    (hlen : rows.length ≤ maxCount) (hm : m ∈ rows.zipIdx)
    (hfits : (Token.encode (mark o rows reverse m)).utf8ByteSize ≤ Token.maxLength)
    (size : PageSize) :
    ∃ q, queryAt o size (some (mark o rows reverse m)) = .ok q ∧ q.limit = lookahead size ∧
      Begins o rows reverse (some m.1) (Rows.remaining (o.toward reverse) rows (some m)) q := by
  have hposition : (mark o rows reverse m).position = some (Position.ofValues (o.valuesOf m.1)) :=
    rfl
  obtain ⟨values, hvalues, htied⟩ := values_of_fits hposition hfits
  exact queryAt_passed hlen hvalues htied (toNat_offset_mark reverse hlen hm) size

/-! ## Points -/

/-- The cursor with which a walk in a direction begins. -/
def firstCursor (reverse : Bool) : Option Cursor := if reverse then some ⟨0, true, none⟩ else none

/-- The cursor that goes on from a point: after a row, or with all rows. -/
def cursorAt (o : SortOrder) (rows : List α) (reverse : Bool) : Option (α × Nat) → Option Cursor
  | none => firstCursor reverse
  | some m => some (mark o rows reverse m)

/-- The token of the cursor at a point. -/
def tokenAt (o : SortOrder) (rows : List α) (reverse : Bool) (point : Option (α × Nat)) :
    Option String :=
  (cursorAt o rows reverse point).map Token.encode

theorem reverse_cursorAt {o : SortOrder} {rows : List α} {reverse : Bool}
    {point : Option (α × Nat)} {c : Cursor} (h : cursorAt o rows reverse point = some c) :
    c.reverse = reverse := by
  cases point with
  | some m =>
    obtain rfl := Option.some.inj h
    rfl
  | none =>
    cases reverse with
    | true =>
      obtain rfl := Option.some.inj h
      rfl
    | false => exact nomatch h

/-- A row of the collection whose mark can be read from its token. -/
structure Readable (p : Pager) (rows : List α) (reverse : Bool) (m : α × Nat) : Prop where
  mem : m ∈ rows.zipIdx
  fits : (Token.encode (mark p.order rows reverse m)).utf8ByteSize ≤ Token.maxLength
  tied_le : ∀ bound, p.cutoff = some bound →
    countTied p.order rows (p.order.valuesOf m.1) ≤ bound.toNat + 1

/-- Without a cutoff it does not matter how many rows tie. -/
theorem Readable.of_no_cutoff {p : Pager} {rows : List α} {reverse : Bool} {m : α × Nat}
    (hcutoff : p.cutoff = none) (hm : m ∈ rows.zipIdx)
    (hfits : (Token.encode (mark p.order rows reverse m)).utf8ByteSize ≤ Token.maxLength) :
    Readable p rows reverse m where
  mem := hm
  fits := hfits
  tied_le _ hbound := nomatch hcutoff.symm.trans hbound

/-- The token at a point reads as the cursor at it. -/
theorem decode_tokenAt {p : Pager} {rows : List α} {reverse : Bool} {point : Option (α × Nat)}
    (hlen : rows.length ≤ maxCount) (hpoint : ∀ m ∈ point, Readable p rows reverse m) :
    Token.decode p.cutoff (tokenAt p.order rows reverse point)
      = .ok (cursorAt p.order rows reverse point) := by
  cases point with
  | some m =>
    have hm := hpoint m rfl
    exact decode_encode_mark hlen hm.mem hm.tied_le hm.fits
  | none =>
    cases reverse with
    | false => rfl
    | true =>
      have hstart : (⟨0, true, none⟩ : Cursor) ≠ .start := by decide
      have hfits : (Token.encode ⟨0, true, none⟩).utf8ByteSize ≤ Token.maxLength :=
        Token.utf8ByteSize_encode_le_of_none rfl
      show Token.decode p.cutoff (some (Token.encode ⟨0, true, none⟩)) = _
      rw [Token.decode_encode hstart hfits, heldAt_of_le fun _ _ => Nat.zero_le _]
      rfl

/-- The query at a point begins with what remains. -/
theorem queryAt_cursorAt {p : Pager} {rows : List α} {reverse : Bool} {point : Option (α × Nat)}
    (hlen : rows.length ≤ maxCount) (hpoint : ∀ m ∈ point, Readable p rows reverse m)
    (size : PageSize) :
    ∃ q, queryAt p.order size (cursorAt p.order rows reverse point) = .ok q ∧
      q.limit = lookahead size ∧
      Begins p.order rows reverse (point.map Prod.fst)
        (Rows.remaining (p.order.toward reverse) rows point) q := by
  cases point with
  | some m => exact queryAt_mark hlen (hpoint m rfl).mem (hpoint m rfl).fits size
  | none =>
    cases reverse with
    | false => exact ⟨_, rfl, rfl, begins_of_no_boundary p.order rows false _⟩
    | true => exact ⟨_, rfl, rfl, begins_of_no_boundary p.order rows true _⟩

end Pager

end Keyset
