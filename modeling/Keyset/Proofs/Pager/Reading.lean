import Keyset.Proofs.Pager.Planning

/-! # Reading a page

    At a point, a page holds the first of the rows that remain
    (`pageOfSize_tokenAt`).  Its token in the direction of reading is there
    exactly if some are left, and is that of the last row read: the carry of a
    page that ties with its boundary makes up for the rows passed before the
    page, and without a carry there are none to make up for (`edgeCursor_ahead`).

    Its token in the other direction counts only the rows of the page itself, as a
    TALLY does (`link_not_pageAt_tally`), so it is that of the first row read if no
    row beyond the page ties with it (`countP_back`). -/

namespace Keyset

open Number

/-- A list in the declared order, whichever way it was read. -/
def facing {β : Type} (reverse : Bool) (l : List β) : List β := if reverse then l.reverse else l

theorem facing_perm {β : Type} (reverse : Bool) (l : List β) : (facing reverse l).Perm l := by
  cases reverse with
  | false => exact .refl l
  | true => exact List.reverse_perm l

theorem map_facing {β γ : Type} (reverse : Bool) (f : β → γ) (l : List β) :
    (facing reverse l).map f = facing reverse (l.map f) := by
  cases reverse with
  | false => rfl
  | true => exact List.map_reverse

theorem length_facing {β : Type} (reverse : Bool) (l : List β) :
    (facing reverse l).length = l.length :=
  (facing_perm reverse l).length_eq

/-- The token of a page on one side: toward the start, or toward the end. -/
def Page.link {α : Type} (page : Page α) (reverse : Bool) : Option String :=
  if reverse then page.previous else page.next

/-- The rows that a collection in memory holds at some time; they can be counted. -/
structure Snapshot (α : Type) where
  rows : List α
  length_le : rows.length ≤ maxCount

/-- Reading the rows of a collection in memory never fails. -/
def Snapshot.read {α : Type} [HasFields α] (s : Snapshot α) (q : Query) :
    Except Failure (List α) :=
  .ok (Rows.read s.rows q)

namespace Pager

variable {α : Type} [HasFields α]

/-! ## Assembling a page -/

theorem le_toNat_lookahead (size : PageSize) : size.count.toNat ≤ (lookahead size).toNat := by
  have := toNat_le_maxCount size.count
  rw [lookahead, toNat_addCapped_eq_min]
  omega

omit [HasFields α] in
/-- The row read beyond a page tells whether the page holds all rows there are. -/
theorem overflows_take {plan : Plan} {rest : List α} (hlen : rest.length ≤ maxCount) :
    plan.overflows (rest.take (lookahead plan.size).toNat)
      = decide (plan.size.count.toNat < rest.length) := by
  have hone : (1 : UInt64).toNat = 1 := rfl
  have hmax := toNat_le_maxCount plan.size.count
  unfold Plan.overflows
  rw [List.length_take, lookahead, toNat_addCapped_eq_min, hone, decide_eq_decide]
  omega

omit [HasFields α] in
/-- The rows kept for a page are the first ones there are. -/
theorem take_lookahead (size : PageSize) (rest : List α) :
    (rest.take (lookahead size).toNat).take size.count.toNat = rest.take size.count.toNat := by
  rw [List.take_take, Nat.min_eq_left (le_toNat_lookahead size)]

/-- The page of a query holds the first of the rows that the query begins with. -/
theorem pageOfSize_of_begins {p : Pager} {s : Snapshot α} {token : Option String}
    {size : PageSize} {cursor : Option Cursor} {q : Query} {reverse : Bool} {row : Option α}
    {rest : List (α × Nat)} (hdecode : Token.decode p.cutoff token = .ok cursor)
    (hquery : queryAt p.order size cursor = .ok q)
    (hbegins : Begins p.order s.rows reverse row rest q) :
    p.pageOfSize s.read token size.count
      = .ok (assemble p.order ⟨cursor, size, q⟩ ((rest.take q.limit.toNat).map Prod.fst)) := by
  have hplan : p.plan token size = .ok ⟨cursor, size, q⟩ := by
    rw [plan, hdecode]
    show (queryAt p.order size cursor).map _ = _
    rw [hquery]
    rfl
  rw [pageOfSize_of_plan hplan]
  show Except.ok (assemble p.order ⟨cursor, size, q⟩ (Rows.read s.rows q)) = _
  rw [hbegins.read_eq]

/-! ## Where a page leads -/

/-- The point that a page of the first `n` rows leads to: the last of them, if others follow. -/
def nextPoint {β : Type} (n : Nat) (rest : List β) : Option β :=
  if n < rest.length then (rest.take n).getLast? else none

/-- The next point is the last of the rows on the page, and exists if more rows follow. -/
theorem nextPoint_eq_some_iff {β : Type} {n : Nat} {l : List β} {m : β} :
    nextPoint n l = some m ↔ n < l.length ∧ ∃ stretch, l.take n = stretch ++ [m] := by
  unfold nextPoint
  by_cases hlt : n < l.length
  · rw [if_pos hlt, List.getLast?_eq_some_iff]
    exact (and_iff_right hlt).symm
  · rw [if_neg hlt]
    exact iff_of_false (fun h => nomatch h) fun h => hlt h.1

/-- There is no next point exactly if the page holds all rows there are. -/
theorem nextPoint_eq_none_iff {β : Type} {n : Nat} (hn : 0 < n) {l : List β} :
    nextPoint n l = none ↔ l.length ≤ n := by
  unfold nextPoint
  by_cases hlt : n < l.length
  · rw [if_pos hlt, List.getLast?_eq_none_iff, List.take_eq_nil_iff]
    constructor
    · rintro (rfl | rfl)
      · omega
      · exact Nat.zero_le _
    · intro hle
      omega
  · rw [if_neg hlt]
    exact iff_of_true rfl (Nat.le_of_not_lt hlt)

theorem nextPoint_map {β γ : Type} (n : Nat) (l : List β) (f : β → γ) :
    nextPoint n (l.map f) = (nextPoint n l).map f := by
  unfold nextPoint
  rw [List.length_map]
  by_cases hlt : n < l.length
  · rw [if_pos hlt, if_pos hlt, ← List.map_take, List.getLast?_map]
  · rw [if_neg hlt, if_neg hlt]
    rfl

theorem items_assemble (o : SortOrder) (plan : Plan) (rows : List α) :
    (assemble o plan rows).items = facing plan.reverse (rows.take plan.size.count.toNat) := rfl

/-- The token in the direction of reading goes on from the last row read. -/
theorem link_assemble (o : SortOrder) (plan : Plan) (rows : List α) :
    (assemble o plan rows).link plan.reverse
      = if plan.overflows rows then
          (rows.take plan.size.count.toNat).getLast?.map fun row =>
            Token.encode (edgeCursor o plan (assemble o plan rows).items row plan.reverse)
        else none := by
  cases hr : plan.reverse with
  | false =>
    simp only [Page.link, assemble, Plan.hasNext, hr, Bool.false_or, Bool.false_eq_true, if_false]
  | true =>
    simp only [Page.link, assemble, Plan.hasPrevious, hr, if_true, List.head?_reverse]

/-- In the direction of reading, a page of the first of some rows leads to the next point. -/
theorem link_assemble_take (o : SortOrder) (plan : Plan) {rest : List α}
    (hlen : rest.length ≤ maxCount) :
    (assemble o plan (rest.take (lookahead plan.size).toNat)).link plan.reverse
      = (nextPoint plan.size.count.toNat rest).map fun row =>
        Token.encode (edgeCursor o plan
          (assemble o plan (rest.take (lookahead plan.size).toNat)).items row plan.reverse) := by
  rw [link_assemble, overflows_take hlen, take_lookahead, nextPoint]
  by_cases hlt : plan.size.count.toNat < rest.length
  · rw [if_pos (decide_eq_true hlt), if_pos hlt]
  · rw [if_neg (by simpa using hlt), if_neg hlt]
    rfl

/-- The token in the other direction goes on from the first row read. -/
theorem link_assemble_not (o : SortOrder) (plan : Plan) (rows : List α) :
    (assemble o plan rows).link (!plan.reverse)
      = if plan.cursor.isSome then
          (rows.take plan.size.count.toNat).head?.map fun row =>
            Token.encode (edgeCursor o plan (assemble o plan rows).items row (!plan.reverse))
        else none := by
  cases hr : plan.reverse with
  | false =>
    simp only [Page.link, assemble, Plan.hasPrevious, hr, Bool.not_false, if_true, if_false,
      Bool.false_eq_true]
  | true =>
    have hsome : plan.cursor.isSome = true := by
      cases hc : plan.cursor with
      | none => rw [Plan.reverse, hc] at hr; exact nomatch hr
      | some c => rfl
    simp only [Page.link, assemble, Plan.hasNext, hr, hsome, Bool.true_or, Bool.not_true, if_true,
      if_false, Bool.false_eq_true, List.getLast?_reverse]

/-! ## Edges -/

theorem countTied_perm {o : SortOrder} {items : List α} {l : List (α × Nat)}
    (h : items.Perm (l.map Prod.fst)) (m : α × Nat) :
    countTied o items (o.valuesOf m.1) = l.countP fun r => Rows.tied o r m := by
  rw [countTied, h.countP_eq, List.countP_map]
  rfl

/-- The cursor that goes on from a row and counts some rows that tie with it, the row among them. -/
def tally (o : SortOrder) (reverse : Bool) (n : Nat) (row : α) : Cursor where
  offset := UInt64.ofNat (n - 1)
  reverse := reverse
  position := some (Position.ofValues (o.valuesOf row))

/-- A mark counts the rows that were passed. -/
theorem tally_passed (o : SortOrder) (rows : List α) (reverse : Bool) (m : α × Nat) :
    tally o reverse (Rows.passed (o.toward reverse) rows m) m.1 = mark o rows reverse m := rfl

/-- The cursor at an edge to which nothing is carried over counts the rows of the page. -/
theorem edgeCursor_of_not_carried {o : SortOrder} {plan : Plan} {items : List α} {edge : α}
    {reverse : Bool} (hcarried : ∀ whole, carried plan whole (o.valuesOf edge) reverse = none) :
    edgeCursor o plan items edge reverse
      = tally o reverse (countTied o items (o.valuesOf edge)) edge := by
  unfold edgeCursor tally
  simp only [hcarried]

/-- The cursor at an edge is the mark of the edge row if the carry makes up for the rows passed
    before the page. -/
theorem edgeCursor_of_carried {o : SortOrder} {rows : List α} {plan : Plan} {items : List α}
    {edge : α × Nat} {reverse : Bool} {before : UInt64} (hlen : rows.length ≤ maxCount)
    (hcarried : carried plan (countTied o items (o.valuesOf edge.1) == items.length)
      (o.valuesOf edge.1) reverse = some before)
    (hpos : 0 < countTied o items (o.valuesOf edge.1))
    (hcount : countTied o items (o.valuesOf edge.1) + (before.toNat + 1)
      = Rows.passed (o.toward reverse) rows edge) :
    edgeCursor o plan items edge.1 reverse = mark o rows reverse edge := by
  have hle := Rows.passed_le_length (o.toward reverse) rows edge
  have hone : (1 : UInt64).toNat = 1 := rfl
  have hothers : (UInt64.ofNat (countTied o items (o.valuesOf edge.1) - 1)).toNat
      = countTied o items (o.valuesOf edge.1) - 1 := toNat_ofNat (by omega)
  have hsum : addCapped (addCapped
      (UInt64.ofNat (countTied o items (o.valuesOf edge.1) - 1)) before) 1
      = UInt64.ofNat (Rows.passed (o.toward reverse) rows edge - 1) := by
    refine UInt64.toNat_inj.mp ?_
    have hinner : (addCapped
        (UInt64.ofNat (countTied o items (o.valuesOf edge.1) - 1)) before).toNat
        = countTied o items (o.valuesOf edge.1) - 1 + before.toNat := by
      rw [toNat_addCapped (by omega), hothers]
    rw [toNat_addCapped (by omega), hinner, hone, toNat_ofNat (by omega)]
    omega
  unfold edgeCursor mark
  simp only [hcarried, hsum]

/-- The carry of a page that was read in a direction. -/
theorem carried_eq {plan : Plan} {c : Cursor} {b : Boundary} (hcursor : plan.cursor = some c)
    (hboundary : plan.query.boundary = some b) (whole : Bool) (values : List FieldValue)
    (reverse : Bool) :
    carried plan whole values reverse
      = if c.reverse = reverse ∧ whole ∧ tiedValues (b.keys.map Boundary.Key.value) values then
          some c.offset
        else none := by
  unfold carried
  rw [hcursor, hboundary]

theorem carried_of_no_boundary {plan : Plan} (h : plan.query.boundary = none) (whole : Bool)
    (values : List FieldValue) (reverse : Bool) : carried plan whole values reverse = none := by
  unfold carried
  rw [h]
  cases plan.cursor <;> rfl

/-- A page that begins after a row carries the offset of its cursor over to an edge of the same
    direction, if it ties with the row as a whole. -/
theorem Begins.carried_eq {o : SortOrder} {rows : List α} {reverse : Bool} {row : α}
    {rest : List (α × Nat)} {q : Query} (h : Begins o rows reverse (some row) rest q) (c : Cursor)
    (size : PageSize) (whole : Bool) (edge : α) (reverse' : Bool) :
    carried ⟨some c, size, q⟩ whole (o.valuesOf edge) reverse'
      = if c.reverse = reverse' ∧ whole ∧ tiedValues (o.valuesOf row) (o.valuesOf edge) then
          some c.offset
        else none := by
  obtain ⟨b, hb, hties⟩ := h.boundary
  rw [Pager.carried_eq rfl hb, tiedValues_congr hties]

/-- Read in a direction, the list in order is turned round or left as it is. -/
theorem inOrder_toward (o : SortOrder) (reverse : Bool) (rows : List α) :
    Rows.inOrder (o.toward reverse) rows = facing reverse (Rows.inOrder o rows) := by
  cases reverse with
  | false => rfl
  | true => exact Rows.inOrder_invert o rows

/-- Stored rows tie in either direction or in none. -/
theorem tied_toward (o : SortOrder) (reverse : Bool) (a b : α × Nat) :
    Rows.tied (o.toward reverse) a b = Rows.tied o a b := by
  rw [Rows.tied, SortOrder.valuesOf_toward, SortOrder.valuesOf_toward]
  rfl

/-- When rows are left after a page, its cursor in the direction of reading is the mark of the last
    row read. -/
theorem edgeCursor_ahead {o : SortOrder} {rows : List α} {reverse : Bool}
    {point : Option (α × Nat)} {q : Query} {stretch rest read : List (α × Nat)} {last : α × Nat}
    {items : List α} (hlen : rows.length ≤ maxCount) (hpoint : ∀ m ∈ point, m ∈ rows.zipIdx)
    (hbegins : Begins o rows reverse (point.map Prod.fst) read q)
    (hremaining : Rows.remaining (o.toward reverse) rows point = stretch ++ last :: rest)
    (hitems : items.Perm ((stretch ++ [last]).map Prod.fst)) (size : PageSize) :
    edgeCursor o ⟨cursorAt o rows reverse point, size, q⟩ items last.1 reverse
      = mark o rows reverse last := by
  have hcount : countTied o items (o.valuesOf last.1)
      = (stretch ++ [last]).countP fun r => Rows.tied (o.toward reverse) r last := by
    rw [countTied_perm hitems]
    simp only [tied_toward]
  have hself : Rows.tied (o.toward reverse) last last = true := tiedValues_refl _
  cases point with
  | none =>
    have hnone : q.boundary = none := hbegins.boundary
    have hpassed : countTied o items (o.valuesOf last.1)
        = Rows.passed (o.toward reverse) rows last := by
      rw [hcount, Rows.passed_of_split hremaining]
      simp [hself]
    rw [edgeCursor_of_not_carried fun _ => carried_of_no_boundary hnone _ _ _, hpassed,
      tally_passed]
  | some m =>
    obtain ⟨front, hfront⟩ := Rows.exists_split (o := o.toward reverse) (hpoint m rfl)
    rw [hremaining] at hfront
    have hpassed := Rows.passed_append hfront
    have hcarry : ∀ whole, carried ⟨cursorAt o rows reverse (some m), size, q⟩ whole
        (o.valuesOf last.1) reverse
        = if reverse = reverse ∧ whole ∧ Rows.tied (o.toward reverse) m last then
            some (mark o rows reverse m).offset
          else none := by
      intro whole
      rw [tied_toward]
      exact Begins.carried_eq hbegins (mark o rows reverse m) size whole last.1 reverse
    cases htied : Rows.tied (o.toward reverse) m last with
    | false =>
      rw [htied] at hpassed hcarry
      have hnone : ∀ whole, carried ⟨cursorAt o rows reverse (some m), size, q⟩ whole
          (o.valuesOf last.1) reverse = none := by
        intro whole
        rw [hcarry, if_neg]
        rintro ⟨-, -, h⟩
        exact nomatch h
      have hcount' : countTied o items (o.valuesOf last.1)
          = Rows.passed (o.toward reverse) rows last := by
        rw [hcount, hpassed]
        rfl
      rw [edgeCursor_of_not_carried hnone, hcount', tally_passed]
    | true =>
      rw [htied, if_pos rfl] at hpassed
      rw [htied] at hcarry
      -- every row read lies between two rows that tie, so the page ties as a whole
      have hall : ∀ r ∈ stretch ++ [last], Rows.tied (o.toward reverse) r last = true := by
        have hincreasing := Rows.inOrder_pairwise (o.toward reverse) rows
        rw [hfront] at hincreasing
        intro r hr
        rcases List.mem_append.mp hr with hr | hr
        · exact Rows.tied_of_pairwise (List.pairwise_append.mp hincreasing).2.1 htied r
            (List.mem_cons_of_mem _ hr)
        · rw [List.mem_singleton.mp hr]
          exact hself
      have hwhole : countTied o items (o.valuesOf last.1) = items.length := by
        rw [hcount, List.countP_eq_length.mpr hall, hitems.length_eq, List.length_map]
      have hcarried : carried ⟨cursorAt o rows reverse (some m), size, q⟩
          (countTied o items (o.valuesOf last.1) == items.length) (o.valuesOf last.1) reverse
          = some (mark o rows reverse m).offset := by
        rw [hcarry, if_pos ⟨rfl, beq_iff_eq.mpr hwhole, rfl⟩]
      have hpos : 0 < countTied o items (o.valuesOf last.1) := by
        rw [hcount]
        exact List.countP_pos_iff.mpr ⟨last, by simp, hself⟩
      refine edgeCursor_of_carried hlen hcarried hpos ?_
      rw [hcount, toNat_offset_mark reverse hlen (hpoint m rfl), hpassed]

/-- Nothing is carried over against the direction of reading. -/
theorem carried_against (o : SortOrder) (rows : List α) (reverse : Bool)
    (point : Option (α × Nat)) (size : PageSize) (q : Query) (whole : Bool)
    (values : List FieldValue) :
    carried ⟨cursorAt o rows reverse point, size, q⟩ whole values (!reverse) = none := by
  unfold carried
  split
  · next c b hcursor hb =>
    rw [if_neg]
    rintro ⟨h, -, -⟩
    rw [reverse_cursorAt hcursor] at h
    cases reverse <;> exact nomatch h
  · rfl

/-- Of the rows read, as many tie with the first one as are passed at it seen from the other side, if
    no row beyond them ties with it. -/
theorem countP_back {o : SortOrder} {rows : List α} {reverse : Bool} {point : Option (α × Nat)}
    {stretch rest : List (α × Nat)} {first : α × Nat} (hpoint : ∀ m ∈ point, m ∈ rows.zipIdx)
    (hremaining : Rows.remaining (o.toward reverse) rows point = first :: (stretch ++ rest))
    (hrest : ∀ r ∈ rest, Rows.tied o r first = false) :
    (first :: stretch).countP (fun r => Rows.tied o r first)
      = Rows.passed (o.toward (!reverse)) rows first := by
  obtain ⟨front, hfront⟩ := Rows.exists_front (o := o.toward reverse) hpoint
  -- seen from the other side, the rows read stand before the first one
  have hsplit : Rows.inOrder (o.toward (!reverse)) rows
      = (rest.reverse ++ stretch.reverse) ++ first :: front.reverse := by
    rw [SortOrder.toward_not, Rows.inOrder_invert, hfront, hremaining]
    simp
  have hnone : rest.countP (fun r => Rows.tied o r first) = 0 :=
    List.countP_eq_zero.mpr fun r hr => by simp [hrest r hr]
  have hself : Rows.tied o first first = true := tiedValues_refl _
  rw [Rows.passed_of_split hsplit]
  simp only [tied_toward, List.countP_append, List.countP_reverse, List.countP_cons, hnone, hself,
    if_true, Nat.zero_add]

/-! ## Pages at a point -/

/-- The rows that are ahead of a walk in a direction at a point. -/
def ahead (o : SortOrder) (rows : List α) (reverse : Bool) (point : Option (α × Nat)) :
    List (α × Nat) :=
  Rows.remaining (o.toward reverse) rows point

/-- What the page at a point holds: the first rows ahead; the token of the next point; and on its
    other side, unless the walk begins there, the token of the first row read, if no row beyond the
    page ties with that row. -/
structure PageAt (o : SortOrder) (rows : List α) (reverse : Bool) (point : Option (α × Nat))
    (size : PageSize) (page : Page α) : Prop where
  items : page.items = facing reverse
    (((ahead o rows reverse point).take size.count.toNat).map Prod.fst)
  link : page.link reverse = (nextPoint size.count.toNat (ahead o rows reverse point)).map
    fun m => Token.encode (mark o rows reverse m)
  link_not : (∀ first ∈ (ahead o rows reverse point).head?,
      ∀ r ∈ (ahead o rows reverse point).drop size.count.toNat, Rows.tied o r first = false) →
    page.link (!reverse) = if (cursorAt o rows reverse point).isSome then
      (ahead o rows reverse point).head?.map fun m => Token.encode (mark o rows (!reverse) m)
      else none

theorem length_ahead_le {o : SortOrder} {rows : List α} {reverse : Bool}
    {point : Option (α × Nat)} (hpoint : ∀ m ∈ point, m ∈ rows.zipIdx) :
    (ahead o rows reverse point).length ≤ rows.length := by
  obtain ⟨front, hfront⟩ := Rows.exists_front (o := o.toward reverse) hpoint
  rw [← Rows.length_inOrder (o.toward reverse) rows, hfront, List.length_append]
  exact Nat.le_add_left _ _

theorem size_pos (size : PageSize) : 0 < size.count.toNat := by
  refine Nat.pos_of_ne_zero fun hzero => size.count_ne_zero ?_
  exact UInt64.toNat_inj.mp hzero

theorem reverse_plan (o : SortOrder) (rows : List α) (reverse : Bool)
    (point : Option (α × Nat)) (size : PageSize) (q : Query) :
    Plan.reverse ⟨cursorAt o rows reverse point, size, q⟩ = reverse := by
  cases point with
  | some m => rfl
  | none => cases reverse <;> rfl

/-- The page of the rows that a query at a point gives. -/
def pageAt (o : SortOrder) (rows : List α) (reverse : Bool) (point : Option (α × Nat))
    (size : PageSize) (q : Query) : Page α :=
  assemble o ⟨cursorAt o rows reverse point, size, q⟩
    (((ahead o rows reverse point).take q.limit.toNat).map Prod.fst)

section

variable {o : SortOrder} {rows : List α} {reverse : Bool} {point : Option (α × Nat)}
  {size : PageSize} {q : Query}

omit [HasFields α] in
/-- The rows kept for a page at a point are the first ones ahead. -/
theorem take_kept (hlimit : q.limit = lookahead size) (l : List (α × Nat)) :
    ((l.take q.limit.toNat).map Prod.fst).take size.count.toNat
      = (l.take size.count.toNat).map Prod.fst := by
  rw [hlimit, List.map_take, take_lookahead, List.map_take]

theorem items_pageAt (hlimit : q.limit = lookahead size) :
    (pageAt o rows reverse point size q).items
      = facing reverse (((ahead o rows reverse point).take size.count.toNat).map Prod.fst) := by
  rw [pageAt, items_assemble, reverse_plan]
  exact congrArg _ (take_kept hlimit _)

theorem items_pageAt_perm (hlimit : q.limit = lookahead size) :
    (pageAt o rows reverse point size q).items.Perm
      (((ahead o rows reverse point).take size.count.toNat).map Prod.fst) := by
  rw [items_pageAt hlimit]
  exact facing_perm _ _

/-- In the direction of reading a page leads to the next point. -/
theorem link_pageAt (hlen : rows.length ≤ maxCount) (hpoint : ∀ m ∈ point, m ∈ rows.zipIdx)
    (hlimit : q.limit = lookahead size)
    (hbegins : Begins o rows reverse (point.map Prod.fst) (ahead o rows reverse point) q) :
    (pageAt o rows reverse point size q).link reverse
      = (nextPoint size.count.toNat (ahead o rows reverse point)).map
        fun m => Token.encode (mark o rows reverse m) := by
  have hcount : ((ahead o rows reverse point).map Prod.fst).length ≤ maxCount := by
    rw [List.length_map]
    exact Nat.le_trans (length_ahead_le hpoint) hlen
  have hlink := link_assemble_take o ⟨cursorAt o rows reverse point, size, q⟩ hcount
  rw [reverse_plan, ← hlimit, ← List.map_take, nextPoint_map, Option.map_map] at hlink
  refine hlink.trans (Option.map_congr fun m hm => congrArg Token.encode ?_)
  obtain ⟨-, stretch, hstretch⟩ := nextPoint_eq_some_iff.mp hm
  have hsplit : ahead o rows reverse point
      = stretch ++ m :: (ahead o rows reverse point).drop size.count.toNat := by
    rw [List.append_cons, ← hstretch, List.take_append_drop]
  have hperm : (pageAt o rows reverse point size q).items.Perm _ := items_pageAt_perm hlimit
  rw [hstretch] at hperm
  exact edgeCursor_ahead hlen hpoint hbegins hsplit hperm size

/-- Against the direction of reading a page leads back by the tally of its first row. -/
theorem link_not_pageAt_tally (hlimit : q.limit = lookahead size) :
    (pageAt o rows reverse point size q).link (!reverse)
      = if (cursorAt o rows reverse point).isSome then
          (ahead o rows reverse point).head?.map fun m => Token.encode (tally o (!reverse)
            (((ahead o rows reverse point).take size.count.toNat).countP
              fun r => Rows.tied o r m) m.1)
        else none := by
  have hlink := link_assemble_not o ⟨cursorAt o rows reverse point, size, q⟩
    (((ahead o rows reverse point).take q.limit.toNat).map Prod.fst)
  rw [reverse_plan, take_kept hlimit, List.head?_map, List.head?_take,
    if_neg (Nat.ne_of_gt (size_pos size)), Option.map_map] at hlink
  have hedge : ∀ m : α × Nat, edgeCursor o ⟨cursorAt o rows reverse point, size, q⟩
      (pageAt o rows reverse point size q).items m.1 (!reverse)
      = tally o (!reverse) (((ahead o rows reverse point).take size.count.toNat).countP
          fun r => Rows.tied o r m) m.1 := by
    intro m
    rw [edgeCursor_of_not_carried fun _ => carried_against o rows reverse point size q _ _,
      countTied_perm (items_pageAt_perm hlimit)]
  simp only [← hedge]
  exact hlink

/-- Against the direction of reading a page leads back before its first row, if no row beyond the
    page ties with that row. -/
theorem link_not_pageAt (hpoint : ∀ m ∈ point, m ∈ rows.zipIdx) (hlimit : q.limit = lookahead size)
    (hbeyond : ∀ first ∈ (ahead o rows reverse point).head?,
      ∀ r ∈ (ahead o rows reverse point).drop size.count.toNat, Rows.tied o r first = false) :
    (pageAt o rows reverse point size q).link (!reverse)
      = if (cursorAt o rows reverse point).isSome then
          (ahead o rows reverse point).head?.map fun m => Token.encode (mark o rows (!reverse) m)
        else none := by
  rw [link_not_pageAt_tally hlimit]
  refine congrArg (fun link => if (cursorAt o rows reverse point).isSome then link else none) ?_
  refine Option.map_congr fun first hfirst => congrArg Token.encode ?_
  obtain ⟨more, hmore⟩ := List.head?_eq_some_iff.mp hfirst
  obtain ⟨n, hn⟩ := Nat.exists_eq_add_one_of_ne_zero (Nat.ne_of_gt (size_pos size))
  have hsplit : ahead o rows reverse point = first :: (more.take n ++ more.drop n) := by
    rw [List.take_append_drop, hmore]
  have hrest : ∀ r ∈ more.drop n, Rows.tied o r first = false := by
    intro r hr
    refine hbeyond first hfirst r ?_
    rw [hmore, hn, List.drop_succ_cons]
    exact hr
  rw [hmore, hn, List.take_succ_cons, countP_back hpoint hsplit hrest, tally_passed]

end

/-- The token at a point gives the page of the rows that its query gives. -/
theorem exists_pageAt_of_tokenAt {p : Pager} {s : Snapshot α} {reverse : Bool}
    {point : Option (α × Nat)} (hpoint : ∀ m ∈ point, Readable p s.rows reverse m)
    (size : PageSize) :
    ∃ q, q.limit = lookahead size ∧
      Begins p.order s.rows reverse (point.map Prod.fst) (ahead p.order s.rows reverse point) q ∧
      p.pageOfSize s.read (tokenAt p.order s.rows reverse point) size.count
        = .ok (pageAt p.order s.rows reverse point size q) := by
  obtain ⟨q, hquery, hlimit, hbegins⟩ := queryAt_cursorAt s.length_le hpoint size
  exact ⟨q, hlimit, hbegins,
    pageOfSize_of_begins (decode_tokenAt s.length_le hpoint) hquery hbegins⟩

theorem pageAt_spec {o : SortOrder} {rows : List α} {reverse : Bool} {point : Option (α × Nat)}
    {size : PageSize} {q : Query} (hlen : rows.length ≤ maxCount)
    (hpoint : ∀ m ∈ point, m ∈ rows.zipIdx) (hlimit : q.limit = lookahead size)
    (hbegins : Begins o rows reverse (point.map Prod.fst) (ahead o rows reverse point) q) :
    PageAt o rows reverse point size (pageAt o rows reverse point size q) where
  items := items_pageAt hlimit
  link := link_pageAt hlen hpoint hlimit hbegins
  link_not := link_not_pageAt hpoint hlimit

/-- The token at a point gives the page at that point. -/
theorem pageOfSize_tokenAt {p : Pager} {s : Snapshot α} {reverse : Bool}
    {point : Option (α × Nat)} (hpoint : ∀ m ∈ point, Readable p s.rows reverse m)
    (size : PageSize) :
    ∃ page, p.pageOfSize s.read (tokenAt p.order s.rows reverse point) size.count = .ok page ∧
      PageAt p.order s.rows reverse point size page := by
  obtain ⟨q, hlimit, hbegins, hpage⟩ := exists_pageAt_of_tokenAt hpoint size
  have hmem : ∀ m ∈ point, m ∈ s.rows.zipIdx := fun m hm => (hpoint m hm).mem
  exact ⟨_, hpage, pageAt_spec s.length_le hmem hlimit hbegins⟩

end Pager

end Keyset
