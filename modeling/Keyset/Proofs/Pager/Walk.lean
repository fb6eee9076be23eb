import Keyset.Proofs.Pager.Reading

/-! # Walks

    A WALK follows the tokens of one side of its pages, from some token on, one
    page for each request; every request finds the collection as it is at the
    time.  It ends at a failure, or at a page without a token on that side.

    The step from point to point is the same for every walk.  A page leads to a
    row of its own, with the token of that row (`link_some`), and what is ahead
    of that row is what was ahead before, without the page (`ahead_nextPoint`).

    A token is read only up to a length, which walks have to assume of the
    tokens they follow (`TokensFit`).  Every token issued carries the position of
    a row of the collection, so the assumption holds wherever rows have short
    positions (`tokensFit_of_short`). -/

namespace Keyset.Pager

open Number

variable {α : Type} [HasFields α]

/-- One request of a walk: the collection at the time, and how many rows the page may hold. -/
structure Request (α : Type) where
  store : Snapshot α
  size : PageSize

/-- The token with which a walk in a direction begins. -/
def firstToken (reverse : Bool) : Option String := (firstCursor reverse).map Token.encode

/-- The answers to the requests of a walk that follows the tokens of one side. -/
def walk (p : Pager) (reverse : Bool) :
    Option String → List (Request α) → List (Except Failure (Page α))
  | _, [] => []
  | token, r :: rest =>
      match p.pageOfSize r.store.read token r.size.count with
      | .error failure => [.error failure]
      | .ok page =>
          .ok page :: match page.link reverse with
            | none => []
            | some next => walk p reverse (some next) rest

/-- Whether every token that a walk may follow is short enough to be read. -/
def TokensFit (p : Pager) (reverse : Bool) (token : Option String) (requests : List (Request α)) :
    Prop :=
  ∀ page, .ok page ∈ walk p reverse token requests →
    ∀ next ∈ page.link reverse, next.utf8ByteSize ≤ Token.maxLength

/-! ## Single steps -/

/-- A walk ends at a page without a token to follow. -/
theorem walk_of_link_none {p : Pager} {reverse : Bool} {token : Option String} {r : Request α}
    {page : Page α} (hpage : p.pageOfSize r.store.read token r.size.count = .ok page)
    (hlink : page.link reverse = none) (rest : List (Request α)) :
    walk p reverse token (r :: rest) = [.ok page] := by
  rw [walk, hpage]
  simp only [hlink]

/-- A walk goes on from the token of a page. -/
theorem walk_of_link_some {p : Pager} {reverse : Bool} {token : Option String} {r : Request α}
    {page : Page α} {next : String}
    (hpage : p.pageOfSize r.store.read token r.size.count = .ok page)
    (hlink : page.link reverse = some next) (rest : List (Request α)) :
    walk p reverse token (r :: rest) = .ok page :: walk p reverse (some next) rest := by
  rw [walk, hpage]
  simp only [hlink]

/-- The tokens that a walk follows later are among those it follows. -/
theorem TokensFit.tail {p : Pager} {reverse : Bool} {token : Option String} {r : Request α}
    {rest : List (Request α)} {page : Page α} {next : String}
    (h : TokensFit p reverse token (r :: rest))
    (hpage : p.pageOfSize r.store.read token r.size.count = .ok page)
    (hlink : page.link reverse = some next) : TokensFit p reverse (some next) rest := by
  intro later hlater
  refine h later ?_
  rw [walk_of_link_some hpage hlink]
  exact List.mem_cons_of_mem _ hlater

theorem TokensFit.head {p : Pager} {reverse : Bool} {token : Option String} {r : Request α}
    {rest : List (Request α)} {page : Page α} {next : String}
    (h : TokensFit p reverse token (r :: rest))
    (hpage : p.pageOfSize r.store.read token r.size.count = .ok page)
    (hlink : page.link reverse = some next) : next.utf8ByteSize ≤ Token.maxLength := by
  refine h page ?_ next hlink
  rw [walk_of_link_some hpage hlink]
  exact List.mem_cons_self

omit [HasFields α] in
/-- A walk that comes to its end after a page with a token does so on a later page. -/
theorem exists_end_of_cons {reverse : Bool} {page : Page α} {pages : List (Page α)}
    {next : String} (hlink : page.link reverse = some next)
    (h : ∃ last ∈ (page :: pages).getLast?, last.link reverse = none) :
    ∃ last ∈ pages.getLast?, last.link reverse = none := by
  obtain ⟨last, hlast, hnone⟩ := h
  cases pages with
  | nil =>
    obtain rfl : page = last := Option.some.inj hlast
    exact nomatch hlink.symm.trans hnone
  | cons later pages =>
    rw [List.getLast?_cons_cons] at hlast
    exact ⟨last, hlast, hnone⟩

omit [HasFields α] in
/-- A walk that comes to its end does so after one page more. -/
theorem exists_end_cons {reverse : Bool} {pages : List (Page α)} (page : Page α)
    (h : ∃ last ∈ pages.getLast?, last.link reverse = none) :
    ∃ last ∈ (page :: pages).getLast?, last.link reverse = none := by
  obtain ⟨last, hlast, hnone⟩ := h
  refine ⟨last, ?_, hnone⟩
  rw [Option.mem_def] at hlast ⊢
  rw [List.getLast?_cons, hlast]
  rfl

/-! ## From point to point -/

/-- Ahead of the next point is what was ahead, without the page; and the next point is a row of the
    collection. -/
theorem ahead_nextPoint {o : SortOrder} {rows : List α} {reverse : Bool}
    {point : Option (α × Nat)} {n : Nat} {m : α × Nat} (hpoint : ∀ m ∈ point, m ∈ rows.zipIdx)
    (h : nextPoint n (ahead o rows reverse point) = some m) :
    m ∈ rows.zipIdx ∧ ahead o rows reverse (some m) = (ahead o rows reverse point).drop n := by
  obtain ⟨-, stretch, hstretch⟩ := nextPoint_eq_some_iff.mp h
  obtain ⟨front, hfront⟩ := Rows.exists_front (o := o.toward reverse) hpoint
  have hahead : Rows.remaining (o.toward reverse) rows point
      = stretch ++ m :: (ahead o rows reverse point).drop n := by
    rw [List.append_cons, ← hstretch]
    exact (List.take_append_drop _ _).symm
  have hsplit : Rows.inOrder (o.toward reverse) rows
      = (front ++ stretch) ++ m :: (ahead o rows reverse point).drop n := by
    rw [hfront, hahead, List.append_assoc]
  refine ⟨?_, Rows.remaining_of_split hsplit⟩
  have hmem : m ∈ Rows.inOrder (o.toward reverse) rows := by
    rw [hsplit]
    exact List.mem_append_right _ List.mem_cons_self
  exact Rows.mem_inOrder.mp hmem

theorem ahead_pairwise (o : SortOrder) (rows : List α) (reverse : Bool)
    (point : Option (α × Nat)) :
    (ahead o rows reverse point).Pairwise
      fun a b => Rows.comparePlaced (o.toward reverse) a b = .lt := by
  cases point with
  | none => exact Rows.inOrder_pairwise (o.toward reverse) rows
  | some m => exact (Rows.inOrder_pairwise (o.toward reverse) rows).filter _

theorem link_some {o : SortOrder} {rows : List α} {reverse : Bool} {point : Option (α × Nat)}
    {size : PageSize} {page : Page α} {m : α × Nat} (h : PageAt o rows reverse point size page)
    (hm : nextPoint size.count.toNat (ahead o rows reverse point) = some m) :
    page.link reverse = tokenAt o rows reverse (some m) := by
  rw [h.link, hm]
  rfl

theorem link_none {o : SortOrder} {rows : List α} {reverse : Bool} {point : Option (α × Nat)}
    {size : PageSize} {page : Page α} (h : PageAt o rows reverse point size page)
    (hm : nextPoint size.count.toNat (ahead o rows reverse point) = none) :
    page.link reverse = none := by
  rw [h.link, hm]
  rfl

/-! ## Tokens that are issued -/

/-- The token on either side of a page carries the position of a row on the page. -/
theorem position_of_link {o : SortOrder} {plan : Plan} {rows : List α} {reverse : Bool}
    {next : String} (h : (assemble o plan rows).link reverse = some next) :
    ∃ row ∈ (assemble o plan rows).items, ∃ c : Cursor, next = Token.encode c ∧
      c.position = some (Position.ofValues (o.valuesOf row)) := by
  have hedge : ∃ row ∈ (assemble o plan rows).items,
      Token.encode (edgeCursor o plan (assemble o plan rows).items row reverse) = next := by
    cases reverse with
    | true =>
      change (if plan.hasPrevious (plan.overflows rows) then
        (assemble o plan rows).items.head?.map _ else none) = some next at h
      split at h
      · obtain ⟨row, hrow, heq⟩ := Option.map_eq_some_iff.mp h
        exact ⟨row, List.mem_of_mem_head? hrow, heq⟩
      · exact nomatch h
    | false =>
      change (if plan.hasNext (plan.overflows rows) then
        (assemble o plan rows).items.getLast?.map _ else none) = some next at h
      split at h
      · obtain ⟨row, hrow, heq⟩ := Option.map_eq_some_iff.mp h
        exact ⟨row, List.mem_of_getLast? hrow, heq⟩
      · exact nomatch h
  obtain ⟨row, hrow, heq⟩ := hedge
  exact ⟨row, hrow, _, heq.symm, rfl⟩

theorem mem_of_mem_read {rows : List α} {q : Query} {row : α} (h : row ∈ Rows.read rows q) :
    row ∈ rows := by
  rw [Rows.read_eq] at h
  obtain ⟨r, hr, rfl⟩ := List.mem_map.mp h
  have hmem : r ∈ Rows.inOrder q.order rows :=
    (List.mem_filter.mp (List.mem_of_mem_drop (List.mem_of_mem_take hr))).1
  rw [Rows.mem_inOrder] at hmem
  exact List.fst_mem_of_mem_zipIdx hmem

/-- Every page is put together from rows that were read for it. -/
theorem assemble_of_pageOfSize {p : Pager} {s : Snapshot α} {token : Option String} {size : UInt64}
    {page : Page α} (h : p.pageOfSize s.read token size = .ok page) :
    ∃ plan : Plan, page = assemble p.order plan (Rows.read s.rows plan.query) := by
  unfold pageOfSize at h
  split at h
  · exact nomatch h
  · split at h
    · exact nomatch h
    · next plan _ => exact ⟨plan, (Except.ok.inj h).symm⟩

/-- Every page of a walk answers one of its requests. -/
theorem exists_of_mem_walk {p : Pager} {reverse : Bool} {token : Option String}
    {requests : List (Request α)} {page : Page α} (h : .ok page ∈ walk p reverse token requests) :
    ∃ r ∈ requests, ∃ token, p.pageOfSize r.store.read token r.size.count = .ok page := by
  induction requests generalizing token with
  | nil => exact nomatch h
  | cons r rest ih =>
    cases hpage : p.pageOfSize r.store.read token r.size.count with
    | error failure =>
      rw [walk, hpage] at h
      exact nomatch List.mem_singleton.mp h
    | ok first =>
      cases hlink : first.link reverse with
      | none =>
        rw [walk_of_link_none hpage hlink] at h
        obtain rfl := Except.ok.inj (List.mem_singleton.mp h)
        exact ⟨r, List.mem_cons_self, token, hpage⟩
      | some next =>
        rw [walk_of_link_some hpage hlink] at h
        rcases List.mem_cons.mp h with heq | h
        · obtain rfl := Except.ok.inj heq
          exact ⟨r, List.mem_cons_self, token, hpage⟩
        · obtain ⟨r', hr', found⟩ := ih h
          exact ⟨r', List.mem_cons_of_mem _ hr', found⟩

/-- Where rows have short positions, the tokens of a page are short enough to be read. -/
theorem utf8ByteSize_link_le {p : Pager} {s : Snapshot α} {token : Option String} {size : UInt64}
    {page : Page α} {reverse : Bool} {next : String}
    (hshort : ∀ row ∈ s.rows, (Position.ofValues (p.order.valuesOf row)).text.utf8ByteSize ≤ 2000)
    (hpage : p.pageOfSize s.read token size = .ok page) (hnext : page.link reverse = some next) :
    next.utf8ByteSize ≤ Token.maxLength := by
  obtain ⟨plan, rfl⟩ := assemble_of_pageOfSize hpage
  obtain ⟨row, hrow, c, rfl, hposition⟩ := position_of_link hnext
  have hread : row ∈ Rows.read s.rows plan.query := by
    rw [items_assemble] at hrow
    exact List.mem_of_mem_take ((facing_perm _ _).mem_iff.mp hrow)
  exact Token.utf8ByteSize_encode_le hposition (hshort row (mem_of_mem_read hread))

/-- Where rows have short positions, so are the tokens of a walk. -/
theorem tokensFit_of_short {p : Pager} {requests : List (Request α)}
    (hshort : ∀ r ∈ requests, ∀ row ∈ r.store.rows,
      (Position.ofValues (p.order.valuesOf row)).text.utf8ByteSize ≤ 2000)
    (reverse : Bool) (token : Option String) : TokensFit p reverse token requests := by
  intro page hpage next hnext
  obtain ⟨r, hr, _, hanswer⟩ := exists_of_mem_walk hpage
  exact utf8ByteSize_link_le (hshort r hr) hanswer hnext

/-- A token that is too long is refused. -/
theorem pageOfSize_tooLong {p : Pager} {text : String} (hlong : Token.maxLength < text.utf8ByteSize)
    (s : Snapshot α) (size : PageSize) :
    p.pageOfSize s.read (some text) size.count
      = .error (.token (.tooLong text.utf8ByteSize Token.maxLength)) := by
  have hne : text ≠ "" := by
    rintro rfl
    exact absurd hlong (by decide)
  have hplan : p.plan (some text) size = .error (.tooLong text.utf8ByteSize Token.maxLength) := by
    rw [plan, Token.decode, if_neg hne, if_pos hlong]
  exact pageOfSize_of_refused hplan s.read

/-! ## Small collections -/

/-- The order by one field. -/
def sampleOrder : SortOrder := ⟨[⟨"k", .ascending⟩], .ascending, by decide, by decide, by decide⟩

/-- Pages of one row. -/
def singles : PageSize := ⟨1, by decide⟩

/-- Pages of two rows. -/
def pairs : PageSize := ⟨2, by decide⟩

/-- Pages of two rows in the order by one field, without a cutoff. -/
def samplePager : Pager := ⟨sampleOrder, pairs, none⟩

/-- Pages of one row in the order by one field, without a cutoff. -/
def singlePager : Pager := ⟨sampleOrder, singles, none⟩

/-- Three documents, the first and the last of which tie. -/
def sampleDocuments : Snapshot Document where
  rows := [[("k", .int32 1)], [("k", .int32 2)], [("k", .int32 1)]]
  length_le := by decide

/-- Four documents that tie with each other. -/
def tiedDocuments : Snapshot Document where
  rows := [1, 2, 3, 4].map fun n => [("_id", .int32 n), ("k", .int32 1)]
  length_le := by decide

theorem inOrder_tiedDocuments :
    Rows.inOrder sampleOrder tiedDocuments.rows = tiedDocuments.rows.zipIdx :=
  Rows.inOrder_of_pairwise (by decide)

theorem short_tiedDocuments : ∀ row ∈ tiedDocuments.rows,
    (Position.ofValues (sampleOrder.valuesOf row)).text.utf8ByteSize ≤ 2000 := by
  decide

end Keyset.Pager
