import Keyset.Proofs.Pager.Planning
import Keyset.Proofs.Pager.Walk
import Keyset.Proofs.Token.Pieces

/-! # Tokens of the first page

    A token can say in many ways that it stands for the first page: by zero for
    an offset, by zero for a direction, by no key at all.  The same query is made
    for all of them as for no token, so the pages have the same rows and the same
    token at their end (`pageOfSize_of_start`).

    The token at the beginning tells them apart.  There is one exactly if a
    cursor was given, whatever it says; so the first page has none for no token
    and for the empty one, and for any other it has one as soon as it holds a row
    (`page_of_start`). -/

namespace Keyset.Pager

variable {α : Type} [HasFields α]

/-- A page with a token at its beginning, as pages after the first one have it. -/
def opened (o : SortOrder) (page : Page α) : Page α where
  items := page.items
  previous := page.items.head?.map fun row =>
    Token.encode (tally o true (countTied o page.items (o.valuesOf row)) row)
  next := page.next

/-- With the cursor of the first page, the page is the one without a cursor, but open at its
    beginning. -/
theorem assemble_start (o : SortOrder) {size : PageSize} {q : Query} (hq : q.boundary = none)
    (rows : List α) :
    assemble o ⟨some .start, size, q⟩ rows = opened o (assemble o ⟨none, size, q⟩ rows) := by
  have hedge : ∀ (cursor : Option Cursor) (items : List α) (edge : α) (reverse : Bool),
      edgeCursor o ⟨cursor, size, q⟩ items edge reverse
        = tally o reverse (countTied o items (o.valuesOf edge)) edge :=
    fun _ _ _ _ => edgeCursor_of_not_carried fun _ => carried_of_no_boundary hq _ _ _
  simp only [assemble, opened, hedge]
  rfl

/-- A token of the first page gives the page that no token gives, open at its beginning if the token
    gives a cursor. -/
theorem pageOfSize_of_start {p : Pager} {token : Option String} {cursor : Option Cursor}
    (hdecode : Token.decode p.cutoff token = .ok cursor)
    (hstart : ∀ c ∈ cursor, c.isStart = true) (read : Query → Except Failure (List α))
    (size : PageSize) :
    p.pageOfSize read token size.count = (p.pageOfSize read none size.count).map fun page =>
      if cursor.isSome then opened p.order page else page := by
  have hfirst : p.plan none size = .ok ⟨none, size, ⟨p.order, none, 0, lookahead size⟩⟩ := rfl
  have hplan : p.plan token size = .ok ⟨cursor, size, ⟨p.order, none, 0, lookahead size⟩⟩ := by
    simp only [plan, hdecode]
    cases cursor with
    | none => rfl
    | some c =>
      obtain rfl := Cursor.isStart_iff.mp (hstart c rfl)
      rfl
  rw [pageOfSize_of_plan hfirst, pageOfSize_of_plan hplan]
  cases read ⟨p.order, none, 0, lookahead size⟩ with
  | error failure => rfl
  | ok rows =>
    cases cursor with
    | none => rfl
    | some c =>
      obtain rfl := Cursor.isStart_iff.mp (hstart c rfl)
      exact congrArg Except.ok (assemble_start p.order rfl rows)

/-- There is a token at the beginning of a page with rows. -/
theorem previous_opened_eq_none_iff {o : SortOrder} {page : Page α} :
    (opened o page).previous = none ↔ page.items = [] := by
  rw [opened, Option.map_eq_none_iff, List.head?_eq_none_iff]

/-- A page without a token at its beginning stays as it is exactly if it has no rows. -/
theorem opened_eq_self_iff {o : SortOrder} {page : Page α} (h : page.previous = none) :
    opened o page = page ↔ page.items = [] := by
  constructor
  · intro heq
    have hnone : (opened o page).previous = none := by rw [heq, h]
    exact previous_opened_eq_none_iff.mp hnone
  · intro hitems
    obtain ⟨items, previous, next⟩ := page
    obtain rfl := hitems
    obtain rfl := h
    rfl

/-- The first page is empty exactly if the collection is. -/
theorem items_eq_nil_iff {p : Pager} {s : Snapshot α} {size : PageSize} {page : Page α}
    (h : PageAt p.order s.rows false none size page) : page.items = [] ↔ s.rows = [] := by
  have hpos := size_pos size
  have hlength : page.items.length = min size.count.toNat s.rows.length := by
    rw [h.items, length_facing, List.length_map, List.length_take]
    exact congrArg (min _) (Rows.length_inOrder p.order s.rows)
  rw [← List.length_eq_zero_iff, ← List.length_eq_zero_iff, hlength]
  omega

/-- A token of the first page gives its rows and the token at its end.  The page is that of no token
    exactly if the token gives no cursor, as only no token and the empty one do, or there are no
    rows; else it has a token at its beginning too, the tally of its first row. -/
theorem page_of_start {p : Pager} {token : Option String} {cursor : Option Cursor}
    (hdecode : Token.decode p.cutoff token = .ok cursor)
    (hstart : ∀ c ∈ cursor, c.isStart = true) (s : Snapshot α) (size : PageSize) :
    (∃ first page, p.pageOfSize s.read none size.count = .ok first ∧
      p.pageOfSize s.read token size.count = .ok page ∧
      page.items = first.items ∧ page.next = first.next ∧ first.previous = none ∧
      (page.previous = if cursor.isSome then
          first.items.head?.map fun row => Token.encode
            (tally p.order true (countTied p.order first.items (p.order.valuesOf row)) row)
        else none) ∧
      (page = first ↔ cursor = none ∨ s.rows = [])) ∧
    (cursor = none ↔ token = none ∨ token = some "") := by
  have hpoint : ∀ m ∈ (none : Option (α × Nat)), Readable p s.rows false m := fun _ hm => nomatch hm
  obtain ⟨q, hlimit, hbegins, hfirst⟩ := exists_pageAt_of_tokenAt hpoint size
  have hat := pageAt_spec s.length_le (fun m hm => (hpoint m hm).mem) hlimit hbegins
  have hprevious : (pageAt p.order s.rows false none size q).previous = none := rfl
  have hpage := pageOfSize_of_start hdecode hstart s.read size
  change p.pageOfSize s.read none size.count = _ at hfirst
  rw [hfirst] at hpage
  refine ⟨⟨_, _, hfirst, hpage, ?_⟩, ?_⟩
  · cases cursor with
    | none => exact ⟨rfl, rfl, hprevious, hprevious, iff_of_true rfl (.inl rfl)⟩
    | some c =>
      refine ⟨rfl, rfl, hprevious, rfl, (opened_eq_self_iff hprevious).trans ?_⟩
      rw [items_eq_nil_iff hat]
      simp
  · have hnone : Token.decode p.cutoff token = .ok none ↔ token = none ∨ token = some "" :=
      Token.decode_eq_none_iff
    rw [← hnone, hdecode, Except.ok.injEq]

/-- A payload that says of the first page that nothing lies before it. -/
def zeroOffset : List Char := ['o', '=', '0']

/-- A payload that says nothing but for a direction of zero, and something of a key that is none. -/
def zeroDirection : List Char := ['x', '=', '7', '&', 'r', '=', '-', '0']

theorem decode_zeroOffset :
    Token.decode samplePager.cutoff (some (Token.carrier zeroOffset)) = .ok (some .start) := by
  have hcarries := Token.carries_carrier (show Position.byteCount zeroOffset ≤ 6143 by decide)
  have hzero : Token.unescape ['0'] = .ok "0" := Token.unescape_of_not_mem (by decide)
  refine (Token.decode_eq_ok_iff hcarries (by decide)).mpr ⟨.start, rfl, ?_⟩
  exact ⟨by decide, .said rfl hzero ⟨0, by decide, rfl⟩, .unsaid rfl, .unsaid rfl⟩

theorem decode_zeroDirection :
    Token.decode samplePager.cutoff (some (Token.carrier zeroDirection)) = .ok (some .start) := by
  have hcarries := Token.carries_carrier (show Position.byteCount zeroDirection ≤ 6143 by decide)
  have hzero : Token.unescape ['-', '0'] = .ok "-0" := Token.unescape_of_not_mem (by decide)
  refine (Token.decode_eq_ok_iff hcarries (by decide)).mpr ⟨.start, rfl, ?_⟩
  exact ⟨by decide, .unsaid rfl, .said rfl hzero ⟨0, by decide, rfl⟩, .unsaid rfl⟩

/-- A direction of zero and an unknown key give the rows of the first page. -/
theorem page_of_start_direction :
    Token.decode samplePager.cutoff (some (Token.carrier zeroDirection)) = .ok (some .start) ∧
    (∀ c ∈ some Cursor.start, c.isStart = true) ∧
    ∃ first page, samplePager.page sampleDocuments.read none = .ok first ∧
      samplePager.page sampleDocuments.read (some (Token.carrier zeroDirection)) = .ok page ∧
      page.items = first.items ∧ page.next = first.next := by
  have hstart : ∀ c ∈ some Cursor.start, c.isStart = true := by decide
  obtain ⟨⟨first, page, hfirst, hpage, hitems, hnext, -⟩, -⟩ :=
    page_of_start decode_zeroDirection hstart sampleDocuments pairs
  exact ⟨decode_zeroDirection, hstart, first, page, hfirst, hpage, hitems, hnext⟩

/-- An offset of zero gives another page than no token does: it has a token at its beginning. -/
theorem page_of_zeroOffset :
    Token.decode samplePager.cutoff (some (Token.carrier zeroOffset)) = .ok (some .start) ∧
    Cursor.start.isStart = true ∧
    ∃ first page, samplePager.page sampleDocuments.read none = .ok first ∧
      samplePager.page sampleDocuments.read (some (Token.carrier zeroOffset)) = .ok page ∧
      first.previous = none ∧ page.previous ≠ none := by
  have hstart : ∀ c ∈ some Cursor.start, c.isStart = true := by decide
  have hpoint : ∀ m ∈ (none : Option (Document × Nat)),
      Readable samplePager sampleDocuments.rows false m := fun _ hm => nomatch hm
  obtain ⟨q, hlimit, hbegins, hfirst⟩ := exists_pageAt_of_tokenAt hpoint pairs
  have hat := pageAt_spec sampleDocuments.length_le (fun m hm => (hpoint m hm).mem) hlimit hbegins
  have hpage := pageOfSize_of_start decode_zeroOffset hstart sampleDocuments.read pairs
  change samplePager.pageOfSize sampleDocuments.read none pairs.count = _ at hfirst
  rw [hfirst] at hpage
  refine ⟨decode_zeroOffset, rfl, _, _, hfirst, hpage, rfl, ?_⟩
  -- the page has a first row, from which the token goes on
  show (opened _ _).previous ≠ none
  rw [Ne, previous_opened_eq_none_iff, items_eq_nil_iff hat]
  decide

end Keyset.Pager
