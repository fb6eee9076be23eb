import Keyset.Proofs.Pager.Walk

/-! # Walking through a collection that changes

    Where no two rows tie, a token carries just the values of the last row read,
    its EDGE (`plainToken`).  The page at an edge takes the rows that do not come
    before the edge, and passes over the first of them, for the edge itself.  If
    the edge was removed in the meantime, the row that is passed over is another
    one: the first row after the edge is OVERLOOKED (`Overlooks`).

    Rows may be added and removed anywhere between the requests of a walk.  It
    returns rows in strictly increasing order all the same, so none of them twice;
    and of the rows that stay, it returns just those that no request overlooks
    (`walk_unique`). -/

namespace Keyset.Pager

open Std Number

variable {α : Type} [HasFields α]

/-! ## Rows of different values -/

/-- Whether rows that were ever stored have different values. -/
structure UniqueKeys (o : SortOrder) (requests : List (Request α)) : Prop where
  apart : ∀ r ∈ requests, r.store.rows.Pairwise fun a b => o.compareRows a b ≠ .eq
  same : ∀ r ∈ requests, ∀ r' ∈ requests, ∀ row ∈ r.store.rows, ∀ row' ∈ r'.store.rows,
    o.compareRows row row' = .eq → row = row'

theorem UniqueKeys.tail {o : SortOrder} {r : Request α} {rest : List (Request α)}
    (h : UniqueKeys o (r :: rest)) : UniqueKeys o rest where
  apart r' hr' := h.apart r' (List.mem_cons_of_mem _ hr')
  same r' hr' r'' hr'' := h.same r' (List.mem_cons_of_mem _ hr') r'' (List.mem_cons_of_mem _ hr'')

/-- Among rows of different values, a row ties with itself alone. -/
theorem eq_of_compareRows_eq {o : SortOrder} {rows : List α} {a b : α}
    (hapart : rows.Pairwise fun a b => o.compareRows a b ≠ .eq) (ha : a ∈ rows) (hb : b ∈ rows)
    (h : o.compareRows a b = .eq) : a = b := by
  have hone : rows.Pairwise fun a b => o.compareRows a b = .eq → a = b :=
    hapart.imp fun hne heq => absurd heq hne
  have hother : rows.Pairwise fun a b => o.compareRows b a = .eq → b = a :=
    hapart.imp fun hne heq => absurd (OrientedCmp.eq_symm heq) hne
  exact hone.forall_of_forall_of_flip (fun _ _ _ => rfl) hother ha hb h

/-- Rows that are taken from rows of different values. -/
theorem uniqueKeys_of_sublist {o : SortOrder} {requests : List (Request α)} {all : List α}
    (hapart : all.Pairwise fun a b => o.compareRows a b ≠ .eq)
    (h : ∀ r ∈ requests, r.store.rows.Sublist all) : UniqueKeys o requests where
  apart r hr := hapart.sublist (h r hr)
  same r hr r' hr' _ hrow _ hrow' :=
    eq_of_compareRows_eq hapart ((h r hr).subset hrow) ((h r' hr').subset hrow')

/-- Among rows that are strictly increasing, a row ties with itself alone. -/
theorem countTied_eq_one {o : SortOrder} {items : List α} {row : α}
    (h : items.Pairwise fun a b => o.compareRows a b = .lt) (hrow : row ∈ items) :
    countTied o items (o.valuesOf row) = 1 := by
  obtain ⟨front, rest, rfl⟩ := List.append_of_mem hrow
  obtain ⟨-, hrest, hfront⟩ := List.pairwise_append.mp h
  have hnone : ∀ other ∈ front ++ rest, ¬tiedValues (o.valuesOf other) (o.valuesOf row) = true := by
    intro other hother htied
    rw [← SortOrder.compareRows_eq_iff] at htied
    rcases List.mem_append.mp hother with hother | hother
    · rw [hfront other hother row List.mem_cons_self] at htied
      exact nomatch htied
    · have hlt := (List.pairwise_cons.mp hrest).1 other hother
      rw [OrientedCmp.eq_symm htied] at hlt
      exact nomatch hlt
  have hzero := List.countP_eq_zero.mpr hnone
  rw [List.countP_append] at hzero
  have hself : tiedValues (o.valuesOf row) (o.valuesOf row) = true := tiedValues_refl _
  simp only [countTied, List.countP_append, List.countP_cons, hself, if_true]
  omega

/-! ## Edges -/

/-- The cursor that goes on after a row that ties with no other. -/
def plainMark (o : SortOrder) (row : α) : Cursor :=
  ⟨0, false, some (Position.ofValues (o.valuesOf row))⟩

/-- The token that goes on after an edge; without one, it begins. -/
def plainToken (o : SortOrder) (edge : Option α) : Option String :=
  edge.map fun row => Token.encode (plainMark o row)

/-- The rows that are read after an edge: those that do not come before it, less the first. -/
def beyond (o : SortOrder) (rows : List α) : Option α → List α
  | none => Rows.sorted o rows
  | some edge => ((Rows.sorted o rows).filter fun row => o.compareRows row edge != .lt).drop 1

/-- A read after an edge overlooks a row if the edge is gone and the row comes next after it. -/
structure Overlooks (o : SortOrder) (rows : List α) (edge row : α) : Prop where
  gone : edge ∉ rows
  after : o.compareRows edge row = .lt
  first : ∀ other ∈ rows, o.compareRows edge other = .lt → o.compareRows row other ≠ .gt

section

variable {o : SortOrder} {rows : List α}

theorem beyond_pairwise (hapart : rows.Pairwise fun a b => o.compareRows a b ≠ .eq)
    (edge : Option α) : (beyond o rows edge).Pairwise fun a b => o.compareRows a b = .lt := by
  cases edge with
  | none => exact Rows.sorted_pairwise hapart
  | some edge => exact ((Rows.sorted_pairwise hapart).filter _).sublist (List.drop_sublist 1 _)

theorem length_beyond_le (o : SortOrder) (rows : List α) (edge : Option α) :
    (beyond o rows edge).length ≤ rows.length := by
  rw [← Rows.length_sorted o rows]
  cases edge with
  | none => exact Nat.le_refl _
  | some edge =>
    exact ((List.drop_sublist 1 _).trans List.filter_sublist).length_le

/-- After an edge, the rows are read that come after some row which does not come before the
    edge. -/
theorem mem_beyond_some (hapart : rows.Pairwise fun a b => o.compareRows a b ≠ .eq)
    {edge row : α} :
    row ∈ beyond o rows (some edge) ↔ row ∈ rows ∧
      ∃ other ∈ rows, o.compareRows other edge ≠ .lt ∧ o.compareRows other row = .lt := by
  let notBefore := (Rows.sorted o rows).filter fun row => o.compareRows row edge != .lt
  have hmem : ∀ other, other ∈ notBefore ↔ other ∈ rows ∧ o.compareRows other edge ≠ .lt := by
    intro other
    rw [List.mem_filter, Rows.mem_sorted, bne_iff_ne]
  have hpairwise : notBefore.Pairwise fun a b => o.compareRows a b = .lt :=
    (Rows.sorted_pairwise hapart).filter _
  show row ∈ notBefore.drop 1 ↔ _
  cases hkept : notBefore with
  | nil =>
    rw [hkept] at hmem
    refine iff_of_false (fun h => nomatch h) ?_
    rintro ⟨-, other, hother, hge, -⟩
    exact nomatch (hmem other).mpr ⟨hother, hge⟩
  | cons head rest =>
    -- the first row is passed over, so it is the witness for those that are read
    rw [hkept] at hmem hpairwise
    obtain ⟨hhead, -⟩ := List.pairwise_cons.mp hpairwise
    show row ∈ rest ↔ _
    constructor
    · intro hrow
      obtain ⟨hstored, hge⟩ := (hmem head).mp List.mem_cons_self
      exact ⟨((hmem row).mp (List.mem_cons_of_mem _ hrow)).1, head, hstored, hge, hhead row hrow⟩
    · rintro ⟨hrow, other, hother, hge, hlt⟩
      have hrow' : row ∈ head :: rest := by
        refine (hmem row).mpr ⟨hrow, fun hbefore => hge ?_⟩
        exact TransCmp.lt_trans hlt hbefore
      rcases List.mem_cons.mp hrow' with rfl | hrest
      · -- nothing that does not come before the edge comes before the first such row
        rcases List.mem_cons.mp ((hmem other).mpr ⟨hother, hge⟩) with rfl | hlater
        · rw [SortOrder.compareRows_self] at hlt
          exact nomatch hlt
        · rw [OrientedCmp.gt_of_lt (hhead other hlater)] at hlt
          exact nomatch hlt
      · exact hrest

/-- Every row that is read after an edge comes after it. -/
theorem lt_of_mem_beyond (hapart : rows.Pairwise fun a b => o.compareRows a b ≠ .eq)
    {edge : Option α} {row : α} (h : row ∈ beyond o rows edge) :
    row ∈ rows ∧ ∀ e ∈ edge, o.compareRows e row = .lt := by
  cases edge with
  | none => exact ⟨Rows.mem_sorted.mp h, fun e he => nomatch he⟩
  | some edge =>
    obtain ⟨hrow, other, -, hge, hlt⟩ := (mem_beyond_some hapart).mp h
    refine ⟨hrow, fun e he => ?_⟩
    obtain rfl := Option.some.inj he
    have hle := OrientedCmp.isGE_iff_isLE.mp (Ordering.isGE_iff_ne_lt.mpr hge)
    exact TransCmp.lt_of_isLE_of_lt hle hlt

/-- A row that comes after an edge is read unless it is overlooked. -/
theorem mem_beyond_iff (hapart : rows.Pairwise fun a b => o.compareRows a b ≠ .eq)
    {edge : Option α} {row : α}
    (hsame : ∀ e ∈ edge, ∀ other ∈ rows, o.compareRows e other = .eq → e = other)
    (hrow : row ∈ rows) (hafter : ∀ e ∈ edge, o.compareRows e row = .lt) :
    row ∈ beyond o rows edge ↔ ¬∃ e ∈ edge, Overlooks o rows e row := by
  cases edge with
  | none => exact iff_of_true (Rows.mem_sorted.mpr hrow) fun ⟨e, he, _⟩ => nomatch he
  | some edge =>
    rw [mem_beyond_some hapart]
    constructor
    · rintro ⟨-, other, hother, hge, hlt⟩ ⟨e, he, hover⟩
      obtain rfl := Option.some.inj he
      cases hc : o.compareRows edge other with
      | lt => exact hover.first other hother hc (OrientedCmp.gt_of_lt hlt)
      | eq =>
        rw [hsame edge rfl other hother hc] at hover
        exact hover.gone hother
      | gt => exact hge (OrientedCmp.lt_of_gt hc)
    · intro hnot
      refine ⟨hrow, ?_⟩
      by_cases hmem : edge ∈ rows
      · refine ⟨edge, hmem, ?_, hafter edge rfl⟩
        rw [SortOrder.compareRows_self]
        exact nofun
      · -- the edge is gone, so it is another row that comes between the two
        refine Classical.byContradiction fun hnone => hnot ⟨edge, rfl, hmem, hafter edge rfl, ?_⟩
        intro other hother hlt hgt
        refine hnone ⟨other, hother, ?_, OrientedCmp.lt_of_gt hgt⟩
        rw [OrientedCmp.gt_of_lt hlt]
        exact nofun

end

/-! ## Pages after an edge -/

/-- What the page after an edge holds: the first of the rows that are read there, and the token of
    the last of them, if others follow. -/
structure PageAfter (o : SortOrder) (rows : List α) (edge : Option α) (size : PageSize)
    (page : Page α) : Prop where
  items : page.items = (beyond o rows edge).take size.count.toNat
  link : page.link false = (nextPoint size.count.toNat (beyond o rows edge)).map fun row =>
    Token.encode (plainMark o row)

/-- The query after an edge reads the rows beyond it. -/
theorem queryAt_plainMark {o : SortOrder} {edge : Option α}
    (hfits : ∀ e ∈ edge, (Token.encode (plainMark o e)).utf8ByteSize ≤ Token.maxLength)
    (rows : List α) (size : PageSize) :
    ∃ q rest, queryAt o size (edge.map (plainMark o)) = .ok q ∧ q.limit = lookahead size ∧
      Begins o rows false edge rest q ∧ rest.map Prod.fst = beyond o rows edge := by
  cases edge with
  | none => exact ⟨_, _, rfl, rfl, begins_of_no_boundary o rows false _, rfl⟩
  | some edge =>
    have hposition : (plainMark o edge).position = some (Position.ofValues (o.valuesOf edge)) := rfl
    obtain ⟨values, hvalues, htied⟩ := values_of_fits hposition (hfits edge rfl)
    obtain ⟨q, hquery, hlimit, hbegins⟩ := queryAt_position hvalues htied rows 0 false size
    refine ⟨q, _, hquery, hlimit, hbegins, ?_⟩
    rw [List.map_drop, beyond, Rows.sorted, List.filter_map]
    rfl

/-- The token after an edge reads as the cursor there. -/
theorem decode_plainToken {o : SortOrder} {edge : Option α}
    (hfits : ∀ e ∈ edge, (Token.encode (plainMark o e)).utf8ByteSize ≤ Token.maxLength)
    (cutoff : Option UInt64) :
    Token.decode cutoff (plainToken o edge) = .ok (edge.map (plainMark o)) := by
  cases edge with
  | none => rfl
  | some edge =>
    have hstart : plainMark o edge ≠ .start := fun h => nomatch congrArg Cursor.position h
    show Token.decode cutoff (some (Token.encode (plainMark o edge))) = _
    rw [Token.decode_encode hstart (hfits edge rfl)]
    -- no cutoff changes an offset of zero
    have hheld : heldAt cutoff (plainMark o edge).offset = 0 :=
      heldAt_of_le fun _ _ => Nat.zero_le _
    rw [hheld]
    rfl

/-- A row that is read after an edge does not tie with it, so nothing is carried over to its
    token. -/
theorem carried_beyond {o : SortOrder} {rows : List α} {edge : Option α} {rest : List (α × Nat)}
    {q : Query} {row : α} (hbegins : Begins o rows false edge rest q)
    (hafter : ∀ e ∈ edge, o.compareRows e row = .lt) (size : PageSize) (whole : Bool) :
    carried ⟨edge.map (plainMark o), size, q⟩ whole (o.valuesOf row) false = none := by
  cases edge with
  | none => exact carried_of_no_boundary hbegins.boundary _ _ _
  | some edge =>
    refine (Begins.carried_eq hbegins (plainMark o edge) size whole row false).trans (if_neg ?_)
    rintro ⟨-, -, htied⟩
    have heq := SortOrder.compareRows_eq_iff.mpr htied
    rw [hafter edge rfl] at heq
    exact nomatch heq

/-- If a row ties with no other and nothing is carried over, its cursor carries just its values. -/
theorem edgeCursor_plain {o : SortOrder} {plan : Plan} {items : List α} {row : α}
    (hcarried : ∀ whole, carried plan whole (o.valuesOf row) false = none)
    (hcount : countTied o items (o.valuesOf row) = 1) :
    edgeCursor o plan items row false = plainMark o row := by
  unfold edgeCursor plainMark
  simp only [hcarried, hcount]
  rfl

/-- The token after an edge gives the page after it. -/
theorem pageOfSize_plainToken {p : Pager} {s : Snapshot α} {edge : Option α}
    (hapart : s.rows.Pairwise fun a b => p.order.compareRows a b ≠ .eq)
    (hfits : ∀ e ∈ edge, (Token.encode (plainMark p.order e)).utf8ByteSize ≤ Token.maxLength)
    (size : PageSize) :
    ∃ page, p.pageOfSize s.read (plainToken p.order edge) size.count = .ok page ∧
      PageAfter p.order s.rows edge size page := by
  obtain ⟨q, rest, hquery, hlimit, hbegins, hrest⟩ := queryAt_plainMark hfits s.rows size
  let plan : Plan := ⟨edge.map (plainMark p.order), size, q⟩
  let page := assemble p.order plan ((beyond p.order s.rows edge).take (lookahead size).toNat)
  have hpage : p.pageOfSize s.read (plainToken p.order edge) size.count = .ok page := by
    rw [pageOfSize_of_begins (decode_plainToken hfits p.cutoff) hquery hbegins, hlimit,
      List.map_take, hrest]
  have hreverse : plan.reverse = false := by
    cases edge <;> rfl
  have hitems : page.items = (beyond p.order s.rows edge).take size.count.toNat := by
    rw [items_assemble, hreverse]
    exact take_lookahead size _
  have hlen := Nat.le_trans (length_beyond_le p.order s.rows edge) s.length_le
  refine ⟨page, hpage, hitems, ?_⟩
  have hlink := link_assemble_take p.order plan hlen
  rw [hreverse] at hlink
  refine hlink.trans (Option.map_congr fun row hrow => congrArg Token.encode ?_)
  obtain ⟨-, stretch, hstretch⟩ := nextPoint_eq_some_iff.mp hrow
  have hmem : row ∈ (beyond p.order s.rows edge).take size.count.toNat := by
    rw [hstretch]
    exact List.mem_append_right _ List.mem_cons_self
  have hcount : countTied p.order page.items (p.order.valuesOf row) = 1 := by
    rw [hitems]
    exact countTied_eq_one ((beyond_pairwise hapart edge).sublist (List.take_sublist _ _)) hmem
  have hafter := (lt_of_mem_beyond hapart (List.mem_of_mem_take hmem)).2
  exact edgeCursor_plain (carried_beyond hbegins hafter size) hcount

/-! ## Walks -/

/-- The token that a walk toward the end is left with after some pages. -/
def tokenAfter {β : Type} : Option String → List (Page β) → Option String
  | token, [] => token
  | _, page :: pages => tokenAfter (page.link false) pages

/-- The failures of a walk whose last token was refused, for it is too long. -/
def failures {β : Type} (refused : Option String) : List (Except Failure (Page β)) :=
  refused.toList.map fun token =>
    .error (.token (.tooLong token.utf8ByteSize Token.maxLength))

/-- Whether the rows that a walk reads for the page after its page `k` leave out a row. -/
def Skips (o : SortOrder) (requests : List (Request α)) (pages : List (Page α)) (k : Nat)
    (row : α) : Prop :=
  k + 1 < pages.length ∧ ∃ page r edge, pages[k]? = some page ∧ requests[k + 1]? = some r ∧
    page.items.getLast? = some edge ∧ Overlooks o r.store.rows edge row

/-- Whether a row is in the collection at every request that was answered with a page. -/
def Stays (requests : List (Request α)) (pages : List (Page α)) (row : α) : Prop :=
  ∀ (k : Nat) (r : Request α), k < pages.length → requests[k]? = some r → row ∈ r.store.rows

/-- What the pages of a walk are while the collection changes: rows that were there, in strictly
    increasing order; and if the walk has come to its end, of the rows that stayed just those that
    no request overlooked. -/
structure Collects (o : SortOrder) (requests : List (Request α)) (pages : List (Page α)) :
    Prop where
  stored : ∀ (k : Nat) (page : Page α) (r : Request α), pages[k]? = some page →
    requests[k]? = some r → ∀ row ∈ page.items, row ∈ r.store.rows
  increasing : (pages.flatMap Page.items).Pairwise fun a b => o.compareRows a b = .lt
  exact : (∃ last ∈ pages.getLast?, last.link false = none) → ∀ row, Stays requests pages row →
    (row ∈ pages.flatMap Page.items ↔ ¬∃ k, Skips o requests pages k row)

/-- Whether the first request of a walk that goes on after an edge overlooks a row. -/
def OverlooksFirst (o : SortOrder) (requests : List (Request α)) (edge : Option α) (row : α) :
    Prop :=
  ∃ e ∈ edge, ∃ r, requests[0]? = some r ∧ Overlooks o r.store.rows e row

/-- What the pages of a walk are that goes on after an edge. -/
structure CollectsAfter (o : SortOrder) (requests : List (Request α)) (edge : Option α)
    (pages : List (Page α)) : Prop where
  stored : ∀ (k : Nat) (page : Page α) (r : Request α), pages[k]? = some page →
    requests[k]? = some r → ∀ row ∈ page.items, row ∈ r.store.rows
  increasing : (pages.flatMap Page.items).Pairwise fun a b => o.compareRows a b = .lt
  after : ∀ e ∈ edge, ∀ row ∈ pages.flatMap Page.items, o.compareRows e row = .lt
  exact : (∃ last ∈ pages.getLast?, last.link false = none) → ∀ row, Stays requests pages row →
    (∀ e ∈ edge, o.compareRows e row = .lt) →
    (row ∈ pages.flatMap Page.items ↔
      ¬OverlooksFirst o requests edge row ∧ ¬∃ k, Skips o requests pages k row)

section

variable {o : SortOrder} {r : Request α} {rest : List (Request α)} {edge : Option α}
  {page : Page α} {pages : List (Page α)} {m row : α}

theorem overlooksFirst_cons :
    OverlooksFirst o (r :: rest) edge row ↔ ∃ e ∈ edge, Overlooks o r.store.rows e row := by
  constructor
  · rintro ⟨e, he, r', hr', hover⟩
    obtain rfl := Option.some.inj hr'
    exact ⟨e, he, hover⟩
  · rintro ⟨e, he, hover⟩
    exact ⟨e, he, r, rfl, hover⟩

/-- A walk without pages has not come to its end, and has collected nothing. -/
theorem collectsAfter_nil (requests : List (Request α)) :
    CollectsAfter o requests edge ([] : List (Page α)) := by
  refine ⟨?_, .nil, ?_, ?_⟩
  · intro k page r hpage
    exact nomatch hpage
  · intro e _ row hrow
    exact nomatch hrow
  · rintro ⟨last, hlast, -⟩
    exact nomatch hlast

/-- A walk that ends at its first page has read all rows beyond the edge. -/
theorem collectsAfter_last
    (hapart : r.store.rows.Pairwise fun a b => o.compareRows a b ≠ .eq)
    (hsame : ∀ e ∈ edge, ∀ other ∈ r.store.rows, o.compareRows e other = .eq → e = other)
    (hat : PageAfter o r.store.rows edge r.size page)
    (hnext : nextPoint r.size.count.toNat (beyond o r.store.rows edge) = none)
    (rest : List (Request α)) : CollectsAfter o (r :: rest) edge [page] := by
  have hitems : page.items = beyond o r.store.rows edge := by
    rw [hat.items]
    exact List.take_of_length_le ((nextPoint_eq_none_iff (size_pos r.size)).mp hnext)
  have hflat : [page].flatMap Page.items = beyond o r.store.rows edge := by
    rw [List.flatMap_singleton, hitems]
  constructor
  · intro k page' r' hpage' hr' row hrow
    cases k with
    | zero =>
      obtain rfl := Option.some.inj hpage'
      obtain rfl := Option.some.inj hr'
      rw [hitems] at hrow
      exact (lt_of_mem_beyond hapart hrow).1
    | succ k => exact nomatch hpage'
  · rw [hflat]
    exact beyond_pairwise hapart edge
  · intro e he row hrow
    rw [hflat] at hrow
    exact (lt_of_mem_beyond hapart hrow).2 e he
  · intro _ row hstays hafter
    have hrow : row ∈ r.store.rows := hstays 0 r Nat.one_pos rfl
    have hnoskip : ¬∃ k, Skips o (r :: rest) [page] k row := by
      rintro ⟨k, hk, -⟩
      exact Nat.not_lt_zero k (Nat.lt_of_succ_lt_succ hk)
    rw [hflat, mem_beyond_iff hapart hsame hrow hafter, overlooksFirst_cons]
    exact (and_iff_left hnoskip).symm

theorem items_of_nextPoint (hat : PageAfter o r.store.rows edge r.size page)
    (hnext : nextPoint r.size.count.toNat (beyond o r.store.rows edge) = some m) :
    page.items.getLast? = some m ∧ beyond o r.store.rows edge
      = page.items ++ (beyond o r.store.rows edge).drop r.size.count.toNat := by
  obtain ⟨-, stretch, hstretch⟩ := nextPoint_eq_some_iff.mp hnext
  rw [hat.items]
  refine ⟨?_, (List.take_append_drop _ _).symm⟩
  rw [hstretch]
  exact List.getLast?_concat

/-- A page that leads to an edge holds the rows read up to that edge. -/
theorem mem_items_iff (hapart : r.store.rows.Pairwise fun a b => o.compareRows a b ≠ .eq)
    (hat : PageAfter o r.store.rows edge r.size page)
    (hnext : nextPoint r.size.count.toNat (beyond o r.store.rows edge) = some m) :
    row ∈ page.items ↔ row ∈ beyond o r.store.rows edge ∧ o.compareRows m row ≠ .lt := by
  obtain ⟨hlast, hbeyond⟩ := items_of_nextPoint hat hnext
  obtain ⟨stretch, hstretch⟩ := List.getLast?_eq_some_iff.mp hlast
  have hpairwise := beyond_pairwise hapart edge
  rw [hbeyond] at hpairwise ⊢
  obtain ⟨hread, -, hbefore⟩ := List.pairwise_append.mp hpairwise
  constructor
  · intro hrow
    refine ⟨List.mem_append_left _ hrow, ?_⟩
    rw [hstretch] at hread hrow
    rcases List.mem_append.mp hrow with hrow | hrow
    · have hlt := (List.pairwise_append.mp hread).2.2 row hrow m List.mem_cons_self
      rw [OrientedCmp.gt_of_lt hlt]
      exact nofun
    · rw [List.mem_singleton.mp hrow, SortOrder.compareRows_self]
      exact nofun
  · rintro ⟨hrow, hge⟩
    refine (List.mem_append.mp hrow).resolve_right fun hmore => hge ?_
    exact hbefore m (List.mem_of_getLast? hlast) row hmore

/-- Later pages overlook only rows after the edge that the first page leads to. -/
theorem lt_of_skips {k : Nat} (hlast : page.items.getLast? = some m)
    (hlater : ∀ v ∈ pages.flatMap Page.items, o.compareRows m v = .lt)
    (h : Skips o (r :: rest) (page :: pages) k row) : o.compareRows m row = .lt := by
  obtain ⟨-, page', r', edge, hpage', -, hedge, hover⟩ := h
  cases k with
  | zero =>
    obtain rfl := Option.some.inj hpage'
    obtain rfl := Option.some.inj (hlast.symm.trans hedge)
    exact hover.after
  | succ k =>
    have hmem : edge ∈ pages.flatMap Page.items :=
      List.mem_flatMap.mpr ⟨page', List.mem_of_getElem? hpage', List.mem_of_getLast? hedge⟩
    exact TransCmp.lt_trans (hlater edge hmem) hover.after

/-- After its first page a walk overlooks a row at the next request, or later on. -/
theorem exists_skips_cons (hlast : page.items.getLast? = some m) (hpages : 0 < pages.length) :
    (∃ k, Skips o (r :: rest) (page :: pages) k row)
      ↔ OverlooksFirst o rest (some m) row ∨ ∃ k, Skips o rest pages k row := by
  constructor
  · rintro ⟨k, hk, page', r', edge, hpage', hr', hedge, hover⟩
    cases k with
    | zero =>
      obtain rfl := Option.some.inj hpage'
      exact .inl ⟨edge, hlast.symm.trans hedge, r', hr', hover⟩
    | succ k =>
      exact .inr ⟨k, Nat.lt_of_succ_lt_succ hk, page', r', edge, hpage', hr', hedge, hover⟩
  · rintro (⟨e, he, r', hr', hover⟩ | ⟨k, hk, hskip⟩)
    · exact ⟨0, Nat.succ_lt_succ hpages, page, r', e, rfl, hr', hlast.trans he, hover⟩
    · exact ⟨k + 1, Nat.succ_lt_succ hk, hskip⟩

/-- A walk reads the first of the rows beyond the edge, and then goes on from the last of them. -/
theorem collectsAfter_cons
    (hapart : r.store.rows.Pairwise fun a b => o.compareRows a b ≠ .eq)
    (hsame : ∀ e ∈ edge, ∀ other ∈ r.store.rows, o.compareRows e other = .eq → e = other)
    (hat : PageAfter o r.store.rows edge r.size page)
    (hnext : nextPoint r.size.count.toNat (beyond o r.store.rows edge) = some m)
    (h : CollectsAfter o rest (some m) pages) :
    CollectsAfter o (r :: rest) edge (page :: pages) := by
  have hlast := (items_of_nextPoint hat hnext).1
  have hitems : ∀ {row}, row ∈ page.items ↔ row ∈ beyond o r.store.rows edge ∧
      o.compareRows m row ≠ .lt := mem_items_iff hapart hat hnext
  have hm := lt_of_mem_beyond hapart (hitems.mp (List.mem_of_getLast? hlast)).1
  have hlater := h.after m rfl
  constructor
  · intro k page' r' hpage' hr' row hrow
    cases k with
    | zero =>
      obtain rfl := Option.some.inj hpage'
      obtain rfl := Option.some.inj hr'
      exact (lt_of_mem_beyond hapart (hitems.mp hrow).1).1
    | succ k => exact h.stored k page' r' hpage' hr' row hrow
  · rw [List.flatMap_cons]
    refine List.pairwise_append.mpr ⟨?_, h.increasing, ?_⟩
    · rw [hat.items]
      exact (beyond_pairwise hapart edge).sublist (List.take_sublist _ _)
    · intro v hv w hw
      have hvm := OrientedCmp.isGE_iff_isLE.mp (Ordering.isGE_iff_ne_lt.mpr (hitems.mp hv).2)
      exact TransCmp.lt_of_isLE_of_lt hvm (hlater w hw)
  · intro e he row hrow
    rw [List.flatMap_cons] at hrow
    rcases List.mem_append.mp hrow with hrow | hrow
    · exact (lt_of_mem_beyond hapart (hitems.mp hrow).1).2 e he
    · exact TransCmp.lt_trans (hm.2 e he) (hlater row hrow)
  · intro hend row hstays hafter
    have hlink : page.link false = some (Token.encode (plainMark o m)) := by
      rw [hat.link, hnext]
      rfl
    have hmore := exists_end_of_cons hlink hend
    have hpages : 0 < pages.length := by
      obtain ⟨last, hlast, -⟩ := id hmore
      exact List.length_pos_of_mem (List.mem_of_getLast? hlast)
    have hrow : row ∈ r.store.rows := hstays 0 r (Nat.succ_pos _) rfl
    rw [List.flatMap_cons, List.mem_append, hitems, overlooksFirst_cons,
      mem_beyond_iff hapart hsame hrow hafter]
    -- a row up to the next edge is on this page or on none, a later one is not on this page
    by_cases hmrow : o.compareRows m row = .lt
    · have hseen : ¬∃ e ∈ edge, Overlooks o r.store.rows e row := by
        rintro ⟨e, he, hover⟩
        exact hover.first m hm.1 (hm.2 e he) (OrientedCmp.gt_of_lt hmrow)
      have hstays' : Stays rest pages row :=
        fun k r' hk hr' => hstays (k + 1) r' (Nat.succ_lt_succ hk) hr'
      have hafter' : ∀ e ∈ some m, o.compareRows e row = .lt := Rows.forall_mem_some hmrow
      rw [or_iff_right fun hboth => hboth.2 hmrow, and_iff_right hseen,
        exists_skips_cons hlast hpages, not_or]
      exact h.exact hmore row hstays' hafter'
    · have hnot : row ∉ pages.flatMap Page.items := fun hmem => hmrow (hlater row hmem)
      have hnoskip : ¬∃ k, Skips o (r :: rest) (page :: pages) k row :=
        fun ⟨k, hk⟩ => hmrow (lt_of_skips hlast hlater hk)
      rw [or_iff_left hnot, and_iff_left hnoskip, and_iff_left hmrow]

end

/-- A walk that goes on after an edge while the collection changes fails only at a token that is too
    long, and has collected the rows after the edge. -/
theorem walk_unique_from {p : Pager} {requests : List (Request α)} {edge : Option α}
    (hunique : UniqueKeys p.order requests)
    (hedge : ∀ e ∈ edge, ∀ r ∈ requests, ∀ other ∈ r.store.rows,
      p.order.compareRows e other = .eq → e = other) :
    ∃ (pages : List (Page α)) (refused : Option String),
      walk p false (plainToken p.order edge) requests = pages.map .ok ++ failures refused ∧
      (∀ token ∈ refused, token ∈ tokenAfter (plainToken p.order edge) pages ∧
        Token.maxLength < token.utf8ByteSize) ∧
      CollectsAfter p.order requests edge pages := by
  induction requests generalizing edge with
  | nil =>
    refine ⟨[], none, rfl, ?_, collectsAfter_nil []⟩
    intro token htoken
    exact nomatch htoken
  | cons r rest ih =>
    have hapart := hunique.apart r List.mem_cons_self
    have hsame : ∀ e ∈ edge, ∀ other ∈ r.store.rows,
        p.order.compareRows e other = .eq → e = other :=
      fun e he => hedge e he r List.mem_cons_self
    -- the token of the edge is read, or refused
    by_cases hfits : ∀ e ∈ edge, (Token.encode (plainMark p.order e)).utf8ByteSize ≤ Token.maxLength
    · obtain ⟨page, hpage, hat⟩ := pageOfSize_plainToken hapart hfits r.size
      cases hnext : nextPoint r.size.count.toNat (beyond p.order r.store.rows edge) with
      | none =>
        have hlink : page.link false = none := by
          rw [hat.link, hnext]
          rfl
        refine ⟨[page], none, ?_, ?_, collectsAfter_last hapart hsame hat hnext rest⟩
        · rw [walk_of_link_none hpage hlink]
          rfl
        · intro token htoken
          exact nomatch htoken
      | some m =>
        have hlink : page.link false = some (Token.encode (plainMark p.order m)) := by
          rw [hat.link, hnext]
          rfl
        have hm : m ∈ r.store.rows := by
          have hread := List.mem_of_getLast? (items_of_nextPoint hat hnext).1
          exact (lt_of_mem_beyond hapart ((mem_items_iff hapart hat hnext).mp hread).1).1
        have hedge' : ∀ e ∈ some m, ∀ r' ∈ rest, ∀ other ∈ r'.store.rows,
            p.order.compareRows e other = .eq → e = other := by
          intro e he r' hr' other hother
          obtain rfl := Option.some.inj he
          exact hunique.same r List.mem_cons_self r' (List.mem_cons_of_mem _ hr') m hm other hother
        obtain ⟨pages, refused, hwalk, hrefused, hcollects⟩ := ih hunique.tail hedge'
        refine ⟨page :: pages, refused, ?_, ?_, collectsAfter_cons hapart hsame hat hnext hcollects⟩
        · rw [walk_of_link_some hpage hlink]
          exact congrArg (.ok page :: ·) hwalk
        · rw [tokenAfter, hlink]
          exact hrefused
    · obtain ⟨e, rfl⟩ : ∃ e, edge = some e := by
        cases edge with
        | none => exact absurd (fun e he => nomatch he) hfits
        | some e => exact ⟨e, rfl⟩
      have hlong : Token.maxLength < (Token.encode (plainMark p.order e)).utf8ByteSize := by
        refine Nat.lt_of_not_le fun hle => hfits ?_
        intro e' he'
        obtain rfl := Option.some.inj he'
        exact hle
      refine ⟨[], some (Token.encode (plainMark p.order e)), ?_, ?_, collectsAfter_nil _⟩
      · have hfail := pageOfSize_tooLong (p := p) hlong r.store r.size
        rw [plainToken, Option.map_some, walk, hfail]
        rfl
      · intro token htoken
        obtain rfl := Option.some.inj htoken
        exact ⟨rfl, hlong⟩

/-- A walk toward the end while rows are added and removed, no two of which ever tie, fails only at
    a token that is too long; it returns rows in strictly increasing order; and if it comes to its
    end, it has returned a row that stayed all the time exactly if no request overlooked the row. -/
theorem walk_unique (p : Pager) (requests : List (Request α))
    (hunique : UniqueKeys p.order requests) :
    ∃ (pages : List (Page α)) (refused : Option String),
      walk p false (firstToken false) requests = pages.map .ok ++ failures refused ∧
      (∀ token ∈ refused, token ∈ tokenAfter (firstToken false) pages ∧
        Token.maxLength < token.utf8ByteSize) ∧
      Collects p.order requests pages := by
  have hedge : ∀ e ∈ (none : Option α), ∀ r ∈ requests, ∀ other ∈ r.store.rows,
      p.order.compareRows e other = .eq → e = other := fun e he => nomatch he
  obtain ⟨pages, refused, hwalk, hrefused, h⟩ := walk_unique_from hunique hedge
  refine ⟨pages, refused, hwalk, hrefused, h.stored, h.increasing, ?_⟩
  intro hend row hstays
  rw [h.exact hend row hstays fun e he => nomatch he]
  refine and_iff_right ?_
  -- a walk that begins has no edge yet
  rintro ⟨e, he, -⟩
  exact nomatch he

/-- A document with a number. -/
def numbered (n : Int32) : Document := [("k", .int32 n)]

/-- Four documents of different numbers. -/
def fourDocuments : Snapshot Document := ⟨[1, 2, 3, 4].map numbered, by decide⟩

/-- The four documents without the second one. -/
def threeDocuments : Snapshot Document := ⟨[1, 3, 4].map numbered, by decide⟩

/-- Two requests, between which the second of four documents is removed. -/
def removal : List (Request Document) := [⟨fourDocuments, pairs⟩, ⟨threeDocuments, pairs⟩]

theorem uniqueKeys_removal : UniqueKeys sampleOrder removal := by
  have hapart : fourDocuments.rows.Pairwise fun a b => sampleOrder.compareRows a b ≠ .eq := by
    decide
  refine uniqueKeys_of_sublist hapart fun r hr => ?_
  simp only [removal, List.mem_cons, List.not_mem_nil, or_false] at hr
  rcases hr with rfl | rfl
  · exact List.Sublist.refl _
  · have hsublist : [(1 : Int32), 3, 4].Sublist [1, 2, 3, 4] := by decide
    exact hsublist.map numbered

/-- Four documents in pages of two; the last one of the first page is removed before the second. -/
theorem walk_unique_sample :
    ∃ (pages : List (Page Document)) (refused : Option String),
      walk samplePager false (firstToken false) removal
        = pages.map .ok ++ failures refused ∧
      (∀ token ∈ refused, token ∈ tokenAfter (firstToken false) pages ∧
        Token.maxLength < token.utf8ByteSize) ∧
      Collects sampleOrder removal pages :=
  walk_unique samplePager removal uniqueKeys_removal

/-- A walk of two pages, between which the collection changes. -/
theorem walk_two {p : Pager} {r r' : Request α} {edge : α} (hunique : UniqueKeys p.order [r, r'])
    (hfits : (Token.encode (plainMark p.order edge)).utf8ByteSize ≤ Token.maxLength)
    (hnext : nextPoint r.size.count.toNat (Rows.sorted p.order r.store.rows) = some edge)
    (hlast : nextPoint r'.size.count.toNat (beyond p.order r'.store.rows (some edge)) = none) :
    ∃ first second : Page α, walk p false (firstToken false) [r, r'] = [.ok first, .ok second] ∧
      second.link false = none ∧
      first.items = (Rows.sorted p.order r.store.rows).take r.size.count.toNat ∧
      second.items = (beyond p.order r'.store.rows (some edge)).take r'.size.count.toNat := by
  have hnone : ∀ e ∈ (none : Option α),
      (Token.encode (plainMark p.order e)).utf8ByteSize ≤ Token.maxLength := fun e he => nomatch he
  have hsome : ∀ e ∈ some edge,
      (Token.encode (plainMark p.order e)).utf8ByteSize ≤ Token.maxLength := by
    intro e he
    obtain rfl := Option.some.inj he
    exact hfits
  obtain ⟨first, hfirst, hat⟩ :=
    pageOfSize_plainToken (hunique.apart r List.mem_cons_self) hnone r.size
  obtain ⟨second, hsecond, hat'⟩ :=
    pageOfSize_plainToken (hunique.tail.apart r' List.mem_cons_self) hsome r'.size
  have hlink : first.link false = plainToken p.order (some edge) := by
    rw [hat.link, beyond, hnext]
    rfl
  have hlink' : second.link false = none := by
    rw [hat'.link, hlast]
    rfl
  refine ⟨first, second, ?_, hlink', hat.items, hat'.items⟩
  have hwalk : walk p false (plainToken p.order (some edge)) [r'] = [.ok second] :=
    walk_of_link_none hsecond hlink' []
  rw [← hwalk]
  exact walk_of_link_some hfirst hlink [r']

/-- In that walk the third document is overlooked: it stays all the time and is on neither page. -/
theorem walk_removal :
    UniqueKeys sampleOrder removal ∧
      ∃ pages : List (Page Document),
        walk samplePager false (firstToken false) removal = pages.map .ok ∧
        (∃ last ∈ pages.getLast?, last.link false = none) ∧
        Stays removal pages (numbered 3) ∧ numbered 3 ∉ pages.flatMap Page.items := by
  refine ⟨uniqueKeys_removal, ?_⟩
  have hfour : Rows.sorted sampleOrder fourDocuments.rows = fourDocuments.rows :=
    Rows.sorted_of_pairwise (by decide)
  have hthree : Rows.sorted sampleOrder threeDocuments.rows = threeDocuments.rows :=
    Rows.sorted_of_pairwise (by decide)
  have hbeyond : beyond sampleOrder threeDocuments.rows (some (numbered 2)) = [numbered 4] := by
    rw [beyond, hthree]
    rfl
  have hfits : (Token.encode (plainMark samplePager.order (numbered 2))).utf8ByteSize
      ≤ Token.maxLength := Token.utf8ByteSize_encode_le rfl (by decide)
  have hnext : nextPoint 2 (Rows.sorted sampleOrder fourDocuments.rows) = some (numbered 2) := by
    rw [hfour]
    rfl
  have hlast : nextPoint 2 (beyond sampleOrder threeDocuments.rows (some (numbered 2))) = none := by
    rw [hbeyond]
    rfl
  obtain ⟨first, second, hwalk, hend, hitems, hitems'⟩ :=
    walk_two (p := samplePager) uniqueKeys_removal hfits hnext hlast
  have hfirst : first.items = [numbered 1, numbered 2] := by
    rw [hitems]
    exact congrArg (List.take 2) hfour
  have hsecond : second.items = [numbered 4] := by
    rw [hitems']
    exact congrArg (List.take 2) hbeyond
  refine ⟨[first, second], hwalk, ⟨second, rfl, hend⟩, ?_, ?_⟩
  · intro k r _ hr
    have hmem : r ∈ removal := List.mem_of_getElem? hr
    simp only [removal, List.mem_cons, List.not_mem_nil, or_false] at hmem
    rcases hmem with rfl | rfl
    · simp [fourDocuments]
    · simp [threeDocuments]
  · simp [hfirst, hsecond, numbered]

end Keyset.Pager
