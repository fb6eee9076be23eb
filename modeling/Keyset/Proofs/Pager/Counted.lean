import Keyset.Proofs.Pager.Tally
import Keyset.Proofs.Pager.Traversal

/-! # Walks from a count

    A token without a position COUNTS the rows in front of its page.  The page
    holds the rows after those (`pageOfSize_countToken`), but the token to go on
    from its last row is a tally of the page alone: where the run of that row
    begins in front of the page, the rows of the run in front are not counted.

    So the walk falls back by that many rows after its first page, and only then:
    every later token carries over what was counted before it.  A walk from a
    count is exact just if no row in front of its first page ties with the last
    row of the page, or the page is the last one (`walk_counted`). -/

namespace Keyset.Pager

open Number

variable {α : Type} [HasFields α]

/-! ## The first page -/

/-- The token of the page in front of which lie some rows. -/
def countToken (k : UInt64) : String := Token.encode ⟨k, false, none⟩

/-- A count reads as a cursor without a position, or as none if there is nothing in front. -/
theorem decode_countToken (cutoff : Option UInt64) (k : UInt64) :
    Token.decode cutoff (some (countToken k))
      = .ok (if k = 0 then none else some ⟨heldAt cutoff k, false, none⟩) := by
  by_cases hzero : k = 0
  · rw [if_pos hzero, hzero]
    rfl
  · have hstart : (⟨k, false, none⟩ : Cursor) ≠ .start := fun h => hzero (congrArg Cursor.offset h)
    rw [if_neg hzero, countToken,
      Token.decode_encode hstart (Token.utf8ByteSize_encode_le_of_none rfl)]

/-- Without a cutoff the page of a count holds the rows after those counted, and its token for the
    way on is the tally of its last row. -/
theorem pageOfSize_countToken {p : Pager} (s : Snapshot α) (hcutoff : p.cutoff = none) (k : UInt64)
    (size : PageSize) :
    ∃ page, p.pageOfSize s.read (some (countToken k)) size.count = .ok page ∧
      page.items = (((Rows.inOrder p.order s.rows).drop k.toNat).take size.count.toNat).map
        Prod.fst ∧
      page.link false
        = (nextPoint size.count.toNat ((Rows.inOrder p.order s.rows).drop k.toNat)).map
          fun m => Token.encode (tally p.order false
            ((((Rows.inOrder p.order s.rows).drop k.toNat).take size.count.toNat).countP
              fun r => Rows.tied p.order r m) m.1) := by
  obtain ⟨cursor, hdecode, hquery, hreverse⟩ : ∃ cursor : Option Cursor,
      Token.decode p.cutoff (some (countToken k)) = .ok cursor ∧
      queryAt p.order size cursor = .ok ⟨p.order.toward false, none, k, lookahead size⟩ ∧
      Plan.reverse ⟨cursor, size, ⟨p.order.toward false, none, k, lookahead size⟩⟩ = false := by
    rw [decode_countToken, hcutoff]
    by_cases hzero : k = 0
    · rw [hzero]
      exact ⟨_, rfl, rfl, rfl⟩
    · rw [if_neg hzero]
      exact ⟨_, rfl, rfl, rfl⟩
  let rest := (Rows.inOrder p.order s.rows).drop k.toNat
  let plan : Plan := ⟨cursor, size, ⟨p.order.toward false, none, k, lookahead size⟩⟩
  have hpage := pageOfSize_of_begins hdecode hquery (begins_of_skip p.order s.rows false k _)
  have hitems : (assemble p.order plan ((rest.take (lookahead size).toNat).map Prod.fst)).items
      = (rest.take size.count.toNat).map Prod.fst := by
    have hlimit : plan.query.limit = lookahead size := rfl
    rw [items_assemble, hreverse]
    exact take_kept hlimit rest
  refine ⟨_, hpage, hitems, ?_⟩
  have hlen : (rest.map Prod.fst).length ≤ maxCount := by
    have hle := s.length_le
    rw [List.length_map, List.length_drop, Rows.length_inOrder]
    omega
  have hlink := link_assemble_take p.order plan hlen
  rw [hreverse, ← List.map_take, nextPoint_map, Option.map_map] at hlink
  refine hlink.trans (Option.map_congr fun m _ => congrArg Token.encode ?_)
  show edgeCursor p.order plan _ m.1 false = _
  rw [edgeCursor_of_not_carried fun _ => carried_of_no_boundary rfl _ _ _,
    countTied_perm (.of_eq hitems)]

/-! ## Falling back -/

/-- How many rows a walk falls back by after its first page from a count: those counted that tie with
    the last row of the page, if more rows follow. -/
def fallback (o : SortOrder) (rows : List α) (k n : Nat) : Nat :=
  match nextPoint n ((Rows.inOrder o rows).drop k) with
  | none => 0
  | some last => ((Rows.inOrder o rows).take k).countP fun r => Rows.tied o r last

/-- At the last row of the first page the rows of its run on the page were passed, and those that
    the walk falls back by. -/
theorem passed_of_nextPoint {o : SortOrder} {rows : List α} {k n : Nat} {last : α × Nat}
    (h : nextPoint n ((Rows.inOrder o rows).drop k) = some last) :
    last ∈ rows.zipIdx ∧ Rows.place o rows (some last) = k + n ∧
      Rows.passed o rows last = fallback o rows k n
        + (((Rows.inOrder o rows).drop k).take n).countP fun r => Rows.tied o r last := by
  obtain ⟨hlt, stretch, hstretch⟩ := nextPoint_eq_some_iff.mp h
  have hsplit : Rows.inOrder o rows
      = ((Rows.inOrder o rows).take k ++ stretch) ++ last :: (Rows.inOrder o rows).drop (k + n) := by
    rw [List.append_cons, List.append_assoc, List.append_assoc, ← List.append_assoc stretch,
      ← hstretch, ← List.drop_drop, List.take_append_drop, List.take_append_drop]
  have hlast : last ∈ Rows.inOrder o rows := by
    rw [hsplit]
    exact List.mem_append_right _ List.mem_cons_self
  have hlength := congrArg List.length hstretch
  rw [List.length_append, List.length_singleton, List.length_take_of_le (Nat.le_of_lt hlt)] at hlength
  rw [List.length_drop] at hlt
  have hself : Rows.tied o last last = true := tiedValues_refl _
  refine ⟨Rows.mem_inOrder.mp hlast, ?_, ?_⟩
  · rw [← Rows.length_of_split hsplit, List.length_append, List.length_take_of_le (by omega),
      hlength]
    omega
  · rw [Rows.passed_of_split hsplit, fallback, h, hstretch, List.countP_append,
      List.countP_append, List.countP_singleton, if_pos hself]
    exact Nat.add_assoc _ _ _

/-- A walk falls back by no more rows than were counted, and only if rows follow its first page. -/
theorem fallback_le {o : SortOrder} {rows : List α} {k n : Nat} (h : fallback o rows k n ≠ 0) :
    fallback o rows k n ≤ k ∧ k + n < rows.length := by
  unfold fallback at h ⊢
  cases hnext : nextPoint n ((Rows.inOrder o rows).drop k) with
  | none =>
    rw [hnext] at h
    exact absurd rfl h
  | some last =>
    have hlt := (nextPoint_eq_some_iff.mp hnext).1
    rw [List.length_drop, Rows.length_inOrder] at hlt
    exact ⟨Nat.le_trans List.countP_le_length (List.length_take_le _ _), by omega⟩

/-- The token of the last row of the first page gives the pages at the row that the walk falls back
    to. -/
theorem pageOfSize_fallback {p : Pager} {s : Snapshot α} {k n : Nat} {last : α × Nat}
    (hcutoff : p.cutoff = none)
    (hnext : nextPoint n ((Rows.inOrder p.order s.rows).drop k) = some last)
    (hfits : (Token.encode (tally p.order false
      ((((Rows.inOrder p.order s.rows).drop k).take n).countP fun r => Rows.tied p.order r last)
      last.1)).utf8ByteSize ≤ Token.maxLength) :
    ∃ m ∈ s.rows.zipIdx,
      ahead p.order s.rows false (some m)
        = (Rows.inOrder p.order s.rows).drop (k + n - fallback p.order s.rows k n) ∧
      ∀ size : PageSize, ∃ page,
        p.pageOfSize s.read (some (Token.encode (tally p.order false
          ((((Rows.inOrder p.order s.rows).drop k).take n).countP
            fun r => Rows.tied p.order r last) last.1))) size.count = .ok page ∧
        PageAt p.order s.rows false (some m) size page := by
  obtain ⟨hmem, hplace, hpassed⟩ := passed_of_nextPoint hnext
  have hcount : 0 < (((Rows.inOrder p.order s.rows).drop k).take n).countP
      fun r => Rows.tied p.order r last := by
    obtain ⟨-, stretch, hstretch⟩ := nextPoint_eq_some_iff.mp hnext
    rw [hstretch]
    exact List.countP_pos_iff.mpr
      ⟨last, List.mem_append_right _ List.mem_cons_self, tiedValues_refl _⟩
  have hle : (((Rows.inOrder p.order s.rows).drop k).take n).countP
      (fun r => Rows.tied p.order r last) ≤ Rows.passed (p.order.toward false) s.rows last :=
    Nat.le_trans (Nat.le_add_left _ _) (Nat.le_of_eq hpassed.symm)
  obtain ⟨m, hm, hahead, hpages⟩ := pageOfSize_tally hcutoff hmem hcount hle hfits
  refine ⟨m, hm, hahead.trans (congrArg (fun i => List.drop i _) ?_), hpages⟩
  show Rows.before p.order s.rows last + _ = _
  rw [Rows.place] at hplace
  omega

/-- Without a cutoff a walk from a count, with a size for each request, comes to its end; it has given
    the rows of its first page, and then all rows from where it fell back to. -/
theorem exists_walk_countToken {p : Pager} {s : Snapshot α} (hcutoff : p.cutoff = none)
    (k : UInt64) (size : PageSize) {sizes : List PageSize} (hsizes : s.rows.length < sizes.length)
    (hfits : TokensFit p false (some (countToken k)) ((size :: sizes).map (Request.mk s))) :
    ∃ pages : List (Page α),
      walk p false (some (countToken k)) ((size :: sizes).map (Request.mk s)) = pages.map .ok ∧
      (∃ last ∈ pages.getLast?, last.link false = none) ∧
      pages.flatMap Page.items
        = (((Rows.inOrder p.order s.rows).drop k.toNat).take size.count.toNat
          ++ (Rows.inOrder p.order s.rows).drop (k.toNat + size.count.toNat
            - fallback p.order s.rows k.toNat size.count.toNat)).map Prod.fst := by
  obtain ⟨page, hpage, hitems, hlink⟩ := pageOfSize_countToken s hcutoff k size
  rw [List.map_cons] at hfits ⊢
  cases hnext : nextPoint size.count.toNat ((Rows.inOrder p.order s.rows).drop k.toNat) with
  | none =>
    have hle := (nextPoint_eq_none_iff (size_pos size)).mp hnext
    rw [List.length_drop] at hle
    rw [hnext] at hlink
    have hzero : fallback p.order s.rows k.toNat size.count.toNat = 0 := by
      rw [fallback, hnext]
    have hnil : (Rows.inOrder p.order s.rows).drop (k.toNat + size.count.toNat) = [] :=
      List.drop_of_length_le (by omega)
    refine ⟨[page], walk_of_link_none hpage hlink _, ⟨page, rfl, hlink⟩, ?_⟩
    rw [List.flatMap_singleton, hitems, hzero, Nat.sub_zero, hnil, List.append_nil]
  | some last =>
    rw [hnext, Option.map_some] at hlink
    obtain ⟨m, hm, hahead, hpages⟩ := pageOfSize_fallback hcutoff hnext (hfits.head hpage hlink)
    have hnone : ∀ bound, p.cutoff = some bound →
        ∀ row ∈ s.rows, countTied p.order s.rows (p.order.valuesOf row) ≤ bound.toNat + 1 := by
      intro bound hbound
      exact nomatch hcutoff.symm.trans hbound
    have hsizes' : (ahead p.order s.rows false (some m)).length < sizes.length :=
      Nat.lt_of_le_of_lt (length_ahead_le (Rows.forall_mem_some hm)) hsizes
    obtain ⟨pages, hwalk, hpieces, hend⟩ :=
      walk_of_pageAt (Rows.forall_mem_some hm) hpages hnone (hfits.tail hpage hlink) hsizes'
    have hrest : pages.flatMap Page.items
        = (ahead p.order s.rows false (some m)).map Prod.fst := by
      rw [List.flatMap_def, hpieces]
      show ((cut sizes _).map (List.map Prod.fst)).flatten = _
      rw [← List.map_flatten, flatten_cut hsizes']
    refine ⟨page :: pages, ?_, exists_end_cons page hend, ?_⟩
    · rw [walk_of_link_some hpage hlink, hwalk]
      rfl
    · rw [List.flatMap_cons, hitems, hrest, hahead, List.map_append]

/-- Without a cutoff a walk from a count comes to its end; it has given the rows of its first page,
    and then all rows from where it fell back to.  These are just the rows after those counted, if
    none of those counted ties with the last row of the first page, or no row follows it. -/
theorem walk_counted {p : Pager} {s : Snapshot α} (hcutoff : p.cutoff = none) (k : UInt64)
    (size : PageSize) {sizes : List PageSize} (hsizes : s.rows.length < sizes.length)
    (hfits : TokensFit p false (some (countToken k)) ((size :: sizes).map (Request.mk s))) :
    ∃ pages : List (Page α),
      walk p false (some (countToken k)) ((size :: sizes).map (Request.mk s)) = pages.map .ok ∧
      (∃ last ∈ pages.getLast?, last.link false = none) ∧
      pages.flatMap Page.items
        = (((Rows.inOrder p.order s.rows).drop k.toNat).take size.count.toNat
          ++ (Rows.inOrder p.order s.rows).drop (k.toNat + size.count.toNat
            - fallback p.order s.rows k.toNat size.count.toNat)).map Prod.fst ∧
      (pages.flatMap Page.items = ((Rows.inOrder p.order s.rows).drop k.toNat).map Prod.fst ↔
        fallback p.order s.rows k.toNat size.count.toNat = 0) := by
  obtain ⟨pages, hwalk, hend, hitems⟩ := exists_walk_countToken hcutoff k size hsizes hfits
  refine ⟨pages, hwalk, hend, hitems, fun hexact => ?_, fun hzero => ?_⟩
  · -- rows that are given twice make the pages too long
    by_contra hne
    obtain ⟨hle, hlt⟩ := fallback_le hne
    have hlength := congrArg List.length (hitems.symm.trans hexact)
    simp only [List.length_map, List.length_append, List.length_take, List.length_drop,
      Rows.length_inOrder] at hlength
    omega
  · rw [hitems, hzero, Nat.sub_zero, ← List.drop_drop, List.take_append_drop]

/-! ## Four documents that tie -/

theorem tokensFit_countToken (p : Pager) (horder : p.order = sampleOrder) (k : UInt64)
    (sizes : List PageSize) :
    TokensFit p false (some (countToken k)) (sizes.map (Request.mk tiedDocuments)) := by
  refine tokensFit_of_short (fun r hr => ?_) false _
  obtain ⟨size, -, rfl⟩ := List.mem_map.mp hr
  rw [horder]
  exact short_tiedDocuments

/-- From the second of four documents that tie, a walk in pages of two gives the third one twice. -/
theorem walk_counted_tied :
    ∃ pages : List (Page Document),
      walk samplePager false (some (countToken 1))
        ((pairs :: List.replicate 5 pairs).map (Request.mk tiedDocuments)) = pages.map .ok ∧
      pages.flatMap Page.items = [2, 3, 3, 4].map fun n => [("_id", .int32 n), ("k", .int32 1)] := by
  have hcutoff : samplePager.cutoff = none := rfl
  have horder : Rows.inOrder samplePager.order tiedDocuments.rows = tiedDocuments.rows.zipIdx :=
    inOrder_tiedDocuments
  have hfallback : fallback samplePager.order tiedDocuments.rows (1 : UInt64).toNat
      pairs.count.toNat = 1 := by
    rw [fallback, horder]
    decide
  obtain ⟨pages, hwalk, -, hitems, -⟩ := walk_counted hcutoff 1 pairs
    (show tiedDocuments.rows.length < (List.replicate 5 pairs).length by decide)
    (tokensFit_countToken samplePager rfl 1 _)
  rw [hfallback, horder] at hitems
  exact ⟨pages, hwalk, hitems⟩

/-- In pages of one document the same walk gives the second one twice, so it does not give just the
    documents from the second one on. -/
theorem walk_falls_back :
    TokensFit singlePager false (some (countToken 1))
      ((List.replicate 6 singles).map (Request.mk tiedDocuments)) ∧
    ∃ pages : List (Page Document),
      walk singlePager false (some (countToken 1))
        ((List.replicate 6 singles).map (Request.mk tiedDocuments)) = pages.map .ok ∧
      (∃ last ∈ pages.getLast?, last.link false = none) ∧
      pages.flatMap Page.items
        = ([2, 2, 3, 4].map fun n => [("_id", .int32 n), ("k", .int32 1)]) ∧
      pages.flatMap Page.items
        ≠ ((Rows.inOrder singlePager.order tiedDocuments.rows).drop (1 : UInt64).toNat).map
          Prod.fst := by
  have hcutoff : singlePager.cutoff = none := rfl
  have horder : Rows.inOrder singlePager.order tiedDocuments.rows = tiedDocuments.rows.zipIdx :=
    inOrder_tiedDocuments
  have hfallback : fallback singlePager.order tiedDocuments.rows (1 : UInt64).toNat
      singles.count.toNat = 1 := by
    rw [fallback, horder]
    decide
  have hfits := tokensFit_countToken singlePager rfl 1 (List.replicate 6 singles)
  obtain ⟨pages, hwalk, hend, hitems⟩ := exists_walk_countToken hcutoff 1 singles
    (show tiedDocuments.rows.length < (List.replicate 5 singles).length by decide) hfits
  rw [hfallback, horder] at hitems
  refine ⟨hfits, pages, hwalk, hend, hitems, fun hexact => ?_⟩
  rw [horder, hitems] at hexact
  exact absurd (congrArg List.length hexact) (by decide)

end Keyset.Pager
