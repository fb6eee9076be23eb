import Keyset.Proofs.Pager.Walk

/-! # Walking through a collection

    A walk through a collection that does not change CUTS what is ahead of its
    point into stretches of the sizes asked for (`walk_of_pageAt`): by induction on
    the requests, since each page leads to a point with the rest ahead of it.

    From its first token a walk has all rows ahead.  So it ends, and its pages
    together are the collection in order, each row once, whichever way the walk
    goes and however rows tie (`walk_sorted`). -/

namespace Keyset.Pager

open Number

/-! ## Cutting a list -/

/-- A list cut into stretches of some sizes, until nothing is left. -/
def cut {β : Type} : List PageSize → List β → List (List β)
  | [], _ => []
  | size :: sizes, l =>
      l.take size.count.toNat ::
        if size.count.toNat < l.length then cut sizes (l.drop size.count.toNat) else []

/-- With more sizes than elements, the stretches of a list make up the list. -/
theorem flatten_cut {β : Type} {sizes : List PageSize} {l : List β} (h : l.length < sizes.length) :
    (cut sizes l).flatten = l := by
  induction sizes generalizing l with
  | nil => exact absurd h (Nat.not_lt_zero _)
  | cons size sizes ih =>
    have hpos := size_pos size
    rw [cut, List.flatten_cons]
    by_cases hlt : size.count.toNat < l.length
    · rw [List.length_cons] at h
      rw [if_pos hlt, ih (by rw [List.length_drop]; omega), List.take_append_drop]
    · rw [if_neg hlt, List.flatten_nil, List.append_nil, List.take_of_length_le (by omega)]

/-- Each stretch has the size asked for, or takes what is left. -/
theorem length_cut {β : Type} {sizes : List PageSize} {l stretch : List β} {size : PageSize}
    {i : Nat} (hstretch : (cut sizes l)[i]? = some stretch) (hsize : sizes[i]? = some size) :
    stretch.length = min size.count.toNat (l.length - ((cut sizes l).take i).flatten.length) := by
  induction sizes generalizing l i with
  | nil => exact nomatch hsize
  | cons first sizes ih =>
    rw [cut] at hstretch ⊢
    cases i with
    | zero =>
      obtain rfl := Option.some.inj hstretch
      obtain rfl := Option.some.inj hsize
      simp
    | succ i =>
      rw [List.getElem?_cons_succ] at hstretch hsize
      by_cases hlt : first.count.toNat < l.length
      · rw [if_pos hlt] at hstretch ⊢
        rw [ih hstretch hsize, List.take_succ_cons, List.flatten_cons, List.length_append,
          List.length_drop, List.length_take]
        omega
      · rw [if_neg hlt] at hstretch
        exact nomatch hstretch

/-- No stretch of a list that has elements is empty. -/
theorem ne_nil_of_mem_cut {β : Type} {sizes : List PageSize} {l stretch : List β} (hl : l ≠ [])
    (h : stretch ∈ cut sizes l) : stretch ≠ [] := by
  induction sizes generalizing l with
  | nil => exact nomatch h
  | cons size sizes ih =>
    rcases List.mem_cons.mp h with rfl | h
    · intro hnil
      rcases List.take_eq_nil_iff.mp hnil with hzero | hnil
      · exact Nat.ne_of_gt (size_pos size) hzero
      · exact hl hnil
    · by_cases hlt : size.count.toNat < l.length
      · rw [if_pos hlt] at h
        refine ih (fun hnil => ?_) h
        have hle := List.drop_eq_nil_iff.mp hnil
        omega
      · rw [if_neg hlt] at h
        exact nomatch h

variable {α : Type} [HasFields α]

/-! ## Walks -/

/-- A walk through a collection that does not change, from a token that gives the pages at a point,
    cuts what is ahead of the point. -/
theorem walk_of_pageAt {p : Pager} {s : Snapshot α} {reverse : Bool} {sizes : List PageSize}
    {token : Option String} {point : Option (α × Nat)} (hpoint : ∀ m ∈ point, m ∈ s.rows.zipIdx)
    (hpages : ∀ size : PageSize, ∃ page, p.pageOfSize s.read token size.count = .ok page ∧
      PageAt p.order s.rows reverse point size page)
    (hties : ∀ bound, p.cutoff = some bound →
      ∀ row ∈ s.rows, countTied p.order s.rows (p.order.valuesOf row) ≤ bound.toNat + 1)
    (hfits : TokensFit p reverse token (sizes.map (Request.mk s)))
    (hsizes : (ahead p.order s.rows reverse point).length < sizes.length) :
    ∃ pages : List (Page α),
      walk p reverse token (sizes.map (Request.mk s)) = pages.map .ok ∧
      pages.map Page.items = (cut sizes (ahead p.order s.rows reverse point)).map
        (fun stretch => facing reverse (stretch.map Prod.fst)) ∧
      ∃ last ∈ pages.getLast?, last.link reverse = none := by
  induction sizes generalizing token point with
  | nil => exact absurd hsizes (Nat.not_lt_zero _)
  | cons size sizes ih =>
    obtain ⟨page, hpage, hat⟩ := hpages size
    rw [List.map_cons] at hfits ⊢
    -- the page leads to a point of its own, or holds the last stretch
    cases hnext : nextPoint size.count.toNat (ahead p.order s.rows reverse point) with
    | none =>
      have hlink := link_none hat hnext
      have hle := (nextPoint_eq_none_iff (size_pos size)).mp hnext
      refine ⟨[page], walk_of_link_none hpage hlink _, ?_, page, rfl, hlink⟩
      rw [cut, if_neg (Nat.not_lt.mpr hle)]
      exact congrArg (fun items => [items]) hat.items
    | some m =>
      have hlink := link_some hat hnext
      obtain ⟨hlt, -⟩ := nextPoint_eq_some_iff.mp hnext
      obtain ⟨hm, hahead⟩ := ahead_nextPoint hpoint hnext
      have hreadable : Readable p s.rows reverse m :=
        ⟨hm, hfits.head hpage hlink, fun bound hbound =>
          hties bound hbound m.1 (List.fst_mem_of_mem_zipIdx hm)⟩
      have hrest : (ahead p.order s.rows reverse (some m)).length < sizes.length := by
        have hpos := size_pos size
        rw [List.length_cons] at hsizes
        rw [hahead, List.length_drop]
        omega
      obtain ⟨pages, hwalk, hitems, hend⟩ := ih (Rows.forall_mem_some hm)
        (pageOfSize_tokenAt (Rows.forall_mem_some hreadable)) (hfits.tail hpage hlink) hrest
      refine ⟨page :: pages, ?_, ?_, exists_end_cons page hend⟩
      · rw [walk_of_link_some hpage hlink]
        exact congrArg (.ok page :: ·) hwalk
      · rw [cut, if_pos hlt, ← hahead, List.map_cons, List.map_cons, hitems, hat.items]

/-- A walk from the token at a point cuts what is ahead of the point. -/
theorem walk_tokenAt {p : Pager} {s : Snapshot α} {reverse : Bool} {sizes : List PageSize}
    {point : Option (α × Nat)} (hpoint : ∀ m ∈ point, Readable p s.rows reverse m)
    (hties : ∀ bound, p.cutoff = some bound →
      ∀ row ∈ s.rows, countTied p.order s.rows (p.order.valuesOf row) ≤ bound.toNat + 1)
    (hfits : TokensFit p reverse (tokenAt p.order s.rows reverse point)
      (sizes.map (Request.mk s)))
    (hsizes : (ahead p.order s.rows reverse point).length < sizes.length) :
    ∃ pages : List (Page α),
      walk p reverse (tokenAt p.order s.rows reverse point) (sizes.map (Request.mk s))
        = pages.map .ok ∧
      pages.map Page.items = (cut sizes (ahead p.order s.rows reverse point)).map
        (fun stretch => facing reverse (stretch.map Prod.fst)) ∧
      ∃ last ∈ pages.getLast?, last.link reverse = none :=
  walk_of_pageAt (fun m hm => (hpoint m hm).mem) (pageOfSize_tokenAt hpoint) hties hfits hsizes

/-- Lists that are turned round one by one and as a whole make up the list turned round. -/
theorem flatten_facing {β : Type} (reverse : Bool) (ls : List (List β)) :
    (facing reverse (ls.map (facing reverse))).flatten = facing reverse ls.flatten := by
  cases reverse with
  | false => exact congrArg List.flatten (List.map_id ls)
  | true => exact List.reverse_flatten.symm

/-- The rows ahead of the first token are the collection, in order seen from the start. -/
theorem facing_ahead_none (o : SortOrder) (rows : List α) (reverse : Bool) :
    facing reverse (ahead o rows reverse none) = Rows.inOrder o rows := by
  cases reverse with
  | false => rfl
  | true =>
    show (Rows.inOrder o.invert rows).reverse = _
    rw [Rows.inOrder_invert, List.reverse_reverse]

theorem length_ahead_none (o : SortOrder) (rows : List α) (reverse : Bool) :
    (ahead o rows reverse none).length = rows.length := by
  rw [← length_facing reverse, facing_ahead_none, Rows.length_inOrder]

/-- What the pages of a walk are through a collection that does not change: the last one has no
    token to follow, together they are the collection in order, none is empty if there are rows,
    and each is as full as its size and the rows left allow. -/
structure Traverses (p : Pager) (s : Snapshot α) (reverse : Bool) (sizes : List PageSize)
    (pages : List (Page α)) : Prop where
  ends : ∃ last ∈ pages.getLast?, last.link reverse = none
  joined : (facing reverse pages).flatMap Page.items = Rows.sorted p.order s.rows
  nonempty : s.rows ≠ [] → ∀ page ∈ pages, page.items ≠ []
  full : ∀ i page size, pages[i]? = some page → sizes[i]? = some size →
    page.items.length
      = min size.count.toNat (s.rows.length - ((pages.take i).flatMap Page.items).length)

/-- A walk through a collection that does not change, with a size for each request, comes to its end
    and has given the collection in order, each row once, whichever way it goes. -/
theorem walk_sorted (p : Pager) (s : Snapshot α) (reverse : Bool) (sizes : List PageSize)
    (hsizes : s.rows.length < sizes.length)
    (hties : ∀ bound, p.cutoff = some bound →
      ∀ row ∈ s.rows, countTied p.order s.rows (p.order.valuesOf row) ≤ bound.toNat + 1)
    (hfits : TokensFit p reverse (firstToken reverse) (sizes.map (Request.mk s))) :
    ∃ pages : List (Page α),
      walk p reverse (firstToken reverse) (sizes.map (Request.mk s)) = pages.map .ok ∧
      Traverses p s reverse sizes pages := by
  let stretches := cut sizes (ahead p.order s.rows reverse none)
  have hlen := length_ahead_none p.order s.rows reverse
  have hsizes' : (ahead p.order s.rows reverse none).length < sizes.length := by
    rw [hlen]
    exact hsizes
  have hpoint : ∀ m ∈ (none : Option (α × Nat)), Readable p s.rows reverse m :=
    fun _ hm => nomatch hm
  obtain ⟨pages, hwalk, hitems, hend⟩ := walk_tokenAt hpoint hties hfits hsizes'
  refine ⟨pages, hwalk, hend, ?_, ?_, ?_⟩
  -- turned round page by page and as a whole, the stretches make up the collection
  · have hpieces : (facing reverse pages).map Page.items
        = facing reverse ((stretches.map (List.map Prod.fst)).map (facing reverse)) := by
      rw [map_facing, hitems, List.map_map]
      rfl
    rw [List.flatMap_def, hpieces, flatten_facing, ← List.map_flatten, flatten_cut hsizes',
      ← map_facing, facing_ahead_none]
    rfl
  · intro hrows page hpage hnil
    have hmem : page.items ∈ pages.map Page.items := List.mem_map_of_mem hpage
    rw [hitems] at hmem
    obtain ⟨stretch, hstretch, heq⟩ := List.mem_map.mp hmem
    have hne : ahead p.order s.rows reverse none ≠ [] := by
      intro hempty
      rw [hempty] at hlen
      exact hrows (List.length_eq_zero_iff.mp hlen.symm)
    have hzero : stretch.length = 0 := by
      rw [← List.length_map Prod.fst, ← length_facing reverse, heq, hnil]
      rfl
    exact ne_nil_of_mem_cut hne hstretch (List.length_eq_zero_iff.mp hzero)
  · intro i page size hpage hsize
    have hitem : (pages.map Page.items)[i]? = some page.items := by
      rw [List.getElem?_map, hpage]
      rfl
    rw [hitems, List.getElem?_map] at hitem
    obtain ⟨stretch, hstretch, heq⟩ := Option.map_eq_some_iff.mp hitem
    have htaken : ((pages.take i).flatMap Page.items).length
        = (stretches.take i).flatten.length := by
      rw [List.flatMap_def, List.map_take, hitems, ← List.map_take, List.length_flatten,
        List.length_flatten, List.map_map]
      congr 2
      funext stretch
      show (facing reverse (stretch.map Prod.fst)).length = _
      rw [length_facing, List.length_map]
    rw [← heq, length_facing, List.length_map, htaken, ← hlen]
    exact length_cut hstretch hsize

/-- Three documents, two of which tie, in pages of two from the end. -/
theorem walk_sorted_sample :
    ∃ pages : List (Page Document),
      walk ⟨sampleOrder, pairs, some 1⟩ true (firstToken true)
        ((List.replicate 4 pairs).map (Request.mk sampleDocuments)) = pages.map .ok ∧
      Traverses ⟨sampleOrder, pairs, some 1⟩ sampleDocuments true (List.replicate 4 pairs)
        pages := by
  refine walk_sorted ⟨sampleOrder, pairs, some 1⟩ sampleDocuments true (List.replicate 4 pairs)
    (by decide) ?_ (tokensFit_of_short ?_ true (firstToken true))
  · intro bound hbound
    obtain rfl := Option.some.inj hbound
    decide
  · intro r hr
    obtain ⟨size, -, rfl⟩ := List.mem_map.mp hr
    show ∀ row ∈ sampleDocuments.rows, _
    decide

end Keyset.Pager
