import Keyset.Proofs.Pager.Walk

/-! # Walking through a collection that grows

    Rows are only ever added at the end of a collection, so a declared order
    lists a new row after every row that ties with it.  Hence the rows passed at
    a stored row stay what they were (`passed_of_prefix`), its token stays the
    same, and a token that was made from an earlier state of the collection goes
    on from its row in the later one.

    So a walk toward the end goes from row to row, always upward, and what it
    leaves behind is only what was added below the row that it had reached
    (`walk_growing`). -/

namespace Keyset.Pager

open Std Number

variable {α : Type} [HasFields α]

/-! ## Rows that stay -/

omit [HasFields α] in
/-- A stored row keeps its place while rows are added. -/
theorem mem_zipIdx_of_prefix {rows later : List α} {m : α × Nat} (h : rows <+: later)
    (hm : m ∈ rows.zipIdx) : m ∈ later.zipIdx := by
  obtain ⟨more, rfl⟩ := h
  rw [List.zipIdx_append]
  exact List.mem_append_left _ hm

/-- Rows that are added do not count among those passed at an earlier row, since they come after all
    rows that they tie with. -/
theorem passed_of_prefix {o : SortOrder} {rows later : List α} {m : α × Nat}
    (hdeclared : o.tiebreak = .ascending) (h : rows <+: later) (hm : m ∈ rows.zipIdx) :
    Rows.passed o later m = Rows.passed o rows m := by
  obtain ⟨more, rfl⟩ := h
  have hplace : m.2 < rows.length := List.snd_lt_of_mem_zipIdx hm
  have hnew : (more.zipIdx rows.length).countP
      (fun r => Rows.tied o r m && (Rows.comparePlaced o r m).isLE) = 0 := by
    refine List.countP_eq_zero.mpr fun r hr hboth => ?_
    obtain ⟨htied, hle⟩ := Bool.and_eq_true_iff.mp hboth
    have hlater : rows.length ≤ r.2 := List.le_snd_of_mem_zipIdx hr
    have hgt : Rows.comparePlaced o r m = .gt := by
      rw [Rows.comparePlaced, Rows.tied_iff.mp htied, hdeclared]
      exact Nat.compare_eq_gt.mpr (by omega)
    rw [hgt] at hle
    exact Bool.false_ne_true hle
  rw [Rows.passed, Rows.passed, (Rows.inOrder_perm o (rows ++ more)).countP_eq,
    (Rows.inOrder_perm o rows).countP_eq, List.zipIdx_append, List.countP_append, Nat.zero_add,
    hnew, Nat.add_zero]

/-- The token at a point stays the same while rows are added. -/
theorem tokenAt_of_prefix {o : SortOrder} {rows later : List α} {point : Option (α × Nat)}
    (hdeclared : o.tiebreak = .ascending) (h : rows <+: later)
    (hpoint : ∀ m ∈ point, m ∈ rows.zipIdx) :
    tokenAt o later false point = tokenAt o rows false point := by
  cases point with
  | none => rfl
  | some m =>
    have hpassed : Rows.passed (o.toward false) later m = Rows.passed (o.toward false) rows m :=
      passed_of_prefix hdeclared h (hpoint m rfl)
    rw [tokenAt, tokenAt, cursorAt, cursorAt, mark, mark, hpassed]

/-! ## Rows ahead -/

theorem mem_ahead {o : SortOrder} {rows : List α} {point : Option (α × Nat)} {r : α × Nat} :
    r ∈ ahead o rows false point
      ↔ r ∈ rows.zipIdx ∧ ∀ m ∈ point, Rows.comparePlaced o m r = .lt := by
  cases point with
  | none =>
    rw [← Rows.mem_inOrder (o := o)]
    exact (and_iff_left fun m hm => nomatch hm).symm
  | some m =>
    show r ∈ (Rows.inOrder o rows).filter _ ↔ _
    rw [List.mem_filter, Rows.mem_inOrder, beq_iff_eq]
    refine and_congr_right fun _ => ?_
    constructor
    · intro h m' hm'
      obtain rfl := Option.some.inj hm'
      exact h
    · intro h
      exact h m rfl

/-- A row whose token can be read stays one while rows are added. -/
theorem Readable.grown {p : Pager} {rows later : List α} {m : α × Nat}
    (hdeclared : p.order.tiebreak = .ascending) (hcutoff : p.cutoff = none) (h : rows <+: later)
    (hm : Readable p rows false m) : Readable p later false m where
  mem := mem_zipIdx_of_prefix h hm.mem
  fits := by
    have hpassed : Rows.passed (p.order.toward false) later m
        = Rows.passed (p.order.toward false) rows m := passed_of_prefix hdeclared h hm.mem
    rw [mark, hpassed]
    exact hm.fits
  tied_le bound hbound := by
    rw [hcutoff] at hbound
    exact nomatch hbound

/-! ## Walks -/

/-- What a walk toward the end has returned, page by page: rows of the collection at the time of the
    request, all in strictly increasing order. -/
structure Returns (o : SortOrder) (requests : List (Request α)) (pages : List (Page α))
    (visits : List (List (α × Nat))) : Prop where
  items : pages.map Page.items = visits.map (List.map Prod.fst)
  stored : ∀ (k : Nat) (visit : List (α × Nat)) (r : Request α), visits[k]? = some visit →
    requests[k]? = some r → ∀ v ∈ visit, v ∈ r.store.rows.zipIdx
  increasing : visits.flatten.Pairwise fun a b => Rows.comparePlaced o a b = .lt

/-- Whether a walk has returned every row that was there at one of its requests and comes after the
    last row returned before that request. -/
def CatchesUp (o : SortOrder) (requests : List (Request α)) (pages : List (Page α))
    (visits : List (List (α × Nat))) : Prop :=
  ∀ (k : Nat) (r : Request α), k < pages.length → requests[k]? = some r →
    ∀ m ∈ r.store.rows.zipIdx,
      (∀ last ∈ (visits.take k).flatten.getLast?, Rows.comparePlaced o last m = .lt) →
      m ∈ visits.flatten

/-- The rows that a request of a walk visits at a point. -/
def visited (o : SortOrder) (r : Request α) (point : Option (α × Nat)) : List (α × Nat) :=
  (ahead o r.store.rows false point).take r.size.count.toNat

/-- What a walk that goes on from a point has returned: only rows above the point; and if it has
    come to its end, all rows that were there at a request, above the point and above all rows
    returned before. -/
structure Follows (o : SortOrder) (requests : List (Request α)) (point : Option (α × Nat))
    (pages : List (Page α)) (visits : List (List (α × Nat))) : Prop where
  length_le : pages.length ≤ requests.length
  returns : Returns o requests pages visits
  above : ∀ m ∈ point, ∀ v ∈ visits.flatten, Rows.comparePlaced o m v = .lt
  complete : (∃ last ∈ pages.getLast?, last.link false = none) →
    ∀ (k : Nat) (r : Request α), k < pages.length → requests[k]? = some r →
      ∀ m ∈ r.store.rows.zipIdx, (∀ v ∈ point, Rows.comparePlaced o v m = .lt) →
        (∀ v ∈ (visits.take k).flatten, Rows.comparePlaced o v m = .lt) → m ∈ visits.flatten

section

variable {o : SortOrder} {r : Request α} {point : Option (α × Nat)} {page : Page α}

theorem visited_pairwise (o : SortOrder) (r : Request α) (point : Option (α × Nat)) :
    (visited o r point).Pairwise fun a b => Rows.comparePlaced o a b = .lt :=
  (ahead_pairwise o r.store.rows false point).sublist (List.take_sublist _ _)

theorem mem_visited {v : α × Nat} (hv : v ∈ visited o r point) :
    v ∈ r.store.rows.zipIdx ∧ ∀ m ∈ point, Rows.comparePlaced o m v = .lt :=
  mem_ahead.mp (List.mem_of_mem_take hv)

/-- The next point is the last of the rows visited. -/
theorem visited_of_nextPoint {m : α × Nat}
    (hnext : nextPoint r.size.count.toNat (ahead o r.store.rows false point) = some m) :
    m ∈ visited o r point ∧
      ∀ v ∈ visited o r point, v = m ∨ Rows.comparePlaced o v m = .lt := by
  obtain ⟨-, stretch, hstretch⟩ := nextPoint_eq_some_iff.mp hnext
  have hsplit : visited o r point = stretch ++ [m] := hstretch
  have hpairwise := visited_pairwise o r point
  rw [hsplit] at hpairwise ⊢
  refine ⟨List.mem_append_right _ List.mem_cons_self, ?_⟩
  intro v hv
  rcases List.mem_append.mp hv with hv | hv
  · exact .inr ((List.pairwise_append.mp hpairwise).2.2 v hv m List.mem_cons_self)
  · exact .inl (List.mem_singleton.mp hv)

/-- A walk that ends at its first page has visited all rows above its point. -/
theorem follows_last (hat : PageAt o r.store.rows false point r.size page)
    (hnext : nextPoint r.size.count.toNat (ahead o r.store.rows false point) = none)
    (rest : List (Request α)) :
    Follows o (r :: rest) point [page] [visited o r point] := by
  have hall : visited o r point = ahead o r.store.rows false point :=
    List.take_of_length_le ((nextPoint_eq_none_iff (size_pos r.size)).mp hnext)
  constructor
  · exact Nat.succ_le_succ (Nat.zero_le _)
  · refine ⟨congrArg (fun items => [items]) hat.items, ?_, ?_⟩
    · intro k visit r' hvisit hr' v hv
      cases k with
      | zero =>
        obtain rfl := Option.some.inj hvisit
        obtain rfl := Option.some.inj hr'
        exact (mem_visited hv).1
      | succ k => exact nomatch hvisit
    · rw [List.flatten_singleton]
      exact visited_pairwise o r point
  · intro m hm v hv
    rw [List.flatten_singleton] at hv
    exact (mem_visited hv).2 m hm
  · intro _ k r' hk hr' m hm hpast _
    obtain rfl : k = 0 := Nat.lt_one_iff.mp hk
    obtain rfl := Option.some.inj hr'
    rw [List.flatten_singleton, hall]
    exact mem_ahead.mpr ⟨hm, hpast⟩

/-- A walk that comes to its end has also visited what was stored above its point before. -/
theorem Follows.mem_of_lt {requests : List (Request α)} {m v : α × Nat} {pages : List (Page α)}
    {visits : List (List (α × Nat))} (h : Follows o requests (some m) pages visits)
    (hend : ∃ last ∈ pages.getLast?, last.link false = none) {rows : List α}
    (hlater : ∀ later ∈ requests, rows <+: later.store.rows) (hv : v ∈ rows.zipIdx)
    (hlt : Rows.comparePlaced o m v = .lt) : v ∈ visits.flatten := by
  obtain ⟨last, hlast, -⟩ := id hend
  have hpages : 0 < pages.length := List.length_pos_of_mem (List.mem_of_getLast? hlast)
  obtain ⟨next, hnext⟩ : ∃ next, requests[0]? = some next :=
    ⟨_, List.getElem?_eq_getElem (Nat.lt_of_lt_of_le hpages h.length_le)⟩
  have hstays := mem_zipIdx_of_prefix (hlater next (List.mem_of_getElem? hnext)) hv
  refine h.complete hend 0 next hpages hnext v hstays ?_ fun w hw => nomatch hw
  intro w hw
  obtain rfl := Option.some.inj hw
  exact hlt

/-- A walk visits the rows of its first page, and then goes on from the last of them. -/
theorem follows_cons {rest : List (Request α)} {m : α × Nat} {pages : List (Page α)}
    {visits : List (List (α × Nat))} (hat : PageAt o r.store.rows false point r.size page)
    (hpoint : ∀ m ∈ point, m ∈ r.store.rows.zipIdx)
    (hnext : nextPoint r.size.count.toNat (ahead o r.store.rows false point) = some m)
    (hlater : ∀ later ∈ rest, r.store.rows <+: later.store.rows)
    (h : Follows o rest (some m) pages visits) :
    Follows o (r :: rest) point (page :: pages) (visited o r point :: visits) := by
  obtain ⟨hm, hlast⟩ := visited_of_nextPoint hnext
  have hahead := (ahead_nextPoint hpoint hnext).2
  constructor
  · exact Nat.succ_le_succ h.length_le
  · refine ⟨?_, ?_, ?_⟩
    · rw [List.map_cons, List.map_cons, h.returns.items, hat.items]
      rfl
    · intro k visit r' hvisit hr' v hv
      cases k with
      | zero =>
        obtain rfl := Option.some.inj hvisit
        obtain rfl := Option.some.inj hr'
        exact (mem_visited hv).1
      | succ k => exact h.returns.stored k visit r' hvisit hr' v hv
    · -- the rows of this page come up to the next point, the others after it
      rw [List.flatten_cons]
      refine List.pairwise_append.mpr ⟨visited_pairwise o r point, h.returns.increasing, ?_⟩
      intro v hv w hw
      rcases hlast v hv with rfl | hvm
      · exact h.above v rfl w hw
      · exact TransCmp.lt_trans hvm (h.above m rfl w hw)
  · intro m' hm' v hv
    rw [List.flatten_cons] at hv
    rcases List.mem_append.mp hv with hv | hv
    · exact (mem_visited hv).2 m' hm'
    · exact TransCmp.lt_trans ((mem_visited hm).2 m' hm') (h.above m rfl v hv)
  · intro hend k r' hk hr' m' hm' hpast hbefore
    have hlink : page.link false = tokenAt o r.store.rows false (some m) := link_some hat hnext
    have hmore := exists_end_of_cons hlink hend
    rw [List.flatten_cons]
    cases k with
    | zero =>
      obtain rfl := Option.some.inj hr'
      have hmem : m' ∈ ahead o r.store.rows false point := mem_ahead.mpr ⟨hm', hpast⟩
      rw [← List.take_append_drop r.size.count.toNat (ahead o r.store.rows false point),
        ← hahead] at hmem
      rcases List.mem_append.mp hmem with hmem | hmem
      · exact List.mem_append_left _ hmem
      · -- what this page leaves behind is still there at the next request
        exact List.mem_append_right _
          (h.mem_of_lt hmore hlater hm' ((mem_ahead.mp hmem).2 m rfl))
    | succ k =>
      rw [List.take_succ_cons, List.flatten_cons] at hbefore
      refine List.mem_append_right _
        (h.complete hmore k r' (Nat.lt_of_succ_lt_succ hk) hr' m' hm' ?_ ?_)
      · intro v hv
        obtain rfl := Option.some.inj hv
        exact hbefore _ (List.mem_append_left _ hm)
      · intro v hv
        exact hbefore v (List.mem_append_right _ hv)

end

/-- A walk from a point through a collection that grows never fails, and follows the collection. -/
theorem walk_growing_from {p : Pager} (hdeclared : p.order.tiebreak = .ascending)
    (hcutoff : p.cutoff = none) {requests : List (Request α)} {rows : List α}
    {point : Option (α × Nat)} (hpoint : ∀ m ∈ point, Readable p rows false m)
    (hlater : ∀ r ∈ requests, rows <+: r.store.rows)
    (hgrow : requests.Pairwise fun a b => a.store.rows <+: b.store.rows)
    (hfits : TokensFit p false (tokenAt p.order rows false point) requests) :
    ∃ (pages : List (Page α)) (visits : List (List (α × Nat))),
      walk p false (tokenAt p.order rows false point) requests = pages.map .ok ∧
      Follows p.order requests point pages visits := by
  induction requests generalizing rows point with
  | nil =>
    refine ⟨[], [], rfl, Nat.le_refl 0, ⟨rfl, ?_, .nil⟩, ?_, ?_⟩
    · intro k visit r hvisit
      exact nomatch hvisit
    · intro m _ v hv
      exact nomatch hv
    · rintro ⟨last, hlast, -⟩
      exact nomatch hlast
  | cons r rest ih =>
    have hgrown := hlater r List.mem_cons_self
    obtain ⟨hlater', hgrow'⟩ := List.pairwise_cons.mp hgrow
    have hreadable : ∀ m ∈ point, Readable p r.store.rows false m :=
      fun m hm => (hpoint m hm).grown hdeclared hcutoff hgrown
    have hstored : ∀ m ∈ point, m ∈ r.store.rows.zipIdx := fun m hm => (hreadable m hm).mem
    -- the token was made from an earlier state, but it is that of the point in this one
    rw [← tokenAt_of_prefix hdeclared hgrown fun m hm => (hpoint m hm).mem] at hfits ⊢
    obtain ⟨page, hpage, hat⟩ := pageOfSize_tokenAt hreadable r.size
    cases hnext : nextPoint r.size.count.toNat (ahead p.order r.store.rows false point) with
    | none =>
      exact ⟨[page], [visited p.order r point], walk_of_link_none hpage (link_none hat hnext) _,
        follows_last hat hnext rest⟩
    | some m =>
      have hlink := link_some hat hnext
      have hreadable' : ∀ m' ∈ some m, Readable p r.store.rows false m' := by
        intro m' hm'
        obtain rfl := Option.some.inj hm'
        refine ⟨(ahead_nextPoint hstored hnext).1, hfits.head hpage hlink, ?_⟩
        intro bound hbound
        rw [hcutoff] at hbound
        exact nomatch hbound
      have hfits' : TokensFit p false (tokenAt p.order r.store.rows false (some m)) rest :=
        hfits.tail hpage hlink
      obtain ⟨pages, visits, hwalk, hfollows⟩ := ih hreadable' hlater' hgrow' hfits'
      refine ⟨page :: pages, visited p.order r point :: visits, ?_,
        follows_cons hat hstored hnext hlater' hfollows⟩
      rw [walk_of_link_some hpage hlink]
      exact congrArg (.ok page :: ·) hwalk

/-- A walk toward the end of a collection that grows returns rows in strictly increasing order, and
    if it comes to its end it has returned every row that was there when it began, and every row
    that was added above what it had reached. -/
theorem walk_growing (p : Pager) (requests : List (Request α))
    (hdeclared : p.order.isInverted = false) (hcutoff : p.cutoff = none)
    (hgrow : requests.Pairwise fun a b => a.store.rows <+: b.store.rows)
    (hfits : TokensFit p false (firstToken false) requests) :
    ∃ (pages : List (Page α)) (visits : List (List (α × Nat))),
      walk p false (firstToken false) requests = pages.map .ok ∧
      Returns p.order requests pages visits ∧
      ((∃ last ∈ pages.getLast?, last.link false = none) →
        CatchesUp p.order requests pages visits) := by
  have htiebreak : p.order.tiebreak = .ascending := by
    cases hb : p.order.tiebreak with
    | ascending => rfl
    | descending => rw [SortOrder.isInverted, hb] at hdeclared; exact nomatch hdeclared
  have hpoint : ∀ m ∈ (none : Option (α × Nat)), Readable p [] false m := fun _ hm => nomatch hm
  obtain ⟨pages, visits, hwalk, hfollows⟩ := walk_growing_from htiebreak hcutoff hpoint
    (fun r _ => List.nil_prefix) hgrow hfits
  refine ⟨pages, visits, hwalk, hfollows.returns, ?_⟩
  intro hend k r hk hr m hm hlast
  refine hfollows.complete hend k r hk hr m hm (fun v hv => nomatch hv) ?_
  -- what comes after the last of increasing rows comes after all of them
  intro v hv
  have hincreasing : (visits.take k).flatten.Pairwise
      fun a b => Rows.comparePlaced p.order a b = .lt := by
    have hall := hfollows.returns.increasing
    rw [← List.take_append_drop k visits, List.flatten_append] at hall
    exact (List.pairwise_append.mp hall).1
  obtain ⟨last, hsome⟩ : ∃ last, (visits.take k).flatten.getLast? = some last :=
    Option.isSome_iff_exists.mp (List.getLast?_isSome.mpr (List.ne_nil_of_mem hv))
  obtain ⟨stretch, hstretch⟩ := List.getLast?_eq_some_iff.mp hsome
  rw [hstretch] at hv hincreasing
  rcases List.mem_append.mp hv with hv | hv
  · have hvl := (List.pairwise_append.mp hincreasing).2.2 v hv last List.mem_cons_self
    exact TransCmp.lt_trans hvl (hlast last hsome)
  · rw [List.mem_singleton.mp hv]
    exact hlast last hsome

/-- The small collection with two documents added, one of which ties with earlier ones. -/
def grownDocuments : Snapshot Document where
  rows := sampleDocuments.rows ++ [[("k", .int32 1)], [("k", .int32 3)]]
  length_le := by decide

/-- Three documents in pages of two, to which two are added after the first page. -/
theorem walk_growing_sample :
    ∃ (pages : List (Page Document)) (visits : List (List (Document × Nat))),
      walk samplePager false (firstToken false)
        [⟨sampleDocuments, pairs⟩, ⟨grownDocuments, pairs⟩, ⟨grownDocuments, pairs⟩]
        = pages.map .ok ∧
      Returns sampleOrder
        [⟨sampleDocuments, pairs⟩, ⟨grownDocuments, pairs⟩, ⟨grownDocuments, pairs⟩] pages visits ∧
      ((∃ last ∈ pages.getLast?, last.link false = none) →
        CatchesUp sampleOrder
          [⟨sampleDocuments, pairs⟩, ⟨grownDocuments, pairs⟩, ⟨grownDocuments, pairs⟩] pages
          visits) := by
  have hgrown : sampleDocuments.rows <+: grownDocuments.rows := List.prefix_append _ _
  refine walk_growing samplePager _ rfl rfl ?_ (tokensFit_of_short ?_ false _)
  · simp [hgrown]
  · intro r hr
    simp only [List.mem_cons, List.not_mem_nil, or_false] at hr
    rcases hr with rfl | rfl | rfl
    · show ∀ row ∈ sampleDocuments.rows, _
      decide
    · show ∀ row ∈ grownDocuments.rows, _
      decide
    · show ∀ row ∈ grownDocuments.rows, _
      decide

end Keyset.Pager
