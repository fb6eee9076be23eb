import Keyset.Proofs.Pager.Slice
import Keyset.Proofs.Pager.Tally
import Keyset.Proofs.Pager.Walk

/-! # Turning back

    A walk TURNS BACK when it reads the token on the other side of a page it has
    come to.  Nothing is carried over to that token: it counts the rows of the
    page that tie with the first row read, and not those beyond the page that
    belong to the same run.

    A run is left at its end by whoever comes from the other side, so the page
    that the token leads to lies as many rows too far on as rows of the run are
    beyond the page (`StandsAt.turned`).  Turning back is exact just if there are
    none (`turning_back`). -/

namespace Keyset.Pager

open Number

variable {α : Type} [HasFields α]

/-! ## Pages that a walk comes to -/

/-- A walk in a direction, from its first token and in pages of any sizes, comes to a page after it
    followed some tokens and was given some rows. -/
inductive WalksTo (p : Pager) (s : Snapshot α) (reverse : Bool) : Nat → Nat → Page α → Prop
  | first {size : PageSize} {page : Page α}
      (hpage : p.pageOfSize s.read (firstToken reverse) size.count = .ok page) :
      WalksTo p s reverse 0 0 page
  | follow {followed given : Nat} {page later : Page α} {next : String} {size : PageSize}
      (h : WalksTo p s reverse followed given page) (hlink : page.link reverse = some next)
      (hlater : p.pageOfSize s.read (some next) size.count = .ok later) :
      WalksTo p s reverse (followed + 1) (given + page.items.length) later

/-- Where a walk stands at a page: at a point with the rows ahead that were not given before. -/
structure StandsAt (p : Pager) (s : Snapshot α) (reverse : Bool) (followed given : Nat)
    (page : Page α) (point : Option (α × Nat)) (size : PageSize) (q : Query) : Prop where
  mem : ∀ m ∈ point, m ∈ s.rows.zipIdx
  limit : q.limit = lookahead size
  begins : Begins p.order s.rows reverse (point.map Prod.fst) (ahead p.order s.rows reverse point) q
  page_eq : page = pageAt p.order s.rows reverse point size q
  ahead_eq : ahead p.order s.rows reverse point
    = (Rows.inOrder (p.order.toward reverse) s.rows).drop given
  isSome : reverse = true ∨ 0 < followed → (cursorAt p.order s.rows reverse point).isSome = true
  given_lt : 0 < followed → given < s.rows.length

variable {p : Pager} {s : Snapshot α} {reverse : Bool} {followed given : Nat} {page : Page α}
  {point : Option (α × Nat)} {size : PageSize} {q : Query}

theorem StandsAt.items (h : StandsAt p s reverse followed given page point size q) :
    page.items = facing reverse
      ((((Rows.inOrder (p.order.toward reverse) s.rows).drop given).take
        size.count.toNat).map Prod.fst) := by
  rw [h.page_eq, items_pageAt h.limit, h.ahead_eq]

theorem StandsAt.length_items (h : StandsAt p s reverse followed given page point size q) :
    page.items.length = min size.count.toNat (s.rows.length - given) := by
  rw [h.items, length_facing, List.length_map, List.length_take, List.length_drop,
    Rows.length_inOrder]

/-- The page that a walk goes on to from the point of its page. -/
theorem StandsAt.follow {later : Page α} {next : String} {size' : PageSize}
    (hcutoff : p.cutoff = none) (h : StandsAt p s reverse followed given page point size q)
    (hlink : page.link reverse = some next)
    (hlater : p.pageOfSize s.read (some next) size'.count = .ok later) :
    ∃ m q', StandsAt p s reverse (followed + 1) (given + page.items.length) later (some m) size'
      q' := by
  have hnext := link_pageAt s.length_le h.mem h.limit h.begins
  rw [← h.page_eq, hlink] at hnext
  obtain ⟨m, hm, htoken⟩ := Option.map_eq_some_iff.mp hnext.symm
  obtain ⟨hmem, hahead⟩ := ahead_nextPoint h.mem hm
  obtain ⟨hlt, -⟩ := nextPoint_eq_some_iff.mp hm
  rw [h.ahead_eq, List.length_drop, Rows.length_inOrder] at hlt
  have hlength := h.length_items
  -- a token that was read is not too long
  have hfits : (Token.encode (mark p.order s.rows reverse m)).utf8ByteSize ≤ Token.maxLength := by
    refine Nat.le_of_not_lt fun hlong => ?_
    rw [← htoken, pageOfSize_tooLong hlong s size'] at hlater
    exact nomatch hlater
  have hpoint : ∀ m' ∈ some m, Readable p s.rows reverse m' :=
    Rows.forall_mem_some (.of_no_cutoff hcutoff hmem hfits)
  obtain ⟨q', hlimit, hbegins, hpage⟩ := exists_pageAt_of_tokenAt hpoint size'
  refine ⟨m, q', Rows.forall_mem_some hmem, hlimit, hbegins, ?_, ?_, fun _ => rfl, fun _ => ?_⟩
  · rw [← htoken] at hlater
    exact Except.ok.inj (hlater.symm.trans hpage)
  · rw [hahead, h.ahead_eq, List.drop_drop, hlength, Nat.min_eq_left (by omega)]
  · omega

/-- Without a cutoff, a walk that comes to a page stands there with the rows ahead that it was not
    given before. -/
theorem WalksTo.standsAt (hcutoff : p.cutoff = none) (h : WalksTo p s reverse followed given page) :
    ∃ point size q, StandsAt p s reverse followed given page point size q := by
  induction h with
  | @first size page hpage =>
    have hpoint : ∀ m ∈ (none : Option (α × Nat)), Readable p s.rows reverse m :=
      fun _ hm => nomatch hm
    obtain ⟨q, hlimit, hbegins, hfirst⟩ := exists_pageAt_of_tokenAt hpoint size
    refine ⟨none, size, q, (fun _ hm => nomatch hm), hlimit, hbegins,
      Except.ok.inj (hpage.symm.trans hfirst), rfl, ?_, fun h => absurd h (Nat.lt_irrefl 0)⟩
    rintro (rfl | h)
    · rfl
    · exact absurd h (Nat.lt_irrefl 0)
  | @follow followed given page later next size hwalks hlink hlater ih =>
    obtain ⟨point, size', q, hstands⟩ := ih
    obtain ⟨m, q', hlater'⟩ := hstands.follow hcutoff hlink hlater
    exact ⟨some m, size, q', hlater'⟩

/-! ## The other side of a page -/

/-- How many rows a walk leaves behind that turns back from a page: those given before it, and those
    beyond it that belong to the run of its first row. -/
def turnedAt (o : SortOrder) (rows : List α) (first : α × Nat) (given last : Nat) : Nat :=
  given + (Rows.runEnd o rows first - last)

/-- Of the rows read for a page, those tie with the first one that are of its run and not beyond the
    page. -/
theorem StandsAt.countP_tied {first : α × Nat}
    (h : StandsAt p s reverse followed given page point size q)
    (hfirst : (Rows.inOrder (p.order.toward reverse) s.rows)[given]? = some first) :
    ((ahead p.order s.rows reverse point).take size.count.toNat).countP
        (fun r => Rows.tied p.order r first)
      = Rows.runEnd (p.order.toward reverse) s.rows first - given
        - (Rows.runEnd (p.order.toward reverse) s.rows first - (given + page.items.length)) := by
  have hall := Rows.countP_beyond hfirst (Nat.le_refl given)
  have hbeyond := Rows.countP_beyond hfirst (Nat.le_add_right given size.count.toNat)
  rw [← List.take_append_drop size.count.toNat (List.drop given _), List.countP_append,
    List.drop_drop] at hall
  have hle := Rows.runEnd_le_length (p.order.toward reverse) s.rows first
  have hlength := h.length_items
  simp only [tied_toward] at hall hbeyond
  rw [h.ahead_eq]
  omega

/-- The page that a walk turns back to from a page with a first row holds the rows in front of those
    it leaves behind. -/
theorem StandsAt.turned {first : α × Nat} (hcutoff : p.cutoff = none)
    (h : StandsAt p s reverse followed given page point size q)
    (hfirst : (Rows.inOrder (p.order.toward reverse) s.rows)[given]? = some first)
    (hmoved : reverse = true ∨ 0 < followed) :
    ∃ token, page.link (!reverse) = some token ∧
      (token.utf8ByteSize ≤ Token.maxLength → ∀ size' : PageSize, ∃ back,
        p.pageOfSize s.read (some token) size'.count = .ok back ∧
        back.items = (facing (!reverse) (((facing (!reverse) (Rows.inOrder p.order s.rows)).drop
          (s.rows.length - turnedAt (p.order.toward reverse) s.rows first given
            (given + page.items.length))).take size'.count.toNat)).map Prod.fst) := by
  have hmem : first ∈ s.rows.zipIdx := Rows.mem_inOrder.mp (List.mem_of_getElem? hfirst)
  have hhead : (ahead p.order s.rows reverse point).head? = some first := by
    rw [h.ahead_eq, List.head?_drop]
    exact hfirst
  have hlink : (pageAt p.order s.rows reverse point size q).link (!reverse) = _ :=
    link_not_pageAt_tally h.limit
  rw [← h.page_eq, if_pos (h.isSome hmoved), hhead, Option.map_some, h.countP_tied hfirst] at hlink
  refine ⟨_, hlink, fun hfits => ?_⟩
  -- from the other side, the rows of the run from the first one on were passed at it
  have hpassed := Rows.passed_invert hfirst
  have hbefore := Rows.before_add_runEnd_invert (p.order.toward reverse).invert s.rows first
  rw [SortOrder.invert_invert] at hbefore
  rw [← SortOrder.toward_not] at hpassed hbefore
  have hself := ((Rows.tied_iff_of_getElem? hfirst first).mp (tiedValues_refl _)).2
  have hlt : given < s.rows.length := Nat.lt_of_lt_of_le hself (Rows.runEnd_le_length _ _ _)
  have hpos := size_pos size
  have hlength := h.length_items
  obtain ⟨m, -, hahead, hpages⟩ := pageOfSize_tally hcutoff hmem (by omega)
    (by rw [hpassed]; omega) hfits
  intro size'
  obtain ⟨back, hback, hat⟩ := hpages size'
  refine ⟨back, hback, ?_⟩
  have hbehind : Rows.before (p.order.toward (!reverse)) s.rows first
      + (Rows.runEnd (p.order.toward reverse) s.rows first - given
        - (Rows.runEnd (p.order.toward reverse) s.rows first - (given + page.items.length)))
      = s.rows.length - turnedAt (p.order.toward reverse) s.rows first given
        (given + page.items.length) := by
    rw [turnedAt]
    omega
  rw [hat.items, hahead, hbehind, ← map_facing, inOrder_toward]

/-- The rows of a page, by their places among all rows. -/
theorem StandsAt.items_eq (h : StandsAt p s reverse followed given page point size q)
    (hle : given ≤ s.rows.length) :
    page.items = (if reverse then
        (Rows.inOrder p.order s.rows).extract (s.rows.length - given - page.items.length)
          (s.rows.length - given)
      else (Rows.inOrder p.order s.rows).extract given (given + page.items.length)).map
        Prod.fst := by
  have hlen := Rows.length_inOrder p.order s.rows
  have hlength := h.length_items
  have hitems := h.items
  rw [← map_facing, inOrder_toward, facing_take_drop (by omega), hlen] at hitems
  cases reverse with
  | false =>
    have hlast : min (given + size.count.toNat) s.rows.length = given + page.items.length := by
      omega
    simp only [hlast] at hitems
    exact hitems
  | true =>
    have hfirst : s.rows.length - given - size.count.toNat
        = s.rows.length - given - page.items.length := by
      omega
    simp only [hfirst] at hitems
    exact hitems

/-! ## Stretches of a list -/

/-- Two stretches of one length begin with the same element only where they are the same. -/
theorem take_drop_eq_iff {β : Type} {l : List β} {i j n : Nat} (h : l.Nodup) (hn : 0 < n)
    (hij : i ≤ j) (hj : j ≤ l.length) : (l.drop i).take n = (l.drop j).take n ↔ i = j := by
  constructor
  · intro heq
    refine Nat.eq_or_lt_of_le hij |>.resolve_right fun hlt => ?_
    have hi : i < l.length := Nat.lt_of_lt_of_le hlt hj
    have hmem : l[i] ∈ (l.drop i).take n := by
      obtain ⟨n, rfl⟩ := Nat.exists_eq_add_one_of_ne_zero (Nat.ne_of_gt hn)
      rw [List.drop_eq_getElem_cons hi, List.take_succ_cons]
      exact List.mem_cons_self
    rw [heq] at hmem
    obtain ⟨k, hk, heq'⟩ := List.getElem_of_mem (List.mem_of_mem_take hmem)
    rw [List.length_drop] at hk
    rw [List.getElem_drop] at heq'
    exact List.pairwise_iff_getElem.mp h i (j + k) hi (by omega) (by omega) heq'.symm
  · rintro rfl
    rfl

/-- Two stretches end with the same element only where they are the same. -/
theorem extract_eq_iff {β : Type} {l : List β} {i j n : Nat} (h : l.Nodup) (hn : 0 < n)
    (hij : i ≤ j) (hj : j ≤ l.length) : l.extract (j - n) j = l.extract (i - n) i ↔ j = i := by
  have hback : ∀ k ≤ l.length,
      l.extract (k - n) k = ((l.reverse.drop (l.length - k)).take n).reverse := by
    intro k hk
    have hextract := facing_take_drop (Nat.sub_le l.length k) true n
    rw [Nat.sub_sub_self hk] at hextract
    exact hextract.symm
  have hreverse : l.reverse.Nodup := List.pairwise_reverse.mpr (h.imp Ne.symm)
  rw [hback j hj, hback i (Nat.le_trans hij hj), List.reverse_inj,
    take_drop_eq_iff hreverse hn (by omega) (by rw [List.length_reverse]; omega)]
  omega

/-! ## Turning back -/

/-- What a walk toward the end turns back to from a page that holds the rows from `a` up to `b`: the
    rows in front of the place behind those it leaves.  That is the page's own beginning just if
    the run of its first row goes on no further than the page, and else lies as many rows further on
    as the run has beyond the page. -/
structure TurnsTowardStart (p : Pager) (s : Snapshot α) (a b : Nat) (page : Page α)
    (first : α × Nat) (token : String) : Prop where
  items : page.items = ((Rows.inOrder p.order s.rows).extract a b).map Prod.fst
  edge : (Rows.inOrder p.order s.rows)[a]? = some first
  link : page.previous = some token
  back : token.utf8ByteSize ≤ Token.maxLength → ∀ size : PageSize, ∃ back,
    p.pageOfSize s.read (some token) size.count = .ok back ∧
    back.items = ((Rows.inOrder p.order s.rows).extract
      (turnedAt p.order s.rows first a b - size.count.toNat)
      (turnedAt p.order s.rows first a b)).map Prod.fst
  exact_iff : ∀ size : PageSize,
    (Rows.inOrder p.order s.rows).extract
        (turnedAt p.order s.rows first a b - size.count.toNat) (turnedAt p.order s.rows first a b)
      = (Rows.inOrder p.order s.rows).extract (a - size.count.toNat) a ↔
    Rows.runEnd p.order s.rows first ≤ b
  beyond : ((Rows.inOrder p.order s.rows).drop b).countP (fun r => Rows.tied p.order r first)
    = Rows.runEnd p.order s.rows first - b

/-- What a walk toward the start turns back to from a page that holds the rows from `a` up to `b`:
    the rows from the place on that it leaves.  That is the page's own end just if the run of its
    last row begins no earlier than the page, and else lies as many rows further back as the run has
    before the page. -/
structure TurnsTowardEnd (p : Pager) (s : Snapshot α) (a b : Nat) (page : Page α)
    (last : α × Nat) (token : String) : Prop where
  items : page.items = ((Rows.inOrder p.order s.rows).extract a b).map Prod.fst
  edge : (Rows.inOrder p.order s.rows)[b - 1]? = some last
  link : page.next = some token
  back : token.utf8ByteSize ≤ Token.maxLength → ∀ size : PageSize, ∃ back,
    p.pageOfSize s.read (some token) size.count = .ok back ∧
    back.items = (((Rows.inOrder p.order s.rows).drop
      (b - (a - Rows.before p.order s.rows last))).take size.count.toNat).map Prod.fst
  exact_iff : ∀ size : PageSize,
    ((Rows.inOrder p.order s.rows).drop
        (b - (a - Rows.before p.order s.rows last))).take size.count.toNat
      = ((Rows.inOrder p.order s.rows).drop b).take size.count.toNat ↔
    a ≤ Rows.before p.order s.rows last
  beyond : ((Rows.inOrder p.order s.rows).take a).countP (fun r => Rows.tied p.order r last)
    = a - Rows.before p.order s.rows last

theorem StandsAt.turnsTowardStart (hcutoff : p.cutoff = none)
    (h : StandsAt p s false followed given page point size q) (hmoved : 0 < followed) :
    ∃ first token,
      TurnsTowardStart p s given (given + page.items.length) page first token := by
  have hlen := Rows.length_inOrder p.order s.rows
  have hlt := h.given_lt hmoved
  obtain ⟨first, hfirst⟩ : ∃ first, (Rows.inOrder p.order s.rows)[given]? = some first :=
    ⟨_, List.getElem?_eq_getElem (by omega)⟩
  obtain ⟨token, hlink, hback⟩ := h.turned hcutoff hfirst (.inr hmoved)
  have hend := Rows.runEnd_le_length p.order s.rows first
  have hself := ((Rows.tied_iff_of_getElem? hfirst first).mp (tiedValues_refl _)).2
  have hpos := size_pos size
  have hlength := h.length_items
  have hplace : turnedAt p.order s.rows first given (given + page.items.length)
      ≤ s.rows.length := by
    rw [turnedAt]
    omega
  refine ⟨first, token, h.items_eq (Nat.le_of_lt hlt), hfirst, hlink, fun hfits size' => ?_,
    fun size' => ?_, Rows.countP_beyond hfirst (Nat.le_add_right _ _)⟩
  · obtain ⟨back, hpage, hitems⟩ := hback hfits size'
    refine ⟨back, hpage, hitems.trans ?_⟩
    rw [facing_take_drop (by rw [hlen]; exact Nat.sub_le _ _), hlen]
    exact congrArg (fun c => ((Rows.inOrder p.order s.rows).extract (c - size'.count.toNat) c).map
      Prod.fst) (Nat.sub_sub_self hplace)
  · have hle : given ≤ turnedAt p.order s.rows first given (given + page.items.length) :=
      Nat.le_add_right _ _
    rw [extract_eq_iff (Rows.nodup_inOrder p.order s.rows) (size_pos size') hle (by omega), turnedAt]
    omega

theorem StandsAt.turnsTowardEnd (hcutoff : p.cutoff = none)
    (h : StandsAt p s true followed given page point size q) (hitems : page.items ≠ []) :
    ∃ last token, TurnsTowardEnd p s (s.rows.length - given - page.items.length)
      (s.rows.length - given) page last token := by
  have hlen := Rows.length_inOrder p.order s.rows
  have hlength := h.length_items
  have hsome := List.length_pos_iff.mpr hitems
  have hlt : given < s.rows.length := by omega
  obtain ⟨last, hlast⟩ :
      ∃ last, (Rows.inOrder p.order s.rows)[s.rows.length - given - 1]? = some last :=
    ⟨_, List.getElem?_eq_getElem (by omega)⟩
  have hfirst : (Rows.inOrder (p.order.toward true) s.rows)[given]? = some last := by
    show (Rows.inOrder p.order.invert s.rows)[given]? = some last
    rw [Rows.inOrder_invert, List.getElem?_reverse (by omega), hlen, Nat.sub_right_comm]
    exact hlast
  obtain ⟨token, hlink, hback⟩ := h.turned hcutoff hfirst (.inl rfl)
  have hsides : Rows.before p.order s.rows last + Rows.runEnd (p.order.toward true) s.rows last
      = s.rows.length := Rows.before_add_runEnd_invert p.order s.rows last
  refine ⟨last, token, h.items_eq (Nat.le_of_lt hlt), hlast, hlink, fun hfits size' => ?_,
    fun size' => ?_, Rows.countP_in_front hlast (by omega)⟩
  · obtain ⟨back, hpage, hitems⟩ := hback hfits size'
    refine ⟨back, hpage, hitems.trans ?_⟩
    have hplace : s.rows.length - turnedAt (p.order.toward true) s.rows last given
        (given + page.items.length)
        = s.rows.length - given - (s.rows.length - given - page.items.length
          - Rows.before p.order s.rows last) := by
      rw [turnedAt]
      omega
    rw [hplace]
    rfl
  · rw [take_drop_eq_iff (Rows.nodup_inOrder p.order s.rows) (size_pos size') (Nat.sub_le _ _)
      (by omega)]
    omega

/-- Without a cutoff, turning back from a page that a walk came to gives the rows around a place that
    differs from the page's edge by the rows of the edge row's run beyond the page: toward the start
    after one token or more, toward the end from any page with rows. -/
theorem turning_back {p : Pager} {s : Snapshot α} (hcutoff : p.cutoff = none) :
    (∀ (followed a : Nat) (page : Page α), WalksTo p s false followed a page → 0 < followed →
      ∃ first token, TurnsTowardStart p s a (a + page.items.length) page first token) ∧
    ∀ (followed given : Nat) (page : Page α), WalksTo p s true followed given page →
      page.items ≠ [] →
      ∃ last token, TurnsTowardEnd p s (s.rows.length - given - page.items.length)
        (s.rows.length - given) page last token := by
  constructor
  · intro followed a page hwalks hmoved
    obtain ⟨point, size, q, hstands⟩ := hwalks.standsAt hcutoff
    exact hstands.turnsTowardStart hcutoff hmoved
  · intro followed given page hwalks hitems
    obtain ⟨point, size, q, hstands⟩ := hwalks.standsAt hcutoff
    exact hstands.turnsTowardEnd hcutoff hitems

/-- Where rows have short positions, so are the tokens of the pages that a walk comes to. -/
theorem WalksTo.utf8ByteSize_link_le {next : String} {side : Bool}
    (hshort : ∀ row ∈ s.rows, (Position.ofValues (p.order.valuesOf row)).text.utf8ByteSize ≤ 2000)
    (h : WalksTo p s reverse followed given page) (hlink : page.link side = some next) :
    next.utf8ByteSize ≤ Token.maxLength := by
  cases h with
  | first hpage => exact Pager.utf8ByteSize_link_le hshort hpage hlink
  | follow _ _ hpage => exact Pager.utf8ByteSize_link_le hshort hpage hlink

/-! ## Four documents that tie -/

theorem readable_tiedDocuments (reverse : Bool) {m : Document × Nat}
    (hm : m ∈ tiedDocuments.rows.zipIdx) :
    Readable singlePager tiedDocuments.rows reverse m := by
  refine .of_no_cutoff rfl hm (Token.utf8ByteSize_encode_le rfl ?_)
  exact short_tiedDocuments m.1 (List.fst_mem_of_mem_zipIdx hm)

/-- In pages of one row, a walk toward the end comes to the second of the documents. -/
theorem exists_walksTo_second :
    ∃ page, WalksTo singlePager tiedDocuments false 1 1 page ∧ page.items.length = 1 := by
  have hahead : ahead singlePager.order tiedDocuments.rows false none
      = tiedDocuments.rows.zipIdx := inOrder_tiedDocuments
  have hpoint : ∀ m ∈ (none : Option (Document × Nat)),
      Readable singlePager tiedDocuments.rows false m := fun _ hm => nomatch hm
  obtain ⟨first, hfirst, hat⟩ := pageOfSize_tokenAt hpoint singles
  have hnext : nextPoint singles.count.toNat (ahead singlePager.order tiedDocuments.rows false none)
      = some ([("_id", .int32 1), ("k", .int32 1)], 0) := by
    rw [hahead]
    rfl
  obtain ⟨hmem, hahead'⟩ := ahead_nextPoint (fun m hm => (hpoint m hm).mem) hnext
  obtain ⟨page, hpage, hat'⟩ :=
    pageOfSize_tokenAt (Rows.forall_mem_some (readable_tiedDocuments false hmem)) singles
  have hgiven : 0 + first.items.length = 1 := by
    rw [hat.items, hahead]
    rfl
  have hwalks := WalksTo.follow (.first hfirst) (link_some hat hnext) hpage
  rw [hgiven] at hwalks
  refine ⟨page, hwalks, ?_⟩
  rw [hat'.items, hahead', hahead]
  rfl

/-- In pages of one row, a walk toward the start begins at the last of the documents. -/
theorem exists_walksTo_last :
    ∃ page, WalksTo singlePager tiedDocuments true 0 0 page ∧ page.items.length = 1 := by
  have hahead : ahead singlePager.order tiedDocuments.rows true none
      = tiedDocuments.rows.zipIdx.reverse :=
    (Rows.inOrder_invert _ _).trans (congrArg List.reverse inOrder_tiedDocuments)
  have hpoint : ∀ m ∈ (none : Option (Document × Nat)),
      Readable singlePager tiedDocuments.rows true m := fun _ hm => nomatch hm
  obtain ⟨page, hpage, hat⟩ := pageOfSize_tokenAt hpoint singles
  refine ⟨page, .first hpage, ?_⟩
  rw [hat.items, hahead]
  rfl

/-- In pages of one row a walk turns back from the second of the documents to the third, and from
    the last one to the second. -/
theorem turning_back_tied :
    (∃ page token back, WalksTo singlePager tiedDocuments false 1 1 page ∧
      page.previous = some token ∧
      singlePager.pageOfSize tiedDocuments.read (some token) singles.count = .ok back ∧
      back.items = [[("_id", .int32 3), ("k", .int32 1)]]) ∧
    ∃ page token back, WalksTo singlePager tiedDocuments true 0 0 page ∧
      page.next = some token ∧
      singlePager.pageOfSize tiedDocuments.read (some token) singles.count = .ok back ∧
      back.items = [[("_id", .int32 2), ("k", .int32 1)]] := by
  have hcutoff : singlePager.cutoff = none := rfl
  have horder : Rows.inOrder singlePager.order tiedDocuments.rows = tiedDocuments.rows.zipIdx :=
    inOrder_tiedDocuments
  have hshort : ∀ row ∈ tiedDocuments.rows,
      (Position.ofValues (singlePager.order.valuesOf row)).text.utf8ByteSize ≤ 2000 :=
    short_tiedDocuments
  obtain ⟨hstart, hend⟩ := turning_back (s := tiedDocuments) hcutoff
  constructor
  · obtain ⟨page, hwalks, hlength⟩ := exists_walksTo_second
    obtain ⟨first, token, hturns⟩ := hstart 1 1 page hwalks Nat.one_pos
    have hlink : page.link true = some token := hturns.link
    have hfits := hwalks.utf8ByteSize_link_le hshort hlink
    obtain ⟨back, hback, hitems⟩ := hturns.back hfits singles
    have hedge := hturns.edge
    rw [horder] at hedge
    obtain rfl : ([("_id", .int32 2), ("k", .int32 1)], 1) = first := Option.some.inj hedge
    have hrun : Rows.runEnd singlePager.order tiedDocuments.rows
        ([("_id", .int32 2), ("k", .int32 1)], 1) = 4 := by
      rw [Rows.runEnd, horder]
      decide
    rw [turnedAt, hrun, hlength, horder] at hitems
    exact ⟨page, token, back, hwalks, hturns.link, hback, hitems⟩
  · obtain ⟨page, hwalks, hlength⟩ := exists_walksTo_last
    have hitems : page.items ≠ [] := List.length_pos_iff.mp (by omega)
    obtain ⟨last, token, hturns⟩ := hend 0 0 page hwalks hitems
    have hlink : page.link false = some token := hturns.link
    have hfits := hwalks.utf8ByteSize_link_le hshort hlink
    obtain ⟨back, hback, hitems⟩ := hturns.back hfits singles
    have hedge := hturns.edge
    rw [horder] at hedge
    obtain rfl : ([("_id", .int32 4), ("k", .int32 1)], 3) = last := Option.some.inj hedge
    have hbefore : Rows.before singlePager.order tiedDocuments.rows
        ([("_id", .int32 4), ("k", .int32 1)], 3) = 0 := by
      rw [Rows.before, horder]
      decide
    rw [hbefore, hlength, horder] at hitems
    exact ⟨page, token, back, hwalks, hturns.link, hback, hitems⟩

end Keyset.Pager
