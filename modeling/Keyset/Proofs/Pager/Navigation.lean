import Keyset.Proofs.Pager.Walk

/-! # Going to and fro

    Where no more rows tie than fit on a page, the rows of a page that tie with
    an edge of it are all the rows that were passed there, on either side.  So
    both tokens of a page are those of its edges, and a page is determined by the
    stretch of the collection that it shows: it is a WINDOW (`window`).

    A window moves by its own tokens.  The next page begins where it ends, and
    the page before it ends where it begins; either is again a window
    (`page_next`, `page_previous`).  So whichever way one goes, and however
    often one turns round, every page is a window, and turning round after a step
    forward leads back to the same page (`shown_window`). -/

namespace Keyset.Pager

open Number

variable {α : Type} [HasFields α]

/-- The page that shows a stretch of a collection: from the `a`-th row in order up to the `b`-th. -/
def window (o : SortOrder) (rows : List α) (a b : Nat) : Page α where
  items := (((Rows.inOrder o rows).take b).drop a).map Prod.fst
  previous := if 0 < a then
      (Rows.inOrder o rows)[a]?.map fun m => Token.encode (mark o rows true m)
    else none
  next := if b < rows.length then
      (Rows.inOrder o rows)[b - 1]?.map fun m => Token.encode (mark o rows false m)
    else none

/-! ## Rows that tie -/

/-- If no more rows tie than fit on a page, no row beyond a page ties with its first one. -/
theorem not_tied_beyond {o : SortOrder} {rows : List α} {reverse : Bool} {point : Option (α × Nat)}
    {size : PageSize} (hpoint : ∀ m ∈ point, m ∈ rows.zipIdx)
    (hties : ∀ row ∈ rows, countTied o rows (o.valuesOf row) ≤ size.count.toNat) :
    ∀ first ∈ (ahead o rows reverse point).head?,
      ∀ r ∈ (ahead o rows reverse point).drop size.count.toNat, Rows.tied o r first = false := by
  intro first hfirst r hr
  refine Bool.eq_false_iff.mpr fun htied => ?_
  obtain ⟨more, hmore⟩ := List.head?_eq_some_iff.mp hfirst
  obtain ⟨k, hk⟩ := Nat.exists_eq_add_one_of_ne_zero (Nat.ne_of_gt (size_pos size))
  rw [hmore, hk, List.drop_succ_cons] at hr
  obtain ⟨before, after, hafter⟩ := List.append_of_mem hr
  obtain ⟨front, hfront⟩ := Rows.exists_front (o := o.toward reverse) hpoint
  have hahead : ahead o rows reverse point = first :: ((more.take k ++ before) ++ r :: after) := by
    rw [hmore, List.append_assoc, ← hafter, List.take_append_drop]
  have hsplit : Rows.inOrder (o.toward reverse) rows
      = front ++ first :: ((more.take k ++ before) ++ r :: after) := by
    rw [hfront, ← hahead]
    rfl
  have htied' : Rows.tied (o.toward reverse) first r = true := by
    rw [tied_toward, Rows.tied_comm]
    exact htied
  -- the page ties as a whole with a row beyond it, which makes one row too many
  have hpassed := Rows.lt_passed_of_tied hsplit htied'
  have hle := Rows.passed_le_countTied (o.toward reverse) rows r
  have hmem : r ∈ Rows.inOrder (o.toward reverse) rows := by
    rw [hsplit]
    simp
  have hbound := hties r.1 (List.fst_mem_of_mem_zipIdx (Rows.mem_inOrder.mp hmem))
  have hlen : (more.take k).length = k := by
    have hpos : 0 < (more.drop k).length := List.length_pos_of_mem hr
    rw [List.length_drop] at hpos
    rw [List.length_take]
    omega
  rw [← countTied_toward o reverse] at hbound
  rw [List.length_append] at hpassed
  omega

/-! ## Rows ahead -/

/-- Toward the end, the rows after the `i`-th one are ahead of it. -/
theorem ahead_getElem {o : SortOrder} {rows : List α} {i : Nat} {m : α × Nat}
    (h : (Rows.inOrder o rows)[i]? = some m) :
    ahead o rows false (some m) = (Rows.inOrder o rows).drop (i + 1) := by
  obtain ⟨hi, rfl⟩ := List.getElem?_eq_some_iff.mp h
  have hsplit : Rows.inOrder o rows = (Rows.inOrder o rows).take i
      ++ (Rows.inOrder o rows)[i] :: (Rows.inOrder o rows).drop (i + 1) := by
    rw [← List.drop_eq_getElem_cons hi, List.take_append_drop]
  exact Rows.remaining_of_split hsplit

/-- Toward the start, the rows before the `i`-th one are ahead of it, the nearest one first. -/
theorem ahead_getElem_reverse {o : SortOrder} {rows : List α} {i : Nat} {m : α × Nat}
    (h : (Rows.inOrder o rows)[i]? = some m) :
    ahead o rows true (some m) = ((Rows.inOrder o rows).take i).reverse := by
  obtain ⟨hi, rfl⟩ := List.getElem?_eq_some_iff.mp h
  have hsplit : (Rows.inOrder o rows).reverse = ((Rows.inOrder o rows).drop (i + 1)).reverse
      ++ (Rows.inOrder o rows)[i] :: ((Rows.inOrder o rows).take i).reverse := by
    rw [List.append_cons, ← List.reverse_cons, ← List.drop_eq_getElem_cons hi,
      ← List.reverse_append, List.take_append_drop]
  rw [← Rows.inOrder_invert] at hsplit
  exact Rows.remaining_of_split hsplit

/-! ## Windows -/

omit [HasFields α] in
theorem page_eq {page page' : Page α} (hitems : page.items = page'.items)
    (hlinks : ∀ reverse, page.link reverse = page'.link reverse) : page = page' := by
  obtain ⟨items, previous, next⟩ := page
  obtain ⟨items', previous', next'⟩ := page'
  have hprevious : previous = previous' := hlinks true
  have hnext : next = next' := hlinks false
  rw [hprevious, hnext]
  exact congrArg (fun items => Page.mk items previous' next') hitems

/-- The next point is the row that fills the page. -/
theorem nextPoint_eq_getElem? {β : Type} {n : Nat} (hn : 0 < n) (l : List β) :
    nextPoint n l = if n < l.length then l[n - 1]? else none := by
  unfold nextPoint
  by_cases hlt : n < l.length
  · rw [if_pos hlt, if_pos hlt, List.getLast?_eq_getElem?, List.length_take,
      Nat.min_eq_left (Nat.le_of_lt hlt), List.getElem?_take_of_lt (by omega)]
  · rw [if_neg hlt, if_neg hlt]

/-- Toward the end, with `b` rows behind the point, the page is the window after them. -/
theorem eq_window_of_forward {o : SortOrder} {rows : List α} {point : Option (α × Nat)}
    {size : PageSize} {page : Page α} {b : Nat} (h : PageAt o rows false point size page)
    (hpoint : ∀ m ∈ point, m ∈ rows.zipIdx)
    (hties : ∀ row ∈ rows, countTied o rows (o.valuesOf row) ≤ size.count.toNat)
    (hahead : ahead o rows false point = (Rows.inOrder o rows).drop b)
    (hcursor : (cursorAt o rows false point).isSome = decide (0 < b)) :
    page = window o rows b (min (b + size.count.toNat) rows.length) := by
  have hpos := size_pos size
  have hlen := Rows.length_inOrder o rows
  have hback := h.link_not (not_tied_beyond hpoint hties)
  refine page_eq ?_ ?_
  · rw [h.items, hahead]
    refine congrArg (List.map Prod.fst) ?_
    rw [List.drop_take, List.take_eq_take_iff, List.length_drop]
    omega
  · intro reverse
    cases reverse with
    | true =>
      refine hback.trans ?_
      rw [hcursor, hahead, List.head?_drop]
      show _ = if 0 < b then _ else none
      simp only [decide_eq_true_eq]
      rfl
    | false =>
      refine h.link.trans ?_
      rw [hahead, nextPoint_eq_getElem? hpos, List.length_drop, List.getElem?_drop, hlen]
      show _ = if min (b + size.count.toNat) rows.length < rows.length then _ else none
      by_cases hlt : size.count.toNat < rows.length - b
      · have hend : min (b + size.count.toNat) rows.length = b + size.count.toNat := by omega
        have hindex : b + (size.count.toNat - 1) = b + size.count.toNat - 1 := by omega
        rw [if_pos hlt, if_pos (by omega), hend, hindex]
      · rw [if_neg hlt, if_neg (by omega)]
        rfl

/-- Toward the start, with `a` rows before the row at the point, the page is the window that ends
    there. -/
theorem eq_window_of_backward {o : SortOrder} {rows : List α} {m : α × Nat} {size : PageSize}
    {page : Page α} {a : Nat} (h : PageAt o rows true (some m) size page)
    (hties : ∀ row ∈ rows, countTied o rows (o.valuesOf row) ≤ size.count.toNat)
    (hm : (Rows.inOrder o rows)[a]? = some m) (ha : 0 < a) :
    page = window o rows (a - size.count.toNat) a := by
  have hpos := size_pos size
  have hahead := ahead_getElem_reverse hm
  have hlen := Rows.length_inOrder o rows
  have hlt : a < rows.length := by
    rw [← hlen]
    exact (List.getElem?_eq_some_iff.mp hm).1
  have hmem : ∀ m' ∈ some m, m' ∈ rows.zipIdx :=
    Rows.forall_mem_some (Rows.mem_inOrder.mp (List.mem_of_getElem? hm))
  have htake : ((Rows.inOrder o rows).take a).length = a := by
    rw [List.length_take, hlen]
    omega
  have hback := h.link_not (not_tied_beyond hmem hties)
  refine page_eq ?_ ?_
  · rw [h.items, hahead]
    show (((((Rows.inOrder o rows).take a).reverse).take size.count.toNat).map Prod.fst).reverse
      = _
    rw [← List.map_reverse, List.take_reverse, List.reverse_reverse, htake]
    rfl
  · intro reverse
    cases reverse with
    | false =>
      refine hback.trans ?_
      rw [hahead, List.head?_reverse, List.getLast?_eq_getElem?, htake]
      show (if true = true then _ else none) = if a < rows.length then _ else none
      rw [if_pos rfl, if_pos hlt, List.getElem?_take_of_lt (by omega)]
      rfl
    | true =>
      refine h.link.trans ?_
      rw [hahead, nextPoint_eq_getElem? hpos, List.length_reverse, htake]
      show _ = if 0 < a - size.count.toNat then _ else none
      by_cases hfull : size.count.toNat < a
      · have hindex : a - 1 - (size.count.toNat - 1) = a - size.count.toNat := by omega
        rw [if_pos hfull, if_pos (by omega), List.getElem?_reverse (by omega), htake, hindex,
          List.getElem?_take_of_lt (by omega)]
      · rw [if_neg hfull, if_neg (by omega)]
        rfl

/-! ## Moves -/

/-- The pages that are shown by going to and fro: the first one, and every page that a token on
    either side of such a page leads to. -/
inductive Shown (p : Pager) (s : Snapshot α) : Page α → Prop where
  | first {page : Page α} (h : p.page s.read none = .ok page) : Shown p s page
  | move {page page' : Page α} {reverse : Bool} {token : String} (h : Shown p s page)
      (htoken : page.link reverse = some token) (h' : p.page s.read (some token) = .ok page') :
      Shown p s page'

/-- Which stretches of `n` rows are shown in pages of a size: one that does not reach the end begins
    as far before its own end as the size allows. -/
structure Frame (n size a b : Nat) : Prop where
  le : a ≤ b
  le_length : b ≤ n
  lt : 0 < n → a < b
  back : b < n → a = b - size

section

variable {p : Pager} {s : Snapshot α}

/-- The first page is the first window. -/
theorem page_none
    (hties : ∀ row ∈ s.rows, countTied p.order s.rows (p.order.valuesOf row) ≤ p.size.count.toNat) :
    p.page s.read none
      = .ok (window p.order s.rows 0 (min p.size.count.toNat s.rows.length)) := by
  have hpoint : ∀ m ∈ (none : Option (α × Nat)), Readable p s.rows false m :=
    fun _ hm => nomatch hm
  obtain ⟨page, hpage, hat⟩ := pageOfSize_tokenAt hpoint p.size
  have hwindow := eq_window_of_forward (b := 0) hat (fun _ hm => nomatch hm) hties rfl rfl
  rw [Nat.zero_add] at hwindow
  rw [← hwindow]
  exact hpage

/-- A row of the collection whose token is short can be read, without a cutoff. -/
theorem readable_of_getElem? {reverse : Bool} {i : Nat} {m : α × Nat} (hcutoff : p.cutoff = none)
    (hm : (Rows.inOrder p.order s.rows)[i]? = some m)
    (hfits : (Token.encode (mark p.order s.rows reverse m)).utf8ByteSize ≤ Token.maxLength) :
    ∀ m' ∈ some m, Readable p s.rows reverse m' := by
  intro m' hm'
  obtain rfl := Option.some.inj hm'
  refine ⟨Rows.mem_inOrder.mp (List.mem_of_getElem? hm), hfits, fun bound hbound => ?_⟩
  rw [hcutoff] at hbound
  exact nomatch hbound

/-- The token after a window leads to the window that begins where it ends. -/
theorem page_next {a b : Nat} {token : String} (hcutoff : p.cutoff = none)
    (hties : ∀ row ∈ s.rows, countTied p.order s.rows (p.order.valuesOf row) ≤ p.size.count.toNat)
    (hb : 0 < b) (htoken : (window p.order s.rows a b).next = some token)
    (hfits : token.utf8ByteSize ≤ Token.maxLength) :
    b < s.rows.length ∧ p.page s.read (some token)
      = .ok (window p.order s.rows b (min (b + p.size.count.toNat) s.rows.length)) := by
  change (if b < s.rows.length then _ else none) = some token at htoken
  split at htoken
  · next hlt =>
    obtain ⟨m, hm, rfl⟩ := Option.map_eq_some_iff.mp htoken
    have hpoint := readable_of_getElem? hcutoff hm hfits
    obtain ⟨page, hpage, hat⟩ := pageOfSize_tokenAt hpoint p.size
    have hahead : ahead p.order s.rows false (some m) = (Rows.inOrder p.order s.rows).drop b := by
      rw [ahead_getElem hm, Nat.sub_add_cancel hb]
    have hcursor : (cursorAt p.order s.rows false (some m)).isSome = decide (0 < b) :=
      (decide_eq_true hb).symm
    have hwindow :=
      eq_window_of_forward hat (fun m' hm' => (hpoint m' hm').mem) hties hahead hcursor
    rw [← hwindow]
    exact ⟨hlt, hpage⟩
  · exact nomatch htoken

/-- The token before a window leads to the window that ends where it begins. -/
theorem page_previous {a b : Nat} {token : String} (hcutoff : p.cutoff = none)
    (hties : ∀ row ∈ s.rows, countTied p.order s.rows (p.order.valuesOf row) ≤ p.size.count.toNat)
    (htoken : (window p.order s.rows a b).previous = some token)
    (hfits : token.utf8ByteSize ≤ Token.maxLength) :
    0 < a ∧ p.page s.read (some token)
      = .ok (window p.order s.rows (a - p.size.count.toNat) a) := by
  change (if 0 < a then _ else none) = some token at htoken
  split at htoken
  · next ha =>
    obtain ⟨m, hm, rfl⟩ := Option.map_eq_some_iff.mp htoken
    have hpoint := readable_of_getElem? hcutoff hm hfits
    obtain ⟨page, hpage, hat⟩ := pageOfSize_tokenAt hpoint p.size
    rw [← eq_window_of_backward hat hties hm ha]
    exact ⟨ha, hpage⟩
  · exact nomatch htoken

/-- Whether every token on a page that is shown is short enough to be read. -/
def ShownTokensFit (p : Pager) (s : Snapshot α) : Prop :=
  ∀ page, Shown p s page → ∀ (reverse : Bool), ∀ token ∈ page.link reverse,
    token.utf8ByteSize ≤ Token.maxLength

/-- Where rows have short positions, so are the tokens of the pages that are shown. -/
theorem shownTokensFit_of_short
    (hshort : ∀ row ∈ s.rows,
      (Position.ofValues (p.order.valuesOf row)).text.utf8ByteSize ≤ 2000) :
    ShownTokensFit p s := by
  intro page hshown reverse token htoken
  cases hshown with
  | first h => exact utf8ByteSize_link_le hshort h htoken
  | move _ _ h' => exact utf8ByteSize_link_le hshort h' htoken

/-- Every page that is shown is a window. -/
theorem exists_frame_of_shown (hcutoff : p.cutoff = none)
    (hties : ∀ row ∈ s.rows, countTied p.order s.rows (p.order.valuesOf row) ≤ p.size.count.toNat)
    (hfits : ShownTokensFit p s) {page : Page α} (h : Shown p s page) :
    ∃ a b, Frame s.rows.length p.size.count.toNat a b ∧ page = window p.order s.rows a b := by
  have hpos := size_pos p.size
  induction h with
  | first h =>
    rw [page_none hties] at h
    exact ⟨0, _, ⟨Nat.zero_le _, by omega, by omega, by omega⟩, (Except.ok.inj h).symm⟩
  | @move page page' reverse token h htoken h' ih =>
    -- whichever token was followed, it leads from a window to a window
    obtain ⟨a, b, hframe, rfl⟩ := ih
    have hle := hframe.le
    have hend := hframe.le_length
    have hlt := hframe.lt
    have hshort := hfits _ h reverse token htoken
    cases reverse with
    | false =>
      have hb : 0 < b := by
        refine Nat.pos_of_ne_zero fun hzero => ?_
        rw [hzero] at htoken hlt
        change (if 0 < s.rows.length then _ else none) = some token at htoken
        split at htoken
        · omega
        · exact nomatch htoken
      obtain ⟨hmore, hnext⟩ := page_next hcutoff hties hb htoken hshort
      rw [hnext] at h'
      exact ⟨b, _, ⟨by omega, by omega, by omega, by omega⟩, (Except.ok.inj h').symm⟩
    | true =>
      obtain ⟨ha, hprevious⟩ := page_previous hcutoff hties htoken hshort
      rw [hprevious] at h'
      exact ⟨_, a, ⟨by omega, by omega, by omega, fun _ => rfl⟩, (Except.ok.inj h').symm⟩

/-- What a page shows of a collection: the rows in order from the `a`-th up to the `b`-th, with a
    token on each side on which there are more. -/
structure Shows (p : Pager) (s : Snapshot α) (a b : Nat) (page : Page α) : Prop where
  le : a ≤ b
  le_length : b ≤ s.rows.length
  items : page.items = ((Rows.sorted p.order s.rows).take b).drop a
  next_iff : page.next.isSome ↔ b < s.rows.length
  previous_iff : page.previous.isSome ↔ 0 < a
  nonempty : s.rows ≠ [] → page.items ≠ []

/-- A window shows the stretch that it was made for. -/
theorem shows_window {size a b : Nat} (h : Frame s.rows.length size a b) :
    Shows p s a b (window p.order s.rows a b) := by
  have hlen := Rows.length_inOrder p.order s.rows
  have hle := h.le_length
  refine ⟨h.le, h.le_length, ?_, ?_, ?_, ?_⟩
  · show List.map _ _ = ((List.map _ _).take b).drop a
    rw [← List.map_take, ← List.map_drop]
  · show (if b < s.rows.length then _ else none).isSome = true ↔ _
    by_cases hb : b < s.rows.length
    · have hlt := h.lt
      have hsome : b - 1 < (Rows.inOrder p.order s.rows).length := by omega
      rw [if_pos hb, List.getElem?_eq_getElem hsome]
      exact iff_of_true rfl hb
    · rw [if_neg hb]
      exact iff_of_false Bool.false_ne_true hb
  · show (if 0 < a then _ else none).isSome = true ↔ _
    by_cases ha : 0 < a
    · have hlt := h.lt
      have hle' := h.le
      have hsome : a < (Rows.inOrder p.order s.rows).length := by omega
      rw [if_pos ha, List.getElem?_eq_getElem hsome]
      exact iff_of_true rfl ha
    · rw [if_neg ha]
      exact iff_of_false Bool.false_ne_true ha
  · intro hrows hnil
    have hlt := h.lt (List.length_pos_iff.mpr hrows)
    have hzero := congrArg List.length hnil
    simp only [window, List.length_map, List.length_drop, List.length_take, hlen,
      List.length_nil] at hzero
    omega

end

/-- However one goes to and fro, every page is a window: its tokens lead to the windows on both
    sides of it, and from the window after it back to the same page. -/
theorem shown_window (p : Pager) (s : Snapshot α) (hcutoff : p.cutoff = none)
    (hties : ∀ row ∈ s.rows, countTied p.order s.rows (p.order.valuesOf row) ≤ p.size.count.toNat)
    (hfits : ShownTokensFit p s) :
    (∃ first, p.page s.read none = .ok first ∧
      Shows p s 0 (min p.size.count.toNat s.rows.length) first) ∧
    ∀ page, Shown p s page → ∃ a b, Shows p s a b page ∧
      (∀ token ∈ page.next, ∃ next, p.page s.read (some token) = .ok next ∧
        Shows p s b (min (b + p.size.count.toNat) s.rows.length) next ∧
        ∃ back ∈ next.previous, p.page s.read (some back) = .ok page) ∧
      (∀ token ∈ page.previous, ∃ previous, p.page s.read (some token) = .ok previous ∧
        Shows p s (a - p.size.count.toNat) a previous) := by
  have hpos := size_pos p.size
  constructor
  · have hframe : Frame s.rows.length p.size.count.toNat 0
        (min p.size.count.toNat s.rows.length) :=
      ⟨Nat.zero_le _, by omega, by omega, by omega⟩
    exact ⟨_, page_none hties, shows_window hframe⟩
  intro page hshown
  obtain ⟨a, b, hframe, rfl⟩ := exists_frame_of_shown hcutoff hties hfits hshown
  have hle := hframe.le
  have hend := hframe.le_length
  have hlt := hframe.lt
  have hback := hframe.back
  have hshows : Shows p s a b (window p.order s.rows a b) := shows_window hframe
  refine ⟨a, b, hshows, ?_, ?_⟩
  · intro token htoken
    have hb : b < s.rows.length := hshows.next_iff.mp (Option.isSome_of_mem htoken)
    obtain ⟨-, hnext⟩ := page_next hcutoff hties (by omega) htoken
      (hfits _ hshown false token htoken)
    have hnextframe : Frame s.rows.length p.size.count.toNat b
        (min (b + p.size.count.toNat) s.rows.length) :=
      ⟨by omega, by omega, by omega, by omega⟩
    have hnextshows := shows_window (p := p) hnextframe
    refine ⟨_, hnext, hnextshows, ?_⟩
    -- the window after this one has a token that leads back, as far as the size goes
    obtain ⟨back, hsome⟩ := Option.isSome_iff_exists.mp (hnextshows.previous_iff.mpr (by omega))
    have hlink : (window p.order s.rows a b).link false = some token := htoken
    have hnextshown : Shown p s _ := .move hshown hlink hnext
    obtain ⟨-, hreturn⟩ := page_previous hcutoff hties hsome (hfits _ hnextshown true back hsome)
    refine ⟨back, hsome, ?_⟩
    rw [hreturn, ← hback hb]
  · intro token htoken
    obtain ⟨ha, hprevious⟩ := page_previous hcutoff hties htoken
      (hfits _ hshown true token htoken)
    exact ⟨_, hprevious, shows_window ⟨by omega, by omega, by omega, fun _ => rfl⟩⟩

/-- Three documents, two of which tie, in pages of two. -/
theorem shown_window_sample :
    (∃ first, samplePager.page sampleDocuments.read none = .ok first ∧
      Shows samplePager sampleDocuments 0 2 first) ∧
    ∀ page, Shown samplePager sampleDocuments page →
      ∃ a b, Shows samplePager sampleDocuments a b page ∧
        (∀ token ∈ page.next, ∃ next,
          samplePager.page sampleDocuments.read (some token) = .ok next ∧
          Shows samplePager sampleDocuments b (min (b + 2) 3) next ∧
          ∃ back ∈ next.previous,
            samplePager.page sampleDocuments.read (some back) = .ok page) ∧
        (∀ token ∈ page.previous, ∃ previous,
          samplePager.page sampleDocuments.read (some token) = .ok previous ∧
          Shows samplePager sampleDocuments (a - 2) a previous) :=
  shown_window samplePager sampleDocuments rfl (by decide) (shownTokensFit_of_short (by decide))

end Keyset.Pager
