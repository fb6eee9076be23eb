import Keyset.Proofs.Pager.Tally
import Keyset.Proofs.Pager.Walk

/-! # Walking with a cutoff

    A reader with a cutoff holds the offset of a token at it.  So the token of a
    row at which more rows of its run were passed is taken for that of an EARLIER
    row of the run (`Resumes`), and the page goes on from there: a walk falls
    back in a run that is longer than the cutoff allows for.

    As long as a page is longer than the fall, a walk still gets on.  A row at
    which more rows of its run were passed than the cutoff and a page make up
    together is never got over: the place from which a page is read stays at most
    one row and the cutoff beyond the rows before that run (`not_ends_of_held`).
    Such a row is the only obstacle, and a walk that reaches one gives the same
    page from then on (`ends_or_repeats`, `walk_cutoff`). -/

namespace Keyset.Pager

open Number

variable {α : Type} [HasFields α]

/-! ## Where a token leads under a cutoff -/

/-- The token of a row is taken under a cutoff for that of a row of its run: of the row itself, if
    no more rows were passed at it than the cutoff and one more. -/
structure Resumes (o : SortOrder) (rows : List α) (bound : Nat) (m m' : α × Nat) : Prop where
  mem : m' ∈ rows.zipIdx
  tied : Rows.tied o m' m = true
  passed : Rows.passed o rows m' = min (Rows.passed o rows m) (bound + 1)

theorem exists_resumes {o : SortOrder} {rows : List α} {m : α × Nat} (hm : m ∈ rows.zipIdx)
    (bound : Nat) : ∃ m', Resumes o rows bound m m' := by
  have hpos : 0 < min (Rows.passed o rows m) (bound + 1) := by
    have := Rows.passed_pos (o := o) hm
    omega
  obtain ⟨m', hm', htied, hpassed⟩ := Rows.exists_passed hm hpos (Nat.min_le_left _ _)
  exact ⟨m', { mem := hm', tied := htied, passed := hpassed }⟩

/-- How many rows of the list in order are behind the page of the token at a point. -/
def resumption (o : SortOrder) (rows : List α) (bound : Nat) : Option (α × Nat) → Nat
  | none => 0
  | some m => Rows.before o rows m + min (Rows.passed o rows m) (bound + 1)

theorem Resumes.place {o : SortOrder} {rows : List α} {bound : Nat} {m m' : α × Nat}
    (h : Resumes o rows bound m m') :
    Rows.place o rows (some m') = resumption o rows bound (some m) := by
  rw [Rows.place, resumption, Rows.before_of_tied h.tied, h.passed]

/-- A mark that is held at a cutoff has the offset of the row that it is taken for. -/
theorem Resumes.heldAt {o : SortOrder} {rows : List α} {reverse : Bool} {bound : UInt64}
    {m m' : α × Nat} (hlen : rows.length ≤ maxCount) (hm : m ∈ rows.zipIdx)
    (h : Resumes (o.toward reverse) rows bound.toNat m m') :
    heldAt (some bound) (mark o rows reverse m).offset = (mark o rows reverse m').offset := by
  have hoffset := toNat_offset_mark (o := o) reverse hlen hm
  have hoffset' := toNat_offset_mark (o := o) reverse hlen h.mem
  have hpassed := h.passed
  refine UInt64.toNat_inj.mp ?_
  show (min _ bound).toNat = _
  rw [toNat_min]
  omega

/-- The token of a row gives the page at the row that it is taken for. -/
theorem pageOfSize_resumes {p : Pager} {s : Snapshot α} {reverse : Bool} {bound : UInt64}
    {m m' : α × Nat} (hcutoff : p.cutoff = some bound) (hm : m ∈ s.rows.zipIdx)
    (h : Resumes (p.order.toward reverse) s.rows bound.toNat m m')
    (hfits : (Token.encode (mark p.order s.rows reverse m)).utf8ByteSize ≤ Token.maxLength)
    (size : PageSize) :
    ∃ page, p.pageOfSize s.read (tokenAt p.order s.rows reverse (some m)) size.count = .ok page ∧
      PageAt p.order s.rows reverse (some m') size page := by
  have htied : Rows.tied p.order m' m = true := by
    rw [← tied_toward p.order reverse]
    exact h.tied
  refine pageOfSize_tied rfl hfits h.mem htied ?_ size
  rw [hcutoff, h.heldAt s.length_le hm]
  exact toNat_offset_mark reverse s.length_le h.mem

/-! ## Steps -/

/-- A walk in pages of one size through a collection that does not change. -/
def steadyWalk (p : Pager) (s : Snapshot α) (reverse : Bool) (token : Option String) (n : Nat) :
    List (Except Failure (Page α)) :=
  walk p reverse token (List.replicate n ⟨s, p.size⟩)

/-- Whether a walk has come to a page without a token to follow. -/
def Ends (reverse : Bool) (answers : List (Except Failure (Page α))) : Prop :=
  ∃ last, answers.getLast? = some (.ok last) ∧ last.link reverse = none

/-- Whether a walk gives one page for ever, whatever the number of requests, after some others. -/
def Repeats (answers : Nat → List (Except Failure (Page α))) : Prop :=
  ∃ (pages : List (Page α)) (page : Page α), ∀ n,
    answers (pages.length + n) = pages.map .ok ++ List.replicate n (.ok page)

/-- A point that a walk has reached, all tokens of which are short enough to be read. -/
structure Reached (p : Pager) (s : Snapshot α) (reverse : Bool) (point : Option (α × Nat)) :
    Prop where
  mem : ∀ m ∈ point, m ∈ s.rows.zipIdx
  fits : ∀ m ∈ point, (Token.encode (mark p.order s.rows reverse m)).utf8ByteSize ≤ Token.maxLength
  later : ∀ n, TokensFit p reverse (tokenAt p.order s.rows reverse point)
    (List.replicate n ⟨s, p.size⟩)

/-- What the page of the token at a point leads to under a cutoff: to no token if it holds all rows
    there are, and else to the row that lies a page beyond the place where it begins. -/
inductive LeadsTo (p : Pager) (s : Snapshot α) (reverse : Bool) (bound : Nat)
    (point : Option (α × Nat)) (page : Page α) : Prop where
  | ends (link : page.link reverse = none)
      (length_le : s.rows.length
        ≤ resumption (p.order.toward reverse) s.rows bound point + p.size.count.toNat)
  | row (m : α × Nat) (reached : Reached p s reverse (some m))
      (link : page.link reverse = tokenAt p.order s.rows reverse (some m))
      (place : Rows.place (p.order.toward reverse) s.rows (some m)
        = resumption (p.order.toward reverse) s.rows bound point + p.size.count.toNat)
      (place_lt : Rows.place (p.order.toward reverse) s.rows (some m) < s.rows.length)

omit [HasFields α] in
theorem ends_cons_iff {reverse : Bool} {page : Page α} {next : String}
    (hlink : page.link reverse = some next) (answers : List (Except Failure (Page α))) :
    Ends reverse (.ok page :: answers) ↔ Ends reverse answers := by
  cases answers with
  | nil =>
    refine iff_of_false ?_ fun ⟨last, hlast, _⟩ => nomatch hlast
    rintro ⟨last, hlast, hnone⟩
    obtain rfl : page = last := Except.ok.inj (Option.some.inj hlast)
    exact nomatch hlink.symm.trans hnone
  | cons answer answers =>
    unfold Ends
    rw [List.getLast?_cons_cons]

theorem steadyWalk_of_link_some {p : Pager} {s : Snapshot α} {reverse : Bool}
    {token : Option String} {page : Page α} {next : String}
    (hpage : p.pageOfSize s.read token p.size.count = .ok page)
    (hlink : page.link reverse = some next) (n : Nat) :
    steadyWalk p s reverse token (n + 1)
      = .ok page :: steadyWalk p s reverse (some next) n := by
  unfold steadyWalk
  rw [List.replicate_succ]
  exact walk_of_link_some hpage hlink _

/-- The token at a point gives the page at the point that it is taken for. -/
theorem exists_pageAt {p : Pager} {s : Snapshot α} {reverse : Bool} {bound : UInt64}
    {point : Option (α × Nat)} (hcutoff : p.cutoff = some bound) (h : Reached p s reverse point) :
    ∃ page point',
      p.pageOfSize s.read (tokenAt p.order s.rows reverse point) p.size.count = .ok page ∧
      PageAt p.order s.rows reverse point' p.size page ∧ (∀ m ∈ point', m ∈ s.rows.zipIdx) ∧
      Rows.place (p.order.toward reverse) s.rows point'
        = resumption (p.order.toward reverse) s.rows bound.toNat point := by
  cases point with
  | none =>
    have hreadable : ∀ m ∈ (none : Option (α × Nat)), Readable p s.rows reverse m :=
      fun _ hm => nomatch hm
    obtain ⟨page, hpage, hat⟩ := pageOfSize_tokenAt hreadable p.size
    exact ⟨page, none, hpage, hat, (fun _ hm => nomatch hm), rfl⟩
  | some m =>
    obtain ⟨m', hresumes⟩ := exists_resumes (o := p.order.toward reverse) (h.mem m rfl) bound.toNat
    obtain ⟨page, hpage, hat⟩ :=
      pageOfSize_resumes hcutoff (h.mem m rfl) hresumes (h.fits m rfl) p.size
    exact ⟨page, some m', hpage, hat, Rows.forall_mem_some hresumes.mem, hresumes.place⟩

/-- At a point that a walk has reached there is a page, and it leads on or is the last one. -/
theorem exists_leadsTo {p : Pager} {s : Snapshot α} {reverse : Bool} {bound : UInt64}
    {point : Option (α × Nat)} (hcutoff : p.cutoff = some bound) (h : Reached p s reverse point) :
    ∃ page, p.pageOfSize s.read (tokenAt p.order s.rows reverse point) p.size.count = .ok page ∧
      LeadsTo p s reverse bound.toNat point page := by
  obtain ⟨page, point', hpage, hat, hmem, hplace⟩ := exists_pageAt hcutoff h
  have hlength := Rows.place_add_length (o := p.order.toward reverse) hmem
  refine ⟨page, hpage, ?_⟩
  cases hnext : nextPoint p.size.count.toNat (ahead p.order s.rows reverse point') with
  | none =>
    have hle : (Rows.remaining (p.order.toward reverse) s.rows point').length ≤ _ :=
      (nextPoint_eq_none_iff (size_pos p.size)).mp hnext
    exact .ends (link_none hat hnext) (by omega)
  | some m =>
    have hlink := link_some hat hnext
    have hlt : _ < (Rows.remaining (p.order.toward reverse) s.rows point').length :=
      (nextPoint_eq_some_iff.mp hnext).1
    obtain ⟨hm, hahead⟩ := ahead_nextPoint hmem hnext
    have hmem' : ∀ m' ∈ some m, m' ∈ s.rows.zipIdx := Rows.forall_mem_some hm
    -- a page less remains at the row, so its place is a page further on
    have hlength' := Rows.place_add_length (o := p.order.toward reverse) hmem'
    have hdrop := congrArg List.length hahead
    rw [List.length_drop] at hdrop
    have hlater : ∀ n, TokensFit p reverse (tokenAt p.order s.rows reverse (some m))
        (List.replicate n ⟨s, p.size⟩) := fun n => (h.later (n + 1)).tail hpage hlink
    have hsize := size_pos p.size
    simp only [ahead] at hdrop
    exact .row m ⟨hmem', Rows.forall_mem_some ((h.later 1).head hpage hlink), hlater⟩ hlink
      (by omega) (by omega)

/-! ## Getting stuck -/

/-- A walk does not get over a row at which more rows of its run were passed than the cutoff and a
    page make up: no page begins beyond the rows that the cutoff leaves of that run. -/
theorem not_ends_of_held {p : Pager} {s : Snapshot α} {reverse : Bool} {bound : UInt64}
    {m : α × Nat} (hcutoff : p.cutoff = some bound) (hm : m ∈ s.rows.zipIdx)
    (hplace : Rows.place (p.order.toward reverse) s.rows (some m) < s.rows.length)
    (hpassed : bound.toNat + p.size.count.toNat < Rows.passed (p.order.toward reverse) s.rows m)
    {point : Option (α × Nat)} (h : Reached p s reverse point)
    (hresumption : resumption (p.order.toward reverse) s.rows bound.toNat point
      ≤ Rows.before (p.order.toward reverse) s.rows m + (bound.toNat + 1)) (n : Nat) :
    ¬Ends reverse (steadyWalk p s reverse (tokenAt p.order s.rows reverse point) n) := by
  induction n generalizing point with
  | zero =>
    rintro ⟨last, hlast, -⟩
    exact nomatch hlast
  | succ n ih =>
    obtain ⟨page, hpage, hleads⟩ := exists_leadsTo hcutoff h
    have hsplit : Rows.place (p.order.toward reverse) s.rows (some m)
        = Rows.before (p.order.toward reverse) s.rows m
          + Rows.passed (p.order.toward reverse) s.rows m := rfl
    cases hleads with
    | ends _ hle => omega
    | row next hreached hlink hnext _ =>
      -- the page ends no later than at the row, so the next one begins in its run or before
      have hbefore := Rows.before_le_of_place (hreached.mem next rfl) hm
        (by omega : Rows.place (p.order.toward reverse) s.rows (some next) ≤ _)
      have hresumption' : resumption (p.order.toward reverse) s.rows bound.toNat (some next)
          ≤ Rows.before (p.order.toward reverse) s.rows m + (bound.toNat + 1) :=
        Nat.add_le_add hbefore (Nat.min_le_right _ _)
      rw [steadyWalk_of_link_some hpage hlink, ends_cons_iff hlink]
      exact ih hreached hresumption'

/-- A walk whose page leads to the token of the page gives it for ever. -/
theorem steadyWalk_of_fixed {p : Pager} {s : Snapshot α} {reverse : Bool} {token : String}
    {page : Page α} (hpage : p.pageOfSize s.read (some token) p.size.count = .ok page)
    (hlink : page.link reverse = some token) (n : Nat) :
    steadyWalk p s reverse (some token) n = List.replicate n (.ok page) := by
  induction n with
  | zero => rfl
  | succ n ih => rw [steadyWalk_of_link_some hpage hlink, ih, List.replicate_succ]

/-- A walk repeats itself if it does from its second request on. -/
theorem repeats_of_link_some {p : Pager} {s : Snapshot α} {reverse : Bool} {token : Option String}
    {page : Page α} {next : String}
    (hpage : p.pageOfSize s.read token p.size.count = .ok page)
    (hlink : page.link reverse = some next) (h : Repeats (steadyWalk p s reverse (some next))) :
    Repeats (steadyWalk p s reverse token) := by
  obtain ⟨pages, same, hsame⟩ := h
  refine ⟨page :: pages, same, fun n => ?_⟩
  rw [List.length_cons, Nat.add_right_comm, steadyWalk_of_link_some hpage hlink, hsame]
  rfl

/-- From a row at which too many rows of its run were passed a walk repeats itself: the page after
    it leads to one row of the run, whichever row it was read from. -/
theorem repeats_of_held {p : Pager} {s : Snapshot α} {reverse : Bool} {bound : UInt64}
    {m : α × Nat} (hcutoff : p.cutoff = some bound)
    (hplace : Rows.place (p.order.toward reverse) s.rows (some m) < s.rows.length)
    (hpassed : bound.toNat + p.size.count.toNat < Rows.passed (p.order.toward reverse) s.rows m)
    (h : Reached p s reverse (some m)) :
    Repeats (steadyWalk p s reverse (tokenAt p.order s.rows reverse (some m))) := by
  have hsplit : ∀ m, Rows.place (p.order.toward reverse) s.rows (some m)
      = Rows.before (p.order.toward reverse) s.rows m
        + Rows.passed (p.order.toward reverse) s.rows m := fun _ => rfl
  -- the row of the run at which as many rows were passed as the cutoff, one more and a page make up
  obtain ⟨held, hmem, htied, hcount⟩ := Rows.exists_passed (o := p.order.toward reverse)
    (n := bound.toNat + 1 + p.size.count.toNat) (h.mem m rfl) (by omega) (by omega)
  have hbefore : Rows.before (p.order.toward reverse) s.rows held
      = Rows.before (p.order.toward reverse) s.rows m := Rows.before_of_tied htied
  have hleads : ∀ m', Reached p s reverse (some m') →
      Rows.before (p.order.toward reverse) s.rows m'
        = Rows.before (p.order.toward reverse) s.rows m →
      bound.toNat + p.size.count.toNat < Rows.passed (p.order.toward reverse) s.rows m' →
      ∃ page, p.pageOfSize s.read (tokenAt p.order s.rows reverse (some m')) p.size.count
          = .ok page ∧ Reached p s reverse (some held) ∧
        page.link reverse = tokenAt p.order s.rows reverse (some held) := by
    intro m' hreached hsame hlarge
    obtain ⟨page, hpage, hleads⟩ := exists_leadsTo hcutoff hreached
    have hresumption : resumption (p.order.toward reverse) s.rows bound.toNat (some m')
        = Rows.before (p.order.toward reverse) s.rows m + (bound.toNat + 1) := by
      rw [resumption, hsame, Nat.min_eq_right (by omega)]
    have := hsplit m
    have := hsplit held
    cases hleads with
    | ends _ hle => omega
    | row next hnext hlink hplace' _ =>
      obtain rfl : next = held :=
        Rows.eq_of_place (o := p.order.toward reverse) (hnext.mem next rfl) hmem (by omega)
      exact ⟨page, hpage, hnext, hlink⟩
  obtain ⟨first, hfirst, hreached, hlink⟩ := hleads m h rfl hpassed
  obtain ⟨page, hpage, -, hlink'⟩ := hleads held hreached hbefore (by omega)
  refine repeats_of_link_some hfirst hlink ⟨[], page, fun n => ?_⟩
  rw [List.length_nil, Nat.zero_add]
  exact steadyWalk_of_fixed hpage hlink' n

/-- A walk comes to its end, or reaches a row at which too many rows of its run were passed. -/
theorem ends_or_repeats {p : Pager} {s : Snapshot α} {reverse : Bool} {bound : UInt64}
    {point : Option (α × Nat)} (hcutoff : p.cutoff = some bound) (h : Reached p s reverse point)
    (hplace : ∀ m ∈ point, Rows.place (p.order.toward reverse) s.rows (some m) < s.rows.length) :
    (∃ n, Ends reverse (steadyWalk p s reverse (tokenAt p.order s.rows reverse point) n)) ∨
    Repeats (steadyWalk p s reverse (tokenAt p.order s.rows reverse point)) ∧
      ∃ m ∈ s.rows.zipIdx, Rows.remaining (p.order.toward reverse) s.rows (some m) ≠ [] ∧
        bound.toNat + p.size.count.toNat < Rows.passed (p.order.toward reverse) s.rows m := by
  obtain ⟨k, hk⟩ : ∃ k, s.rows.length - Rows.place (p.order.toward reverse) s.rows point = k :=
    ⟨_, rfl⟩
  induction k using Nat.strongRecOn generalizing point with
  | ind k ih =>
    by_cases hheld : ∃ m ∈ point,
        bound.toNat + p.size.count.toNat < Rows.passed (p.order.toward reverse) s.rows m
    · obtain ⟨m, hm, hpassed⟩ := hheld
      obtain rfl : point = some m := hm
      have hlength := Rows.place_add_length (o := p.order.toward reverse) h.mem
      have hplace := hplace m rfl
      refine .inr ⟨repeats_of_held hcutoff hplace hpassed h, m, h.mem m rfl, fun hnil => ?_, hpassed⟩
      rw [hnil, List.length_nil] at hlength
      omega
    · obtain ⟨page, hpage, hleads⟩ := exists_leadsTo hcutoff h
      cases hleads with
      | ends hlink _ =>
        refine .inl ⟨1, page, ?_, hlink⟩
        rw [steadyWalk, List.replicate_one, walk_of_link_none hpage hlink]
        rfl
      | row next hreached hlink hnext hlt =>
        -- the page is longer than the fall, so its end lies beyond the point
        have hgain : Rows.place (p.order.toward reverse) s.rows point
            < Rows.place (p.order.toward reverse) s.rows (some next) := by
          rw [hnext]
          have hsize := size_pos p.size
          cases point with
          | none => simp only [Rows.place]; omega
          | some m =>
            have hle : ¬bound.toNat + p.size.count.toNat < _ := fun hlt => hheld ⟨m, rfl, hlt⟩
            simp only [Rows.place, resumption]
            omega
        have hnext' : ∀ m ∈ some next,
            Rows.place (p.order.toward reverse) s.rows (some m) < s.rows.length :=
          Rows.forall_mem_some hlt
        rcases ih _ (by omega) hreached hnext' rfl with ⟨n, hends⟩ | ⟨hrepeats, hmem⟩
        · refine .inl ⟨n + 1, ?_⟩
          rw [steadyWalk_of_link_some hpage hlink]
          exact (ends_cons_iff hlink _).mpr hends
        · exact .inr ⟨repeats_of_link_some hpage hlink hrepeats, hmem⟩

/-- With a cutoff, a walk in pages of one size comes to its end exactly if at no row, other than one
    with nothing after it, more rows of its run were passed than the cutoff and a page make up; and
    else it gives one page for ever. -/
theorem walk_cutoff {p : Pager} {s : Snapshot α} {bound : UInt64} (hcutoff : p.cutoff = some bound)
    (reverse : Bool)
    (hfits : ∀ n, TokensFit p reverse (firstToken reverse) (List.replicate n ⟨s, p.size⟩)) :
    ((∃ n, Ends reverse (steadyWalk p s reverse (firstToken reverse) n)) ↔
      ∀ m ∈ s.rows.zipIdx, Rows.remaining (p.order.toward reverse) s.rows (some m) ≠ [] →
        Rows.passed (p.order.toward reverse) s.rows m ≤ bound.toNat + p.size.count.toNat) ∧
    ((∃ n, Ends reverse (steadyWalk p s reverse (firstToken reverse) n)) ∨
      Repeats (steadyWalk p s reverse (firstToken reverse))) := by
  have hstart : Reached p s reverse none :=
    ⟨(fun _ hm => nomatch hm), (fun _ hm => nomatch hm), hfits⟩
  have hends := ends_or_repeats hcutoff hstart fun _ hm => nomatch hm
  refine ⟨⟨?_, fun hfree => ?_⟩, hends.imp_right And.left⟩
  · rintro ⟨n, hn⟩ m hm hremaining
    refine Nat.le_of_not_lt fun hlt => ?_
    have hpos := List.length_pos_iff.mpr hremaining
    have hlength := Rows.place_add_length (o := p.order.toward reverse) (Rows.forall_mem_some hm)
    exact not_ends_of_held hcutoff hm (by omega) hlt hstart (Nat.zero_le _) n hn
  · rcases hends with hends | ⟨-, m, hm, hremaining, hlt⟩
    · exact hends
    · exact absurd (hfree m hm hremaining) (Nat.not_le_of_lt hlt)

/-- Pages of some size with a cutoff of one row. -/
def heldPager (size : PageSize) : Pager := ⟨sampleOrder, size, some 1⟩

theorem tokensFit_tiedDocuments (size : PageSize) (n : Nat) :
    TokensFit (heldPager size) false (firstToken false)
      (List.replicate n ⟨tiedDocuments, (heldPager size).size⟩) := by
  refine tokensFit_of_short (fun r hr => ?_) false (firstToken false)
  obtain rfl := List.eq_of_mem_replicate hr
  exact short_tiedDocuments

/-- Four documents that tie, in pages of two: a page makes up for the fall of its token. -/
theorem walk_cutoff_pairs :
    ∃ n, Ends false (steadyWalk (heldPager pairs) tiedDocuments false (firstToken false) n) := by
  have hcutoff : (heldPager pairs).cutoff = some 1 := rfl
  refine (walk_cutoff hcutoff false (tokensFit_tiedDocuments pairs)).1.mpr ?_
  show ∀ m ∈ tiedDocuments.rows.zipIdx, Rows.remaining sampleOrder tiedDocuments.rows (some m) ≠ [] →
    Rows.passed sampleOrder tiedDocuments.rows m ≤ 3
  simp only [Rows.remaining, Rows.passed, inOrder_tiedDocuments]
  decide

/-- In pages of one row, no walk through the four documents comes to its end: it does not get over
    the third, at which three rows of the run were passed. -/
theorem walk_held :
    (∀ n, TokensFit (heldPager singles) false (firstToken false)
      (List.replicate n ⟨tiedDocuments, singles⟩)) ∧
    ∀ n, ¬Ends false (steadyWalk (heldPager singles) tiedDocuments false (firstToken false) n) := by
  have hfits := tokensFit_tiedDocuments singles
  have hstart : Reached (heldPager singles) tiedDocuments false none :=
    ⟨(fun _ hm => nomatch hm), (fun _ hm => nomatch hm), hfits⟩
  have hcutoff : (heldPager singles).cutoff = some 1 := rfl
  have hthird : ([("_id", .int32 3), ("k", .int32 1)], 2) ∈ tiedDocuments.rows.zipIdx :=
    List.mem_of_getElem? (i := 2) rfl
  have hplace : Rows.place ((heldPager singles).order.toward false) tiedDocuments.rows
      (some ([("_id", .int32 3), ("k", .int32 1)], 2)) < tiedDocuments.rows.length := by
    show Rows.place sampleOrder _ _ < _
    simp only [Rows.place, Rows.before, Rows.passed, inOrder_tiedDocuments]
    decide
  have hpassed : 2 < Rows.passed ((heldPager singles).order.toward false) tiedDocuments.rows
      ([("_id", .int32 3), ("k", .int32 1)], 2) := by
    show 2 < Rows.passed sampleOrder _ _
    simp only [Rows.passed, inOrder_tiedDocuments]
    decide
  exact ⟨hfits, not_ends_of_held hcutoff hthird hplace hpassed hstart (Nat.zero_le _)⟩

end Keyset.Pager
