import Keyset.Proofs.Pager.Walk

/-! # Tokens that a pager issues and then accepts

    A pager reads any token that carries the position of a row and is not too
    long (`exists_page_of_position`): the position has one value for each field
    of the order, so the boundary is made, and reading from memory never fails.

    The tokens on a page carry positions of its rows.  So one that is handed back
    is refused for its length only (`page_accepts_link`), and it does come to
    that: nothing bounds the values that a row holds (`page_refuses_link`). -/

namespace Keyset.Pager

variable {α : Type} [HasFields α]

/-- A token that carries the position of a row, whatever its offset and direction, gives a page
    unless it is too long. -/
theorem exists_page_of_position {p : Pager} {c : Cursor} {row : α}
    (hposition : c.position = some (Position.ofValues (p.order.valuesOf row)))
    (hfits : (Token.encode c).utf8ByteSize ≤ Token.maxLength) (s : Snapshot α) (size : PageSize) :
    ∃ page, p.pageOfSize s.read (some (Token.encode c)) size.count = .ok page := by
  have hstart : c ≠ .start := by
    rintro rfl
    exact nomatch hposition
  -- what the position reads as ties with the row, so there is one value for each field
  obtain ⟨values, hvalues, htied⟩ := values_of_fits hposition hfits
  obtain ⟨offset, reverse, position⟩ := c
  obtain rfl : position = some (Position.ofValues (p.order.valuesOf row)) := hposition
  have hdecode := Token.decode_encode hstart hfits p.cutoff
  obtain ⟨q, hquery, -, hbegins⟩ :=
    queryAt_position hvalues htied s.rows (Number.heldAt p.cutoff offset) reverse size
  exact ⟨_, pageOfSize_of_begins hdecode hquery hbegins⟩

/-- A token on either side of a page, handed back to the pager that issued it, gives a page, unless
    it is too long; and then it is refused for that. -/
theorem page_accepts_link {p : Pager} {s : Snapshot α} {token : Option String} {page : Page α}
    {reverse : Bool} {next : String} (hpage : p.page s.read token = .ok page)
    (hnext : page.link reverse = some next) :
    (next.utf8ByteSize ≤ Token.maxLength → ∃ again, p.page s.read (some next) = .ok again) ∧
    (Token.maxLength < next.utf8ByteSize →
      p.page s.read (some next) = .error (.token (.tooLong next.utf8ByteSize Token.maxLength))) := by
  obtain ⟨plan, rfl⟩ := assemble_of_pageOfSize hpage
  obtain ⟨row, -, c, rfl, hposition⟩ := position_of_link hnext
  constructor
  · intro hfits
    exact exists_page_of_position hposition hfits s p.size
  · intro hlong
    exact pageOfSize_tooLong hlong s p.size

/-- The first page of more rows than it holds has the token of one of the rows. -/
theorem exists_link_of_lt {p : Pager} {s : Snapshot α} (h : p.size.count.toNat < s.rows.length) :
    ∃ page row c, p.page s.read none = .ok page ∧ page.link false = some (Token.encode c) ∧
      row ∈ s.rows ∧ c.position = some (Position.ofValues (p.order.valuesOf row)) := by
  have hpoint : ∀ m ∈ (none : Option (α × Nat)), Readable p s.rows false m :=
    fun _ hm => nomatch hm
  obtain ⟨page, hpage, hat⟩ := pageOfSize_tokenAt hpoint p.size
  have hlen : (ahead p.order s.rows false none).length = s.rows.length :=
    Rows.length_inOrder p.order s.rows
  cases hnext : nextPoint p.size.count.toNat (ahead p.order s.rows false none) with
  | none =>
    have hle := (nextPoint_eq_none_iff (size_pos p.size)).mp hnext
    omega
  | some m =>
    obtain ⟨hm, -⟩ := ahead_nextPoint (fun m hm => (hpoint m hm).mem) hnext
    exact ⟨page, m.1, mark p.order s.rows false m, hpage, link_some hat hnext,
      List.fst_mem_of_mem_zipIdx hm, rfl⟩

/-- The token after the first two of three documents is accepted. -/
theorem page_accepts_link_sample :
    ∃ page next, samplePager.page sampleDocuments.read none = .ok page ∧
      page.link false = some next ∧
      ∃ again, samplePager.page sampleDocuments.read (some next) = .ok again := by
  obtain ⟨page, row, c, hpage, hnext, -, -⟩ :=
    exists_link_of_lt (p := samplePager) (s := sampleDocuments) (by decide)
  have hshort : ∀ row ∈ sampleDocuments.rows,
      (Position.ofValues (samplePager.order.valuesOf row)).text.utf8ByteSize ≤ 2000 := by decide
  exact ⟨page, _, hpage, hnext,
    (page_accepts_link hpage hnext).1 (utf8ByteSize_link_le hshort hpage hnext)⟩

/-! ## A token that is too long -/

/-- A text that is as long as a token may be. -/
def longText : String := String.ofList (List.replicate Token.maxLength 'a')

/-- Two documents with that text. -/
def longDocuments : Snapshot Document where
  rows := [[("k", .string longText)], [("k", .string longText)]]
  length_le := by decide

theorem byteCount_replicate (n : Nat) : Position.byteCount (List.replicate n 'a') = n := by
  induction n with
  | zero => rfl
  | succ n ih =>
    rw [List.replicate_succ, Position.byteCount, ih]
    exact Nat.add_comm 1 n

/-- A row with that text has a position that no token can carry. -/
theorem lt_utf8ByteSize_of_long {c : Cursor}
    (h : c.position = some (Position.ofValues [.string longText])) :
    Token.maxLength < (Token.encode c).utf8ByteSize := by
  have hle := Token.utf8ByteSize_position_le h
  have hcontent : Position.byteCount (Position.content (.string longText)) = Token.maxLength := by
    show Position.byteCount (String.ofList _).toList = _
    rw [String.toList_ofList, byteCount_replicate]
  have hsize : (Position.ofValues [.string longText]).text.utf8ByteSize
      = Position.byteCount (Position.encode [.string longText]) :=
    (Position.byteCount_eq _).symm
  have htag : (Position.tag (.string longText)).utf8Size = 1 := rfl
  rw [hsize, Position.encode_cons, Position.byteCount, Position.byteCount_append,
    Position.byteCount, Position.byteCount_append, hcontent, htag] at hle
  omega

/-- The first page of two long documents has a token that its own pager refuses. -/
theorem page_refuses_link :
    ∃ page next, singlePager.page longDocuments.read none = .ok page ∧
      page.link false = some next ∧
      singlePager.page longDocuments.read (some next)
        = .error (.token (.tooLong next.utf8ByteSize Token.maxLength)) := by
  obtain ⟨page, row, c, hpage, hnext, hrow, hposition⟩ :=
    exists_link_of_lt (p := singlePager) (s := longDocuments) (by decide)
  have hvalues : sampleOrder.valuesOf row = [.string longText] := by
    simp only [longDocuments, List.mem_cons, List.not_mem_nil, or_false, or_self] at hrow
    rw [hrow]
    rfl
  have hlong := lt_utf8ByteSize_of_long (hposition.trans (by rw [← hvalues]; rfl))
  refine ⟨page, _, hpage, hnext, ?_⟩
  rw [Pager.page]
  exact pageOfSize_tooLong hlong longDocuments singlePager.size

end Keyset.Pager
