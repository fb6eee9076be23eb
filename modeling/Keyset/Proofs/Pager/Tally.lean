import Keyset.Proofs.Pager.Reading
import Keyset.Proofs.Rows.Runs

/-! # Tokens and runs

    A token names a row only up to its run: by values that tie with those of the
    row, and by how many rows of the run were passed.  So it gives the page at the
    row of the run at which as many rows were passed as it says, whichever row it
    was written for (`pageOfSize_tied`).

    A tally may count fewer rows than were passed at its row.  Without a cutoff its
    page then begins that many rows behind the ones before the run
    (`pageOfSize_tally`). -/

namespace Keyset.Pager

open Number

variable {α : Type} [HasFields α]

/-- A page does not depend on the position that its cursor has. -/
theorem assemble_position (o : SortOrder) (offset : UInt64) (reverse : Bool)
    (position position' : Option Position) (size : PageSize) (q : Query) (rows : List α) :
    assemble o ⟨some ⟨offset, reverse, position⟩, size, q⟩ rows
      = assemble o ⟨some ⟨offset, reverse, position'⟩, size, q⟩ rows := by
  have hedge : edgeCursor (α := α) o ⟨some ⟨offset, reverse, position⟩, size, q⟩
      = edgeCursor o ⟨some ⟨offset, reverse, position'⟩, size, q⟩ := by
    obtain ⟨order, boundary, skip, limit⟩ := q
    cases boundary <;> rfl
  unfold assemble
  rw [hedge]
  rfl

/-- The token of a row gives the page at a row of its run, namely the one at which as many rows were
    passed as its offset says under the cutoff, and the row itself. -/
theorem pageOfSize_tied {p : Pager} {s : Snapshot α} {c : Cursor} {m m' : α × Nat}
    (hposition : c.position = some (Position.ofValues (p.order.valuesOf m.1)))
    (hfits : (Token.encode c).utf8ByteSize ≤ Token.maxLength) (hm' : m' ∈ s.rows.zipIdx)
    (htied : Rows.tied p.order m' m = true)
    (hoffset : (heldAt p.cutoff c.offset).toNat + 1
      = Rows.passed (p.order.toward c.reverse) s.rows m') (size : PageSize) :
    ∃ page, p.pageOfSize s.read (some (Token.encode c)) size.count = .ok page ∧
      PageAt p.order s.rows c.reverse (some m') size page := by
  obtain ⟨offset, reverse, position⟩ := c
  have hstart : (⟨offset, reverse, position⟩ : Cursor) ≠ .start := by
    rintro h
    exact nomatch hposition.symm.trans (congrArg Cursor.position h)
  have hdecode := Token.decode_encode hstart hfits p.cutoff
  obtain ⟨values, hvalues, hties⟩ := values_of_fits hposition hfits
  obtain rfl : position = _ := hposition
  rw [Rows.tied_comm] at htied
  obtain ⟨q, hquery, hlimit, hbegins⟩ := queryAt_passed s.length_le hvalues
    (tiedValues_trans hties htied) hoffset size
  have hmem : ∀ m ∈ some m', m ∈ s.rows.zipIdx := Rows.forall_mem_some hm'
  have hcursor : (⟨heldAt p.cutoff offset, reverse, (mark p.order s.rows reverse m').position⟩
      : Cursor) = mark p.order s.rows reverse m' := by
    have hsame : heldAt p.cutoff offset = (mark p.order s.rows reverse m').offset := by
      have hcount := toNat_offset_mark (o := p.order) reverse s.length_le hm'
      exact UInt64.toNat_inj.mp (Nat.succ.inj (hoffset.trans hcount.symm))
    rw [hsame]
    rfl
  have hpage := pageOfSize_of_begins hdecode hquery hbegins
  rw [assemble_position p.order _ reverse _ (mark p.order s.rows reverse m').position,
    hcursor] at hpage
  exact ⟨_, hpage, pageAt_spec s.length_le hmem hlimit hbegins⟩

/-- Without a cutoff the token of a tally gives the pages at a row of its run: behind this row and
    the rows passed before it are the rows before the run and as many as were counted. -/
theorem pageOfSize_tally {p : Pager} {s : Snapshot α} {reverse : Bool} {n : Nat} {m : α × Nat}
    (hcutoff : p.cutoff = none) (hm : m ∈ s.rows.zipIdx) (hpos : 0 < n)
    (hle : n ≤ Rows.passed (p.order.toward reverse) s.rows m)
    (hfits : (Token.encode (tally p.order reverse n m.1)).utf8ByteSize ≤ Token.maxLength) :
    ∃ m' ∈ s.rows.zipIdx,
      ahead p.order s.rows reverse (some m') = (Rows.inOrder (p.order.toward reverse) s.rows).drop
        (Rows.before (p.order.toward reverse) s.rows m + n) ∧
      ∀ size : PageSize, ∃ page,
        p.pageOfSize s.read (some (Token.encode (tally p.order reverse n m.1))) size.count
          = .ok page ∧
        PageAt p.order s.rows reverse (some m') size page := by
  obtain ⟨m', hm', htied, hpassed⟩ := Rows.exists_passed hm hpos hle
  have hlen := s.length_le
  have hpassed_le := Rows.passed_le_length (p.order.toward reverse) s.rows m
  refine ⟨m', hm', ?_, fun size => pageOfSize_tied rfl hfits hm' ?_ ?_ size⟩
  · rw [ahead, Rows.remaining_eq_drop hm', Rows.place, Rows.before_of_tied htied, hpassed]
  · rw [← tied_toward p.order reverse]
    exact htied
  · rw [hcutoff]
    show (UInt64.ofNat (n - 1)).toNat + 1 = Rows.passed (p.order.toward reverse) s.rows m'
    rw [toNat_ofNat (by omega), hpassed]
    omega

end Keyset.Pager
