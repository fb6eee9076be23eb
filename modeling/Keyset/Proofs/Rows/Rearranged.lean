import Keyset.Proofs.Rows.InOrder

/-! # Rows in another arrangement

    A collection in order is a weakly increasing list of its rows, in which rows
    that tie stand as they are stored (`filter_sorted`), or backward if the order
    is inverted.  These two properties leave no choice (`eq_of_filter_tiesWith`).

    So places matter only between rows that tie.  The same rows with those that
    tie in the same sequence are one list in order (`Rearranged.sorted_eq`), and
    what a query reads depends on no other rows than those it admits
    (`read_eq_sorted`). -/

namespace Keyset.Rows

open Std

variable {α : Type} [HasFields α]

/-- Whether a row ties with another on every field of an order. -/
def tiesWith (o : SortOrder) (row other : α) : Bool :=
  tiedValues (o.valuesOf row) (o.valuesOf other)

/-- The same rows in another sequence, in which rows that tie stand as before. -/
structure Rearranged (o : SortOrder) (rows rows' : List α) : Prop where
  perm : rows.Perm rows'
  tied : ∀ row ∈ rows, rows.filter (tiesWith o row) = rows'.filter (tiesWith o row)

/-! ## Rows that tie -/

omit [HasFields α] in
theorem filter_comm (p q : α → Bool) (l : List α) :
    (l.filter p).filter q = (l.filter q).filter p := by
  rw [List.filter_filter, List.filter_filter]
  exact List.filter_congr fun r _ => Bool.and_comm _ _

theorem tiesWith_iff {o : SortOrder} {a b : α} : tiesWith o a b = true ↔ o.compareRows a b = .eq :=
  SortOrder.compareRows_eq_iff.symm

theorem tiesWith_self (o : SortOrder) (row : α) : tiesWith o row row = true := tiedValues_refl _

theorem tiesWith_invert (o : SortOrder) (row : α) : tiesWith o.invert row = tiesWith o row := by
  funext other
  rw [tiesWith, SortOrder.valuesOf_invert, SortOrder.valuesOf_invert]
  rfl

theorem Rearranged.filter_tiesWith {o : SortOrder} {rows rows' : List α}
    (h : Rearranged o rows rows') (row : α) :
    rows.filter (tiesWith o row) = rows'.filter (tiesWith o row) := by
  by_cases htied : ∃ other ∈ rows, tiesWith o row other = true
  · obtain ⟨other, hmem, htied⟩ := htied
    have hsame : tiesWith o row = tiesWith o other := funext fun r => tiedValues_congr htied _
    rw [hsame]
    exact h.tied other hmem
  · have hnone : ∀ other ∈ rows, ¬ tiesWith o row other = true :=
      fun other hmem hties => htied ⟨other, hmem, hties⟩
    rw [List.filter_eq_nil_iff.mpr hnone,
      List.filter_eq_nil_iff.mpr fun other hmem => hnone other (h.perm.mem_iff.mpr hmem)]

theorem Rearranged.invert {o : SortOrder} {rows rows' : List α} (h : Rearranged o rows rows') :
    Rearranged o.invert rows rows' where
  perm := h.perm
  tied row hrow := by
    rw [tiesWith_invert]
    exact h.tied row hrow

theorem Rearranged.refl (o : SortOrder) (rows : List α) : Rearranged o rows rows :=
  ⟨.refl rows, fun _ _ => rfl⟩

/-- Rearranged rows stay so when the same rows are left out. -/
theorem Rearranged.filter {o : SortOrder} {rows rows' : List α} (h : Rearranged o rows rows')
    (keep : α → Bool) : Rearranged o (rows.filter keep) (rows'.filter keep) where
  perm := h.perm.filter keep
  tied row _ := by rw [filter_comm keep, filter_comm keep _ rows', h.filter_tiesWith]

theorem mem_of_filter_tiesWith {o : SortOrder} {l l' : List α}
    (h : ∀ row, l.filter (tiesWith o row) = l'.filter (tiesWith o row)) {row : α} (hrow : row ∈ l) :
    row ∈ l' := by
  have hmem : row ∈ l.filter (tiesWith o row) := List.mem_filter.mpr ⟨hrow, tiesWith_self o row⟩
  rw [h] at hmem
  exact (List.mem_filter.mp hmem).1

/-- The head of a weakly increasing list comes after none of its rows. -/
theorem isLE_of_mem_cons {o : SortOrder} {a b : α} {l : List α}
    (hl : (a :: l).Pairwise fun a b => (o.compareRows a b).isLE) (hb : b ∈ a :: l) :
    (o.compareRows a b).isLE := by
  rcases List.mem_cons.mp hb with rfl | hb
  · rw [SortOrder.compareRows_self]
    rfl
  · exact (List.pairwise_cons.mp hl).1 b hb

/-- Weakly increasing lists that agree on the rows that tie with each row are one list. -/
theorem eq_of_filter_tiesWith {o : SortOrder} {l l' : List α}
    (hl : l.Pairwise fun a b => (o.compareRows a b).isLE)
    (hl' : l'.Pairwise fun a b => (o.compareRows a b).isLE)
    (h : ∀ row, l.filter (tiesWith o row) = l'.filter (tiesWith o row)) : l = l' := by
  induction l generalizing l' with
  | nil =>
    cases l' with
    | nil => rfl
    | cons b l' => exact nomatch mem_of_filter_tiesWith (fun row => (h row).symm) List.mem_cons_self
  | cons a l ih =>
    cases l' with
    | nil => exact nomatch mem_of_filter_tiesWith h List.mem_cons_self
    | cons b l' =>
      -- each head is a row of the other list, so the heads tie, and stand first among those that do
      have hab := isLE_of_mem_cons hl
        (mem_of_filter_tiesWith (fun row => (h row).symm) List.mem_cons_self)
      have hba := isLE_of_mem_cons hl' (mem_of_filter_tiesWith h List.mem_cons_self)
      have htied : tiesWith o a b = true := tiesWith_iff.mpr (OrientedCmp.isLE_antisymm hab hba)
      have hheads := h a
      rw [List.filter_cons_of_pos (tiesWith_self o a), List.filter_cons_of_pos htied] at hheads
      obtain rfl := (List.cons.inj hheads).1
      rw [ih (List.pairwise_cons.mp hl).2 (List.pairwise_cons.mp hl').2]
      intro row
      have hrow := h row
      rw [List.filter_cons, List.filter_cons] at hrow
      split at hrow
      · exact (List.cons.inj hrow).2
      · exact hrow

/-! ## Rows in order -/

/-- In ascending places, rows that tie stand as they are stored. -/
theorem filter_sorted {o : SortOrder} (h : o.tiebreak = .ascending) (rows : List α) (row : α) :
    (sorted o rows).filter (tiesWith o row) = rows.filter (tiesWith o row) := by
  have hplaces : rows.zipIdx.Pairwise fun a b => a.2 < b.2 := by
    rw [← List.pairwise_map, List.zipIdx_map_snd]
    exact List.pairwise_lt_range'
  have hincreasing : (rows.zipIdx.filter (tiesWith o row ∘ Prod.fst)).Pairwise
      fun a b => comparePlaced o a b = .lt := by
    rw [List.pairwise_filter]
    refine hplaces.imp fun {a b} hlt ha hb => ?_
    have htied : o.compareRows a.1 b.1 = .eq :=
      TransCmp.eq_trans (OrientedCmp.eq_symm (tiesWith_iff.mp ha)) (tiesWith_iff.mp hb)
    rw [comparePlaced, htied, h]
    exact Nat.compare_eq_lt.mpr hlt
  have hfilter := eq_of_perm_of_pairwise ((inOrder_perm o rows).filter (tiesWith o row ∘ Prod.fst))
    ((inOrder_pairwise o rows).filter _) hincreasing
  rw [sorted, List.filter_map, hfilter, ← List.filter_map, List.zipIdx_map_fst]

/-- What holds for ascending places, and with an order for the inverted one, holds for all. -/
theorem of_ascending {motive : SortOrder → Prop}
    (hascending : ∀ o : SortOrder, o.tiebreak = .ascending → motive o)
    (hinvert : ∀ o, motive o → motive o.invert) (o : SortOrder) : motive o := by
  cases h : o.tiebreak with
  | ascending => exact hascending o h
  | descending =>
    rw [← o.invert_invert]
    refine hinvert o.invert (hascending o.invert ?_)
    show o.tiebreak.flip = .ascending
    rw [h]
    rfl

/-- Rearranged rows are one list in order. -/
theorem Rearranged.sorted_eq {o : SortOrder} {rows rows' : List α} (h : Rearranged o rows rows') :
    sorted o rows = sorted o rows' := by
  induction o using of_ascending with
  | hascending o hplaces =>
    refine eq_of_filter_tiesWith (sorted_pairwise_isLE o rows) (sorted_pairwise_isLE o rows') ?_
    intro row
    rw [filter_sorted hplaces, filter_sorted hplaces, h.filter_tiesWith]
  | hinvert o ih =>
    have hback : Rearranged o rows rows' := o.invert_invert ▸ h.invert
    rw [sorted_invert, sorted_invert, ih hback]

/-- To leave rows out of the list in order is to leave them out of the collection. -/
theorem filter_sorted_comm (o : SortOrder) (keep : α → Bool) (rows : List α) :
    (sorted o rows).filter keep = sorted o (rows.filter keep) := by
  induction o using of_ascending with
  | hascending o hplaces =>
    refine eq_of_filter_tiesWith ((sorted_pairwise_isLE o rows).filter keep)
      (sorted_pairwise_isLE o (rows.filter keep)) ?_
    intro row
    rw [filter_comm, filter_sorted hplaces, filter_sorted hplaces, filter_comm]
  | hinvert o ih => rw [sorted_invert, sorted_invert, List.filter_reverse, ih]

/-! ## Reading -/

/-- A read takes a stretch of the rows that the query admits. -/
theorem read_eq_sorted (rows : List α) (q : Query) :
    read rows q = ((sorted q.order (rows.filter q.admits)).drop q.skip.toNat).take
      q.limit.toNat := by
  rw [read_eq, List.map_take, List.map_drop, ← filter_sorted_comm, sorted, List.filter_map]
  rfl

end Keyset.Rows
