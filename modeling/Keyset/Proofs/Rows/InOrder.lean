import Keyset.Collection
import Keyset.Proofs.SortOrder.Comparison

/-! # Stored rows in an order

    A stored row is a row with its place in the collection.  By values and then
    by place, stored rows have a STRICT order, so there is just one way to list
    a collection in it: `inOrder`.  Everything a read gives is cut out of that
    list (`read_eq`): the rows that the query admits, less those it passes over.

    The inverted order lists the same rows backward (`inOrder_invert`), tied
    rows included. -/

namespace Keyset.Rows

open Std

/-! ## Places -/

/-- The rows of a collection have different places. -/
theorem zipIdx_pairwise {α : Type} (rows : List α) :
    rows.zipIdx.Pairwise fun a b => a.2 ≠ b.2 := by
  rw [← List.pairwise_map, List.zipIdx_map_snd]
  exact List.nodup_range'

/-- What holds between the rows of a collection holds between them with their places. -/
theorem zipIdx_pairwise_fst {α : Type} {R : α → α → Prop} {rows : List α} (h : rows.Pairwise R) :
    rows.zipIdx.Pairwise fun a b => R a.1 b.1 := by
  rw [← List.pairwise_map, List.zipIdx_map_fst]
  exact h

variable {α : Type} [HasFields α]

/-- Which of two stored rows comes first in an order: by values, and of tied rows
    by place, in the direction in which the order visits them. -/
def comparePlaced (o : SortOrder) (a b : α × Nat) : Ordering :=
  (o.compareRows a.1 b.1).then (o.tiebreak.orient (Ord.compare a.2 b.2))

/-- All rows of a collection with their places, in an order. -/
def inOrder (o : SortOrder) (rows : List α) : List (α × Nat) :=
  rows.zipIdx.mergeSort fun a b => (comparePlaced o a b).isLE

/-- The rows of a collection in an order. -/
def sorted (o : SortOrder) (rows : List α) : List α := (inOrder o rows).map Prod.fst

/-! ## The order of stored rows -/

instance (o : SortOrder) : TransCmp fun a b : α × Nat => o.compareRows a.1 b.1 where
  eq_swap := (SortOrder.compareBy_swap o.fields _ _).symm
  isLE_trans {a b c} := @TransCmp.isLE_trans α o.compareRows _ a.1 b.1 c.1

instance (o : SortOrder) : TransCmp (comparePlaced o : α × Nat → α × Nat → Ordering) :=
  inferInstanceAs <| TransCmp <|
    compareLex (fun a b : α × Nat => o.compareRows a.1 b.1)
      fun a b => o.tiebreak.orient (compareOn Prod.snd a b)

theorem comparePlaced_self (o : SortOrder) (a : α × Nat) : comparePlaced o a a = .eq :=
  ReflCmp.compare_self

theorem comparePlaced_swap (o : SortOrder) (a b : α × Nat) :
    (comparePlaced o a b).swap = comparePlaced o b a :=
  OrientedCmp.eq_swap.symm

theorem comparePlaced_invert (o : SortOrder) (a b : α × Nat) :
    comparePlaced o.invert a b = comparePlaced o b a := by
  show (o.invert.compareRows a.1 b.1).then (o.tiebreak.flip.orient _) = _
  rw [SortOrder.compareRows_invert, Direction.orient_flip, Direction.swap_orient,
    ← OrientedOrd.eq_swap]
  rfl

/-- Only a stored row itself takes its place. -/
theorem snd_eq_of_comparePlaced {o : SortOrder} {a b : α × Nat} (h : comparePlaced o a b = .eq) :
    a.2 = b.2 :=
  Nat.compare_eq_eq.mp (Direction.orient_eq_iff.mp (Ordering.then_eq_eq.mp h).2)

theorem comparePlaced_of_compareRows {o : SortOrder} {a b : α × Nat}
    (h : o.compareRows a.1 b.1 = .lt) : comparePlaced o a b = .lt := by
  rw [comparePlaced, h]
  rfl

theorem compareRows_isLE {o : SortOrder} {a b : α × Nat} (h : (comparePlaced o a b).isLE) :
    (o.compareRows a.1 b.1).isLE :=
  (Ordering.isLE_then_iff_and.mp h).1

/-- Lists of the same rows that are strictly increasing are one list. -/
theorem eq_of_perm_of_pairwise {o : SortOrder} {l l' : List (α × Nat)} (hperm : l.Perm l')
    (hl : l.Pairwise fun a b => comparePlaced o a b = .lt)
    (hl' : l'.Pairwise fun a b => comparePlaced o a b = .lt) : l = l' := by
  refine hperm.eq_of_pairwise ?_ hl hl'
  intro a b _ _ hab hba
  rw [← comparePlaced_swap, hab] at hba
  exact nomatch hba

/-- Sorting rows of different places makes them strictly increasing. -/
theorem pairwise_mergeSort (o : SortOrder) {l : List (α × Nat)}
    (hplaces : l.Pairwise fun a b => a.2 ≠ b.2) :
    (l.mergeSort fun a b => (comparePlaced o a b).isLE).Pairwise
      fun a b => comparePlaced o a b = .lt := by
  have hle : (l.mergeSort fun a b => (comparePlaced o a b).isLE).Pairwise
      fun a b => (comparePlaced o a b).isLE = true := by
    refine List.pairwise_mergeSort ?_ ?_ l
    · intro a b c hab hbc
      exact TransCmp.isLE_trans hab hbc
    · intro a b
      rw [← comparePlaced_swap o a b]
      cases comparePlaced o a b <;> rfl
  have hne := ((List.mergeSort_perm l fun a b => (comparePlaced o a b).isLE).pairwise_iff
    fun h => Ne.symm h).mpr hplaces
  refine (hle.and hne).imp ?_
  intro a b ⟨hle, hne⟩
  cases hc : comparePlaced o a b with
  | lt => rfl
  | eq => exact absurd (snd_eq_of_comparePlaced hc) hne
  | gt => rw [hc] at hle; exact nomatch hle

/-! ## The list in order -/

theorem inOrder_perm (o : SortOrder) (rows : List α) : (inOrder o rows).Perm rows.zipIdx :=
  List.mergeSort_perm _ _

theorem length_inOrder (o : SortOrder) (rows : List α) : (inOrder o rows).length = rows.length := by
  rw [(inOrder_perm o rows).length_eq, List.length_zipIdx]

theorem mem_inOrder {o : SortOrder} {rows : List α} {a : α × Nat} :
    a ∈ inOrder o rows ↔ a ∈ rows.zipIdx :=
  (inOrder_perm o rows).mem_iff

theorem inOrder_pairwise (o : SortOrder) (rows : List α) :
    (inOrder o rows).Pairwise fun a b => comparePlaced o a b = .lt :=
  pairwise_mergeSort o (zipIdx_pairwise rows)

theorem nodup_inOrder (o : SortOrder) (rows : List α) : (inOrder o rows).Nodup := by
  refine (inOrder_pairwise o rows).imp fun {a b} hab => ?_
  rintro rfl
  rw [comparePlaced_self] at hab
  exact nomatch hab

/-- Rows that are stored in order are listed as they are stored. -/
theorem inOrder_of_pairwise {o : SortOrder} {rows : List α}
    (h : rows.zipIdx.Pairwise fun a b => comparePlaced o a b = .lt) :
    inOrder o rows = rows.zipIdx :=
  eq_of_perm_of_pairwise (inOrder_perm o rows) (inOrder_pairwise o rows) h

/-- The inverted order lists a collection backward. -/
theorem inOrder_invert (o : SortOrder) (rows : List α) :
    inOrder o.invert rows = (inOrder o rows).reverse := by
  have hperm : (inOrder o.invert rows).Perm (inOrder o rows).reverse :=
    (inOrder_perm o.invert rows).trans
      ((inOrder_perm o rows).symm.trans (List.reverse_perm _).symm)
  refine eq_of_perm_of_pairwise hperm (inOrder_pairwise o.invert rows) ?_
  rw [List.pairwise_reverse]
  refine (inOrder_pairwise o rows).imp ?_
  intro a b hab
  rw [comparePlaced_invert]
  exact hab

theorem sorted_perm (o : SortOrder) (rows : List α) : (sorted o rows).Perm rows := by
  have hperm := (inOrder_perm o rows).map Prod.fst
  rw [List.zipIdx_map_fst] at hperm
  exact hperm

theorem mem_sorted {o : SortOrder} {rows : List α} {row : α} :
    row ∈ sorted o rows ↔ row ∈ rows :=
  (sorted_perm o rows).mem_iff

theorem sorted_invert (o : SortOrder) (rows : List α) :
    sorted o.invert rows = (sorted o rows).reverse := by
  rw [sorted, inOrder_invert, List.map_reverse]
  rfl

theorem sorted_pairwise_isLE (o : SortOrder) (rows : List α) :
    (sorted o rows).Pairwise fun a b => (o.compareRows a b).isLE := by
  rw [sorted, List.pairwise_map]
  refine (inOrder_pairwise o rows).imp fun {a b} hab => ?_
  exact compareRows_isLE (by rw [hab]; rfl)

/-- In order, rows of different values are strictly increasing. -/
theorem sorted_pairwise {o : SortOrder} {rows : List α}
    (hapart : rows.Pairwise fun a b => o.compareRows a b ≠ .eq) :
    (sorted o rows).Pairwise fun a b => o.compareRows a b = .lt := by
  have hne : (sorted o rows).Pairwise fun a b => o.compareRows a b ≠ .eq :=
    ((sorted_perm o rows).pairwise_iff fun h heq => h (OrientedCmp.eq_symm heq)).mpr hapart
  refine ((sorted_pairwise_isLE o rows).and hne).imp ?_
  rintro a b ⟨hle, hne⟩
  cases hc : o.compareRows a b with
  | lt => rfl
  | eq => exact absurd hc hne
  | gt =>
    rw [hc] at hle
    exact absurd hle Bool.false_ne_true

/-- Rows that are strictly increasing by their values are in order. -/
theorem sorted_of_pairwise {o : SortOrder} {rows : List α}
    (h : rows.Pairwise fun a b => o.compareRows a b = .lt) : sorted o rows = rows := by
  have hplaced : rows.zipIdx.Pairwise fun a b => comparePlaced o a b = .lt :=
    (zipIdx_pairwise_fst h).imp comparePlaced_of_compareRows
  rw [sorted, inOrder_of_pairwise hplaced, List.zipIdx_map_fst]

theorem length_sorted (o : SortOrder) (rows : List α) : (sorted o rows).length = rows.length := by
  rw [sorted, List.length_map, length_inOrder]

/-! ## Reading -/

/-- To leave rows out and then sort is to sort and then leave them out. -/
theorem mergeSort_filter (o : SortOrder) (rows : List α) (keep : α × Nat → Bool) :
    ((rows.zipIdx.filter keep).mergeSort fun a b => (comparePlaced o a b).isLE)
      = (inOrder o rows).filter keep := by
  have hperm : ((rows.zipIdx.filter keep).mergeSort
      fun a b => (comparePlaced o a b).isLE).Perm ((inOrder o rows).filter keep) :=
    (List.mergeSort_perm _ _).trans ((inOrder_perm o rows).symm.filter keep)
  exact eq_of_perm_of_pairwise hperm
    (pairwise_mergeSort o ((zipIdx_pairwise rows).filter keep))
    ((inOrder_pairwise o rows).filter keep)

/-- A read takes the rows that the query admits out of the list in order. -/
theorem read_eq (rows : List α) (q : Query) :
    read rows q = ((((inOrder q.order rows).filter fun r => q.admits r.1).drop q.skip.toNat).take
      q.limit.toNat).map Prod.fst := by
  let entry : α × Nat → Entry α := fun r => ⟨r.1, r.2, q.order.valuesOf r.1⟩
  have hsort : sort q.order (candidates rows q)
      = ((rows.zipIdx.filter fun r => q.admits r.1).mergeSort
          fun a b => (comparePlaced q.order a b).isLE).map entry :=
    (List.map_mergeSort (f := entry) fun a _ b _ => rfl).symm
  rw [read, hsort, mergeSort_filter, ← List.map_drop, ← List.map_take, List.map_map]
  rfl

end Keyset.Rows
