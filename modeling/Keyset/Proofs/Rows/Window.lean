import Keyset.Proofs.Boundary.Comparison
import Keyset.Proofs.Rows.Rearranged

/-! # A read is a window

    Without a boundary a read that is long enough gives ALL rows, in the one
    order of stored rows (`readAll_eq`).  Some values CUT a list in order in
    two places: the rows before them come first, then the rows at them, then the
    rows after them (`exists_cut`).

    What a boundary selects begins at one of the two cuts and goes on to the end
    of the list (`Cut.filter_selected`), and a read takes a stretch of just that
    (`read_window`). -/

namespace Keyset.Rows

variable {α : Type} [HasFields α]

/-! ## Where values cut a list -/

/-- Some values cut a list into the rows before them, the rows at them and the rows after them. -/
structure Cut (o : SortOrder) (values : List FieldValue) (l front level back : List α) : Prop where
  eq : l = front ++ (level ++ back)
  front_lt : ∀ row ∈ front, o.compareValues (o.valuesOf row) values = .lt
  level_eq : ∀ row ∈ level, o.compareValues (o.valuesOf row) values = .eq
  back_gt : ∀ row ∈ back, o.compareValues (o.valuesOf row) values = .gt

/-- A row that comes no earlier than one that is not before some values is not before them. -/
theorem ne_lt_of_isLE {o : SortOrder} {values : List FieldValue}
    (hlen : values.length = o.fields.length) {a b : α} (hab : (o.compareRows a b).isLE)
    (ha : o.compareValues (o.valuesOf a) values ≠ .lt) :
    o.compareValues (o.valuesOf b) values ≠ .lt := by
  have hvalues : (o.compareValues values (o.valuesOf a)).isLE := by
    rw [SortOrder.compareValues, ← SortOrder.compareBy_swap, Ordering.isLE_swap]
    exact Ordering.isGE_iff_ne_lt.mpr ha
  have hb : (o.compareValues values (o.valuesOf b)).isLE :=
    SortOrder.compareBy_isLE_trans hlen (o.length_valuesOf a) (o.length_valuesOf b) hvalues hab
  rw [SortOrder.compareValues, ← SortOrder.compareBy_swap, Ordering.isLE_swap] at hb
  exact Ordering.isGE_iff_ne_lt.mp hb

/-- A row that comes no earlier than one after some values is after them. -/
theorem gt_of_isLE {o : SortOrder} {values : List FieldValue}
    (hlen : values.length = o.fields.length) {a b : α} (hab : (o.compareRows a b).isLE)
    (ha : o.compareValues (o.valuesOf a) values = .gt) :
    o.compareValues (o.valuesOf b) values = .gt := by
  refine Decidable.byContradiction fun hb => ?_
  have hle : (o.compareValues (o.valuesOf a) values).isLE :=
    SortOrder.compareBy_isLE_trans (o.length_valuesOf a) (o.length_valuesOf b) hlen hab
      (Ordering.isLE_iff_ne_gt.mpr hb)
  rw [ha] at hle
  exact nomatch hle

/-- A list in order is cut by any values, one for each field. -/
theorem exists_cut {o : SortOrder} {values : List FieldValue}
    (hlen : values.length = o.fields.length) {l : List α}
    (hl : l.Pairwise fun a b => (o.compareRows a b).isLE) :
    ∃ front level back, Cut o values l front level back := by
  induction l with
  | nil => exact ⟨[], [], [], rfl, by simp, by simp, by simp⟩
  | cons a l ih =>
    obtain ⟨hhead, htail⟩ := List.pairwise_cons.mp hl
    obtain ⟨front, level, back, hcut⟩ := ih htail
    cases ha : o.compareValues (o.valuesOf a) values with
    | lt =>
      refine ⟨a :: front, level, back, congrArg (a :: ·) hcut.eq, ?_, hcut.level_eq, hcut.back_gt⟩
      exact List.forall_mem_cons.mpr ⟨ha, hcut.front_lt⟩
    | eq =>
      -- no row after one at the values is before them
      have hfront : front = [] := by
        refine List.eq_nil_iff_forall_not_mem.mpr fun row hrow => ?_
        have hle := hhead row (hcut.eq ▸ List.mem_append_left _ hrow)
        exact ne_lt_of_isLE hlen hle (by simp [ha]) (hcut.front_lt row hrow)
      subst hfront
      refine ⟨[], a :: level, back, congrArg (a :: ·) hcut.eq, hcut.front_lt, ?_, hcut.back_gt⟩
      exact List.forall_mem_cons.mpr ⟨ha, hcut.level_eq⟩
    | gt =>
      have hall : ∀ row ∈ l, o.compareValues (o.valuesOf row) values = .gt :=
        fun row hrow => gt_of_isLE hlen (hhead row hrow) ha
      refine ⟨[], [], a :: l, rfl, by simp, by simp, ?_⟩
      exact List.forall_mem_cons.mpr ⟨ha, hall⟩

/-- The rows from a boundary on: with those at it if it is inclusive, else only those after it. -/
def suffix (inclusive : Bool) (level back : List α) : List α :=
  if inclusive then level ++ back else back

/-- The rows that a boundary selects are the end of the list from one of the cuts on. -/
theorem Cut.filter_selected {o : SortOrder} {values : List FieldValue}
    {l front level back : List α} (h : Cut o values l front level back) {inclusive : Bool}
    {b : Boundary} (hb : Boundary.ofValues o values inclusive = .ok b) :
    l.filter b.selects = suffix inclusive level back := by
  have hselects : ∀ row : α, b.selects row = true ↔
      o.compareValues (o.valuesOf row) values = .gt ∨
        o.compareValues (o.valuesOf row) values = .eq ∧ inclusive = true := by
    intro row
    rw [Boundary.selects_iff, Boundary.compare_ofValues hb, (Boundary.ofValues_eq_ok_iff.mp hb).2]
  have hfront : front.filter b.selects = [] := by
    refine List.filter_eq_nil_iff.mpr ?_
    intro row hrow
    simp [hselects, h.front_lt row hrow]
  have hback : back.filter b.selects = back := by
    refine List.filter_eq_self.mpr ?_
    intro row hrow
    simp [hselects, h.back_gt row hrow]
  have hlevel : level.filter b.selects = if inclusive then level else [] := by
    cases inclusive with
    | false =>
      refine List.filter_eq_nil_iff.mpr ?_
      intro row hrow
      simp [hselects, h.level_eq row hrow]
    | true =>
      refine List.filter_eq_self.mpr ?_
      intro row hrow
      simp [hselects, h.level_eq row hrow]
  rw [h.eq, List.filter_append, List.filter_append, hfront, hlevel, hback]
  cases inclusive <;> rfl

/-! ## Reading -/

/-- What a read without a boundary gives, at most some number of rows. -/
def readAll (rows : List α) (most : UInt64) (o : SortOrder) : List α := read rows ⟨o, none, 0, most⟩

/-- Without a boundary a read takes a stretch of all rows in order. -/
theorem read_of_no_boundary (rows : List α) (o : SortOrder) (skip limit : UInt64) :
    read rows ⟨o, none, skip, limit⟩ = ((sorted o rows).drop skip.toNat).take limit.toNat := by
  have hall : rows.filter (Query.admits ⟨o, none, skip, limit⟩) = rows :=
    List.filter_eq_self.mpr fun _ _ => rfl
  rw [read_eq_sorted, hall]

/-- With a boundary a read takes a stretch of the rows in order that the boundary selects. -/
theorem read_of_boundary (rows : List α) (o : SortOrder) (b : Boundary) (skip limit : UInt64) :
    read rows ⟨o, some b, skip, limit⟩
      = (((sorted o rows).filter b.selects).drop skip.toNat).take limit.toNat := by
  rw [read_eq_sorted, filter_sorted_comm]
  rfl

theorem readAll_eq {rows : List α} {most : UInt64} (hmost : rows.length ≤ most.toNat)
    (o : SortOrder) : readAll rows most o = sorted o rows := by
  rw [readAll, read_of_no_boundary]
  exact List.take_of_length_le (by rw [List.length_drop, length_sorted]; omega)

/-- A long enough read without a boundary gives all rows, each once, strictly increasing by values
    and then by place, and in the inverted order backward.  What a boundary selects is the end of
    this list from the first row that is not before its values on, or if it is exclusive from the
    last row at its values on, and every read takes a stretch of that. -/
theorem read_window {rows : List α} {most : UInt64} (hmost : rows.length ≤ most.toNat)
    (o : SortOrder) :
    (readAll rows most o).Perm rows ∧
    (∃ placed : List (α × Nat), readAll rows most o = placed.map Prod.fst ∧
      placed.Perm rows.zipIdx ∧ placed.Pairwise fun a b => comparePlaced o a b = .lt) ∧
    readAll rows most o.invert = (readAll rows most o).reverse ∧
    (∀ skip limit : UInt64, read rows ⟨o, none, skip, limit⟩
      = ((readAll rows most o).drop skip.toNat).take limit.toNat) ∧
    ∀ (values : List FieldValue) (inclusive : Bool) (b : Boundary),
      Boundary.ofValues o values inclusive = .ok b →
      ∃ front level back, Cut o values (readAll rows most o) front level back ∧
        (readAll rows most o).filter b.selects = suffix inclusive level back ∧
        ∀ skip limit : UInt64, read rows ⟨o, some b, skip, limit⟩
          = ((suffix inclusive level back).drop skip.toNat).take limit.toNat := by
  rw [readAll_eq hmost, readAll_eq hmost]
  refine ⟨sorted_perm o rows, ⟨_, rfl, inOrder_perm o rows, inOrder_pairwise o rows⟩,
    sorted_invert o rows, read_of_no_boundary rows o, ?_⟩
  intro values inclusive b hb
  obtain ⟨front, level, back, hcut⟩ :=
    exists_cut (Boundary.ofValues_eq_ok_iff.mp hb).1 (sorted_pairwise_isLE o rows)
  refine ⟨front, level, back, hcut, hcut.filter_selected hb, ?_⟩
  intro skip limit
  rw [read_of_boundary, hcut.filter_selected hb]

/-- Four documents in the order by one field: without the field, twice the number one, a string. -/
def ranked : List Document :=
  [[("n", .int32 1)], [("n", .int32 2), ("k", .int32 1)], [("n", .int32 3), ("k", .int64 1)],
    [("n", .int32 4), ("k", .string "x")]]

/-- Read in the inverted order the documents come backward; after the first of the two ones from
    the end comes the other. -/
theorem read_window_ranked :
    ranked.length ≤ (4 : UInt64).toNat ∧
    ∃ (o : SortOrder) (b : Boundary), readAll ranked 4 o.invert = ranked.reverse ∧
      Boundary.ofValues o.invert [.int 1] true = .ok b ∧
      read ranked ⟨o.invert, some b, 1, 1⟩ = [[("n", .int32 2), ("k", .int32 1)]] := by
  let o : SortOrder := ⟨[⟨"k", .ascending⟩], .ascending, by decide, by decide, by decide⟩
  have hmost : ranked.length ≤ (4 : UInt64).toNat := by decide
  have hstored : inOrder o ranked = ranked.zipIdx := inOrder_of_pairwise (by decide)
  have hforward : readAll ranked 4 o = ranked := by
    rw [readAll_eq hmost, sorted, hstored]
    rfl
  obtain ⟨-, -, hinvert, -⟩ := read_window hmost o
  rw [hforward] at hinvert
  obtain ⟨-, -, -, -, hboundary⟩ := read_window hmost o.invert
  obtain ⟨front, level, back, -, hselects, hread⟩ := hboundary [.int 1] true _ rfl
  refine ⟨hmost, o, _, hinvert, rfl, ?_⟩
  rw [hread, ← hselects, hinvert]
  rfl

end Keyset.Rows
