import Keyset.Proofs.Rows.Remaining

/-! # Runs of tied rows

    In order, rows that tie stand next to each other: they form a RUN.  A row is
    found by the rows that come BEFORE its run and those of the run passed at it;
    together they are its PLACE in the list in order (`getElem?_place`), which no
    other row has (`eq_of_place`).

    Every row of a run but the first has one before it that belongs to the run
    too (`exists_previous`), so a run has a row for each number of rows passed,
    up to any of its rows (`exists_passed`).

    A run begins after the rows before it and has an END (`runEnd`); it holds just
    the rows between the two (`tied_iff_of_getElem?`), so beyond the place of one
    of its rows it goes on up to its end (`countP_beyond`).  Seen from the other
    side the two change places (`before_add_runEnd_invert`). -/

namespace Keyset.Rows

open Std

variable {α : Type} [HasFields α]

/-- How many rows come before a row by their values. -/
def before (o : SortOrder) (rows : List α) (m : α × Nat) : Nat :=
  (inOrder o rows).countP fun r => o.compareRows r.1 m.1 == .lt

/-- The same rows come before rows that tie. -/
theorem before_of_tied {o : SortOrder} {rows : List α} {a b : α × Nat} (h : tied o a b = true) :
    before o rows a = before o rows b := by
  unfold before
  refine List.countP_congr fun r _ => ?_
  rw [TransCmp.congr_right (tied_iff.mp h)]

/-- Whatever comes before a row comes before every later one. -/
theorem before_le_of_isLE {o : SortOrder} {rows : List α} {a b : α × Nat}
    (h : (comparePlaced o a b).isLE) : before o rows a ≤ before o rows b := by
  refine List.countP_mono_left fun r _ hr => ?_
  rw [beq_iff_eq] at hr ⊢
  exact TransCmp.lt_of_lt_of_isLE hr (compareRows_isLE h)

/-! ## Places -/

/-- How many rows of the list in order a walk has behind it at a row, or without one. -/
def place (o : SortOrder) (rows : List α) : Option (α × Nat) → Nat
  | none => 0
  | some m => before o rows m + passed o rows m

/-- The rows that stand before a row in order are those before its run and those of the run. -/
theorem length_of_split {o : SortOrder} {rows : List α} {front rest : List (α × Nat)}
    {m : α × Nat} (h : inOrder o rows = front ++ m :: rest) :
    front.length + 1 = place o rows (some m) := by
  obtain ⟨hfront, hrest⟩ := compare_of_split h
  have hself : (o.compareRows m.1 m.1 == .lt) = false := by
    rw [SortOrder.compareRows_self]
    rfl
  have hnone : rest.countP (fun r => o.compareRows r.1 m.1 == .lt) = 0 := by
    refine List.countP_eq_zero.mpr fun r hr hlt => ?_
    have hback := comparePlaced_of_compareRows (beq_iff_eq.mp hlt)
    rw [← comparePlaced_swap, hrest r hr] at hback
    exact nomatch hback
  -- in front of the row, what does not come before it by its values ties with it
  have hothers : front.countP (fun r => decide ¬(o.compareRows r.1 m.1 == .lt) = true)
      = front.countP fun r => tied o r m := by
    refine List.countP_congr fun r hr => ?_
    have hle : (o.compareRows r.1 m.1).isLE := compareRows_isLE (by rw [hfront r hr]; rfl)
    rw [tied_iff]
    cases hc : o.compareRows r.1 m.1 with
    | lt => decide
    | eq => decide
    | gt => rw [hc] at hle; exact nomatch hle
  have hlength := List.length_eq_countP_add_countP (l := front)
    fun r => o.compareRows r.1 m.1 == .lt
  rw [hothers] at hlength
  rw [place, passed_of_split h, before, h, List.countP_append, List.countP_cons, hself, hnone,
    hlength, if_neg Bool.false_ne_true]
  omega

/-- A row stands at its place in the list in order. -/
theorem getElem?_place {o : SortOrder} {rows : List α} {m : α × Nat} (h : m ∈ rows.zipIdx) :
    (inOrder o rows)[place o rows (some m) - 1]? = some m := by
  obtain ⟨front, hsplit⟩ := exists_split (o := o) h
  rw [← length_of_split hsplit, hsplit, Nat.add_sub_cancel,
    List.getElem?_append_right (Nat.le_refl _), Nat.sub_self]
  rfl

/-- A row that stands somewhere in the list in order has its place there. -/
theorem place_of_getElem? {o : SortOrder} {rows : List α} {i : Nat} {m : α × Nat}
    (h : (inOrder o rows)[i]? = some m) : place o rows (some m) = i + 1 := by
  obtain ⟨hi, rfl⟩ := List.getElem?_eq_some_iff.mp h
  have hsplit : inOrder o rows = (inOrder o rows).take i
      ++ (inOrder o rows)[i] :: (inOrder o rows).drop (i + 1) := by
    rw [List.getElem_cons_drop, List.take_append_drop]
  rw [← length_of_split hsplit, List.length_take_of_le (Nat.le_of_lt hi)]

theorem place_pos {o : SortOrder} {rows : List α} {m : α × Nat} (h : m ∈ rows.zipIdx) :
    0 < place o rows (some m) :=
  Nat.lt_of_lt_of_le (passed_pos h) (Nat.le_add_left _ _)

/-- What remains are the rows beyond the place. -/
theorem place_add_length {o : SortOrder} {rows : List α} {point : Option (α × Nat)}
    (h : ∀ m ∈ point, m ∈ rows.zipIdx) :
    place o rows point + (remaining o rows point).length = rows.length := by
  cases point with
  | none => exact (Nat.zero_add _).trans (length_inOrder o rows)
  | some m =>
    obtain ⟨front, hsplit⟩ := exists_split (o := o) (h m rfl)
    have hlength := congrArg List.length hsplit
    rw [length_inOrder, List.length_append, List.length_cons] at hlength
    have := length_of_split hsplit
    omega

/-- What remains after a row are the rows of the list in order beyond its place. -/
theorem remaining_eq_drop {o : SortOrder} {rows : List α} {m : α × Nat} (h : m ∈ rows.zipIdx) :
    remaining o rows (some m) = (inOrder o rows).drop (place o rows (some m)) := by
  obtain ⟨front, hsplit⟩ := exists_split (o := o) h
  have hlength : (front ++ [m]).length = place o rows (some m) := by
    rw [← length_of_split hsplit, List.length_append]
    rfl
  rw [hsplit, List.append_cons, ← hlength, List.drop_left]

/-- No two rows have one place. -/
theorem eq_of_place {o : SortOrder} {rows : List α} {a b : α × Nat} (ha : a ∈ rows.zipIdx)
    (hb : b ∈ rows.zipIdx) (h : place o rows (some a) = place o rows (some b)) : a = b := by
  have hplace := getElem?_place (o := o) ha
  rw [h, getElem?_place hb] at hplace
  exact (Option.some.inj hplace).symm

/-- A row whose place is no later than that of another has no more rows before its run. -/
theorem before_le_of_place {o : SortOrder} {rows : List α} {a b : α × Nat} (ha : a ∈ rows.zipIdx)
    (hb : b ∈ rows.zipIdx) (h : place o rows (some a) ≤ place o rows (some b)) :
    before o rows a ≤ before o rows b := by
  rcases Nat.eq_or_lt_of_le h with heq | hlt
  · obtain rfl := eq_of_place ha hb heq
    exact Nat.le_refl _
  · obtain ⟨hi, ha'⟩ := List.getElem?_eq_some_iff.mp (getElem?_place (o := o) ha)
    obtain ⟨hj, hb'⟩ := List.getElem?_eq_some_iff.mp (getElem?_place (o := o) hb)
    have hpos := place_pos (o := o) ha
    have hcompare := List.pairwise_iff_getElem.mp (inOrder_pairwise o rows) _ _ hi hj (by omega)
    rw [ha', hb'] at hcompare
    exact before_le_of_isLE (by rw [hcompare]; rfl)

/-! ## Rows of a run -/

/-- A row at which others of its run were passed has one of them just before it. -/
theorem exists_previous {o : SortOrder} {rows : List α} {m : α × Nat} (hm : m ∈ rows.zipIdx)
    (h : 1 < passed o rows m) :
    ∃ m' ∈ rows.zipIdx, tied o m' m = true ∧ passed o rows m' + 1 = passed o rows m := by
  obtain ⟨front, hsplit⟩ := exists_split (o := o) hm
  rw [passed_of_split hsplit] at h
  obtain ⟨r, hr, hties⟩ := List.countP_pos_iff.mp (Nat.lt_of_succ_lt_succ h)
  rcases List.eq_nil_or_concat front with rfl | ⟨front', m', rfl⟩
  · exact nomatch hr
  rw [List.concat_eq_append] at hsplit hr
  have hsplit' : inOrder o rows = front' ++ m' :: (m :: remaining o rows (some m)) := by
    rw [hsplit, List.append_assoc]
    rfl
  have hlater : comparePlaced o m' m = .lt := (compare_of_split hsplit').2 m List.mem_cons_self
  have htied : tied o m' m = true := by
    rcases List.mem_append.mp hr with hr | hr
    · exact tied_of_between ((compare_of_split hsplit').1 r hr) (by rw [hlater]; rfl) hties
    · rw [← List.mem_singleton.mp hr]
      exact hties
  have hmem : m' ∈ inOrder o rows := by
    rw [hsplit']
    exact List.mem_append_right _ List.mem_cons_self
  have hsame : front'.countP (fun r => tied o r m) = front'.countP fun r => tied o r m' :=
    List.countP_congr fun r _ => by rw [tied_congr htied]
  refine ⟨m', mem_inOrder.mp hmem, htied, ?_⟩
  rw [passed_of_split hsplit', passed_of_split hsplit, List.countP_append,
    List.countP_singleton, if_pos htied, hsame]

/-- Up to a row, its run has a row for each number of rows passed. -/
theorem exists_passed {o : SortOrder} {rows : List α} {m : α × Nat} (hm : m ∈ rows.zipIdx) {n : Nat}
    (hpos : 0 < n) (hle : n ≤ passed o rows m) :
    ∃ m' ∈ rows.zipIdx, tied o m' m = true ∧ passed o rows m' = n := by
  obtain ⟨k, hk⟩ := Nat.exists_eq_add_of_le hle
  clear hle
  induction k generalizing m with
  | zero => exact ⟨m, hm, tiedValues_refl _, hk⟩
  | succ k ih =>
    obtain ⟨m', hm', htied, hpassed⟩ := exists_previous (o := o) hm (by omega)
    obtain ⟨m'', hm'', htied', hpassed'⟩ := ih hm' (show passed o rows m' = n + k by omega)
    exact ⟨m'', hm'', tiedValues_trans htied' htied, hpassed'⟩

/-! ## Where a run ends -/

/-- How many rows do not come after a row by their values: those before its run and those of it. -/
def runEnd (o : SortOrder) (rows : List α) (m : α × Nat) : Nat :=
  (inOrder o rows).countP fun r => (o.compareRows r.1 m.1).isLE

theorem pairwise_isLE (o : SortOrder) (rows : List α) (m : α × Nat) :
    (inOrder o rows).Pairwise fun a b =>
      (o.compareRows b.1 m.1).isLE = true → (o.compareRows a.1 m.1).isLE = true := by
  refine (inOrder_pairwise o rows).imp fun {a b} hab hb => ?_
  exact TransCmp.isLE_trans (compareRows_isLE (by rw [hab]; rfl)) hb

/-- The rows of a run are those from the ones before it up to its end. -/
theorem tied_iff_of_getElem? {o : SortOrder} {rows : List α} {i : Nat} {r : α × Nat}
    (hr : (inOrder o rows)[i]? = some r) (m : α × Nat) :
    tied o r m = true ↔ before o rows m ≤ i ∧ i < runEnd o rows m := by
  have hbefore : (inOrder o rows).Pairwise fun a b =>
      (o.compareRows b.1 m.1 == .lt) = true → (o.compareRows a.1 m.1 == .lt) = true := by
    refine (inOrder_pairwise o rows).imp fun {a b} hab hb => ?_
    rw [beq_iff_eq] at hb ⊢
    exact TransCmp.lt_of_isLE_of_lt (compareRows_isLE (by rw [hab]; rfl)) hb
  rw [← Nat.not_lt, before, runEnd, lt_countP_iff hbefore hr,
    lt_countP_iff (pairwise_isLE o rows m) hr, tied_iff]
  cases o.compareRows r.1 m.1 <;> decide

theorem runEnd_le_length (o : SortOrder) (rows : List α) (m : α × Nat) :
    runEnd o rows m ≤ rows.length := by
  rw [← length_inOrder o rows]
  exact List.countP_le_length

/-- Beyond a place behind a row, as many rows tie with the row as there are up to the end of its
    run. -/
theorem countP_beyond {o : SortOrder} {rows : List α} {i n : Nat} {m : α × Nat}
    (hm : (inOrder o rows)[i]? = some m) (hn : i ≤ n) :
    ((inOrder o rows).drop n).countP (fun r => tied o r m) = runEnd o rows m - n := by
  have hbefore := ((tied_iff_of_getElem? hm m).mp (tiedValues_refl _)).1
  rw [runEnd, ← countP_drop (pairwise_isLE o rows m)]
  refine List.countP_congr fun r hr => ?_
  obtain ⟨j, hj⟩ := List.getElem?_of_mem hr
  rw [List.getElem?_drop] at hj
  rw [tied_iff_of_getElem? hj, runEnd, lt_countP_iff (pairwise_isLE o rows m) hj]
  exact and_iff_right (by omega)

/-! ## Seen from the other side -/

/-- Seen from the other side, a run begins after the rows beyond its end. -/
theorem before_add_runEnd_invert (o : SortOrder) (rows : List α) (m : α × Nat) :
    before o rows m + runEnd o.invert rows m = rows.length := by
  have hothers : (inOrder o.invert rows).countP (fun r => (o.invert.compareRows r.1 m.1).isLE)
      = (inOrder o rows).countP fun r => decide ¬(o.compareRows r.1 m.1 == .lt) = true := by
    rw [((inOrder_perm o.invert rows).trans (inOrder_perm o rows).symm).countP_eq]
    refine List.countP_congr fun r _ => ?_
    have hswap : o.compareRows m.1 r.1 = (o.compareRows r.1 m.1).swap := OrientedCmp.eq_swap
    rw [SortOrder.compareRows_invert, hswap]
    cases o.compareRows r.1 m.1 <;> decide
  rw [runEnd, hothers, before, ← List.length_eq_countP_add_countP, length_inOrder]

/-- The places of a row on both sides make up all rows, the row counted twice. -/
theorem place_add_place_invert {o : SortOrder} {rows : List α} {m : α × Nat}
    (h : m ∈ rows.zipIdx) :
    place o rows (some m) + place o.invert rows (some m) = rows.length + 1 := by
  obtain ⟨front, hsplit⟩ := exists_split (o := o) h
  have hback : inOrder o.invert rows
      = (remaining o rows (some m)).reverse ++ m :: front.reverse := by
    rw [inOrder_invert, hsplit]
    simp
  have hlength := congrArg List.length hsplit
  rw [length_inOrder, List.length_append, List.length_cons] at hlength
  rw [← length_of_split hsplit, ← length_of_split hback, List.length_reverse]
  omega

/-- Seen from the other side, the rows passed at a row are those of its run from the row on. -/
theorem passed_invert {o : SortOrder} {rows : List α} {i : Nat} {m : α × Nat}
    (h : (inOrder o rows)[i]? = some m) : passed o.invert rows m = runEnd o rows m - i := by
  have hmem := mem_inOrder.mp (List.mem_of_getElem? h)
  have hplaces := place_add_place_invert (o := o) hmem
  have hbefore := before_add_runEnd_invert o.invert rows m
  rw [SortOrder.invert_invert] at hbefore
  rw [place_of_getElem? h, place] at hplaces
  omega

/-- In front of a place up to a row, as many rows tie with the row as there are from the beginning of
    its run on. -/
theorem countP_in_front {o : SortOrder} {rows : List α} {i n : Nat} {m : α × Nat}
    (hm : (inOrder o rows)[i]? = some m) (hn : n ≤ i) :
    ((inOrder o rows).take n).countP (fun r => tied o r m) = n - before o rows m := by
  have hlen := length_inOrder o rows
  obtain ⟨hi, -⟩ := List.getElem?_eq_some_iff.mp hm
  have hback : (inOrder o.invert rows)[rows.length - 1 - i]? = some m := by
    rw [inOrder_invert, List.getElem?_reverse (by omega), hlen,
      show rows.length - 1 - (rows.length - 1 - i) = i by omega]
    exact hm
  have hbeyond := countP_beyond hback (show rows.length - 1 - i ≤ rows.length - n by omega)
  rw [inOrder_invert, List.drop_reverse, hlen, Nat.sub_sub_self (by omega),
    List.countP_reverse] at hbeyond
  simp only [tied, SortOrder.valuesOf_invert] at hbeyond
  have hsides := before_add_runEnd_invert o rows m
  simp only [tied]
  omega

end Keyset.Rows
