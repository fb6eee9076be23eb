import Keyset.Pager
import Keyset.Proofs.Rows.InOrder

/-! # What remains after a row

    A walk through a collection has reached some stored row; the rows after it
    are what REMAINS.  A cursor cannot name the row itself, only its values and
    how many rows that tie with it were PASSED.  Both notions agree: of the rows
    that do not come first by their values, leaving out as many as were passed
    leaves what remains (`drop_passed`).

    When a walk goes on from a row `m` to a later row, the rows passed there are
    counted within the stretch between the two, and those passed at `m` are
    added exactly if `m` ties with it (`passed_append`).

    No row has more rows passed at it than tie with it (`passed_le_countTied`). -/

namespace Keyset.Rows

open Std

/-- A property that never comes back once it is lost, and that the first element does not have, holds
    on no element. -/
theorem countP_eq_zero_of_head {β : Type} {p : β → Bool} {a : β} {l : List β}
    (h : (a :: l).Pairwise fun a b => p b = true → p a = true) (ha : p a = false) :
    (a :: l).countP p = 0 := by
  refine List.countP_eq_zero.mpr fun b hb hpb => ?_
  rcases List.mem_cons.mp hb with rfl | hb
  · rw [ha] at hpb
    exact Bool.false_ne_true hpb
  · rw [(List.pairwise_cons.mp h).1 b hb hpb] at ha
    exact Bool.false_ne_true ha.symm

/-- A property that never comes back once it is lost holds on as many elements in front as have it
    at all. -/
theorem drop_countP {β : Type} {p : β → Bool} {l : List β}
    (h : l.Pairwise fun a b => p b = true → p a = true) :
    l.drop (l.countP p) = l.filter fun a => !p a := by
  induction l with
  | nil => rfl
  | cons a l ih =>
    cases ha : p a with
    | true =>
      rw [List.countP_cons_of_pos ha, List.drop_succ_cons, ih (List.pairwise_cons.mp h).2,
        List.filter_cons_of_neg (by simp [ha])]
    | false =>
      have hzero := countP_eq_zero_of_head h ha
      have hall : (a :: l).filter (fun b => !p b) = a :: l :=
        List.filter_eq_self.mpr fun b hb => by simp [List.countP_eq_zero.mp hzero b hb]
      rw [hzero, hall, List.drop_zero]

/-- Of the elements that have a property which never comes back, the first few of the list are the
    ones to go. -/
theorem countP_drop {β : Type} {p : β → Bool} {l : List β}
    (h : l.Pairwise fun a b => p b = true → p a = true) (n : Nat) :
    (l.drop n).countP p = l.countP p - n := by
  induction l generalizing n with
  | nil => rw [List.drop_nil, List.countP_nil, Nat.zero_sub]
  | cons a l ih =>
    cases n with
    | zero => rfl
    | succ n =>
      rw [List.drop_succ_cons, ih (List.pairwise_cons.mp h).2]
      cases ha : p a with
      | true =>
        rw [List.countP_cons_of_pos ha]
        omega
      | false =>
        have hzero := countP_eq_zero_of_head h ha
        rw [List.countP_cons_of_neg (by simp [ha])] at hzero ⊢
        omega

/-- Of a property that never comes back once it is lost, the number of elements that have it tells
    which ones they are. -/
theorem lt_countP_iff {β : Type} {p : β → Bool} {l : List β} {i : Nat} {a : β}
    (h : l.Pairwise fun a b => p b = true → p a = true) (ha : l[i]? = some a) :
    i < l.countP p ↔ p a = true := by
  have hdrop := countP_drop h i
  obtain ⟨hi, rfl⟩ := List.getElem?_eq_some_iff.mp ha
  rw [List.drop_eq_getElem_cons hi] at hdrop
  cases hp : p l[i] with
  | true =>
    rw [List.countP_cons_of_pos hp] at hdrop
    exact iff_of_true (by omega) rfl
  | false =>
    have hback := h.sublist (List.drop_sublist i l)
    rw [List.drop_eq_getElem_cons hi] at hback
    rw [countP_eq_zero_of_head hback hp] at hdrop
    exact iff_of_false (by omega) Bool.false_ne_true

/-- What holds for the one element of an option holds for all. -/
theorem forall_mem_some {β : Type} {p : β → Prop} {b : β} (h : p b) : ∀ b' ∈ some b, p b' := by
  rintro _ ⟨⟩
  exact h

variable {α : Type} [HasFields α]

/-- Whether two stored rows tie on every field of an order. -/
def tied (o : SortOrder) (a b : α × Nat) : Bool :=
  tiedValues (o.valuesOf a.1) (o.valuesOf b.1)

/-- How many rows that tie with a row come no later than it. -/
def passed (o : SortOrder) (rows : List α) (m : α × Nat) : Nat :=
  (inOrder o rows).countP fun r => tied o r m && (comparePlaced o r m).isLE

/-- The rows that come after a row; without one, all of them. -/
def remaining (o : SortOrder) (rows : List α) : Option (α × Nat) → List (α × Nat)
  | none => inOrder o rows
  | some m => (inOrder o rows).filter fun r => comparePlaced o m r == .lt

/-! ## Ties -/

/-- Two stored rows tie exactly if neither comes first by its values. -/
theorem tied_iff {o : SortOrder} {a b : α × Nat} :
    tied o a b = true ↔ o.compareRows a.1 b.1 = .eq :=
  SortOrder.compareRows_eq_iff.symm

theorem tied_comm (o : SortOrder) (a b : α × Nat) : tied o a b = tied o b a :=
  tiedValues_comm _ _

/-- Rows that tie with each other tie with the same rows. -/
theorem tied_congr {o : SortOrder} {a b : α × Nat} (h : tied o a b = true) (r : α × Nat) :
    tied o r a = tied o r b := by
  rw [tied_comm o r a, tied_comm o r b]
  exact tiedValues_congr h _

/-- A row between two rows that tie ties with both. -/
theorem tied_of_between {o : SortOrder} {a b c : α × Nat} (hab : comparePlaced o a b = .lt)
    (hbc : (comparePlaced o b c).isLE) (h : tied o a c = true) : tied o b c = true := by
  have hle : (o.compareRows a.1 b.1).isLE := compareRows_isLE (by rw [hab]; rfl)
  have hle' : (o.compareRows b.1 c.1).isLE := compareRows_isLE hbc
  -- a row beyond one that ties with `c` does not come before `c`
  have hge : (o.compareRows c.1 b.1).isLE := by
    have hca : (o.compareRows c.1 a.1).isLE := by
      rw [OrientedCmp.eq_symm (tied_iff.mp h)]
      rfl
    exact TransCmp.isLE_trans hca hle
  exact tied_iff.mpr (OrientedCmp.isLE_antisymm hle' hge)

/-- The rows of an increasing list between two rows that tie tie with both. -/
theorem tied_of_pairwise {o : SortOrder} {first last : α × Nat} {stretch rest : List (α × Nat)}
    (h : (first :: (stretch ++ last :: rest)).Pairwise fun a b => comparePlaced o a b = .lt)
    (htied : tied o first last = true) : ∀ r ∈ first :: stretch, tied o r last = true := by
  obtain ⟨hfirst, hrest⟩ := List.pairwise_cons.mp h
  intro r hr
  rcases List.mem_cons.mp hr with rfl | hr
  · exact htied
  · have hrl := (List.pairwise_append.mp hrest).2.2 r hr last List.mem_cons_self
    exact tied_of_between (hfirst r (List.mem_append_left _ hr)) (by rw [hrl]; rfl) htied

/-! ## Splitting the list at a row -/

/-- Rows of the list in order that stand before a row come before it, and others after it. -/
theorem compare_of_split {o : SortOrder} {rows : List α} {front rest : List (α × Nat)}
    {m : α × Nat} (h : inOrder o rows = front ++ m :: rest) :
    (∀ r ∈ front, comparePlaced o r m = .lt) ∧ (∀ r ∈ rest, comparePlaced o m r = .lt) := by
  have hpairwise := inOrder_pairwise o rows
  rw [h, List.pairwise_append, List.pairwise_cons] at hpairwise
  obtain ⟨-, ⟨hrest, -⟩, hfront⟩ := hpairwise
  exact ⟨fun r hr => hfront r hr m List.mem_cons_self, hrest⟩

/-- What remains after a row is what stands after it in the list in order. -/
theorem remaining_of_split {o : SortOrder} {rows : List α} {front rest : List (α × Nat)}
    {m : α × Nat} (h : inOrder o rows = front ++ m :: rest) : remaining o rows (some m) = rest := by
  obtain ⟨hfront, hrest⟩ := compare_of_split h
  have hnone : front.filter (fun r => comparePlaced o m r == .lt) = [] := by
    refine List.filter_eq_nil_iff.mpr fun r hr => ?_
    rw [← comparePlaced_swap, hfront r hr]
    decide
  have hself : (comparePlaced o m m == .lt) = false := by
    rw [comparePlaced_self]
    rfl
  have hall : rest.filter (fun r => comparePlaced o m r == .lt) = rest := by
    refine List.filter_eq_self.mpr fun r hr => ?_
    rw [hrest r hr]
    rfl
  simp only [remaining, h, List.filter_append, List.filter_cons, hself, hnone, hall,
    List.nil_append, Bool.false_eq_true, if_false]

/-- The rows passed at a row are those before it that tie with it, and the row itself. -/
theorem passed_of_split {o : SortOrder} {rows : List α} {front rest : List (α × Nat)}
    {m : α × Nat} (h : inOrder o rows = front ++ m :: rest) :
    passed o rows m = front.countP (fun r => tied o r m) + 1 := by
  obtain ⟨hfront, hrest⟩ := compare_of_split h
  have hcount : front.countP (fun r => tied o r m && (comparePlaced o r m).isLE)
      = front.countP fun r => tied o r m := by
    refine List.countP_congr fun r hr => ?_
    rw [hfront r hr]
    simp
  have hself : (tied o m m && (comparePlaced o m m).isLE) = true := by
    rw [comparePlaced_self, tied, tiedValues_refl]
    rfl
  have hnone : rest.countP (fun r => tied o r m && (comparePlaced o r m).isLE) = 0 := by
    refine List.countP_eq_zero.mpr fun r hr => ?_
    rw [← comparePlaced_swap, hrest r hr]
    simp
  simp only [passed, h, List.countP_append, List.countP_cons, hself, hcount, hnone, if_true,
    Nat.zero_add]

/-- At a row that ties with an earlier one, that row and all rows between the two are passed. -/
theorem lt_passed_of_tied {o : SortOrder} {rows : List α} {front stretch rest : List (α × Nat)}
    {first m : α × Nat} (h : inOrder o rows = front ++ first :: (stretch ++ m :: rest))
    (htied : tied o first m = true) : stretch.length + 1 < passed o rows m := by
  have hsplit : inOrder o rows = (front ++ first :: stretch) ++ m :: rest := by
    rw [h, List.append_assoc, List.cons_append]
  have hincreasing := inOrder_pairwise o rows
  rw [h] at hincreasing
  have hall := tied_of_pairwise (List.pairwise_append.mp hincreasing).2.1 htied
  rw [passed_of_split hsplit, List.countP_append, List.countP_eq_length.mpr hall,
    List.length_cons]
  omega

/-- Every stored row splits the list in order. -/
theorem exists_split {o : SortOrder} {rows : List α} {m : α × Nat} (h : m ∈ rows.zipIdx) :
    ∃ front, inOrder o rows = front ++ m :: remaining o rows (some m) := by
  obtain ⟨front, rest, hsplit⟩ := List.append_of_mem (mem_inOrder.mpr h)
  exact ⟨front, by rw [remaining_of_split hsplit]; exact hsplit⟩

theorem exists_front {o : SortOrder} {rows : List α} {point : Option (α × Nat)}
    (h : ∀ m ∈ point, m ∈ rows.zipIdx) :
    ∃ front, inOrder o rows = front ++ remaining o rows point := by
  cases point with
  | none => exact ⟨[], rfl⟩
  | some m =>
    obtain ⟨front, hfront⟩ := exists_split (o := o) (h m rfl)
    exact ⟨front ++ [m], by rw [hfront, List.append_assoc]; rfl⟩

theorem passed_pos {o : SortOrder} {rows : List α} {m : α × Nat} (h : m ∈ rows.zipIdx) :
    0 < passed o rows m := by
  obtain ⟨front, hsplit⟩ := exists_split (o := o) h
  rw [passed_of_split hsplit]
  exact Nat.succ_pos _

theorem passed_le_length (o : SortOrder) (rows : List α) (m : α × Nat) :
    passed o rows m ≤ rows.length := by
  rw [← length_inOrder o rows]
  exact List.countP_le_length

/-- The rows of a collection that tie with a row, counted in the list in order. -/
theorem countTied_eq_countP (o : SortOrder) (rows : List α) (m : α × Nat) :
    Pager.countTied o rows (o.valuesOf m.1) = (inOrder o rows).countP fun r => tied o r m := by
  have hfst : rows.zipIdx.map Prod.fst = rows := List.zipIdx_map_fst 0 rows
  have hcount := List.countP_map (p := fun row => tiedValues (o.valuesOf row) (o.valuesOf m.1))
    (f := Prod.fst) (l := rows.zipIdx)
  rw [hfst] at hcount
  rw [(inOrder_perm o rows).countP_eq]
  exact hcount

/-- At most the rows that tie with a row are passed at it. -/
theorem passed_le_countTied (o : SortOrder) (rows : List α) (m : α × Nat) :
    passed o rows m ≤ Pager.countTied o rows (o.valuesOf m.1) := by
  rw [passed, countTied_eq_countP]
  refine List.countP_mono_left fun r _ h => ?_
  exact (Bool.and_eq_true_iff.mp h).1

/-! ## Going on from a row -/

/-- Of the rows that do not come first by their values, those passed are in front, and what remains
    follows them. -/
theorem drop_passed (o : SortOrder) (rows : List α) (m : α × Nat) :
    ((inOrder o rows).filter fun r => o.compareRows r.1 m.1 != .lt).drop (passed o rows m)
      = remaining o rows (some m) := by
  let upTo : α × Nat → Bool := fun r => (comparePlaced o r m).isLE
  have hback : ((inOrder o rows).filter fun r => o.compareRows r.1 m.1 != .lt).Pairwise
      fun a b => upTo b = true → upTo a = true := by
    refine ((inOrder_pairwise o rows).filter _).imp fun {a b} hab hb => ?_
    exact TransCmp.isLE_trans (by rw [hab]; rfl) hb
  have hpassed : ((inOrder o rows).filter fun r => o.compareRows r.1 m.1 != .lt).countP upTo
      = passed o rows m := by
    rw [List.countP_filter]
    refine List.countP_congr fun r _ => ?_
    -- up to `m`, whatever does not come first by its values ties
    simp only [Bool.and_eq_true, bne_iff_ne, tied_iff]
    constructor
    · rintro ⟨hle, hne⟩
      have hle' := compareRows_isLE hle
      cases hc : o.compareRows r.1 m.1 with
      | lt => exact absurd hc hne
      | eq => exact ⟨rfl, hle⟩
      | gt => rw [hc] at hle'; exact nomatch hle'
    · rintro ⟨heq, hle⟩
      exact ⟨hle, by rw [heq]; decide⟩
  rw [← hpassed, drop_countP hback, List.filter_filter, remaining]
  refine List.filter_congr fun r _ => ?_
  show (!(comparePlaced o r m).isLE && o.compareRows r.1 m.1 != .lt) = _
  rw [← comparePlaced_swap o r m]
  cases hc : comparePlaced o r m with
  | lt => rfl
  | eq => rfl
  | gt =>
    cases hr : o.compareRows r.1 m.1 with
    | lt => rw [comparePlaced_of_compareRows hr] at hc; exact nomatch hc
    | eq => rfl
    | gt => rfl

/-- Going on from `m` to a later row `last`, the rows that tie with it are counted in the stretch
    between the two; those passed at `m` count too exactly if `m` ties with it. -/
theorem passed_append {o : SortOrder} {rows : List α} {m last : α × Nat}
    {front stretch rest : List (α × Nat)}
    (h : inOrder o rows = front ++ m :: (stretch ++ last :: rest)) :
    passed o rows last = (stretch ++ [last]).countP (fun r => tied o r last)
      + if tied o m last then passed o rows m else 0 := by
  have hsplit : inOrder o rows = (front ++ m :: stretch) ++ last :: rest := by
    rw [h, List.append_assoc, List.cons_append]
  have hself : tied o last last = true := tiedValues_refl _
  have hfront := (compare_of_split h).1
  have hm : comparePlaced o m last = .lt :=
    (compare_of_split h).2 last (List.mem_append_right _ List.mem_cons_self)
  rw [passed_of_split hsplit, passed_of_split h]
  simp only [List.countP_append, List.countP_cons, List.countP_nil, hself, if_true]
  cases hties : tied o m last with
  | true =>
    have hsame : front.countP (fun r => tied o r last) = front.countP fun r => tied o r m :=
      List.countP_congr fun r _ => by rw [tied_congr hties]
    rw [hsame, if_pos rfl, if_pos rfl]
    omega
  | false =>
    -- a row before `m` that ties with `last` would make `m` tie with it too
    have hnone : front.countP (fun r => tied o r last) = 0 := by
      refine List.countP_eq_zero.mpr fun r hr hr' => ?_
      rw [tied_of_between (hfront r hr) (by rw [hm]; rfl) hr'] at hties
      exact nomatch hties
    rw [hnone, if_neg Bool.false_ne_true, if_neg Bool.false_ne_true]
    omega

end Keyset.Rows
