import Keyset.Proofs.FieldValue.Order
import Keyset.Row

/-! # Comparing by a sort order

    Lists of values compare field by field, each field in its direction.  The
    comparison turns round with the order (`compareBy_invert`), calls equal
    exactly what ties value by value (`compareBy_eq_iff`), and is transitive on
    lists that have a value for every field.  The values of a row always do, so
    rows themselves are totally preordered (`compareRows`). -/

namespace Keyset

open Std

namespace Direction

/-- A lawful comparison stays lawful in either direction. -/
instance {β : Type} {cmp : β → β → Ordering} [TransCmp cmp] (d : Direction) :
    TransCmp fun a b => d.orient (cmp a b) := by
  cases d with
  | ascending => exact inferInstanceAs (TransCmp cmp)
  | descending =>
    have h : (fun a b => descending.orient (cmp a b)) = fun a b => cmp b a := by
      funext a b
      exact OrientedCmp.eq_swap.symm
    rw [h]
    infer_instance

theorem swap_orient (d : Direction) (o : Ordering) : (d.orient o).swap = d.orient o.swap := by
  cases d <;> rfl

theorem orient_eq_iff {d : Direction} {o : Ordering} : d.orient o = .eq ↔ o = .eq := by
  cases d <;> cases o <;> simp [orient]

end Direction

/-! ## Lists that tie -/

theorem tiedValues_length {as bs : List FieldValue} (h : tiedValues as bs = true) :
    as.length = bs.length := by
  induction as generalizing bs with
  | nil =>
    cases bs with
    | nil => rfl
    | cons b bs => exact nomatch h
  | cons a as ih =>
    cases bs with
    | nil => exact nomatch h
    | cons b bs =>
      have hrest : tiedValues as bs = true := (Bool.and_eq_true_iff.mp h).2
      simp [ih hrest]

theorem tiedValues_refl (as : List FieldValue) : tiedValues as as = true := by
  induction as with
  | nil => rfl
  | cons a as ih => exact Bool.and_eq_true_iff.mpr ⟨FieldValue.ties_refl a, ih⟩

theorem tiedValues_comm (as bs : List FieldValue) : tiedValues as bs = tiedValues bs as := by
  induction as generalizing bs with
  | nil => cases bs <;> rfl
  | cons a as ih =>
    cases bs with
    | nil => rfl
    | cons b bs =>
      show (a.ties b && tiedValues as bs) = (b.ties a && tiedValues bs as)
      rw [FieldValue.ties_comm a b, ih bs]

/-- Lists that tie with one list tie with each other. -/
theorem tiedValues_trans {as bs cs : List FieldValue} (hab : tiedValues as bs = true)
    (hbc : tiedValues bs cs = true) : tiedValues as cs = true := by
  induction as generalizing bs cs with
  | nil =>
    cases bs with
    | nil => exact hbc
    | cons b bs => exact nomatch hab
  | cons a as ih =>
    cases bs with
    | nil => exact nomatch hab
    | cons b bs =>
      cases cs with
      | nil => exact nomatch hbc
      | cons c cs =>
        obtain ⟨ha, has⟩ := Bool.and_eq_true_iff.mp hab
        obtain ⟨hb, hbs⟩ := Bool.and_eq_true_iff.mp hbc
        exact Bool.and_eq_true_iff.mpr ⟨FieldValue.ties_trans ha hb, ih has hbs⟩

/-- Lists that tie with each other tie with the same lists. -/
theorem tiedValues_congr {as bs : List FieldValue} (h : tiedValues as bs = true)
    (cs : List FieldValue) : tiedValues as cs = tiedValues bs cs := by
  rw [Bool.eq_iff_iff]
  constructor
  · intro hac
    rw [tiedValues_comm] at h
    exact tiedValues_trans h hac
  · intro hbc
    exact tiedValues_trans h hbc

namespace SortOrder

/-! ## Lists of values -/

theorem compareBy_cons (f : SortField) (fs : List SortField) (a b : FieldValue)
    (as bs : List FieldValue) :
    compareBy (f :: fs) (a :: as) (b :: bs)
      = (f.direction.orient (a.compare b)).then (compareBy fs as bs) := rfl

theorem compareBy_swap (fs : List SortField) (as bs : List FieldValue) :
    (compareBy fs as bs).swap = compareBy fs bs as := by
  induction fs generalizing as bs with
  | nil => rfl
  | cons f fs ih =>
    cases as with
    | nil => cases bs <;> rfl
    | cons a as =>
      cases bs with
      | nil => rfl
      | cons b bs =>
        rw [compareBy_cons, compareBy_cons, Ordering.swap_then, ih, Direction.swap_orient,
          FieldValue.compare_swap]

/-- In the inverted fields everything compares the other way. -/
theorem compareBy_invert (fs : List SortField) (as bs : List FieldValue) :
    compareBy (fs.map SortField.invert) as bs = compareBy fs bs as := by
  induction fs generalizing as bs with
  | nil => rfl
  | cons f fs ih =>
    cases as with
    | nil => cases bs <;> rfl
    | cons a as =>
      cases bs with
      | nil => rfl
      | cons b bs =>
        rw [List.map_cons, compareBy_cons, compareBy_cons, ih]
        show (f.direction.flip.orient (a.compare b)).then _ = _
        rw [Direction.orient_flip, Direction.swap_orient, FieldValue.compare_swap]

/-- With a value for every field, two lists compare as equal exactly if they tie. -/
theorem compareBy_eq_iff {fs : List SortField} {as bs : List FieldValue}
    (ha : as.length = fs.length) (hb : bs.length = fs.length) :
    compareBy fs as bs = .eq ↔ tiedValues as bs = true := by
  induction fs generalizing as bs with
  | nil =>
    rw [List.length_eq_zero_iff.mp ha, List.length_eq_zero_iff.mp hb]
    exact iff_of_true rfl rfl
  | cons f fs ih =>
    obtain ⟨a, as, rfl⟩ := List.exists_cons_of_length_eq_add_one ha
    obtain ⟨b, bs, rfl⟩ := List.exists_cons_of_length_eq_add_one hb
    have hrest := ih (Nat.succ.inj ha) (Nat.succ.inj hb)
    show _ ↔ (a.ties b && tiedValues as bs) = true
    rw [compareBy_cons, Ordering.then_eq_eq, Bool.and_eq_true_iff, hrest,
      Direction.orient_eq_iff, FieldValue.ties_iff]

/-- Lists that tie compare alike with any third list. -/
theorem compareBy_congr_left {as bs : List FieldValue} (h : tiedValues as bs = true)
    (fs : List SortField) (cs : List FieldValue) : compareBy fs as cs = compareBy fs bs cs := by
  induction fs generalizing as bs cs with
  | nil => rfl
  | cons f fs ih =>
    cases as with
    | nil =>
      cases bs with
      | nil => rfl
      | cons b bs => exact nomatch h
    | cons a as =>
      cases bs with
      | nil => exact nomatch h
      | cons b bs =>
        obtain ⟨htie, hrest⟩ := Bool.and_eq_true_iff.mp h
        cases cs with
        | nil => rfl
        | cons c cs =>
          have hhead : a.compare c = b.compare c :=
            TransCmp.congr_left (FieldValue.ties_iff.mp htie)
          rw [compareBy_cons, compareBy_cons, ih hrest, hhead]

theorem compareBy_isLE_trans {fs : List SortField} {as bs cs : List FieldValue}
    (ha : as.length = fs.length) (hb : bs.length = fs.length) (hc : cs.length = fs.length)
    (hab : (compareBy fs as bs).isLE) (hbc : (compareBy fs bs cs).isLE) :
    (compareBy fs as cs).isLE := by
  induction fs generalizing as bs cs with
  | nil => rfl
  | cons f fs ih =>
    obtain ⟨a, as, rfl⟩ := List.exists_cons_of_length_eq_add_one ha
    obtain ⟨b, bs, rfl⟩ := List.exists_cons_of_length_eq_add_one hb
    obtain ⟨c, cs, rfl⟩ := List.exists_cons_of_length_eq_add_one hc
    have hrest := ih (Nat.succ.inj ha) (Nat.succ.inj hb) (Nat.succ.inj hc)
    rw [compareBy_cons, Ordering.isLE_then_iff_and] at hab hbc ⊢
    have hfirst : TransCmp fun x y => f.direction.orient (FieldValue.compare x y) := inferInstance
    refine ⟨hfirst.isLE_trans hab.1 hbc.1, ?_⟩
    -- the first field decides unless it ties on both steps
    rcases hab.2 with hlt | hle
    · exact .inl (@TransCmp.lt_of_lt_of_isLE _ _ hfirst _ _ _ hlt hbc.1)
    · rcases hbc.2 with hlt' | hle'
      · exact .inl (@TransCmp.lt_of_isLE_of_lt _ _ hfirst _ _ _ hab.1 hlt')
      · exact .inr (hrest hle hle')

theorem compareValues_invert (o : SortOrder) (as bs : List FieldValue) :
    o.invert.compareValues as bs = o.compareValues bs as :=
  compareBy_invert o.fields as bs

/-! ## Rows -/

section

variable {α : Type} [HasFields α]

/-- Which of two rows comes first by its values. -/
def compareRows (o : SortOrder) (a b : α) : Ordering :=
  o.compareValues (o.valuesOf a) (o.valuesOf b)

/-- By their values rows are totally preordered. -/
instance (o : SortOrder) : TransCmp (o.compareRows : α → α → Ordering) where
  eq_swap := (compareBy_swap o.fields _ _).symm
  isLE_trans := compareBy_isLE_trans (o.length_valuesOf _) (o.length_valuesOf _)
    (o.length_valuesOf _)

theorem compareRows_self (o : SortOrder) (row : α) : o.compareRows row row = .eq :=
  ReflCmp.compare_self

theorem compareRows_invert (o : SortOrder) (a b : α) :
    o.invert.compareRows a b = o.compareRows b a := by
  rw [compareRows, valuesOf_invert, valuesOf_invert, compareValues_invert]
  rfl

/-- Two rows compare as equal exactly if their values tie. -/
theorem compareRows_eq_iff {o : SortOrder} {a b : α} :
    o.compareRows a b = .eq ↔ tiedValues (o.valuesOf a) (o.valuesOf b) = true :=
  compareBy_eq_iff (o.length_valuesOf a) (o.length_valuesOf b)

/-- Rows that compare as equal tie in every field of the order. -/
theorem compare_fieldValue_eq {o : SortOrder} {a b : α} (h : o.compareRows a b = .eq) :
    ∀ name ∈ o.names, (fieldValue a name).compare (fieldValue b name) = .eq := by
  unfold compareRows compareValues valuesOf at h
  unfold names
  generalize o.fields = fields at h
  induction fields with
  | nil => exact fun name hname => nomatch hname
  | cons f fields ih =>
    rw [List.map_cons, List.map_cons, compareBy_cons, Ordering.then_eq_eq] at h
    intro name hname
    rcases List.mem_cons.mp hname with rfl | hname
    · exact Direction.orient_eq_iff.mp h.1
    · exact ih h.2 name hname

/-- Values that tie with those of a row compare as that row does. -/
theorem compareValues_of_tied {o : SortOrder} {m : α} {values : List FieldValue}
    (h : tiedValues values (o.valuesOf m) = true) (row : α) :
    o.compareValues (o.valuesOf row) values = o.compareRows row m := by
  rw [compareValues, ← compareBy_swap, compareBy_congr_left h, compareBy_swap]
  rfl

end

end SortOrder

end Keyset
