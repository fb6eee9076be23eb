import Keyset.Proofs.Boundary.Filter
import Keyset.Proofs.Number.Digits
import Keyset.Proofs.Rows.InOrder

/-! # A server and a collection in memory read the same rows

    On documents that are stored in the order of their identifying fields, the
    command for a query has the answer that the query has in memory
    (`answer_ofQuery`).

    Both keep the same documents, because the filter of a boundary means what the
    boundary selects.  Both sort them alike: the sort document gives the fields of
    the order and the identifying field, each with 1 or -1 for its direction
    (`compareSorted?_sortDocument`).  After the fields of the order, the
    identifying field decides for the server where the place in storage decides
    in memory, and of two stored documents the one with the lower identifier has
    the lower place (`compareByKeys_eq`).  No collection is so large that the
    bounds of the command's counts would show. -/

namespace Keyset.Server

open Number

/-! ## Sorting -/

/-- Which of two documents comes first by some fields, each in its direction. -/
def compareByKeys : List (String × Direction) → Document → Document → Ordering
  | [], _, _ => .eq
  | (name, direction) :: keys, a, b =>
      (direction.orient
        ((SortOrder.fieldValue a name).compare (SortOrder.fieldValue b name))).then
        (compareByKeys keys a b)

/-- A server reads from a sort document the direction that was written to it. -/
theorem directed?_sign (d : Direction) :
    directed? (.int32 (Int32.ofInt d.sign)) = some d.orient := by
  cases d <;> rfl

theorem compareSorted?_keys (keys : List (String × Direction)) :
    compareSorted? (keys.map SortOrder.sortMember) = some (compareByKeys keys) := by
  induction keys with
  | nil => rfl
  | cons key keys ih =>
    rw [List.map_cons, SortOrder.sortMember, compareSorted?, directed?_sign, ih]
    refine congrArg some (funext fun a => funext fun b => ?_)
    rw [compareValues_eq, fieldOf_eq, fieldOf_eq]
    rfl

/-- By the sort document of an order a server sorts as its fields say. -/
theorem compareSorted?_sortDocument (o : SortOrder) :
    compareSorted? o.sortDocument = some (compareByKeys o.sortKeys) := by
  rw [SortOrder.sortDocument_eq, compareSorted?_keys]

/-- Whether documents are stored in the order of their identifying fields. -/
def AscendingIds (documents : List Document) : Prop :=
  documents.Pairwise fun a b => compareValues (fieldOf a "_id") (fieldOf b "_id") = .lt

theorem compareByKeys_append (keys keys' : List (String × Direction)) (a b : Document) :
    compareByKeys (keys ++ keys') a b
      = (compareByKeys keys a b).then (compareByKeys keys' a b) := by
  induction keys with
  | nil => rfl
  | cons key keys ih =>
    obtain ⟨name, direction⟩ := key
    show (_ : Ordering).then (compareByKeys (keys ++ keys') a b) = (Ordering.then _ _).then _
    rw [ih, Ordering.then_assoc]

/-- By the fields of an order a server sorts as the order says. -/
theorem compareByKeys_fields (o : SortOrder) (a b : Document) :
    compareByKeys (o.fields.map fun f => (f.name, f.direction)) a b = o.compareRows a b := by
  show _ = SortOrder.compareBy o.fields (o.valuesOf a) (o.valuesOf b)
  unfold SortOrder.valuesOf
  induction o.fields with
  | nil => rfl
  | cons f fields ih =>
    rw [List.map_cons, List.map_cons, List.map_cons, SortOrder.compareBy_cons, ← ih]
    rfl

/-- The identifying fields of stored documents compare as their places do. -/
theorem compare_ids {documents : List Document} (h : AscendingIds documents) {a b : Document × Nat}
    (ha : a ∈ documents.zipIdx) (hb : b ∈ documents.zipIdx) :
    (SortOrder.fieldValue a.1 SortOrder.idField).compare
      (SortOrder.fieldValue b.1 SortOrder.idField) = Ord.compare a.2 b.2 := by
  obtain ⟨hi, ha⟩ := List.getElem?_eq_some_iff.mp (List.mem_zipIdx_iff_getElem?.mp ha)
  obtain ⟨hj, hb⟩ := List.getElem?_eq_some_iff.mp (List.mem_zipIdx_iff_getElem?.mp hb)
  have hascending : ∀ i j (hi : i < documents.length) (hj : j < documents.length), i < j →
      (SortOrder.fieldValue documents[i] SortOrder.idField).compare
        (SortOrder.fieldValue documents[j] SortOrder.idField) = .lt := by
    intro i j hi hj hij
    rw [← compareValues_eq, ← fieldOf_eq, ← fieldOf_eq]
    exact List.pairwise_iff_getElem.mp h i j hi hj hij
  rw [← ha, ← hb]
  rcases Nat.lt_trichotomy a.2 b.2 with hlt | heq | hgt
  · rw [Nat.compare_eq_lt.mpr hlt]
    exact hascending _ _ hi hj hlt
  · rw [Nat.compare_eq_eq.mpr heq]
    simp only [heq]
    exact Std.ReflCmp.compare_self
  · rw [Nat.compare_eq_gt.mpr hgt, ← FieldValue.compare_swap, hascending _ _ hj hi hgt]
    rfl

/-- A server sorts stored documents as they are sorted in memory. -/
theorem compareByKeys_eq {documents : List Document} (h : AscendingIds documents)
    {a b : Document × Nat} (ha : a ∈ documents.zipIdx) (hb : b ∈ documents.zipIdx)
    (o : SortOrder) : compareByKeys o.sortKeys a.1 b.1 = Rows.comparePlaced o a b := by
  have hplaces := compare_ids h ha hb
  unfold Rows.comparePlaced SortOrder.sortKeys
  by_cases hid : SortOrder.idField ∈ o.names
  · rw [if_pos hid, compareByKeys_fields]
    cases hrows : o.compareRows a.1 b.1 with
    | lt => rfl
    | gt => rfl
    | eq =>
      -- the order has the identifying field, so rows that tie on it have one place
      have hties := SortOrder.compare_fieldValue_eq hrows SortOrder.idField hid
      rw [hplaces] at hties
      rw [hties]
      exact (Direction.orient_eq_iff.mpr rfl).symm
  · rw [if_neg hid, compareByKeys_append, compareByKeys_fields, ← hplaces]
    exact congrArg _ Ordering.then_eq

/-- The documents that a server sorts come out as they are listed in memory. -/
theorem mergeSort_eq {documents : List Document} (h : AscendingIds documents) (o : SortOrder)
    (keep : Document → Bool) :
    ((documents.filter keep).mergeSort fun a b => (compareByKeys o.sortKeys a b).isLE)
      = ((Rows.inOrder o documents).filter fun r => keep r.1).map Prod.fst := by
  have hkept : documents.filter keep
      = (documents.zipIdx.filter fun r => keep r.1).map Prod.fst := by
    have hfilter := List.filter_map (f := Prod.fst) (p := keep) (l := documents.zipIdx)
    rw [List.zipIdx_map_fst] at hfilter
    exact hfilter
  -- the comparisons agree on stored documents only, so places are carried through the sort
  rw [hkept, ← Rows.mergeSort_filter, List.map_mergeSort]
  intro a ha b hb
  rw [compareByKeys_eq h (List.mem_filter.mp ha).1 (List.mem_filter.mp hb).1]

/-! ## Selecting -/

/-- Documents that are stored in the order of their identifying fields, and a query on them, where
    neither the fields to sort by nor a boundary holds what is no number at all. -/
structure Sortable (documents : List Document) (q : Query) : Prop where
  ids : AscendingIds documents
  fields : ∀ row ∈ documents, ∀ f ∈ q.order.fields,
    (SortOrder.fieldValue row f.name).isNaN = false
  boundary : ∀ b, q.boundary = some b →
    ∃ values, Boundary.ofValues q.order values b.inclusive = .ok b ∧ ∀ v ∈ values, v.isNaN = false

/-- A server keeps the documents that meet the base filter and that the query admits. -/
theorem meets_filter {documents : List Document} {q : Query} (h : Sortable documents q)
    (other : OtherParts) (base : Document) {row : Document} (hrow : row ∈ documents) :
    meets other row (Find.ofQuery base q).filter = (meets other row base && q.admits row) := by
  have hadmits : ∀ b, q.boundary = some b →
      meets other row b.toFilter.toDocument = q.admits row := by
    intro b hb
    obtain ⟨values, hb', hvalues⟩ := h.boundary b hb
    have hanswerable := Boundary.answerable_of_ofValues hb' hvalues (h.fields row hrow)
    rw [Boundary.meets_toFilter hanswerable, Query.admits, hb]
  show meets other row (Find.select base q.boundary).toDocument = _
  unfold Find.select
  cases hboundary : q.boundary with
  | none =>
    rw [Query.admits, hboundary]
    exact (Bool.and_true _).symm
  | some b =>
    cases base with
    | nil => exact hadmits b hboundary
    | cons part base =>
      show meets other row [("$and", .array [.document (part :: base),
        .document b.toFilter.toDocument])] = _
      rw [meets_singleton]
      show (meets other row (part :: base) && (meets other row b.toFilter.toDocument && true)) = _
      rw [Bool.and_true, hadmits b hboundary]

/-! ## Counting -/

/-- Of a list that is not too long, no more is passed over by a count than by the server's bound. -/
theorem drop_skip {β : Type} {l : List β} (h : l.length ≤ maxServerCount.toNat) (skip : UInt64) :
    l.drop ((if skip = 0 then none else some (min skip maxServerCount)).getD 0).toNat
      = l.drop skip.toNat := by
  by_cases hzero : skip = 0
  · rw [if_pos hzero, hzero]
    rfl
  · rw [if_neg hzero]
    show l.drop (min skip maxServerCount).toNat = _
    rw [toNat_min]
    rcases Nat.le_total skip.toNat maxServerCount.toNat with hle | hle
    · rw [Nat.min_eq_left hle]
    · rw [Nat.min_eq_right hle, List.drop_of_length_le h,
        List.drop_of_length_le (Nat.le_trans h hle)]

/-- Of a list that is not too long, no more is taken by a count than by the server's bound. -/
theorem take_limit {β : Type} {l : List β} (h : l.length ≤ maxServerCount.toNat) {limit : UInt64}
    (hlimit : limit ≠ 0) :
    (if min limit maxServerCount = 0 then l else l.take (min limit maxServerCount).toNat)
      = l.take limit.toNat := by
  have hne : min limit maxServerCount ≠ 0 := by
    show (if limit ≤ maxServerCount then limit else maxServerCount) ≠ 0
    by_cases hle : limit ≤ maxServerCount
    · rw [if_pos hle]
      exact hlimit
    · rw [if_neg hle]
      decide
  rw [if_neg hne, toNat_min, ← List.take_take, List.take_of_length_le h]

/-! ## Answers -/

/-- A server takes the command for a query and gives the answer that the query has in memory, on the
    documents that meet the base filter. -/
theorem answer_ofQuery (other : OtherParts) (base : Document) {documents : List Document} {q : Query}
    (h : Sortable documents q) (hlength : documents.length ≤ maxServerCount.toNat)
    (hlimit : q.limit ≠ 0) :
    answer? other documents (Find.ofQuery base q)
      = some (Rows.read (documents.filter fun row => meets other row base) q) := by
  let kept := documents.filter fun row => meets other row base
  have hfound : (documents.filter fun row => meets other row (Find.ofQuery base q).filter)
      = kept.filter q.admits := by
    rw [List.filter_filter]
    refine List.filter_congr fun row hrow => ?_
    rw [meets_filter h other base hrow, Bool.and_comm]
  have hids : AscendingIds kept := h.ids.filter _
  have hsorted := mergeSort_eq hids q.order q.admits
  have hcount : ((kept.filter q.admits).mergeSort
      fun a b => (compareByKeys q.order.sortKeys a b).isLE).length ≤ maxServerCount.toNat := by
    rw [List.length_mergeSort]
    exact Nat.le_trans (Nat.le_trans (List.length_filter_le _ _) (List.length_filter_le _ _)) hlength
  have hrest := Nat.le_trans (List.drop_sublist q.skip.toNat _).length_le hcount
  have htaken : compareSorted? (Find.ofQuery base q).sort
      = some (compareByKeys q.order.sortKeys) := compareSorted?_sortDocument q.order
  rw [Rows.read_eq, List.map_take, List.map_drop, ← hsorted, ← take_limit hrest hlimit,
    ← drop_skip hcount, answer?, htaken, hfound]
  rfl

/-- Documents of which one has nothing to sort by, and two are not live. -/
def sampleStore : List Document :=
  [[("_id", .int32 1), ("k", .int32 2), ("live", .bool true)],
    [("_id", .int32 2), ("live", .bool true)],
    [("_id", .int32 3), ("k", .string "a"), ("live", .bool false)],
    [("_id", .string "x"), ("k", .int64 2), ("live", .bool true)],
    [("_id", .bool true), ("k", .bool true)]]

/-- At most three documents from the number two down, without the first. -/
def sampleQuery : Query where
  order := ⟨[⟨"k", .descending⟩], .descending, by decide, by decide, by decide⟩
  boundary := some ⟨[⟨⟨"k", .descending⟩, .int 2⟩], true⟩
  skip := 1
  limit := 3

/-- The live documents from the number two down, without the first one in order. -/
theorem answer_ofQuery_sample :
    Sortable sampleStore sampleQuery ∧
      answer? (fun _ _ _ => false) sampleStore (Find.ofQuery [("live", .bool true)] sampleQuery)
        = some (Rows.read (sampleStore.filter fun row =>
          meets (fun _ _ _ => false) row [("live", .bool true)]) sampleQuery) := by
  have hsortable : Sortable sampleStore sampleQuery := by
    refine ⟨?_, ?_, fun b hb => ⟨[.int 2], ?_, ?_⟩⟩
    · unfold AscendingIds
      decide +kernel
    · decide
    · obtain rfl := Option.some.inj hb
      rfl
    · decide
  exact ⟨hsortable, answer_ofQuery (fun _ _ _ => false) [("live", .bool true)] hsortable (by decide)
    (by decide)⟩

example : (Find.ofQuery [] sampleQuery).sort = [("k", .int32 (-1)), ("_id", .int32 (-1))] := rfl

end Keyset.Server
