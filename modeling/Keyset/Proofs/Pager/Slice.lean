import Keyset.Proofs.Pager.Planning
import Keyset.Proofs.Pager.Reading

/-! # A page is a slice of the collection

    Whatever a token says, genuine or forged, its page is a SLICE of the
    collection in order.  The query admits the end of the list in the direction
    of reading, and passing rows over cuts off more of its front
    (`Planned.read_eq`); the row read beyond the page is dropped again; and a list
    that is read backward and turned round is a stretch of the list in order
    (`facing_take_drop`). -/

namespace Keyset.Pager

open Number

/-- Some rows after the first few, in either direction, are a stretch of all rows. -/
theorem facing_take_drop {β : Type} {all : List β} {skip : Nat} (hskip : skip ≤ all.length)
    (reverse : Bool) (n : Nat) :
    facing reverse (((facing reverse all).drop skip).take n)
      = if reverse then all.extract (all.length - skip - n) (all.length - skip)
        else all.extract skip (min (skip + n) all.length) := by
  cases reverse with
  | false =>
    show (all.drop skip).take n = all.extract skip _
    rw [List.extract_eq_take_drop, List.take_eq_take_iff, List.length_drop]
    omega
  | true =>
    have hlen : (all.take (all.length - skip)).length = all.length - skip := by
      rw [List.length_take]
      omega
    show ((all.reverse.drop skip).take n).reverse = all.extract _ _
    rw [List.drop_reverse, List.take_reverse, List.reverse_reverse, List.drop_take, hlen,
      List.extract_eq_take_drop]

variable {α : Type} [HasFields α]

/-- A page of at most `n` rows that holds the rows of `all` from `first` up to `last`: it is filled
    if enough rows are left in the direction of reading, and has a token in this direction exactly
    if it holds rows and more are left. -/
structure Slice (all : List α) (reverse : Bool) (n first last : Nat) (page : Page α) : Prop where
  le : first ≤ last
  le_length : last ≤ all.length
  items : page.items = all.extract first last
  size_le : last - first ≤ n
  filled : last - first < n → if reverse then first = 0 else last = all.length
  link : (page.link reverse).isSome = true ↔
    page.items ≠ [] ∧ if reverse then 0 < first else last < all.length

/-- In the direction of reading, a page of the first of some rows has a token exactly if it does not
    hold all of them. -/
theorem isSome_link_assemble (o : SortOrder) (plan : Plan) (rest : List α)
    (hlen : rest.length ≤ maxCount) :
    ((assemble o plan (rest.take (lookahead plan.size).toNat)).link plan.reverse).isSome = true ↔
      plan.size.count.toNat < rest.length := by
  rw [link_assemble_take o plan hlen, Option.isSome_map, Option.isSome_iff_ne_none, ne_eq,
    nextPoint_eq_none_iff (size_pos plan.size), Nat.not_le]

/-- A page of the rows after the first few is a slice. -/
theorem slice_assemble (o : SortOrder) (plan : Plan) {all : List α} {skip : Nat}
    (hlen : all.length ≤ maxCount) (hskip : skip ≤ all.length) :
    ∃ first last, Slice all plan.reverse plan.size.count.toNat first last
      (assemble o plan
        (((facing plan.reverse all).drop skip).take (lookahead plan.size).toNat)) := by
  have hrest : ((facing plan.reverse all).drop skip).length = all.length - skip := by
    rw [List.length_drop, (facing_perm plan.reverse all).length_eq]
  have hlink := isSome_link_assemble o plan ((facing plan.reverse all).drop skip) (by omega)
  rw [hrest] at hlink
  have hitems := items_assemble o plan
    (((facing plan.reverse all).drop skip).take (lookahead plan.size).toNat)
  rw [take_lookahead, facing_take_drop hskip] at hitems
  have hpos := size_pos plan.size
  cases hreverse : plan.reverse with
  | false =>
    rw [hreverse] at hlink hitems
    refine ⟨skip, min (skip + plan.size.count.toNat) all.length, by omega, by omega, hitems,
      by omega, fun h => ?_, ?_⟩
    · show min _ _ = all.length
      omega
    · rw [hlink, hitems]
      show _ ↔ all.extract _ _ ≠ [] ∧ min _ _ < all.length
      rw [← List.length_pos_iff, List.extract_eq_take_drop, List.length_take, List.length_drop]
      omega
  | true =>
    rw [hreverse] at hlink hitems
    refine ⟨all.length - skip - plan.size.count.toNat, all.length - skip, by omega, by omega,
      hitems, by omega, fun h => ?_, ?_⟩
    · show all.length - skip - plan.size.count.toNat = 0
      omega
    · rw [hlink, hitems]
      show _ ↔ all.extract _ _ ≠ [] ∧ 0 < all.length - skip - plan.size.count.toNat
      rw [← List.length_pos_iff, List.extract_eq_take_drop, List.length_take, List.length_drop]
      omega

variable {p : Pager} {token : Option String} {size : PageSize} {plan : Plan}

/-- The rows that a query admits are the end of the list in its order. -/
theorem Planned.filter_admits (h : Planned p token size plan) (rows : List α) :
    (Rows.inOrder plan.query.order rows).filter (fun r => plan.query.admits r.1)
      = (Rows.inOrder plan.query.order rows).drop
        ((Rows.inOrder plan.query.order rows).countP fun r => !plan.query.admits r.1) := by
  have hmono : (Rows.inOrder plan.query.order rows).Pairwise
      fun a b => (!plan.query.admits b.1) = true → (!plan.query.admits a.1) = true := by
    refine (Rows.inOrder_pairwise plan.query.order rows).imp fun {a b} hab hb => ?_
    have hle : (plan.query.order.compareRows a.1 b.1).isLE :=
      Rows.compareRows_isLE (by rw [hab]; rfl)
    rw [Bool.not_eq_true'] at hb ⊢
    refine Bool.eq_false_iff.mpr fun ha => ?_
    rw [h.admits_of_isLE hle ha] at hb
    exact nomatch hb
  rw [Rows.drop_countP hmono]
  simp only [Bool.not_not]

theorem sorted_toward (o : SortOrder) (reverse : Bool) (rows : List α) :
    Rows.sorted (o.toward reverse) rows = facing reverse (Rows.sorted o rows) := by
  cases reverse with
  | false => rfl
  | true => exact Rows.sorted_invert o rows

/-- The query of a plan gives the first rows that are left in its direction after some of them. -/
theorem Planned.read_eq (h : Planned p token size plan) (rows : List α) :
    ∃ skip, skip ≤ (Rows.sorted p.order rows).length ∧
      Rows.read rows plan.query
        = ((facing plan.reverse (Rows.sorted p.order rows)).drop skip).take
          (lookahead plan.size).toNat := by
  have hlimit : plan.query.limit = lookahead plan.size := by rw [h.limit, h.size_eq]
  have hsorted : (Rows.inOrder plan.query.order rows).map Prod.fst
      = facing plan.reverse (Rows.sorted p.order rows) := by
    rw [h.order]
    exact sorted_toward p.order plan.reverse rows
  rw [Rows.read_eq, h.filter_admits, List.drop_drop, List.map_take, List.map_drop, hsorted, hlimit]
  generalize _ + plan.query.skip.toNat = skip
  by_cases hskip : skip ≤ (Rows.sorted p.order rows).length
  · exact ⟨skip, hskip, rfl⟩
  · -- to pass over more rows than there are is to pass over all of them
    have hlen := (facing_perm plan.reverse (Rows.sorted p.order rows)).length_eq
    refine ⟨_, Nat.le_refl _, ?_⟩
    rw [List.drop_of_length_le (by omega), List.drop_of_length_le (by omega)]

/-- Whatever token is sent, either it is refused, by the client's fault, or its page is a slice of
    the collection in order, which one query reads; this passes over no more rows than the cutoff
    allows, and the one at the boundary. -/
theorem page_slice (p : Pager) (s : Snapshot α) (token : Option String) (size : PageSize) :
    (∃ failure, p.pageOfSize s.read token size.count = .error failure ∧
      failure.isClientFault = true) ∨
    ∃ plan page first last, Token.decode p.cutoff token = .ok plan.cursor ∧
      (∀ read : Query → Except Failure (List α),
        p.pageOfSize read token size.count = (read plan.query).map (assemble p.order plan)) ∧
      p.pageOfSize s.read token size.count = .ok page ∧
      Slice (Rows.sorted p.order s.rows) plan.reverse size.count.toNat first last page ∧
      ∀ bound, p.cutoff = some bound → plan.query.skip.toNat ≤ min (bound.toNat + 1) maxCount := by
  cases hplan : p.plan token size with
  | error error => exact .inl ⟨.token error, pageOfSize_of_refused hplan s.read, rfl⟩
  | ok plan =>
    have hplanned := planned hplan
    have hlen : (Rows.sorted p.order s.rows).length ≤ maxCount := by
      rw [Rows.length_sorted]
      exact s.length_le
    obtain ⟨skip, hskip, hread⟩ := hplanned.read_eq s.rows
    obtain ⟨first, last, hslice⟩ := slice_assemble p.order plan hlen hskip
    rw [← hread, hplanned.size_eq] at hslice
    exact .inr ⟨plan, _, first, last, hplanned.cursor, pageOfSize_of_plan hplan,
      pageOfSize_of_plan hplan s.read, hslice, fun bound => hplanned.skip_le⟩

end Keyset.Pager
