import Keyset.Proofs.Pager.Acceptance
import Keyset.Proofs.Pager.Planning
import Keyset.Proofs.Rows.Rearranged

/-! # What a page depends on

    Two collections are read with one token.  The plan is made of the token
    alone, so the pages differ only if the two reads do; and a read depends on no
    more than the rows that the query admits, up to their arrangement
    (`Planned.read_of_rearranged`).

    So rows before the boundary may come, go and move, and rows that do not tie
    may change places, and no page tells of it (`page_of_rearranged`). -/

namespace Keyset.Pager

variable {α : Type} [HasFields α]

/-- Rows are rearranged for both directions or for none. -/
theorem rearranged_toward {o : SortOrder} {rows rows' : List α} (h : Rows.Rearranged o rows rows')
    (reverse : Bool) : Rows.Rearranged (o.toward reverse) rows rows' := by
  cases reverse with
  | false => exact h
  | true => exact h.invert

/-- A query does not admit the rows that come before its boundary. -/
theorem admits_eq_false_iff {p : Pager} {token : Option String} {size : PageSize} {plan : Plan}
    (h : Planned p token size plan) (row : α) :
    plan.query.admits row = false ↔
      ∃ b, plan.query.boundary = some b ∧ b.compare row = .lt := by
  have hboundary := h.boundary
  split at hboundary
  · simp [Query.admits, hboundary]
  · obtain ⟨b, hmade, hquery⟩ := hboundary
    obtain ⟨values, -, -, rfl⟩ := Boundary.values_of_ofPosition hmade
    simp only [Query.admits, hquery, Option.some.injEq, exists_eq_left']
    exact Boundary.selects_eq_false_iff rfl row

theorem Planned.read_of_rearranged {p : Pager} {token : Option String} {size : PageSize}
    {plan : Plan} (h : Planned p token size plan) {rows rows' : List α}
    (hrows : Rows.Rearranged p.order (rows.filter plan.query.admits)
      (rows'.filter plan.query.admits)) :
    Rows.read rows plan.query = Rows.read rows' plan.query := by
  have htoward := rearranged_toward hrows plan.reverse
  rw [← h.order] at htoward
  rw [Rows.read_eq_sorted, Rows.read_eq_sorted, htoward.sorted_eq]

/-- A page stays as it is, tokens included, whatever becomes of the collection, as long as the rows
    from the boundary of its token on are the same with those that tie in the same sequence. -/
theorem page_of_rearranged {p : Pager} {s : Snapshot α} {token : Option String} {size : PageSize}
    {page : Page α} (hpage : p.pageOfSize s.read token size.count = .ok page) :
    ∃ plan, Planned p token size plan ∧
      (∀ row : α, plan.query.admits row = false ↔
        ∃ b, plan.query.boundary = some b ∧ b.compare row = .lt) ∧
      (∀ s' : Snapshot α,
        Rows.Rearranged p.order (s.rows.filter plan.query.admits)
          (s'.rows.filter plan.query.admits) →
        p.pageOfSize s'.read token size.count = .ok page) ∧
      (∀ s' : Snapshot α, s.rows.filter plan.query.admits = s'.rows.filter plan.query.admits →
        p.pageOfSize s'.read token size.count = .ok page) ∧
      ∀ s' : Snapshot α, Rows.Rearranged p.order s.rows s'.rows →
        p.pageOfSize s'.read token size.count = .ok page := by
  cases hplan : p.plan token size with
  | error error =>
    rw [pageOfSize_of_refused hplan] at hpage
    exact nomatch hpage
  | ok plan =>
    have hplanned := planned hplan
    have hsame : ∀ s' : Snapshot α,
        Rows.Rearranged p.order (s.rows.filter plan.query.admits)
          (s'.rows.filter plan.query.admits) →
        p.pageOfSize s'.read token size.count = .ok page := by
      intro s' hrows
      rw [pageOfSize_of_plan hplan] at hpage ⊢
      rw [← hpage, Snapshot.read, Snapshot.read, hplanned.read_of_rearranged hrows]
    refine ⟨plan, hplanned, admits_eq_false_iff hplanned, hsame, fun s' hrows => hsame s' ?_,
      fun s' hrows => hsame s' (hrows.filter _)⟩
    rw [← hrows]
    exact .refl p.order _

/-- Three documents, the first and the last of which tie. -/
def toldApart : Snapshot Document where
  rows := [[("k", .int32 1), ("n", .int32 1)], [("k", .int32 2)], [("k", .int32 1), ("n", .int32 2)]]
  length_le := by decide

/-- The same documents with one of them in another place, but not those that tie. -/
def toldApartMoved : Snapshot Document where
  rows := [[("k", .int32 2)], [("k", .int32 1), ("n", .int32 1)], [("k", .int32 1), ("n", .int32 2)]]
  length_le := by decide

/-- The page after the first two of the documents is the same after the move. -/
theorem page_of_rearranged_moved :
    ∃ token page, samplePager.pageOfSize toldApart.read (some token) pairs.count = .ok page ∧
      samplePager.pageOfSize toldApartMoved.read (some token) pairs.count = .ok page := by
  obtain ⟨first, row, c, hfirst, hnext, -, hposition⟩ :=
    exists_link_of_lt (p := samplePager) (s := toldApart) (by decide)
  have hshort : ∀ row ∈ toldApart.rows,
      (Position.ofValues (samplePager.order.valuesOf row)).text.utf8ByteSize ≤ 2000 := by decide
  obtain ⟨page, hpage⟩ := exists_page_of_position hposition
    (utf8ByteSize_link_le hshort hfirst hnext) toldApart pairs
  have hmoved : Rows.Rearranged sampleOrder toldApart.rows toldApartMoved.rows :=
    ⟨.swap _ _ _, by
      simp only [toldApart, List.forall_mem_cons]
      exact ⟨rfl, rfl, rfl, fun _ hrow => absurd hrow List.not_mem_nil⟩⟩
  obtain ⟨plan, -, -, -, -, hsame⟩ := page_of_rearranged hpage
  exact ⟨_, page, hpage, hsame toldApartMoved hmoved⟩

end Keyset.Pager
