import Keyset.Proofs.Pager.Mark
import Keyset.Proofs.Token.Reading

/-! # What is read for a token

    A token may come from anyone, and all that a pager makes of it is a PLAN: in
    which order to read, from which boundary on, and how many rows to pass over
    (`planned`).  The page is then put together from what one query gives
    (`pageOfSize_of_plan`); a token without a plan is refused.

    Of the boundary nothing is known but that it is inclusive and has a value for
    each field.  That is enough for the query to admit the end of a list in order
    (`admits_of_isLE`). -/

namespace Keyset

open Number

/-- A boundary that is made at a position has one value for each field of the order. -/
theorem Boundary.values_of_ofPosition {o : SortOrder} {position : Position} {inclusive : Bool}
    {b : Boundary} (h : ofPosition o position inclusive = .ok b) :
    ∃ values, position.values = .ok values ∧ values.length = o.fields.length ∧
      b = ⟨List.zipWith Key.mk o.fields values, inclusive⟩ := by
  unfold ofPosition at h
  cases hvalues : position.values with
  | error fault =>
    rw [hvalues] at h
    exact nomatch h
  | ok values =>
    rw [hvalues] at h
    change ofValues o values inclusive = .ok b at h
    obtain ⟨hlen, rfl⟩ := ofValues_eq_ok_iff.mp h
    exact ⟨values, rfl, hlen, rfl⟩

namespace Pager

/-- How many rows the query at a cursor passes over: with a position the row there too. -/
def skipAt : Option Cursor → UInt64
  | none => 0
  | some c => if c.position.isSome then addCapped c.offset 1 else c.offset

/-- What is read for a token: in the direction of its cursor, from the boundary at its position on,
    one row more than the page holds. -/
structure Planned (p : Pager) (token : Option String) (size : PageSize) (plan : Plan) : Prop where
  cursor : Token.decode p.cutoff token = .ok plan.cursor
  size_eq : plan.size = size
  order : plan.query.order = p.order.toward plan.reverse
  boundary : match plan.cursor.bind Cursor.position with
    | none => plan.query.boundary = none
    | some position => ∃ b, Boundary.ofPosition plan.query.order position true = .ok b ∧
        plan.query.boundary = some b
  skip : plan.query.skip = skipAt plan.cursor
  limit : plan.query.limit = lookahead size

theorem planned {p : Pager} {token : Option String} {size : PageSize} {plan : Plan}
    (h : p.plan token size = .ok plan) : Planned p token size plan := by
  cases hdecode : Token.decode p.cutoff token with
  | error error =>
    simp only [Pager.plan, hdecode] at h
    exact nomatch h
  | ok cursor =>
    simp only [Pager.plan, hdecode] at h
    cases cursor with
    | none =>
      obtain rfl := Except.ok.inj h
      exact ⟨hdecode, rfl, rfl, rfl, rfl, rfl⟩
    | some c =>
      obtain ⟨offset, reverse, position⟩ := c
      cases position with
      | none =>
        obtain rfl := Except.ok.inj h
        exact ⟨hdecode, rfl, rfl, rfl, rfl, rfl⟩
      | some position =>
        cases hboundary : Boundary.ofPosition (p.order.toward reverse) position true with
        | error fault =>
          rw [queryAt_of_fault hboundary] at h
          exact nomatch h
        | ok b =>
          rw [queryAt_of_boundary hboundary] at h
          obtain rfl := Except.ok.inj h
          exact ⟨hdecode, rfl, rfl, ⟨b, hboundary, rfl⟩, rfl, rfl⟩

section

variable {p : Pager} {token : Option String} {size : PageSize} {plan : Plan}

/-- No more rows are passed over than the cutoff allows, and the one at the boundary. -/
theorem Planned.skip_le (h : Planned p token size plan) {bound : UInt64}
    (hcutoff : p.cutoff = some bound) :
    plan.query.skip.toNat ≤ min (bound.toNat + 1) maxCount := by
  have hmax := toNat_le_maxCount bound
  have hdecode := h.cursor
  rw [hcutoff] at hdecode
  rw [h.skip]
  cases hcursor : plan.cursor with
  | none => exact Nat.zero_le _
  | some c =>
    rw [hcursor] at hdecode
    have hle := Token.offset_le_of_decode hdecode
    have hone : (1 : UInt64).toNat = 1 := rfl
    rw [skipAt]
    split
    · rw [toNat_addCapped_eq_min, hone]
      omega
    · omega

variable {α : Type} [HasFields α]

/-- With a row the query admits every row that does not come before it. -/
theorem Planned.admits_of_isLE (h : Planned p token size plan) {a b : α}
    (hab : (plan.query.order.compareRows a b).isLE) (ha : plan.query.admits a = true) :
    plan.query.admits b = true := by
  have hboundary := h.boundary
  split at hboundary
  · simp only [Query.admits, hboundary]
  · obtain ⟨b, hmade, hquery⟩ := hboundary
    obtain ⟨values, -, hlen, rfl⟩ := Boundary.values_of_ofPosition hmade
    simp only [Query.admits, hquery] at ha ⊢
    exact Boundary.selects_of_isLE hlen hab ha

/-- A page is read by the one query of the plan. -/
theorem pageOfSize_of_plan (h : p.plan token size = .ok plan)
    (read : Query → Except Failure (List α)) :
    p.pageOfSize read token size.count = (read plan.query).map (assemble p.order plan) := by
  have hsize : PageSize.ofCount size.count = .ok size := dif_neg size.count_ne_zero
  rw [pageOfSize, hsize]
  simp only [h]

/-- A token without a plan is refused before anything is read. -/
theorem pageOfSize_of_refused {error : TokenError} (h : p.plan token size = .error error)
    (read : Query → Except Failure (List α)) :
    p.pageOfSize read token size.count = .error (.token error) := by
  have hsize : PageSize.ofCount size.count = .ok size := dif_neg size.count_ne_zero
  rw [pageOfSize, hsize]
  simp only [h]

end

end Pager

end Keyset
