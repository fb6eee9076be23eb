import Keyset.Number.Double

/-! # JSON values

A JSON value that keeps what its text says: integers apart from numbers with a point or a power of
ten, and members in their order.  A member written again keeps its first place and takes the new
value. -/

namespace Keyset

/-- A JSON value. -/
inductive Json where
  | null
  | bool (b : Bool)
  | integer (n : Int)
  | number (d : Number.Double)
  | string (s : String)
  | array (items : List Json)
  | object (members : List (String × Json))

namespace Json

/-- The members with the value of one of them set: in its place if it is there, else at the end. -/
def put {α : Type} (key : String) (value : α) : List (String × α) → List (String × α)
  | [] => [(key, value)]
  | (k, v) :: rest => if k = key then (k, value) :: rest else (k, v) :: put key value rest

/-- The value of a member of an object. -/
def member? (key : String) : Json → Option Json
  | .object members => members.lookup key
  | _ => none

/-- A member that is not there yet comes to the end. -/
theorem put_of_not_mem {α : Type} {key : String} {members : List (String × α)}
    (h : key ∉ members.map Prod.fst) (value : α) :
    put key value members = members ++ [(key, value)] := by
  induction members with
  | nil => rfl
  | cons m rest ih =>
    obtain ⟨k, v⟩ := m
    rw [List.map_cons, List.mem_cons, not_or] at h
    rw [put, if_neg (Ne.symm h.1), ih h.2]
    rfl

end Json

end Keyset
