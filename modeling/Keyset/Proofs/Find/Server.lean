import Keyset.Collection
import Keyset.Proofs.FieldValue.Brackets
import Keyset.Proofs.Text.Utf8

/-! # How a server answers a find command

    A server keeps the documents that meet a filter (`meets`), sorts them by the
    fields of a sort document (`compareSorted?`), passes over the first few and
    gives the next ones (`answer?`).

    A filter asks all of its parts together.  A part is an operator over further
    filters, or it asks something of one field: to tie with a value, to lie on
    one side of it, or to be of some types.  Values compare only within a type,
    and a field that is missing counts as null.  Sorting puts the types one after
    the other.

    All this is a server's own: its types and their names, how it orders values
    of one type, and the numbers by which a sort document gives a direction.
    That the order is the one in memory is proved here (`compareValues_eq`).

    A caller may ask for anything else that servers know.  How one decides such
    a part is taken as given (`OtherParts`): by the key of the part, its operand
    and the document. -/

namespace Keyset.Server

open Number

/-- How a server decides the parts of a filter that are not spelled out here. -/
abbrev OtherParts := String → Bson → Document → Bool

/-! ## Values -/

/-- The types of the values that a server can sort by, in their order. -/
def types : List String := ["null", "number", "string", "objectId", "bool", "date"]

/-- The type of a value. -/
def typeOf : FieldValue → String
  | .null => "null"
  | .int _ => "number"
  | .float _ => "number"
  | .string _ => "string"
  | .objectId _ => "objectId"
  | .bool _ => "bool"
  | .date _ => "date"

/-- A number as a server sorts it: what is no number at all before minus infinity, then the finite
    numbers by how many times `2 ^ -1074` they are, which is a whole number of times, and infinity. -/
def scaled : FieldValue → Nat × Int
  | .int n => (2, n.toInt * twoTo 1074)
  | .float (.finite false m) => (2, m.significand * twoTo m.scale)
  | .float (.finite true m) => (2, -(m.significand * twoTo m.scale))
  | .float (.infinite true) => (1, 0)
  | .float (.infinite false) => (3, 0)
  | _ => (0, 0)

/-- Which of two values of one type comes first: numbers by what they are, strings and object ids
    byte by byte, false before true, and instants by their time. -/
def compareWithin : FieldValue → FieldValue → Ordering
  | .string a, .string b => Ord.compare (Text.utf8 a) (Text.utf8 b)
  | .objectId a, .objectId b => Ord.compare a.bytes b.bytes
  | .bool a, .bool b => Ord.compare a b
  | .date a, .date b => Ord.compare a.toInt b.toInt
  | a, b => (Ord.compare (scaled a).1 (scaled b).1).then (Ord.compare (scaled a).2 (scaled b).2)

/-- Which of two values comes first: by their types, and then within the type. -/
def compareValues (a b : FieldValue) : Ordering :=
  (Ord.compare (types.idxOf (typeOf a)) (types.idxOf (typeOf b))).then (compareWithin a b)

/-- The value of a field; one that is missing counts as null. -/
def fieldOf (row : Document) (name : String) : FieldValue :=
  match HasFields.field? row name with
  | some value => value
  | none => .null

/-! ## Conditions on a field -/

/-- What an operator of comparison asks of a value that compares with its operand. -/
def rangeOf? : String → Option (Ordering → Bool)
  | "$gt" => some fun c => c == .gt
  | "$gte" => some Ordering.isGE
  | "$lt" => some fun c => c == .lt
  | "$lte" => some Ordering.isLE
  | _ => none

/-- The type that an operand names. -/
def typeNamed? : Bson → Option String
  | .string name => if name ∈ types then some name else none
  | _ => none

/-- The types that a list of operands names. -/
def typesNamed? : Bson → Option (List String)
  | .array items => items.mapM typeNamed?
  | _ => none

/-- Whether a value compares with an operand as asked.  Values of different types do not compare, and
what is no number at all is decided otherwise. -/
def compares (other : Bool) (asked : Ordering → Bool) (value operand : FieldValue) : Bool :=
  if value.isNaN || operand.isNaN then other
  else typeOf value == typeOf operand && asked (compareWithin value operand)

/-- Whether a field of a document meets an operator. -/
def meetsOperator (other : Bool) (row : Document) (name operator : String) (operand : Bson) : Bool :=
  if operator = "$type" then
    match typesNamed? operand, HasFields.field? row name with
    | some names, some value => names.contains (typeOf value)
    | some _, none => false
    | none, _ => other
  else
    match rangeOf? operator, FieldValue.ofBson? operand with
    | some asked, some value => compares other asked (fieldOf row name) value
    | _, _ => other

/-- Whether a field of a document meets what is asked of it: an operator, or a value to tie with. -/
def meetsField (other : OtherParts) (row : Document) (name : String) (asked : Bson) : Bool :=
  match asked with
  | .document [(operator, operand)] =>
      meetsOperator (other name asked row) row name operator operand
  | _ =>
      match FieldValue.ofBson? asked with
      | some value => compares (other name asked row) (fun c => c == .eq) (fieldOf row name) value
      | none => other name asked row

/-- Whether the key of a part is that of an operator. -/
def isOperator (key : String) : Bool := key.toList.head? == some '$'

/-! ## Filters -/

mutual

/-- Whether a document meets a filter, that is, all of its parts. -/
def meets (other : OtherParts) (row : Document) : Document → Bool
  | [] => true
  | (key, asked) :: rest => meetsPart other row key asked && meets other row rest

/-- Whether a document meets a part of a filter. -/
def meetsPart (other : OtherParts) (row : Document) (key : String) : Bson → Bool
  | .array items =>
      if key = "$and" then meetsEvery other row items
      else if key = "$or" then meetsSome other row items
      else other key (.array items) row
  | .bool asked =>
      if key = "$expr" then asked
      else if isOperator key then other key (.bool asked) row
      else meetsField other row key (.bool asked)
  | asked =>
      if isOperator key then other key asked row else meetsField other row key asked

/-- Whether a document meets every filter of a list. -/
def meetsEvery (other : OtherParts) (row : Document) : List Bson → Bool
  | [] => true
  | .document filter :: rest => meets other row filter && meetsEvery other row rest
  | _ :: _ => false

/-- Whether a document meets one of the filters of a list. -/
def meetsSome (other : OtherParts) (row : Document) : List Bson → Bool
  | [] => false
  | .document filter :: rest => meets other row filter || meetsSome other row rest
  | _ :: rest => meetsSome other row rest

end

/-! ## Answers -/

/-- The direction that a sort document asks for, as what it makes of an ascending comparison: 1 lets
    it be and -1 turns it around. -/
def directed? : Bson → Option (Ordering → Ordering)
  | .int32 n => if n = 1 then some id else if n = -1 then some Ordering.swap else none
  | _ => none

/-- Which of two documents comes first by a sort document, if a server takes it: the fields decide
    one after the other. -/
def compareSorted? : Document → Option (Document → Document → Ordering)
  | [] => some fun _ _ => .eq
  | (name, asked) :: rest =>
      match directed? asked, compareSorted? rest with
      | some directed, some later => some fun a b =>
          (directed (compareValues (fieldOf a name) (fieldOf b name))).then (later a b)
      | _, _ => none

/-- The documents that answer a command, if a server takes it; a limit of zero is none. -/
def answer? (other : OtherParts) (documents : List Document) (f : Find) : Option (List Document) :=
  match compareSorted? f.sort with
  | none => none
  | some compare =>
      let found := documents.filter fun row => meets other row f.filter
      let sorted := found.mergeSort fun a b => (compare a b).isLE
      let rest := sorted.drop (f.skip.getD 0).toNat
      some (if f.limit = 0 then rest else rest.take f.limit.toNat)

/-! ## The order of values is the one in memory -/

theorem typeOf_eq (v : FieldValue) : typeOf v = v.bracket.name := by
  cases v <;> rfl

theorem idxOf_name (b : Bracket) : types.idxOf b.name = b.rank := by
  cases b <;> decide

theorem name_inj {a b : Bracket} : a.name = b.name ↔ a = b := by
  cases a <;> cases b <;> decide

theorem name_mem_types (b : Bracket) : b.name ∈ types := by
  cases b <;> decide

/-- A number is sorted by its place on the scale of numbers. -/
theorem scaled_eq (v : FieldValue) : scaled v = (v.numberKey.part, v.numberKey.offset) := by
  have hunits : ∀ m : Magnitude, (m.units : Int) = m.significand * twoTo m.scale :=
    fun m => Int.natCast_mul m.significand (twoTo m.scale)
  match v with
  | .int n =>
    show (2, n.toInt * (twoTo 1074 : Int)) = (2, n.toInt * (Magnitude.unitsOfOne : Int))
    rw [Magnitude.unitsOfOne_eq]
  | .float (.finite false m) => exact congrArg _ (hunits m).symm
  | .float (.finite true m) => exact congrArg _ (congrArg Int.neg (hunits m).symm)
  | .float (.infinite true) | .float (.infinite false) | .float (.nan _) => rfl
  | .null | .string _ | .objectId _ | .bool _ | .date _ => rfl

theorem compareWithin_number {a b : FieldValue} (ha : a.bracket = .number)
    (hb : b.bracket = .number) : compareWithin a b = a.compare b := by
  have hscaled : compareWithin a b = (Ord.compare (scaled a).1 (scaled b).1).then
      (Ord.compare (scaled a).2 (scaled b).2) := by
    obtain ⟨m, rfl⟩ | ⟨d, rfl⟩ := FieldValue.eq_of_bracket_number ha <;>
      obtain ⟨n, rfl⟩ | ⟨e, rfl⟩ := FieldValue.eq_of_bracket_number hb <;>
      rfl
  rw [hscaled, scaled_eq, scaled_eq, FieldValue.compare_numberKey ha hb]
  rfl

/-- Values of one bracket compare within their type as they do in memory. -/
theorem compareWithin_eq {a b : FieldValue} (h : a.bracket = b.bracket) :
    compareWithin a b = a.compare b := by
  cases a with
  | int m => exact compareWithin_number rfl h.symm
  | float d => exact compareWithin_number rfl h.symm
  | string s =>
    cases b with
    | string t => exact Text.compare_utf8 s t
    | _ => exact nomatch h
  | null | objectId _ | bool _ | date _ => cases b <;> first | rfl | exact nomatch h

/-- A server orders values as they are ordered in memory. -/
theorem compareValues_eq (a b : FieldValue) : compareValues a b = a.compare b := by
  unfold compareValues
  rw [typeOf_eq, typeOf_eq, idxOf_name, idxOf_name]
  rcases Nat.lt_trichotomy a.bracket.rank b.bracket.rank with hlt | heq | hgt
  · rw [Nat.compare_eq_lt.mpr hlt, FieldValue.compare_of_rank_lt hlt]
    rfl
  · rw [Nat.compare_eq_eq.mpr heq, compareWithin_eq (Bracket.rank_injective heq)]
    rfl
  · rw [Nat.compare_eq_gt.mpr hgt, FieldValue.compare_of_rank_gt hgt]
    rfl

theorem compares_of_not_isNaN {x value : FieldValue} (hx : x.isNaN = false)
    (hvalue : value.isNaN = false) (other : Bool) (asked : Ordering → Bool) :
    compares other asked x value = (x.bracket == value.bracket && asked (x.compare value)) := by
  have hcompares : compares other asked x value
      = (typeOf x == typeOf value && asked (compareWithin x value)) := by
    rw [compares, hx, hvalue]
    rfl
  rw [hcompares, typeOf_eq, typeOf_eq]
  by_cases h : x.bracket = value.bracket
  · rw [compareWithin_eq h, h, beq_self_eq_true, beq_self_eq_true]
  · rw [beq_eq_false_iff_ne.mpr h, beq_eq_false_iff_ne.mpr (mt name_inj.mp h)]
    rfl

theorem fieldOf_eq (row : Document) (name : String) :
    fieldOf row name = SortOrder.fieldValue row name := by
  unfold fieldOf SortOrder.fieldValue
  cases HasFields.field? row name <;> rfl

end Keyset.Server
