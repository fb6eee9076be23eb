import Keyset.Proofs.Boundary.Selection
import Keyset.Proofs.Find.Server

/-! # The filter of a boundary

    A server gives the filter of a boundary the meaning that the boundary has in
    memory (`meets_toFilter`, `filter_selects`), for documents whose fields hold
    numbers and other scalars.

    The argument follows the filter from the inside.  A condition on a field asks
    something of the field's value alone (`Condition.holds`), and the conditions
    of a key hold together for the values beyond it: those of its own bracket by
    their order, those of the brackets that follow by their bracket
    (`any_beyond`).  A clause is one document, in which a second condition on a
    field would take the place of the first; the fields of an order are distinct,
    so none does (`meets_clause`).  The clauses from some key on ask for ties with
    the keys before it, and that the rest of the values lie beyond the rest of the
    keys (`any_clausesFrom`). -/

namespace Keyset

open Server

/-- Whether a place is beyond a boundary: after it, or at it if it is inclusive. -/
def reaches (inclusive : Bool) : Ordering → Bool
  | .gt => true
  | .eq => inclusive
  | .lt => false

/-! ## Conditions -/

namespace Condition

/-- Whether a condition holds for the value of a field. -/
def holds (x : FieldValue) : Condition → Bool
  | equals value => x.ties value
  | beyond direction inclusive value =>
      x.bracket == value.bracket && reaches inclusive (direction.orient (x.compare value))
  | within brackets => brackets.contains x.bracket

/-- Conditions that a server decides by the value of a field: none has an operand that is no number
at all, or asks for the bracket of null by its type. -/
def Plain : Condition → Prop
  | equals value => value.isNaN = false
  | beyond _ _ value => value.isNaN = false
  | within brackets => Bracket.null ∉ brackets

theorem rangeOf?_operator (direction : Direction) (inclusive : Bool) :
    ∃ asked, rangeOf? (operator direction inclusive) = some asked ∧
      ∀ c, asked c = reaches inclusive (direction.orient c) := by
  cases direction <;> cases inclusive <;>
    exact ⟨_, rfl, fun c => by cases c <;> rfl⟩

theorem operator_ne_type (direction : Direction) (inclusive : Bool) :
    operator direction inclusive ≠ "$type" := by
  cases direction <;> cases inclusive <;> decide

theorem typesNamed?_names (brackets : List Bracket) :
    typesNamed? (.array (brackets.map fun b => .string b.name))
      = some (brackets.map Bracket.name) := by
  show (brackets.map fun b => Bson.string b.name).mapM typeNamed? = _
  induction brackets with
  | nil => rfl
  | cons b brackets ih =>
    have hname : typeNamed? (.string b.name) = some b.name := if_pos (name_mem_types b)
    rw [List.map_cons, List.mapM_cons, hname, ih]
    rfl

theorem contains_typeOf (brackets : List Bracket) (v : FieldValue) :
    (brackets.map Bracket.name).contains (typeOf v) = brackets.contains v.bracket := by
  rw [typeOf_eq, List.contains_eq_mem, List.contains_eq_mem, decide_eq_decide, List.mem_map]
  constructor
  · rintro ⟨b, hb, hname⟩
    exact name_inj.mp hname ▸ hb
  · exact fun h => ⟨_, h, rfl⟩

/-- A server finds a condition on a field to hold exactly if it holds for the field's value. -/
theorem meetsField_toBson {c : Condition} {row : Document} {name : String} (hc : c.Plain)
    (hx : (SortOrder.fieldValue row name).isNaN = false) (other : OtherParts) :
    meetsField other row name c.toBson = c.holds (SortOrder.fieldValue row name) := by
  cases c with
  | equals value =>
    have hvalue : value.isNaN = false := hc
    have hfield : meetsField other row name value.toBson
        = compares (other name value.toBson row) (fun c => c == .eq) (fieldOf row name) value := by
      cases value <;> rfl
    show meetsField other row name value.toBson = _
    rw [hfield, fieldOf_eq, compares_of_not_isNaN hx hvalue, holds, FieldValue.ties]
    cases hcompare : (SortOrder.fieldValue row name).compare value with
    | eq =>
      rw [FieldValue.bracket_eq_of_compare hcompare, beq_self_eq_true]
      rfl
    | lt => exact Bool.and_false _
    | gt => exact Bool.and_false _
  | beyond direction inclusive value =>
    have hvalue : value.isNaN = false := hc
    obtain ⟨asked, hasked, hreaches⟩ := rangeOf?_operator direction inclusive
    show meetsOperator _ row name (operator direction inclusive) value.toBson = _
    rw [meetsOperator, if_neg (operator_ne_type direction inclusive), hasked,
      FieldValue.ofBson?_toBson]
    show compares _ asked (fieldOf row name) value = _
    rw [fieldOf_eq, compares_of_not_isNaN hx hvalue, hreaches]
    rfl
  | within brackets =>
    have hnull : Bracket.null ∉ brackets := hc
    show meetsOperator _ row name "$type" _ = _
    rw [meetsOperator, if_pos rfl, typesNamed?_names, holds, SortOrder.fieldValue]
    cases HasFields.field? row name with
    | some value => exact contains_typeOf brackets value
    | none =>
      -- a field that is missing has the bracket of null, which is not asked for by its type
      show false = brackets.contains Bracket.null
      rw [List.contains_eq_mem, decide_eq_false hnull]

end Condition

/-! ## Keys -/

namespace Boundary

theorem any_beyondInBracket (k : Key) (inclusive : Bool) (x : FieldValue) :
    (k.beyondInBracket inclusive).any (fun c => c.holds x)
      = (x.bracket == k.value.bracket
        && reaches inclusive (k.field.direction.orient (x.compare k.value))) := by
  have hrange : ∀ value, [Condition.beyond k.field.direction inclusive value].any
      (fun c => c.holds x) = (x.bracket == value.bracket
        && reaches inclusive (k.field.direction.orient (x.compare value))) :=
    fun value => Bool.or_false _
  -- in its own bracket, null has nothing after it
  have hnull : (x.bracket == Bracket.null
      && reaches inclusive (k.field.direction.orient (x.compare .null)))
      = (x.ties .null && inclusive) := by
    rw [FieldValue.ties_null]
    cases hx : x.bracket == Bracket.null with
    | false => rfl
    | true =>
      obtain rfl := FieldValue.eq_null_of_bracket (beq_iff_eq.mp hx)
      rw [show k.field.direction.orient (FieldValue.null.compare .null) = .eq from
        Direction.orient_eq_iff.mpr rfl]
      rfl
  unfold Key.beyondInBracket
  cases hvalue : k.value with
  | null =>
    refine Eq.trans ?_ hnull.symm
    cases inclusive with
    | false => exact (Bool.and_false _).symm
    | true => exact (Bool.or_false _).trans (Bool.and_true _).symm
  | int n => exact hrange (.int n)
  | float d => exact hrange (.float d)
  | string s => exact hrange (.string s)
  | objectId id => exact hrange (.objectId id)
  | bool b => exact hrange (.bool b)
  | date millis => exact hrange (.date millis)

/-- The brackets beyond a key, null among them, are those of the values that lie beyond it by their
    bracket. -/
theorem mem_bracketsBeyond_iff (k : Key) (b : Bracket) :
    b ∈ k.bracketsBeyond ∨
        (k.field.direction = .descending ∧ k.value.bracket ≠ .null) ∧ b = .null ↔
      k.field.direction.orient (Ord.compare b.rank k.value.bracket.rank) = .gt := by
  unfold Key.bracketsBeyond
  cases k.field.direction with
  | ascending =>
    show b ∈ k.value.bracket.after ∨ _ ↔ Ord.compare b.rank k.value.bracket.rank = .gt
    rw [Bracket.mem_after, Nat.compare_eq_gt]
    exact or_iff_left fun h => nomatch h.1.1
  | descending =>
    show b ∈ k.value.bracket.before ∨ _ ↔ (Ord.compare b.rank k.value.bracket.rank).swap = .gt
    rw [Ordering.swap_eq_gt, Nat.compare_eq_lt, Bracket.mem_before]
    by_cases hb : b = .null
    · subst hb
      constructor
      · rintro (h | h)
        · exact h.2
        · exact Bracket.rank_pos_iff.mpr h.1.2
      · intro h
        exact .inr ⟨⟨rfl, Bracket.rank_pos_iff.mp h⟩, rfl⟩
    · constructor
      · rintro (h | h)
        · exact h.2
        · exact absurd h.2 hb
      · intro h
        exact .inl ⟨hb, h⟩

theorem null_not_mem_bracketsBeyond (k : Key) : Bracket.null ∉ k.bracketsBeyond := by
  unfold Key.bracketsBeyond
  cases k.field.direction with
  | ascending => exact fun hmem => nomatch Bracket.mem_after.mp hmem
  | descending => exact fun hmem => (Bracket.mem_before.mp hmem).1 rfl

/-- The conditions of a key are plain if its value is. -/
theorem Key.plain_of_mem_beyond {k : Key} {inclusive : Bool} {c : Condition}
    (hk : k.value.isNaN = false) (hc : c ∈ k.beyond inclusive) : c.Plain := by
  have hnull : (Condition.equals .null).Plain := rfl
  rcases List.mem_append.mp hc with hc | hc
  · rcases List.mem_append.mp hc with hc | hc
    · unfold Key.beyondInBracket at hc
      cases hvalue : k.value with
      | null =>
        rw [hvalue] at hc
        cases inclusive with
        | false => exact nomatch hc
        | true => rw [List.mem_singleton.mp hc]; exact hnull
      | _ =>
        rw [hvalue] at hk hc
        rw [List.mem_singleton.mp hc]
        exact hk
    · by_cases hnil : k.bracketsBeyond = []
      · rw [if_pos hnil] at hc
        exact nomatch hc
      · rw [if_neg hnil] at hc
        rw [List.mem_singleton.mp hc]
        exact null_not_mem_bracketsBeyond k
  · by_cases hdescending : k.field.direction = .descending ∧ k.value.bracket ≠ .null
    · rw [if_pos hdescending] at hc
      rw [List.mem_singleton.mp hc]
      exact hnull
    · rw [if_neg hdescending] at hc
      exact nomatch hc

/-- The conditions of a key hold together for the values that lie beyond it. -/
theorem any_beyond (k : Key) (inclusive : Bool) (x : FieldValue) :
    (k.beyond inclusive).any (fun c => c.holds x)
      = reaches inclusive (k.field.direction.orient (x.compare k.value)) := by
  have hwithin : (if k.bracketsBeyond = [] then []
      else [Condition.within k.bracketsBeyond]).any (fun c => c.holds x)
      = decide (x.bracket ∈ k.bracketsBeyond) := by
    by_cases hnil : k.bracketsBeyond = []
    · rw [if_pos hnil, hnil]
      rfl
    · rw [if_neg hnil]
      exact (Bool.or_false _).trans (List.contains_eq_mem _ _)
  have hnull : (if k.field.direction = .descending ∧ k.value.bracket ≠ .null then
        [Condition.equals .null] else []).any (fun c => c.holds x)
      = decide ((k.field.direction = .descending ∧ k.value.bracket ≠ .null)
        ∧ x.bracket = .null) := by
    by_cases hdescending : k.field.direction = .descending ∧ k.value.bracket ≠ .null
    · rw [if_pos hdescending]
      show (x.ties .null || false) = _
      rw [Bool.or_false, FieldValue.ties_null, Bool.eq_iff_iff, beq_iff_eq, decide_eq_true_iff]
      exact (and_iff_right hdescending).symm
    · rw [if_neg hdescending]
      exact (decide_eq_false fun h => hdescending h.1).symm
  have hothers : (decide (x.bracket ∈ k.bracketsBeyond)
      || decide ((k.field.direction = .descending ∧ k.value.bracket ≠ .null)
        ∧ x.bracket = .null))
      = (k.field.direction.orient (Ord.compare x.bracket.rank k.value.bracket.rank) == .gt) := by
    rw [Bool.eq_iff_iff, Bool.or_eq_true, decide_eq_true_iff, decide_eq_true_iff, beq_iff_eq]
    exact mem_bracketsBeyond_iff k x.bracket
  rw [Key.beyond, List.any_append, List.any_append, any_beyondInBracket, hwithin, hnull,
    Bool.or_assoc, hothers]
  -- a value of another bracket compares by the bracket, one of the key's own bracket by its order
  rcases Nat.lt_trichotomy x.bracket.rank k.value.bracket.rank with hlt | heq | hgt
  · have hne : (x.bracket == k.value.bracket) = false := by
      refine beq_eq_false_iff_ne.mpr fun h => ?_
      rw [h] at hlt
      exact Nat.lt_irrefl _ hlt
    rw [hne, FieldValue.compare_of_rank_lt hlt, Nat.compare_eq_lt.mpr hlt]
    cases k.field.direction <;> rfl
  · rw [Nat.compare_eq_eq.mpr heq, Bracket.rank_injective heq, beq_self_eq_true]
    cases k.field.direction <;> exact Bool.or_false _
  · have hne : (x.bracket == k.value.bracket) = false := by
      refine beq_eq_false_iff_ne.mpr fun h => ?_
      rw [h] at hgt
      exact Nat.lt_irrefl _ hgt
    rw [hne, FieldValue.compare_of_rank_gt hgt, Nat.compare_eq_gt.mpr hgt]
    cases k.field.direction <;> rfl

end Boundary

/-! ## Clauses -/

/-- Whether a condition holds for the value that a row has in a field. -/
def holdsAt (row : Document) (part : String × Condition) : Bool :=
  part.2.holds (SortOrder.fieldValue row part.1)

/-- Whether all conditions of a clause hold for a row, and one of its alternatives. -/
def Clause.holds (row : Document) (c : Clause) : Bool :=
  c.conditions.all (holdsAt row)
    && (decide (c.alternatives = []) || c.alternatives.any (holdsAt row))

namespace Boundary

/-- Whether a row ties with a key. -/
def Key.ties (row : Document) (k : Key) : Bool :=
  (SortOrder.fieldValue row k.field.name).ties k.value

/-- The clauses of a key ask for ties with the keys before it, and for a value beyond it. -/
theorem any_clausesAt (row : Document) (before : List Key) (k : Key) (inclusive : Bool) :
    (clausesAt before k inclusive).any (Clause.holds row)
      = (before.all (Key.ties row) && reaches inclusive
        (k.field.direction.orient ((SortOrder.fieldValue row k.field.name).compare k.value))) := by
  have hties : (before.map fun b => (b.field.name, Condition.equals b.value)).all (holdsAt row)
      = before.all (Key.ties row) := List.all_map
  have hchoices : ((k.beyond inclusive).map fun c => (k.field.name, c)).any (holdsAt row)
      = (k.beyond inclusive).any fun c => c.holds (SortOrder.fieldValue row k.field.name) :=
    List.any_map
  rw [← any_beyond, ← hties, ← hchoices]
  simp only [clausesAt]
  generalize before.map (fun b => (b.field.name, Condition.equals b.value)) = ties
  generalize (k.beyond inclusive).map (fun c => (k.field.name, c)) = choices
  cases ties with
  | nil =>
    show (choices.map fun choice => Clause.mk [choice] []).any (Clause.holds row) = _
    rw [List.any_map]
    show choices.any (fun choice => (holdsAt row choice && true) && true) = choices.any (holdsAt row)
    simp only [Bool.and_true]
  | cons tie ties =>
    cases choices with
    | nil => exact (Bool.and_false _).symm
    | cons choice choices =>
      cases choices with
      | nil =>
        show (Clause.holds row ⟨(tie :: ties) ++ [choice], []⟩ || false) = _
        rw [Clause.holds, List.all_append]
        simp
      | cons choice' choices =>
        show (Clause.holds row ⟨tie :: ties, choice :: choice' :: choices⟩ || false) = _
        rw [Clause.holds]
        simp

/-- The clauses from some keys on ask for ties with the keys before them, and for a row that lies
    beyond them. -/
theorem any_clausesFrom (row : Document) (inclusive : Bool) (before : List Key) {keys : List Key}
    (hkeys : keys ≠ []) :
    (clausesFrom inclusive before keys).any (Clause.holds row)
      = (before.all (Key.ties row) && reaches inclusive (compareKeys row keys)) := by
  induction keys generalizing before with
  | nil => exact absurd rfl hkeys
  | cons k rest ih =>
    cases rest with
    | nil =>
      rw [clausesFrom, any_clausesAt, compareKeys, compareKeys, Ordering.then_eq]
    | cons k' rest =>
      have hcons : clausesFrom inclusive before (k :: k' :: rest)
          = clausesAt before k false ++ clausesFrom inclusive (before ++ [k]) (k' :: rest) := rfl
      have hall : (before ++ [k]).all (Key.ties row)
          = (before.all (Key.ties row) && Key.ties row k) := by
        rw [List.all_append]
        exact congrArg _ (Bool.and_true _)
      -- the first key decides unless the row ties with it, and then it is one of those before
      rw [hcons, List.any_append, any_clausesAt, ih _ (List.cons_ne_nil _ _), hall,
        compareKeys.eq_2 row k]
      have hties : Key.ties row k = (k.field.direction.orient
          ((SortOrder.fieldValue row k.field.name).compare k.value) == .eq) := by
        rw [Key.ties, FieldValue.ties, Bool.eq_iff_iff, beq_iff_eq, beq_iff_eq,
          Direction.orient_eq_iff]
      rw [hties]
      cases k.field.direction.orient
          ((SortOrder.fieldValue row k.field.name).compare k.value) with
      | lt => simp [reaches]
      | eq => simp [reaches]
      | gt => simp [reaches]

end Boundary

/-! ## Filters -/

/-- A condition on a field that a server decides by the value that a document has in the field. -/
structure Answerable (row : Document) (part : String × Condition) : Prop where
  name : isOperator part.1 = false
  plain : part.2.Plain
  value : (SortOrder.fieldValue row part.1).isNaN = false

/-- A clause all of whose conditions a server decides by the values of a document, and in which no
    condition takes the place of another. -/
structure Clause.Answerable (row : Document) (c : Clause) : Prop where
  conditions : ∀ part ∈ c.conditions, Keyset.Answerable row part
  alternatives : ∀ part ∈ c.alternatives, Keyset.Answerable row part
  nodup : (c.conditions.map Prod.fst).Nodup

theorem Condition.toBson_ne_array (c : Condition) (items : List Bson) : c.toBson ≠ .array items := by
  intro h
  cases c with
  | equals value => cases value <;> exact nomatch h
  | beyond direction inclusive value => exact nomatch h
  | within brackets => exact nomatch h

namespace Server

variable {other : OtherParts} {row : Document}

/-- What is asked of a field, and not of the elements of a list, is a part that the field decides. -/
theorem meetsPart_eq {name : String} {asked : Bson} (hname : isOperator name = false)
    (hasked : ∀ items, asked ≠ .array items) :
    meetsPart other row name asked = meetsField other row name asked := by
  have hfield : (if isOperator name then other name asked row
      else meetsField other row name asked) = meetsField other row name asked := by
    rw [hname]
    rfl
  cases asked with
  | array items => exact absurd rfl (hasked items)
  | bool b =>
    have hexpr : name ≠ "$expr" := by
      rintro rfl
      exact absurd hname (by decide)
    exact (if_neg hexpr).trans hfield
  | _ => exact hfield

theorem meets_cons (key : String) (asked : Bson) (rest : Document) :
    meets other row ((key, asked) :: rest)
      = (meetsPart other row key asked && meets other row rest) := rfl

theorem meets_singleton (key : String) (asked : Bson) :
    meets other row [(key, asked)] = meetsPart other row key asked :=
  Bool.and_true _

theorem meets_append (filter filter' : Document) :
    meets other row (filter ++ filter') = (meets other row filter && meets other row filter') := by
  induction filter with
  | nil => rfl
  | cons part filter ih =>
    obtain ⟨key, asked⟩ := part
    rw [List.cons_append, meets_cons, meets_cons, ih, Bool.and_assoc]

/-- A server finds one of some filters met if it finds each met exactly if something holds, and that
    holds once. -/
theorem meetsSome_map {β : Type} {l : List β} {f : β → Document} {holds : β → Bool}
    (h : ∀ a ∈ l, meets other row (f a) = holds a) :
    meetsSome other row (l.map fun a => .document (f a)) = l.any holds := by
  induction l with
  | nil => rfl
  | cons a l ih =>
    show (meets other row (f a) || meetsSome other row (l.map _)) = _
    rw [h a List.mem_cons_self, ih fun a' ha' => h a' (List.mem_cons_of_mem _ ha')]
    rfl

theorem meetsPart_toBson {part : String × Condition} (h : Answerable row part) :
    meetsPart other row part.1 part.2.toBson = holdsAt row part := by
  rw [meetsPart_eq h.name part.2.toBson_ne_array, Condition.meetsField_toBson h.plain h.value]
  rfl

theorem meets_conditions {parts : List (String × Condition)}
    (h : ∀ part ∈ parts, Answerable row part) :
    meets other row (parts.map fun (name, condition) => (name, condition.toBson))
      = parts.all (holdsAt row) := by
  induction parts with
  | nil => rfl
  | cons part parts ih =>
    rw [List.map_cons, meets_cons, meetsPart_toBson (h part List.mem_cons_self),
      ih fun part' hpart' => h part' (List.mem_cons_of_mem _ hpart')]
    rfl

/-- A server finds a clause met exactly if it holds. -/
theorem meets_clause {c : Clause} (h : c.Answerable row) :
    meets other row c.toDocument = c.holds row := by
  let members : Document := c.conditions.map fun (name, condition) => (name, condition.toBson)
  have hnames : members.map Prod.fst = c.conditions.map Prod.fst := by
    rw [List.map_map]
    rfl
  -- conditions on distinct fields are set beside one another, and no field is called like "$or"
  have hmembers : Document.insertAll [] members = members := by
    refine Document.insertAll_of_nodup ?_
    rw [List.nil_append, hnames]
    exact h.nodup
  have hor : "$or" ∉ members.map Prod.fst := by
    rw [hnames]
    intro hmem
    obtain ⟨part, hpart, hname⟩ := List.mem_map.mp hmem
    have hfield := (h.conditions part hpart).name
    rw [hname] at hfield
    exact absurd hfield (by decide)
  show meets other row (if c.alternatives = [] then Document.insertAll [] members
    else (Document.insertAll [] members).insert "$or" _) = _
  rw [hmembers, Document.insert_of_not_mem hor, Clause.holds]
  by_cases hnil : c.alternatives = []
  · rw [if_pos hnil, meets_conditions h.conditions, hnil]
    exact (Bool.and_true _).symm
  · have hsome : meetsSome other row (c.alternatives.map fun (name, condition) =>
        .document [(name, condition.toBson)]) = c.alternatives.any (holdsAt row) :=
      meetsSome_map fun part hpart =>
        (meets_singleton _ _).trans (meetsPart_toBson (h.alternatives part hpart))
    rw [if_neg hnil, meets_append, meets_conditions h.conditions, meets_singleton,
      decide_eq_false hnil]
    exact congrArg _ hsome

end Server

namespace Boundary

open Server

/-- A key whose conditions a server decides by the value that a document has in its field. -/
structure Key.Answerable (row : Document) (k : Key) : Prop where
  name : isOperator k.field.name = false
  plain : k.value.isNaN = false
  value : (SortOrder.fieldValue row k.field.name).isNaN = false

theorem Key.Answerable.equals {row : Document} {k : Key} (h : k.Answerable row) :
    Keyset.Answerable row (k.field.name, .equals k.value) where
  name := h.name
  plain := h.plain
  value := h.value

theorem Key.Answerable.beyond {row : Document} {k : Key} {inclusive : Bool} {c : Condition}
    (h : k.Answerable row) (hc : c ∈ k.beyond inclusive) :
    Keyset.Answerable row (k.field.name, c) where
  name := h.name
  plain := Key.plain_of_mem_beyond h.plain hc
  value := h.value

theorem answerable_of_mem_clausesAt {row : Document} {before : List Key} {k : Key}
    {inclusive : Bool} (hbefore : ∀ b ∈ before, b.Answerable row) (hk : k.Answerable row)
    (hnodup : ((before ++ [k]).map fun b => b.field.name).Nodup) :
    ∀ c ∈ clausesAt before k inclusive, c.Answerable row := by
  have hties : ∀ part ∈ before.map fun b => (b.field.name, Condition.equals b.value),
      Keyset.Answerable row part := by
    intro part hpart
    obtain ⟨b, hb, rfl⟩ := List.mem_map.mp hpart
    exact (hbefore b hb).equals
  have hchoices : ∀ part ∈ (k.beyond inclusive).map fun c => (k.field.name, c),
      Keyset.Answerable row part := by
    intro part hpart
    obtain ⟨c, hc, rfl⟩ := List.mem_map.mp hpart
    exact hk.beyond hc
  have hnone : ∀ part ∈ ([] : List (String × Condition)), Keyset.Answerable row part :=
    fun _ hpart => nomatch hpart
  have htied : ((before.map fun b => (b.field.name, Condition.equals b.value)).map
      Prod.fst).Nodup := by
    rw [List.map_append] at hnodup
    rw [List.map_map]
    exact (List.nodup_append.mp hnodup).1
  have hjoined : ∀ choice ∈ (k.beyond inclusive).map fun c => (k.field.name, c),
      ((before.map (fun b => (b.field.name, Condition.equals b.value)) ++ [choice]).map
        Prod.fst).Nodup := by
    intro choice hchoice
    obtain ⟨c, -, rfl⟩ := List.mem_map.mp hchoice
    rw [List.map_append] at hnodup
    rw [List.map_append, List.map_map]
    exact hnodup
  intro c hc
  simp only [clausesAt] at hc
  generalize before.map (fun b => (b.field.name, Condition.equals b.value)) = ties
    at hties htied hjoined hc
  generalize (k.beyond inclusive).map (fun c => (k.field.name, c)) = choices
    at hchoices hjoined hc
  cases ties with
  | nil =>
    obtain ⟨choice, hchoice, rfl⟩ := List.mem_map.mp hc
    refine ⟨fun part hpart => ?_, hnone, hjoined choice hchoice⟩
    rw [List.mem_singleton.mp hpart]
    exact hchoices choice hchoice
  | cons tie ties =>
    cases choices with
    | nil => exact nomatch hc
    | cons choice choices =>
      cases choices with
      | nil =>
        obtain rfl := List.mem_singleton.mp hc
        refine ⟨fun part hpart => ?_, hnone, hjoined choice List.mem_cons_self⟩
        rcases List.mem_append.mp hpart with hpart | hpart
        · exact hties part hpart
        · exact hchoices part hpart
      | cons choice' choices =>
        obtain rfl := List.mem_singleton.mp hc
        exact ⟨hties, hchoices, htied⟩

theorem answerable_of_mem_clausesFrom {row : Document} {before keys : List Key} {inclusive : Bool}
    (hbefore : ∀ b ∈ before, b.Answerable row) (hkeys : ∀ k ∈ keys, k.Answerable row)
    (hnodup : ((before ++ keys).map fun k => k.field.name).Nodup) :
    ∀ c ∈ clausesFrom inclusive before keys, c.Answerable row := by
  induction keys generalizing before with
  | nil => exact fun c hc => nomatch hc
  | cons k rest ih =>
    have hk := hkeys k List.mem_cons_self
    have hrest : ∀ k' ∈ rest, k'.Answerable row := fun k' hk' =>
      hkeys k' (List.mem_cons_of_mem _ hk')
    cases rest with
    | nil => exact answerable_of_mem_clausesAt hbefore hk hnodup
    | cons k' rest =>
      have hnext : ((before ++ [k] ++ k' :: rest).map fun k => k.field.name).Nodup := by
        rw [← List.append_cons]
        exact hnodup
      have hfirst : ((before ++ [k]).map fun k => k.field.name).Nodup := by
        rw [List.map_append] at hnext
        exact (List.nodup_append.mp hnext).1
      intro c hc
      rcases List.mem_append.mp hc with hc | hc
      · exact answerable_of_mem_clausesAt hbefore hk hfirst c hc
      · refine ih (fun b hb => ?_) hrest hnext c hc
        rcases List.mem_append.mp hb with hb | hb
        · exact hbefore b hb
        · rw [List.mem_singleton.mp hb]
          exact hk

theorem selects_eq {α : Type} [HasFields α] (b : Boundary) (row : α) :
    b.selects row = reaches b.inclusive (compareKeys row b.keys) := by
  show (match compareKeys row b.keys with | .gt => true | .eq => b.inclusive | .lt => false) = _
  cases compareKeys row b.keys <;> rfl

/-- A boundary whose filter a server decides by the values of a document: it has keys, no two of
    them on one field. -/
structure Answerable (row : Document) (b : Boundary) : Prop where
  keys_ne_nil : b.keys ≠ []
  nodup : (b.keys.map fun k => k.field.name).Nodup
  key : ∀ k ∈ b.keys, k.Answerable row

/-- A server finds the filter of a boundary met exactly by the documents that the boundary selects,
    as long as neither the boundary nor the fields hold what is no number at all. -/
theorem meets_toFilter {b : Boundary} {row : Document} (h : b.Answerable row) (other : OtherParts) :
    meets other row b.toFilter.toDocument = b.selects row := by
  have hany := any_clausesFrom row b.inclusive [] h.keys_ne_nil
  have hnone : ∀ k ∈ ([] : List Key), k.Answerable row := fun _ hk => nomatch hk
  have hclauses : ∀ c ∈ clausesFrom b.inclusive [] b.keys,
      meets other row c.toDocument = c.holds row := fun c hc =>
    meets_clause (answerable_of_mem_clausesFrom hnone h.key h.nodup c hc)
  rw [selects_eq]
  refine Eq.trans ?_ hany
  unfold toFilter
  generalize clausesFrom b.inclusive [] b.keys = clauses at hclauses
  match clauses with
  | [] => rfl
  | [c] => exact (hclauses c List.mem_cons_self).trans (Bool.or_false _).symm
  | c :: c' :: rest =>
    show meets other row [("$or", _)] = _
    rw [meets_singleton]
    exact meetsSome_map hclauses

/-- The name of a field to sort by is no operator. -/
theorem isOperator_of_usable {name : String} (h : SortField.usable name.toList = true) :
    isOperator name = false := by
  unfold isOperator
  unfold SortField.usable at h
  cases hname : name.toList with
  | nil => rfl
  | cons c cs =>
    rw [hname] at h
    simp only [Bool.and_eq_true, decide_eq_true_iff] at h
    simpa using h.1.1

/-- A server decides the filter of a boundary of an order, as long as neither its values nor those of
    a document are no number at all. -/
theorem answerable_of_ofValues {o : SortOrder} {values : List FieldValue} {inclusive : Bool}
    {b : Boundary} {row : Document} (h : ofValues o values inclusive = .ok b)
    (hvalues : ∀ v ∈ values, v.isNaN = false)
    (hrow : ∀ f ∈ o.fields, (SortOrder.fieldValue row f.name).isNaN = false) :
    b.Answerable row := by
  obtain ⟨hlength, rfl⟩ := ofValues_eq_ok_iff.mp h
  have hfields := map_field_zipWith hlength
  refine ⟨fun hnil => ?_, ?_, fun k hk => ?_⟩
  · have hnil : List.zipWith Key.mk o.fields values = [] := hnil
    rw [hnil] at hfields
    exact o.fields_ne_nil hfields.symm
  · show ((List.zipWith Key.mk o.fields values).map (SortField.name ∘ Key.field)).Nodup
    rw [← List.map_map, hfields]
    exact o.nodup_names
  · obtain ⟨hfield, hvalue⟩ := of_mem_zipWith hk
    exact ⟨isOperator_of_usable (o.usable_name k.field hfield), hvalues k.value hvalue,
      hrow k.field hfield⟩

/-- Rows that read alike in the fields of an order lie alike among some values. -/
theorem compareKeys_congr {α β : Type} [HasFields α] [HasFields β] {row : α} {row' : β}
    {fields : List SortField}
    (h : ∀ f ∈ fields, SortOrder.fieldValue row f.name = SortOrder.fieldValue row' f.name)
    (values : List FieldValue) :
    compareKeys row (List.zipWith Key.mk fields values)
      = compareKeys row' (List.zipWith Key.mk fields values) := by
  rw [compareKeys_zipWith, compareKeys_zipWith, List.map_congr_left h]

/-- The filter of the boundary at some values, one for each field, is met by the document that a row
    is stored as exactly if the boundary selects the row; nothing it asks is left to how a server
    decides other parts of filters. -/
theorem filter_selects {α : Type} [HasFields α] {o : SortOrder} {values : List FieldValue}
    {row : α} {stored : Document} (hlen : values.length = o.fields.length)
    (hvalues : ∀ v ∈ values, v.isNaN = false)
    (hrow : ∀ f ∈ o.fields, (SortOrder.fieldValue row f.name).isNaN = false)
    (hstored : ∀ f ∈ o.fields,
      SortOrder.fieldValue stored f.name = SortOrder.fieldValue row f.name) (inclusive : Bool) :
    ∃ b, ofValues o values inclusive = .ok b ∧
      ∀ other, meets other stored b.toFilter.toDocument = b.selects row := by
  let b : Boundary := ⟨List.zipWith Key.mk o.fields values, inclusive⟩
  have hb : ofValues o values inclusive = .ok b := if_pos hlen
  have hstored' : ∀ f ∈ o.fields, (SortOrder.fieldValue stored f.name).isNaN = false := by
    intro f hf
    rw [hstored f hf]
    exact hrow f hf
  have hanswerable := answerable_of_ofValues hb hvalues hstored'
  refine ⟨b, hb, fun other => ?_⟩
  rw [meets_toFilter hanswerable, selects_eq, selects_eq, compareKeys_congr hstored]

/-- The document ties on two fields and is selected by the bracket of its third; the filter is met
    by it. -/
theorem filter_selects_mixed :
    ∃ b, ofValues mixedOrder mixedValues false = .ok b ∧ b.selects mixedDocument = true ∧
      ∀ other, meets other mixedDocument b.toFilter.toDocument = true := by
  have hlen : mixedValues.length = mixedOrder.fields.length := rfl
  have hvalues : ∀ v ∈ mixedValues, v.isNaN = false := by decide
  have hrow : ∀ f ∈ mixedOrder.fields,
      (SortOrder.fieldValue mixedDocument f.name).isNaN = false := by decide
  obtain ⟨b, hb, hfilter⟩ := filter_selects hlen hvalues hrow (fun _ _ => rfl) false
  have hselects : b.selects mixedDocument = true := by
    obtain rfl := Except.ok.inj ((if_pos hlen).symm.trans hb)
    decide +kernel
  exact ⟨b, hb, hselects, fun other => (hfilter other).trans hselects⟩

end Boundary

end Keyset
