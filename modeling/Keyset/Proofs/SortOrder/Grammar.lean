import Keyset.Proofs.SortOrder.Text
import Mathlib.Data.List.Nodup

/-! # Which texts are sort orders

    Every segment of a text writes one field.  The fields make an order exactly
    if their names are usable and no two are the same (`Clear`).  Otherwise the
    first field that cannot stand after the ones before it is to blame: its name
    is unusable or already taken (`Blames`).  The reader finds that field while
    it collects the names it has seen (`firstFault?_eq_some_iff`).

    Blank text is one segment without a name.  Its fault is that it names
    nothing, which is the fault of no other text (`parse_eq_empty_iff`). -/

namespace Keyset

namespace SortOrder

open SortField

/-! ## Faults -/

/-- The names of the fields are usable, and no two of them are the same. -/
structure Clear (fields : List SortField) : Prop where
  usable : ∀ f ∈ fields, Usable f.name.toList
  nodup : (fields.map SortField.name).Nodup

/-- What is wrong with a field when some names are taken. -/
inductive Blames (taken : List String) (f : SortField) : OrderFault → Prop
  | unusable (h : ¬ Usable f.name.toList) : Blames taken f (.unusable f.name)
  | duplicate (husable : Usable f.name.toList) (h : f.name ∈ taken) :
      Blames taken f (.duplicate f.name)

theorem Blames.congr {taken taken' : List String} {f : SortField} {fault : OrderFault}
    (h : Blames taken f fault) (hsame : ∀ name, name ∈ taken ↔ name ∈ taken') :
    Blames taken' f fault := by
  cases h with
  | unusable h => exact .unusable h
  | duplicate husable h => exact .duplicate husable ((hsame _).mp h)

theorem firstFault?_nil_eq_none_iff {fields : List SortField} :
    firstFault? [] fields = none ↔ Clear fields := by
  rw [firstFault?_eq_none_iff]
  constructor
  · rintro ⟨husable, -, hnodup⟩
    exact ⟨fun f hf => usable_iff.mp (husable f hf), hnodup⟩
  · rintro ⟨husable, hnodup⟩
    exact ⟨fun f hf => usable_iff.mpr (husable f hf), fun _ _ => List.not_mem_nil, hnodup⟩

/-- The first fault is that of a field whose name cannot stand after the names that are taken and
    those of the fields before it, none of which has a fault itself. -/
theorem firstFault?_eq_some_iff {seen : List String} {fields : List SortField}
    {fault : OrderFault} :
    firstFault? seen fields = some fault ↔
      ∃ earlier f later, fields = earlier ++ f :: later ∧ firstFault? seen earlier = none ∧
        Blames (seen ++ earlier.map SortField.name) f fault := by
  have hmoved : ∀ (g : SortField) (seen : List String) (earlier : List SortField) (name : String),
      name ∈ g.name :: seen ++ earlier.map SortField.name ↔
        name ∈ seen ++ (g :: earlier).map SortField.name := by
    intro g seen earlier name
    simp only [List.cons_append, List.mem_cons, List.mem_append, List.map_cons]
    exact or_left_comm
  induction fields generalizing seen with
  | nil => simp [firstFault?]
  | cons g rest ih =>
    constructor
    · intro h
      rw [firstFault?] at h
      split at h
      · next husable =>
        split at h
        · next hseen =>
          obtain rfl := Option.some.inj h
          refine ⟨[], g, rest, rfl, rfl, .duplicate (usable_iff.mp husable) ?_⟩
          exact List.mem_append_left _ hseen
        · next hseen =>
          obtain ⟨earlier, f, later, rfl, hclear, hblames⟩ := ih.mp h
          refine ⟨g :: earlier, f, later, rfl, ?_, hblames.congr (hmoved g seen earlier)⟩
          rw [firstFault?, if_pos husable, if_neg hseen]
          exact hclear
      · next husable =>
        obtain rfl := Option.some.inj h
        exact ⟨[], g, rest, rfl, rfl, .unusable (mt usable_iff.mpr husable)⟩
    · rintro ⟨earlier, f, later, heq, hclear, hblames⟩
      cases earlier with
      | nil =>
        obtain ⟨rfl, rfl⟩ := List.cons.inj heq
        rw [List.map_nil, List.append_nil] at hblames
        rw [firstFault?]
        cases hblames with
        | unusable h => exact if_neg (mt usable_iff.mp h)
        | duplicate husable h => rw [if_pos (usable_iff.mpr husable), if_pos h]
      | cons e earlier =>
        obtain ⟨rfl, rfl⟩ := List.cons.inj heq
        -- the fields before the one to blame are passed over one by one
        rw [firstFault?] at hclear ⊢
        split at hclear
        · next husable =>
          split at hclear
          · cases hclear
          · next hseen =>
            rw [if_pos husable, if_neg hseen]
            refine ih.mpr ⟨earlier, f, later, rfl, hclear, ?_⟩
            exact hblames.congr fun name => (hmoved _ seen earlier name).symm
        · cases hclear

theorem ofFields_eq_error_iff {fields : List SortField} (h : fields ≠ []) {fault : OrderFault} :
    ofFields fields = .error fault ↔
      ∃ earlier f later, fields = earlier ++ f :: later ∧ Clear earlier ∧
        Blames (earlier.map SortField.name) f fault := by
  have hfirst : ofFields fields = .error fault ↔ firstFault? [] fields = some fault := by
    unfold ofFields
    rw [dif_neg h]
    split
    · next fault' hfault =>
      rw [hfault, Except.error.injEq, Option.some.injEq]
    · next hnone =>
      refine iff_of_false (fun h => nomatch h) ?_
      rw [hnone]
      exact fun h => nomatch h
  rw [hfirst, firstFault?_eq_some_iff]
  simp only [firstFault?_nil_eq_none_iff, List.nil_append]

/-- The fields make an order exactly if they are clear. -/
theorem exists_ofFields_iff {fields : List SortField} (h : fields ≠ []) :
    (∃ o, ofFields fields = .ok o) ↔ Clear fields := by
  constructor
  · rintro ⟨o, ho⟩
    obtain ⟨rfl, -⟩ := ofFields_eq_ok_iff.mp ho
    exact ⟨fun f hf => o.usable_of_mem hf, o.nodup_names⟩
  · rintro ⟨husable, hnodup⟩
    exact ⟨⟨fields, .ascending, h, fun f hf => usable_iff.mpr (husable f hf), hnodup⟩,
      ofFields_eq_ok_iff.mpr ⟨rfl, rfl⟩⟩

/-! ## Texts -/

/-- The segments of a text write one list of fields. -/
theorem forall₂_written_iff {segments : List (List Char)} {fields : List SortField} :
    List.Forall₂ Written segments fields ↔ fields = segments.map ofText := by
  rw [eq_comm, ← List.forall₂_eq_eq_eq, List.forall₂_map_left_iff]
  simp only [ofText_eq_iff]

theorem map_ofText_ne_nil (t : List Char) : (t.splitOn ',').map ofText ≠ [] :=
  mt List.map_eq_nil_iff.mp (List.splitOn_ne_nil ',' t)

theorem exists_parse_iff {t : List Char} :
    (∃ o, parse t = .ok o) ↔ Clear ((t.splitOn ',').map ofText) := by
  rw [← exists_ofFields_iff (map_ofText_ne_nil t)]
  simp only [parse_eq_ok_iff, ofFields_eq_ok_iff]

/-- The fault of a text is that it names nothing exactly if it is blank. -/
theorem parse_eq_empty_iff {t : List Char} :
    parse t = .error .empty ↔ ∀ c ∈ t, Text.isBlank c = true := by
  rw [← Text.trim_eq_nil_iff, parse]
  split
  · next hblank => exact iff_of_true rfl hblank
  · next hblank =>
    refine iff_of_false ?_ hblank
    rw [ofFields_eq_error_iff (map_ofText_ne_nil t)]
    rintro ⟨_, _, _, _, _, hblames⟩
    cases hblames

/-- The fault of any other text is that of the first field to blame. -/
theorem parse_eq_error_iff {t : List Char} (h : ¬ ∀ c ∈ t, Text.isBlank c = true)
    {fault : OrderFault} :
    parse t = .error fault ↔
      ∃ earlier f later, (t.splitOn ',').map ofText = earlier ++ f :: later ∧ Clear earlier ∧
        Blames (earlier.map SortField.name) f fault := by
  rw [← ofFields_eq_error_iff (map_ofText_ne_nil t), parse,
    if_neg (mt Text.trim_eq_nil_iff.mp h)]

/-! ## Sort documents -/

theorem names_sortDocument (o : SortOrder) :
    o.sortDocument.map Prod.fst = o.sortKeys.map Prod.fst := by
  rw [sortDocument_eq, List.map_map]
  rfl

theorem sortMember_eq (name : String) (d : Direction) :
    sortMember (name, d) = (name, .int32 (if d = .ascending then 1 else -1)) := by
  cases d <;> rfl

/-- A sort document begins with the fields of the order, with 1 for each ascending and -1 for each
    descending one.  It names no field twice, and names besides them the identifying field only,
    which it always has: last, and in the direction of tied rows, unless the order has it. -/
structure Sorts (o : SortOrder) (d : Document) : Prop where
  fields : o.fields.map
    (fun f => (f.name, Bson.int32 (if f.direction = .ascending then 1 else -1))) <+: d
  nodup : (d.map Prod.fst).Nodup
  count_id : (d.map Prod.fst).count "_id" = 1
  names : ∀ name ∈ d.map Prod.fst, name ∈ o.names ∨ name = "_id"
  tiebreak : "_id" ∉ o.names →
    d.getLast? = some ("_id", .int32 (if o.tiebreak = .ascending then 1 else -1))

theorem sorts_sortDocument (o : SortOrder) : Sorts o o.sortDocument := by
  have hnodup : (o.sortDocument.map Prod.fst).Nodup := by
    rw [names_sortDocument]
    exact o.nodup_names_sortKeys
  have hnames : o.sortDocument.map Prod.fst
      = if "_id" ∈ o.names then o.names else o.names ++ ["_id"] :=
    (names_sortDocument o).trans o.names_sortKeys
  have hfields : (o.fields.map fun f => (f.name, f.direction)).map sortMember
      = o.fields.map fun f => (f.name, .int32 (if f.direction = .ascending then 1 else -1)) := by
    rw [List.map_map]
    exact List.map_congr_left fun f _ => sortMember_eq f.name f.direction
  refine ⟨?_, hnodup, ?_, ?_, ?_⟩
  · rw [sortDocument_eq, sortKeys, ← hfields]
    split
    · exact List.prefix_refl _
    · rw [List.map_append]
      exact List.prefix_append _ _
  · refine List.count_eq_one_of_mem hnodup ?_
    rw [hnames]
    split
    · next hid => exact hid
    · exact List.mem_append_right _ (List.mem_singleton_self _)
  · intro name hname
    rw [hnames] at hname
    split at hname
    · exact .inl hname
    · rcases List.mem_append.mp hname with hname | hname
      · exact .inl hname
      · exact .inr (List.mem_singleton.mp hname)
  · intro hid
    have hid' : idField ∉ o.names := hid
    rw [sortDocument_eq, sortKeys, if_neg hid', List.map_append, ← sortMember_eq]
    exact List.getLast?_concat

/-- The segments of a text write one list of fields, and the text is read as an order exactly if the
    names in it are usable and distinct: the order of these fields, which is read from its own text
    too, is itself when inverted twice, and has a sort document with all fields and the identifying
    one.  Blank text names nothing, and the fault of any other text is that of the first field whose
    name is unusable or taken by one before it. -/
theorem parse_grammar (t : List Char) :
    ∃ fields, (∀ fields', List.Forall₂ Written (t.splitOn ',') fields' ↔ fields' = fields) ∧
      ((∃ o, parse t = .ok o) ↔ Clear fields) ∧
      (∀ o, parse t = .ok o → o.fields = fields ∧ o.tiebreak = .ascending ∧
        parse o.text = .ok o ∧ o.invert.invert = o ∧ Sorts o o.sortDocument) ∧
      (parse t = .error .empty ↔ ∀ c ∈ t, Text.isBlank c = true) ∧
      ((¬ ∀ c ∈ t, Text.isBlank c = true) → ∀ fault, parse t = .error fault ↔
        ∃ earlier f later, fields = earlier ++ f :: later ∧ Clear earlier ∧
          Blames (earlier.map SortField.name) f fault) := by
  refine ⟨(t.splitOn ',').map ofText, fun fields' => forall₂_written_iff, exists_parse_iff, ?_,
    parse_eq_empty_iff, fun h fault => parse_eq_error_iff h⟩
  intro o ho
  obtain ⟨hfields, hascending⟩ := parse_eq_ok_iff.mp ho
  exact ⟨hfields, hascending, (parse_text_iff hascending).mpr (comma_not_mem_of_parse ho),
    o.invert_invert, o.sorts_sortDocument⟩

/-- A text with blanks around every part of it. -/
def spaced : List Char := [' ', '-', ' ', 's', 'c', 'o', 'r', 'e', ' ', ',', ' ', '_', 'i', 'd', ' ']

/-- A text in which a name stands twice before one that cannot be used. -/
def twiceNamed : List Char := ['-', 'a', ',', ' ', 'a', ',', '$']

/-- Blanks change nothing in an order, and of several faults the first one is told. -/
theorem parse_grammar_spaced :
    parse spaced = .ok byFallingScore ∧ parse twiceNamed = .error (.duplicate "a") := by
  constructor
  · obtain ⟨fields, hfields, hread, hall, -⟩ := parse_grammar spaced
    have hwritten : List.Forall₂ Written (spaced.splitOn ',') byFallingScore.fields :=
      forall₂_written_iff.mpr (by decide)
    obtain rfl := (hfields _).mp hwritten
    have hclear : Clear byFallingScore.fields :=
      ⟨fun f hf => byFallingScore.usable_of_mem hf, byFallingScore.nodup_names⟩
    obtain ⟨o, ho⟩ := hread.mpr hclear
    obtain ⟨hsame, hascending, -⟩ := hall o ho
    rw [ho, ← ofFields_eq_ok_iff.mpr ⟨hsame, hascending⟩]
    exact ofFields_eq_ok_iff.mpr ⟨rfl, rfl⟩
  · obtain ⟨fields, hfields, -, -, -, hfault⟩ := parse_grammar twiceNamed
    have hwritten : List.Forall₂ Written (twiceNamed.splitOn ',')
        [⟨"a", .descending⟩, ⟨"a", .ascending⟩, ⟨"$", .ascending⟩] :=
      forall₂_written_iff.mpr (by decide)
    obtain rfl := (hfields _).mp hwritten
    have hname : Usable "a".toList := usable_iff.mp (by decide)
    have hclear : Clear [⟨"a", .descending⟩] := by
      refine ⟨?_, List.nodup_singleton _⟩
      intro f hf
      rw [List.mem_singleton.mp hf]
      exact hname
    have hnotBlank : ¬ ∀ c ∈ twiceNamed, Text.isBlank c = true :=
      fun hall => absurd (hall '-' List.mem_cons_self) (by decide)
    refine (hfault hnotBlank _).mpr ⟨[⟨"a", .descending⟩], ⟨"a", .ascending⟩, _, rfl, hclear, ?_⟩
    exact .duplicate hname (List.mem_singleton_self _)

end SortOrder

end Keyset
