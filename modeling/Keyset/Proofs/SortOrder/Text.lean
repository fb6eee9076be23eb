import Keyset.Proofs.Text.Blank
import Keyset.SortOrder
import Mathlib.Data.List.Forall2

/-! # The text of a sort order

    A field is written as its name, after a minus sign if it is descending, and
    the fields of an order with commas between them.  A segment between commas
    WRITES the one field that is left of it without the blanks around its parts
    (`ofText_eq_iff`), and a field with a usable name is written by its own text
    (`ofText_text`).

    A usable name has no blank, and no minus sign in front, that reading could
    take away; but it may have a comma.  An order that is read from a text has
    names without commas (`comma_not_mem_of_parse`), and just such orders are
    read from their own text (`parse_text_iff`).  Where a name has a comma, two
    orders may share a text (`text_shared`). -/

namespace Keyset

/-! ## Names and segments -/

namespace SortField

/-- A name that a field of an order can have. -/
structure Usable (name : List Char) : Prop where
  ne_nil : name ≠ []
  not_isBlank : ∀ c ∈ name, Text.isBlank c = false
  head?_ne_dollar : name.head? ≠ some '$'
  head?_ne_minus : name.head? ≠ some '-'

theorem usable_iff {name : List Char} : usable name = true ↔ Usable name := by
  constructor
  · intro h
    cases name with
    | nil => exact nomatch h
    | cons c name =>
      simp only [usable, Bool.and_eq_true, decide_eq_true_eq, Bool.not_eq_true',
        List.any_eq_false, Bool.not_eq_true] at h
      obtain ⟨⟨hdollar, hminus⟩, hblank⟩ := h
      refine ⟨List.cons_ne_nil c name, hblank, ?_, ?_⟩
      · exact fun heq => hdollar (Option.some.inj heq)
      · exact fun heq => hminus (Option.some.inj heq)
  · rintro ⟨hne, hblank, hdollar, hminus⟩
    obtain ⟨c, name, rfl⟩ := List.exists_cons_of_ne_nil hne
    simp only [usable, Bool.and_eq_true, decide_eq_true_eq, Bool.not_eq_true', List.any_eq_false,
      Bool.not_eq_true]
    exact ⟨⟨fun heq => hdollar (congrArg some heq), fun heq => hminus (congrArg some heq)⟩, hblank⟩

/-- The field that a segment between commas writes: without the blanks around it the segment is the
    name, or a minus sign and the name, which may have blanks around it again. -/
inductive Written : List Char → SortField → Prop
  | ascending {segment name : List Char} (h : Text.Trims segment name)
      (hsign : name.head? ≠ some '-') : Written segment ⟨String.ofList name, .ascending⟩
  | descending {segment signed name : List Char} (h : Text.Trims segment ('-' :: signed))
      (hname : Text.Trims signed name) : Written segment ⟨String.ofList name, .descending⟩

/-- A segment is read as the field that it writes. -/
theorem ofText_eq_iff {segment : List Char} {f : SortField} :
    ofText segment = f ↔ Written segment f := by
  constructor
  · rintro rfl
    unfold ofText
    split
    · next signed hsigned => exact .descending (Text.trim_eq_iff.mp hsigned) (Text.trims_trim signed)
    · next hsign =>
      refine .ascending (Text.trims_trim segment) ?_
      intro hhead
      obtain ⟨signed, hsigned⟩ := List.head?_eq_some_iff.mp hhead
      exact hsign signed hsigned
  · intro h
    unfold ofText
    cases h with
    | ascending h hsign =>
      rw [Text.trim_eq_iff.mpr h]
      split
      · exact absurd rfl hsign
      · rfl
    | descending h hname =>
      rw [Text.trim_eq_iff.mpr h]
      show (⟨String.ofList (Text.trim _), _⟩ : SortField) = _
      rw [Text.trim_eq_iff.mpr hname]

/-- A field with a usable name is what its text writes. -/
theorem ofText_text {f : SortField} (h : Usable f.name.toList) : ofText f.text = f := by
  have hname : Text.trim f.name.toList = f.name.toList := Text.trim_eq_self h.not_isBlank
  obtain ⟨name, direction⟩ := f
  cases direction with
  | ascending =>
    show ofText name.toList = _
    rw [ofText_eq_iff]
    have hwritten := Written.ascending (Text.trim_eq_iff.mp hname) h.head?_ne_minus
    rwa [String.ofList_toList] at hwritten
  | descending =>
    have hsigned : Text.trim ('-' :: name.toList) = '-' :: name.toList := by
      apply Text.trim_eq_self
      intro c hc
      rcases List.mem_cons.mp hc with rfl | hc
      · rfl
      · exact h.not_isBlank c hc
    show ofText ('-' :: name.toList) = _
    rw [ofText_eq_iff]
    have hwritten := Written.descending (Text.trim_eq_iff.mp hsigned) (Text.trim_eq_iff.mp hname)
    rwa [String.ofList_toList] at hwritten

/-- The characters of a name stand in the segment that writes it. -/
theorem mem_of_mem_name_ofText {segment : List Char} {c : Char}
    (h : c ∈ (ofText segment).name.toList) : c ∈ segment := by
  unfold ofText at h
  split at h
  · next signed hsigned =>
    rw [String.toList_ofList] at h
    apply Text.mem_of_mem_trim
    rw [hsigned]
    exact List.mem_cons_of_mem _ (Text.mem_of_mem_trim h)
  · rw [String.toList_ofList] at h
    exact Text.mem_of_mem_trim h

theorem comma_mem_text_iff {f : SortField} : ',' ∈ f.text ↔ ',' ∈ f.name.toList := by
  obtain ⟨name, direction⟩ := f
  cases direction with
  | ascending => exact Iff.rfl
  | descending =>
    show ',' ∈ '-' :: name.toList ↔ _
    rw [List.mem_cons, or_iff_right (by decide)]

end SortField

/-- What is between marks has no mark in it. -/
theorem not_mem_of_mem_splitOn {mark : Char} {cs segment : List Char}
    (h : segment ∈ cs.splitOn mark) : mark ∉ segment := by
  induction cs generalizing segment with
  | nil =>
    rw [List.splitOn_nil, List.mem_singleton] at h
    rw [h]
    exact List.not_mem_nil
  | cons c cs ih =>
    obtain ⟨first, rest, hsplit⟩ := List.exists_cons_of_ne_nil (List.splitOn_ne_nil mark cs)
    rw [hsplit] at ih
    rw [List.splitOn_cons_eq_if_modifyHead, hsplit] at h
    split at h
    · rcases List.mem_cons.mp h with rfl | h
      · exact List.not_mem_nil
      · exact ih h
    · next hc =>
      rcases List.mem_cons.mp h with rfl | h
      · rw [List.mem_cons, not_or]
        exact ⟨fun heq => hc (beq_iff_eq.mpr heq.symm), ih List.mem_cons_self⟩
      · exact ih (List.mem_cons_of_mem _ h)

namespace SortOrder

/-! ## Reading -/

theorem ofFields_eq_ok_iff {fields : List SortField} {o : SortOrder} :
    ofFields fields = .ok o ↔ o.fields = fields ∧ o.tiebreak = .ascending := by
  constructor
  · intro h
    unfold ofFields at h
    split at h
    · cases h
    · split at h
      · cases h
      · obtain rfl := Except.ok.inj h
        exact ⟨rfl, rfl⟩
  · rintro ⟨rfl, htiebreak⟩
    have hclear : firstFault? [] o.fields = none :=
      firstFault?_eq_none_iff.mpr ⟨o.usable_name, fun _ _ => List.not_mem_nil, o.nodup_names⟩
    unfold ofFields
    rw [dif_neg o.fields_ne_nil]
    split
    · next fault hfault =>
      rw [hclear] at hfault
      cases hfault
    · obtain ⟨fields, tiebreak, _, _, _⟩ := o
      obtain rfl : tiebreak = .ascending := htiebreak
      rfl

theorem usable_of_mem (o : SortOrder) {f : SortField} (h : f ∈ o.fields) :
    SortField.Usable f.name.toList :=
  SortField.usable_iff.mp (o.usable_name f h)

/-- A blank text is one segment, and that writes no name. -/
theorem fields_of_blank {t : List Char} (h : Text.trim t = []) :
    (t.splitOn ',').map SortField.ofText = [⟨"", .ascending⟩] := by
  have hcomma : ',' ∉ t := by
    intro hmem
    exact absurd (Text.trim_eq_nil_iff.mp h ',' hmem) (by decide)
  rw [List.splitOn_eq_singleton hcomma, List.map_singleton, SortField.ofText, h]

/-- The text of an order is that of its fields, segment by segment. -/
theorem parse_eq_ok_iff {t : List Char} {o : SortOrder} :
    parse t = .ok o ↔
      o.fields = (t.splitOn ',').map SortField.ofText ∧ o.tiebreak = .ascending := by
  rw [parse, ← ofFields_eq_ok_iff]
  split
  · next hblank =>
    refine iff_of_false (fun h => nomatch h) ?_
    rw [fields_of_blank hblank, ofFields_eq_ok_iff]
    rintro ⟨hfields, -⟩
    have hmem : (⟨"", .ascending⟩ : SortField) ∈ o.fields := hfields ▸ List.mem_singleton_self _
    exact (o.usable_of_mem hmem).ne_nil rfl
  · exact Iff.rfl

/-- The fields of an order that is read from a text have no comma in their names. -/
theorem comma_not_mem_of_parse {t : List Char} {o : SortOrder} (h : parse t = .ok o) :
    ∀ f ∈ o.fields, ',' ∉ f.name.toList := by
  intro f hf
  rw [(parse_eq_ok_iff.mp h).1] at hf
  obtain ⟨segment, hsegment, rfl⟩ := List.mem_map.mp hf
  intro hcomma
  exact not_mem_of_mem_splitOn hsegment (SortField.mem_of_mem_name_ofText hcomma)

/-- Without commas in the names, the segments of an order's text are the texts of its fields. -/
theorem splitOn_text {o : SortOrder} (h : ∀ f ∈ o.fields, ',' ∉ f.name.toList) :
    o.text.splitOn ',' = o.fields.map SortField.text := by
  refine List.splitOn_intercalate ',' ?_ (mt List.map_eq_nil_iff.mp o.fields_ne_nil)
  intro segment hsegment
  obtain ⟨f, hf, rfl⟩ := List.mem_map.mp hsegment
  rw [SortField.comma_mem_text_iff]
  exact h f hf

theorem map_ofText_text (o : SortOrder) :
    (o.fields.map SortField.text).map SortField.ofText = o.fields := by
  rw [List.map_map]
  refine (List.map_congr_left fun f hf => ?_).trans (List.map_id _)
  exact SortField.ofText_text (o.usable_of_mem hf)

/-- A declared order is read from its text exactly if no name has a comma. -/
theorem parse_text_iff {o : SortOrder} (h : o.tiebreak = .ascending) :
    parse o.text = .ok o ↔ ∀ f ∈ o.fields, ',' ∉ f.name.toList := by
  constructor
  · intro hparse
    exact comma_not_mem_of_parse hparse
  · intro hcomma
    rw [parse_eq_ok_iff, splitOn_text hcomma, map_ofText_text]
    exact ⟨rfl, h⟩

/-- A declared order is read from its own text exactly if no name has a comma, and declared orders
    without commas in their names share a text only if they are the same. -/
theorem text_faithful {fields : List SortField} {o : SortOrder} (h : ofFields fields = .ok o) :
    (parse o.text = .ok o ↔ ∀ f ∈ fields, ',' ∉ f.name.toList) ∧
    ∀ {fields' : List SortField} {o' : SortOrder}, ofFields fields' = .ok o' →
      (∀ f ∈ fields, ',' ∉ f.name.toList) → (∀ f ∈ fields', ',' ∉ f.name.toList) →
      o.text = o'.text → o = o' := by
  obtain ⟨rfl, hascending⟩ := ofFields_eq_ok_iff.mp h
  refine ⟨parse_text_iff hascending, ?_⟩
  intro fields' o' h' hcomma hcomma' htext
  obtain ⟨rfl, hascending'⟩ := ofFields_eq_ok_iff.mp h'
  have hparse : parse o.text = .ok o := (parse_text_iff hascending).mpr hcomma
  have hparse' : parse o'.text = .ok o' := (parse_text_iff hascending').mpr hcomma'
  rw [htext, hparse'] at hparse
  exact (Except.ok.inj hparse).symm

/-- The order by a falling score and the identifying field. -/
def byFallingScore : SortOrder where
  fields := [⟨"score", .descending⟩, ⟨"_id", .ascending⟩]
  tiebreak := .ascending
  fields_ne_nil := by decide
  usable_name := by decide
  nodup_names := by decide

/-- The order by a rising score and the identifying field. -/
def byRisingScore : SortOrder where
  fields := [⟨"score", .ascending⟩, ⟨"_id", .ascending⟩]
  tiebreak := .ascending
  fields_ne_nil := by decide
  usable_name := by decide
  nodup_names := by decide

/-- The sign tells the two orders apart, and the first is read from its text. -/
theorem text_faithful_signed :
    ofFields byFallingScore.fields = .ok byFallingScore ∧
    ofFields byRisingScore.fields = .ok byRisingScore ∧
    parse byFallingScore.text = .ok byFallingScore ∧ byFallingScore.text ≠ byRisingScore.text := by
  have hfalling : ofFields byFallingScore.fields = .ok byFallingScore :=
    ofFields_eq_ok_iff.mpr ⟨rfl, rfl⟩
  have hrising : ofFields byRisingScore.fields = .ok byRisingScore :=
    ofFields_eq_ok_iff.mpr ⟨rfl, rfl⟩
  obtain ⟨hparse, hsame⟩ := text_faithful hfalling
  refine ⟨hfalling, hrising, hparse.mpr (by decide), ?_⟩
  intro htext
  exact absurd (congrArg fields (hsame hrising (by decide) (by decide) htext)) (by decide)

/-- The order by one field whose name has a comma. -/
def byPair : SortOrder where
  fields := [⟨"a,b", .ascending⟩]
  tiebreak := .ascending
  fields_ne_nil := by decide
  usable_name := by decide
  nodup_names := by decide

/-- The order by two fields with the names that the comma parts. -/
def byParts : SortOrder where
  fields := [⟨"a", .ascending⟩, ⟨"b", .ascending⟩]
  tiebreak := .ascending
  fields_ne_nil := by decide
  usable_name := by decide
  nodup_names := by decide

/-- A field whose name has a comma is accepted, and the text of the order is that of another one,
    which is read from it. -/
theorem text_shared :
    ofFields [⟨"a,b", .ascending⟩] = .ok byPair ∧
    ofFields [⟨"a", .ascending⟩, ⟨"b", .ascending⟩] = .ok byParts ∧
    byPair ≠ byParts ∧ byPair.text = byParts.text ∧ parse byPair.text = .ok byParts := by
  have htext : byPair.text = byParts.text := by decide
  have hparse : parse byParts.text = .ok byParts := (parse_text_iff rfl).mpr (by decide)
  refine ⟨ofFields_eq_ok_iff.mpr ⟨rfl, rfl⟩, ofFields_eq_ok_iff.mpr ⟨rfl, rfl⟩, ?_, htext, ?_⟩
  · intro heq
    exact absurd (congrArg fields heq) (by decide)
  · rw [htext, hparse]

end SortOrder

end Keyset
