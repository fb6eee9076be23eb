import Keyset.Pager
import Keyset.Proofs.Position.RoundTrip
import Keyset.Proofs.Text.Hex
import Mathlib.Data.List.Forall2
import Mathlib.Data.Set.Subsingleton

/-! # What is read as a position

    A position is a sequence of PIECES, each a letter, a length, a colon and a
    content of that many bytes (`Piece.Measured`); what a content stands for
    depends on the letter alone (`Denotes`).  The relation says nothing of where
    the next piece begins.  It need not: the first colon ends the length and the
    length ends the content, so a text is a sequence of pieces in one way at most
    (`flatMap_text_inj`).

    The reader goes from piece to piece along the same cuts
    (`readComponent_eq_ok_iff`), hence reads exactly the sequences of pieces with
    a value each, and all of them (`values_grammar`). -/

namespace Keyset.Position

open Number

/-! ## Pieces -/

/-- A part of a position: the letter of a kind, the text of a length and, after a colon, a content. -/
structure Piece where
  letter : Char
  length : List Char
  content : List Char
deriving DecidableEq

namespace Piece

/-- The text of a piece. -/
def text (q : Piece) : List Char := q.letter :: (q.length ++ ':' :: q.content)

/-- The length is the number of bytes of the content, spelled in any way, and can be counted. -/
structure Measured (q : Piece) : Prop where
  spelled : Unsigned q.length (String.ofList q.content).utf8ByteSize
  countable : (String.ofList q.content).utf8ByteSize ≤ maxCount

end Piece

/-- What a content stands for under a letter. -/
inductive Denotes : Char → List Char → FieldValue → Prop
  | null : Denotes 'n' [] .null
  | true : Denotes 'b' ['t', 'r', 'u', 'e'] (.bool true)
  | false : Denotes 'b' ['f', 'a', 'l', 's', 'e'] (.bool false)
  | int {cs : List Char} {n : Int64} (h : Signed cs n.toInt) : Denotes 'i' cs (.int n)
  | float {cs : List Char} {d : Double} (h : Numeral cs d) : Denotes 'f' cs (.float d)
  | string (s : String) : Denotes 's' s.toList (.string s)
  | objectId {cs : List Char} {id : ObjectId} (h : cs.map lowerAscii = id.toHex) :
      Denotes 'o' cs (.objectId id)
  | date {cs : List Char} {millis : Int64} (h : Signed cs millis.toInt) :
      Denotes 'd' cs (.date millis)

/-- A piece that stands for a value. -/
structure Piece.Stands (q : Piece) (v : FieldValue) : Prop where
  measured : q.Measured
  denotes : Denotes q.letter q.content v

/-! ## Contents -/

theorem require_map_eq_ok_iff {α β : Type} {fault : Fault} {x : Option α} {f : α → β} {b : β} :
    (require fault x).map f = .ok b ↔ ∃ a, x = some a ∧ f a = b := by
  cases x with
  | none => simp [require, Except.map]
  | some a => simp [require, Except.map]

theorem readBool?_eq_some_iff {cs : List Char} {b : Bool} :
    readBool? cs = some b ↔ cs = FieldValue.boolText b := by
  constructor
  · intro h
    unfold readBool? at h
    split at h
    · next htrue =>
      obtain rfl := Option.some.inj h
      exact htrue
    · split at h
      · next hfalse =>
        obtain rfl := Option.some.inj h
        exact hfalse
      · exact nomatch h
  · rintro rfl
    cases b <;> rfl

/-- A content is read as what it stands for. -/
theorem readContent_eq_ok_iff {letter : Char} {cs : List Char} {v : FieldValue} :
    readContent letter cs = .ok v ↔ Denotes letter cs v := by
  constructor
  · intro h
    unfold readContent at h
    split at h
    · split at h
      · next hnil =>
        obtain rfl := Except.ok.inj h
        rw [hnil]
        exact .null
      · exact nomatch h
    · obtain ⟨b, hb, rfl⟩ := require_map_eq_ok_iff.mp h
      rw [readBool?_eq_some_iff.mp hb]
      cases b with
      | true => exact .true
      | false => exact .false
    · obtain ⟨n, hn, rfl⟩ := require_map_eq_ok_iff.mp h
      exact .int (readInt64?_eq_some_iff.mp hn)
    · obtain ⟨d, hd, rfl⟩ := require_map_eq_ok_iff.mp h
      exact .float (readDouble?_eq_some_iff.mp hd)
    · obtain rfl := Except.ok.inj h
      have hstring := Denotes.string (String.ofList cs)
      rwa [String.toList_ofList] at hstring
    · obtain ⟨id, hid, rfl⟩ := require_map_eq_ok_iff.mp h
      exact .objectId (ObjectId.ofHex?_eq_some_iff.mp hid)
    · obtain ⟨millis, hmillis, rfl⟩ := require_map_eq_ok_iff.mp h
      exact .date (readInt64?_eq_some_iff.mp hmillis)
    · exact nomatch h
  · intro h
    cases h with
    | null | true | false => rfl
    | int h => exact require_map_eq_ok_iff.mpr ⟨_, readInt64?_eq_some_iff.mpr h, rfl⟩
    | float h => exact require_map_eq_ok_iff.mpr ⟨_, readDouble?_eq_some_iff.mpr h, rfl⟩
    | string s =>
      show Except.ok (FieldValue.string (String.ofList s.toList)) = _
      rw [String.ofList_toList]
    | objectId h => exact require_map_eq_ok_iff.mpr ⟨_, ObjectId.ofHex?_eq_some_iff.mpr h, rfl⟩
    | date h => exact require_map_eq_ok_iff.mpr ⟨_, readInt64?_eq_some_iff.mpr h, rfl⟩

/-! ## One piece -/

/-- Characters of so many bytes are split off if the text begins with such. -/
theorem splitBytes?_eq_some_iff {n : Nat} {cs taken left : List Char} :
    splitBytes? n cs = some (taken, left) ↔ cs = taken ++ left ∧ byteCount taken = n := by
  constructor
  · intro h
    induction cs generalizing n taken with
    | nil =>
      cases n with
      | zero =>
        obtain ⟨rfl, rfl⟩ := Prod.mk.inj (Option.some.inj h)
        exact ⟨rfl, rfl⟩
      | succ n => cases h
    | cons c rest ih =>
      cases n with
      | zero =>
        obtain ⟨rfl, rfl⟩ := Prod.mk.inj (Option.some.inj h)
        exact ⟨rfl, rfl⟩
      | succ n =>
        rw [splitBytes?] at h
        split at h
        · next hle =>
          obtain ⟨⟨more, left'⟩, hmore, heq⟩ := Option.map_eq_some_iff.mp h
          obtain ⟨rfl, rfl⟩ := Prod.mk.inj heq
          obtain ⟨rfl, hcount⟩ := ih hmore
          refine ⟨rfl, ?_⟩
          rw [byteCount, hcount]
          omega
        · cases h
  · rintro ⟨rfl, rfl⟩
    exact splitBytes?_append taken left

/-- No sign and no digit is a colon. -/
theorem not_mem_of_unsigned {cs : List Char} {n : Nat} (h : Unsigned cs n) : ':' ∉ cs := by
  have hspelled : ∀ {ds : List Char} {n : Nat}, Spelled ds n → ':' ∉ ds := by
    rintro ds n ⟨-, hdigits⟩ hmem
    exact ne_of_isDigit (hdigits _ hmem) rfl rfl
  cases h with
  | bare h => exact hspelled h
  | plus h =>
    rw [List.mem_cons, not_or]
    exact ⟨by decide, hspelled h⟩

/-- The length that is read is the number of bytes that are then split off. -/
theorem Piece.measured_iff {q : Piece} :
    q.Measured ↔ ∃ count, readCount? q.length = some count ∧ byteCount q.content = count.toNat := by
  rw [byteCount_eq]
  constructor
  · rintro ⟨hspelled, hcountable⟩
    refine ⟨UInt64.ofNat (String.ofList q.content).utf8ByteSize, ?_, (toNat_ofNat hcountable).symm⟩
    rw [readCount?_eq_some_iff, toNat_ofNat hcountable]
    exact hspelled
  · rintro ⟨count, hcount, hbytes⟩
    rw [readCount?_eq_some_iff, ← hbytes] at hcount
    exact ⟨hcount, hbytes ▸ toNat_le_maxCount count⟩

theorem Piece.Measured.colon_not_mem {q : Piece} (h : q.Measured) : ':' ∉ q.length :=
  not_mem_of_unsigned h.spelled

/-- What follows a letter is read if the text begins with a piece that stands for a value. -/
theorem readComponent_eq_ok_iff {letter : Char} {cs rest : List Char} {v : FieldValue} :
    readComponent letter cs = .ok (v, rest) ↔
      ∃ q : Piece, letter :: cs = q.text ++ rest ∧ q.Stands v := by
  rw [readComponent_steps]
  constructor
  · rintro ⟨length, after, count, content, hsplit, hcount, htaken, hvalue⟩
    obtain ⟨rfl, -⟩ := Text.splitAt?_eq_some_iff.mp hsplit
    obtain ⟨rfl, hcontent⟩ := splitBytes?_eq_some_iff.mp htaken
    have hmeasured : Piece.Measured ⟨letter, length, content⟩ :=
      Piece.measured_iff.mpr ⟨count, hcount, hcontent⟩
    refine ⟨⟨letter, length, content⟩, ?_, hmeasured, readContent_eq_ok_iff.mp hvalue⟩
    simp [Piece.text]
  · rintro ⟨⟨letter', length, content⟩, htext, hmeasured, hdenotes⟩
    obtain ⟨count, hcount, hcontent⟩ := Piece.measured_iff.mp hmeasured
    obtain ⟨rfl, rfl⟩ : letter = letter' ∧ cs = length ++ ':' :: (content ++ rest) := by
      simpa [Piece.text] using htext
    exact ⟨length, content ++ rest, count, content,
      Text.splitAt?_append hmeasured.colon_not_mem (content ++ rest), hcount,
      splitBytes?_eq_some_iff.mpr ⟨rfl, hcontent⟩, readContent_eq_ok_iff.mpr hdenotes⟩

/-! ## Sequences of pieces -/

/-- A piece that is measured ends where its length says, whatever follows. -/
theorem Piece.text_append_inj {q q' : Piece} {rest rest' : List Char} (hq : q.Measured)
    (hq' : q'.Measured) (h : q.text ++ rest = q'.text ++ rest') : q = q' ∧ rest = rest' := by
  obtain ⟨letter, length, content⟩ := q
  obtain ⟨letter', length', content'⟩ := q'
  obtain ⟨rfl, hafter⟩ : letter = letter' ∧
      length ++ ':' :: (content ++ rest) = length' ++ ':' :: (content' ++ rest') := by
    simpa [text] using h
  -- both lengths are what stands before the first colon
  have hsplit : Text.splitAt? ':' (length ++ ':' :: (content ++ rest)) = _ :=
    Text.splitAt?_append hq.colon_not_mem (content ++ rest)
  rw [hafter, Text.splitAt?_append hq'.colon_not_mem] at hsplit
  obtain ⟨rfl, hcontents⟩ := Prod.mk.inj (Option.some.inj hsplit)
  obtain ⟨count, hcount, hbytes⟩ := measured_iff.mp hq
  obtain ⟨count', hcount', hbytes'⟩ := measured_iff.mp hq'
  obtain rfl := Option.some.inj (hcount.symm.trans hcount')
  -- and both contents are the first so many bytes after it
  have htaken : splitBytes? count.toNat (content ++ rest) = some (content, rest) :=
    splitBytes?_eq_some_iff.mpr ⟨rfl, hbytes⟩
  have htaken' : splitBytes? count.toNat (content' ++ rest') = some (content', rest') :=
    splitBytes?_eq_some_iff.mpr ⟨rfl, hbytes'⟩
  rw [hcontents, htaken] at htaken'
  obtain ⟨rfl, rfl⟩ := Prod.mk.inj (Option.some.inj htaken')
  exact ⟨rfl, rfl⟩

/-- A text is a sequence of measured pieces in one way at most. -/
theorem flatMap_text_inj {qs qs' : List Piece} (hqs : ∀ q ∈ qs, q.Measured)
    (hqs' : ∀ q ∈ qs', q.Measured) (h : qs.flatMap Piece.text = qs'.flatMap Piece.text) :
    qs = qs' := by
  induction qs generalizing qs' with
  | nil =>
    cases qs' with
    | nil => rfl
    | cons q' qs' => exact nomatch h
  | cons q qs ih =>
    cases qs' with
    | nil => exact nomatch h
    | cons q' qs' =>
      rw [List.flatMap_cons, List.flatMap_cons] at h
      obtain ⟨rfl, hrest⟩ := Piece.text_append_inj (hqs q List.mem_cons_self)
        (hqs' q' List.mem_cons_self) h
      rw [ih (fun p hp => hqs p (List.mem_cons_of_mem _ hp))
        (fun p hp => hqs' p (List.mem_cons_of_mem _ hp)) hrest]

/-- The text is a sequence of pieces that stand for the values one by one. -/
def Writes (cs : List Char) (vs : List FieldValue) : Prop :=
  ∃ qs : List Piece, cs = qs.flatMap Piece.text ∧ List.Forall₂ Piece.Stands qs vs

/-- The sequences of pieces are read, and nothing else is. -/
theorem decode_eq_ok_iff {cs : List Char} {vs : List FieldValue} :
    decode cs = .ok vs ↔ Writes cs vs := by
  constructor
  · intro h
    fun_induction decode cs generalizing vs with
    | case1 =>
      obtain rfl := Except.ok.inj h
      exact ⟨[], rfl, .nil⟩
    | case2 => exact nomatch h
    | case3 letter cs value rest hread _ ih =>
      obtain ⟨q, htext, hq⟩ := readComponent_eq_ok_iff.mp hread
      cases hrest : decode rest with
      | error fault =>
        rw [hrest] at h
        exact nomatch h
      | ok values =>
        rw [hrest] at h
        obtain rfl := Except.ok.inj h
        obtain ⟨qs, rfl, hqs⟩ := ih hrest
        exact ⟨q :: qs, by rw [htext, List.flatMap_cons], .cons hq hqs⟩
  · rintro ⟨qs, rfl, h⟩
    induction h with
    | nil => rw [List.flatMap_nil, decode]
    | @cons q v qs vs hq _ ih =>
      have hread : readComponent q.letter (q.length ++ ':' :: q.content ++ qs.flatMap Piece.text)
          = .ok (v, qs.flatMap Piece.text) := readComponent_eq_ok_iff.mpr ⟨q, rfl, hq⟩
      rw [List.flatMap_cons]
      refine (decode_cons hread).trans ?_
      rw [ih]
      rfl

/-- A page at a position that is not read is refused: its token is malformed. -/
theorem queryAt_of_values_error {p : Position} {fault : Fault} (h : p.values = .error fault)
    (o : SortOrder) (size : PageSize) {c : Cursor} (hc : c.position = some p) :
    Pager.queryAt o size (some c) = .error (.malformed (.boundary (.position fault))) := by
  have hboundary : ∀ o : SortOrder, Boundary.ofPosition o p true = .error (.position fault) := by
    intro o
    rw [Boundary.ofPosition, h]
  unfold Pager.queryAt
  simp only [hc, hboundary]

/-- The values of a position are read exactly if its text is a sequence of pieces that stand for
    them one by one; it is a sequence of measured pieces in one way at most; and of any other text
    no value is read, and a page at it is refused with a malformed token. -/
theorem values_grammar (p : Position) :
    (∀ vs, p.values = .ok vs ↔ Writes p.text.toList vs) ∧
    {qs : List Piece | p.text.toList = qs.flatMap Piece.text ∧
      ∀ q ∈ qs, q.Measured}.Subsingleton ∧
    ((¬ ∃ vs, Writes p.text.toList vs) → ∃ fault, p.values = .error fault ∧
      ∀ (o : SortOrder) (size : PageSize) (c : Cursor), c.position = some p →
        Pager.queryAt o size (some c) = .error (.malformed (.boundary (.position fault)))) := by
  refine ⟨fun vs => decode_eq_ok_iff, ?_, ?_⟩
  · rintro qs ⟨htext, hqs⟩ qs' ⟨htext', hqs'⟩
    exact flatMap_text_inj hqs hqs' (htext.symm.trans htext')
  · intro hnone
    cases hvalues : p.values with
    | ok vs => exact absurd ⟨vs, decode_eq_ok_iff.mp hvalues⟩ hnone
    | error fault =>
      exact ⟨fault, rfl, fun o size c hc => queryAt_of_values_error hvalues o size hc⟩

/-- A string that looks like the end of one piece and the beginning of another, and a number that is
    not written as numbers are. -/
def lookalikePieces : List Piece :=
  [⟨'s', ['6'], ['é', '1', ':', 's', '1']⟩, ⟨'i', ['+', '3'], ['0', '4', '2']⟩]

/-- A length that ends inside a character. -/
def cutShort : Position := ⟨"s1:é"⟩

/-- The look-alike is read as the two values that were meant, and a length that ends inside a
    character is refused. -/
theorem values_grammar_lookalike :
    (⟨"s6:é1:s1i+3:042"⟩ : Position).values = .ok [.string "é1:s1", .int 42] ∧
    (¬ ∃ vs, Writes cutShort.text.toList vs) ∧ ∃ fault, cutShort.values = .error fault := by
  have hstands : List.Forall₂ Piece.Stands lookalikePieces [.string "é1:s1", .int 42] := by
    have hsix : Unsigned ['6'] 6 := readUnsigned?_eq_some_iff.mp rfl
    have hthree : Unsigned ['+', '3'] 3 := readUnsigned?_eq_some_iff.mp rfl
    have hnumber : Signed ['0', '4', '2'] 42 := readSigned?_eq_some_iff.mp rfl
    exact .cons ⟨⟨hsix, by decide⟩, .string "é1:s1"⟩
      (.cons ⟨⟨hthree, by decide⟩, .int hnumber⟩ .nil)
  have hcut : cutShort.values = .error .lengthOutOfRange := by
    cbv
  have hnone : ¬ ∃ vs, Writes cutShort.text.toList vs := by
    rintro ⟨vs, hvs⟩
    rw [← (values_grammar cutShort).1, hcut] at hvs
    cases hvs
  obtain ⟨fault, hfault, -⟩ := (values_grammar cutShort).2.2 hnone
  exact ⟨((values_grammar _).1 _).mpr ⟨lookalikePieces, rfl, hstands⟩, hnone, fault, hfault⟩

end Keyset.Position
