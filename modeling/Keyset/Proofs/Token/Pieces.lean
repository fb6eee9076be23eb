import Keyset.Proofs.Token.RoundTrip

/-! # What a payload says

    A payload is read piece by piece, and the first piece that cannot be read
    ends it.  Which fault that is depends on the sequence of the pieces; whether
    there is one, and what cursor is read, does not: a payload DESCRIBES a cursor
    by the values that its pieces give to each key (`Describes`), at most one to
    each.

    Taking one piece sets a field from the value that the piece gives to its key
    (`takePiece_eq_ok_iff`), so taking all of them sets each field from all values
    given to its key (`foldlM_takePiece_eq_ok_iff`).  The values of a key stay the
    same when pieces change places and when others come in between that name no
    key (`valuesOf_perm`), and so does the cursor (`decode_rearranged`). -/

namespace Keyset.Token

open Number

/-! ## Pieces and their values -/

/-- The value that a piece gives to a key. -/
def valueOf? (k : Key) (cs : List Char) : Option (List Char) :=
  match Text.splitAt? '=' cs with
  | none => none
  | some (name, value) => if name = [k.letter] then some value else none

/-- The values that some pieces give to a key. -/
def valuesOf (k : Key) (pieces : List (List Char)) : List (List Char) :=
  pieces.filterMap (valueOf? k)

/-- A piece with a name that is none of the keys. -/
def Unknown (cs : List Char) : Prop :=
  ∃ name value, cs = name ++ '=' :: value ∧ '=' ∉ name ∧ ∀ k : Key, name ≠ [k.letter]

theorem valuesOf_cons (k : Key) (cs : List Char) (pieces : List (List Char)) :
    valuesOf k (cs :: pieces) = (valueOf? k cs).toList ++ valuesOf k pieces := by
  rw [valuesOf, List.filterMap_cons]
  cases valueOf? k cs <;> rfl

/-- A text can be split at a mark exactly if it holds the mark. -/
theorem isSome_splitAt?_iff (cs : List Char) :
    (Text.splitAt? '=' cs).isSome = true ↔ '=' ∈ cs := by
  induction cs with
  | nil => simp [Text.splitAt?]
  | cons c cs ih =>
    rw [Text.splitAt?]
    by_cases hc : c = '='
    · simp [hc]
    · rw [if_neg hc, Option.isSome_map, ih, List.mem_cons, or_iff_right (Ne.symm hc)]

/-! ## Taking pieces -/

/-- How the values that are given to a key set its field: none leaves it as it is, and one sets it
    if it was not set before. -/
inductive Sets : Option String → List (List Char) → Option String → Prop
  | keeps (text : Option String) : Sets text [] text
  | sets {value : List Char} {text : String} (h : unescape value = .ok text) :
      Sets none [value] (some text)

theorem sets_nil_iff {before after : Option String} : Sets before [] after ↔ after = before := by
  constructor
  · intro h
    cases h
    rfl
  · rintro rfl
    exact .keeps after

theorem sets_cons_iff {before after : Option String} {value : List Char}
    {values : List (List Char)} :
    Sets before (value :: values) after ↔
      before = none ∧ ∃ text, unescape value = .ok text ∧ Sets (some text) values after := by
  constructor
  · intro h
    cases h with
    | sets h => exact ⟨rfl, _, h, .keeps _⟩
  · rintro ⟨rfl, text, htext, h⟩
    -- a field that is set takes no further value
    cases h with
    | keeps => exact .sets htext

theorem sets_append_iff {before after : Option String} {values values' : List (List Char)} :
    Sets before (values ++ values') after ↔
      ∃ between, Sets before values between ∧ Sets between values' after := by
  induction values generalizing before with
  | nil => simp [sets_nil_iff]
  | cons value values ih =>
    rw [List.cons_append, sets_cons_iff]
    constructor
    · rintro ⟨hbefore, text, htext, h⟩
      obtain ⟨between, hvalues, hvalues'⟩ := ih.mp h
      exact ⟨between, sets_cons_iff.mpr ⟨hbefore, text, htext, hvalues⟩, hvalues'⟩
    · rintro ⟨between, h, hvalues'⟩
      obtain ⟨hbefore, text, htext, hvalues⟩ := sets_cons_iff.mp h
      exact ⟨hbefore, text, htext, ih.mpr ⟨between, hvalues, hvalues'⟩⟩

theorem Fields.ext_get? {fs fs' : Fields} (h : ∀ k, fs.get? k = fs'.get? k) : fs = fs' := by
  obtain ⟨offset, reverse, position⟩ := fs
  obtain ⟨offset', reverse', position'⟩ := fs'
  have hoffset : offset = offset' := h .offset
  have hreverse : reverse = reverse' := h .reverse
  have hposition : position = position' := h .position
  rw [hoffset, hreverse, hposition]

/-- Any texts of the keys are those of some fields. -/
theorem Fields.exists_get? (texts : Key → Option String) :
    ∃ fs : Fields, ∀ k, fs.get? k = texts k := by
  refine ⟨⟨texts .offset, texts .reverse, texts .position⟩, ?_⟩
  intro k
  cases k <;> rfl

theorem Fields.get?_set (fs : Fields) (k k' : Key) (text : String) :
    (fs.set k text).get? k' = if k' = k then some text else fs.get? k' := by
  cases k <;> cases k' <;> rfl

/-- A piece without a mark cannot be taken. -/
theorem takePiece_ne_ok {cs : List Char} (h : '=' ∉ cs) (fs fs' : Fields) :
    takePiece fs cs ≠ .ok fs' := by
  have hnone : Text.splitAt? '=' cs = none := by
    rw [← isSome_splitAt?_iff, Bool.not_eq_true, Option.isSome_eq_false_iff] at h
    exact Option.isNone_iff_eq_none.mp h
  simp [takePiece, hnone]

/-- A piece with a name that is no key sets nothing. -/
theorem takePiece_of_unknown {cs name value : List Char}
    (hsplit : Text.splitAt? '=' cs = some (name, value)) (hname : Key.ofText? name = none)
    (fs : Fields) : takePiece fs cs = .ok fs := by
  simp [takePiece, hsplit, hname]

/-- A piece with a key sets its field, if the field is not set and the value stands for a text. -/
theorem takePiece_of_key {cs value : List Char} {k : Key}
    (hsplit : Text.splitAt? '=' cs = some ([k.letter], value)) (fs fs' : Fields) :
    takePiece fs cs = .ok fs' ↔
      fs.get? k = none ∧ ∃ text, unescape value = .ok text ∧ fs.set k text = fs' := by
  have hkey : Key.ofText? [k.letter] = some k := Key.ofText?_eq_some_iff.mpr rfl
  simp only [takePiece, hsplit, hkey]
  cases hset : fs.get? k with
  | some text => simp
  | none =>
    cases hvalue : unescape value with
    | error why => simp
    | ok text => simp

/-- Taking a piece with a mark sets each field from the value that the piece gives to its key. -/
theorem takePiece_eq_ok_iff {cs : List Char} (h : '=' ∈ cs) (fs fs' : Fields) :
    takePiece fs cs = .ok fs' ↔
      ∀ k, Sets (fs.get? k) (valueOf? k cs).toList (fs'.get? k) := by
  obtain ⟨⟨name, value⟩, hsplit⟩ := Option.isSome_iff_exists.mp ((isSome_splitAt?_iff cs).mpr h)
  have hvalue : ∀ k, valueOf? k cs = if name = [k.letter] then some value else none := by
    intro k
    rw [valueOf?, hsplit]
  cases hname : Key.ofText? name with
  | none =>
    have hnone : ∀ k, valueOf? k cs = none := by
      intro k
      rw [hvalue, if_neg]
      intro heq
      rw [Key.ofText?_eq_some_iff.mpr heq] at hname
      exact nomatch hname
    simp only [takePiece_of_unknown hsplit hname, hnone, Option.toList_none, sets_nil_iff,
      Except.ok.injEq]
    constructor
    · rintro rfl k
      rfl
    · intro hget
      exact Fields.ext_get? fun k => (hget k).symm
  | some key =>
    obtain rfl := Key.ofText?_eq_some_iff.mp hname
    have hself : valueOf? key cs = some value := by rw [hvalue, if_pos rfl]
    have hother : ∀ k, k ≠ key → valueOf? k cs = none := by
      intro k hne
      rw [hvalue, if_neg]
      intro heq
      rw [Key.ofText?_eq_some_iff.mpr heq] at hname
      exact hne (Option.some.inj hname)
    rw [takePiece_of_key hsplit]
    constructor
    · rintro ⟨hunset, text, htext, rfl⟩ k
      by_cases hk : k = key
      · rw [hk, hself, hunset, Fields.get?_set, if_pos rfl]
        exact .sets htext
      · rw [hother k hk, Fields.get?_set, if_neg hk]
        exact .keeps _
    · intro hsets
      have hkey := hsets key
      rw [hself, Option.toList_some, sets_cons_iff] at hkey
      obtain ⟨hunset, text, htext, hafter⟩ := hkey
      refine ⟨hunset, text, htext, Fields.ext_get? ?_⟩
      intro k
      by_cases hk : k = key
      · rw [hk, Fields.get?_set, if_pos rfl, sets_nil_iff.mp hafter]
      · have hrest := hsets k
        rw [hother k hk, Option.toList_none, sets_nil_iff] at hrest
        rw [Fields.get?_set, if_neg hk, hrest]

/-- Taking pieces one by one sets each field from the values that are given to its key. -/
theorem foldlM_takePiece_eq_ok_iff (pieces : List (List Char)) (fs fs' : Fields) :
    pieces.foldlM takePiece fs = .ok fs' ↔
      (∀ cs ∈ pieces, '=' ∈ cs) ∧ ∀ k, Sets (fs.get? k) (valuesOf k pieces) (fs'.get? k) := by
  induction pieces generalizing fs with
  | nil =>
    constructor
    · intro h
      obtain rfl := Except.ok.inj h
      exact ⟨(fun _ hcs => nomatch hcs), fun k => .keeps _⟩
    · rintro ⟨-, h⟩
      exact congrArg Except.ok (Fields.ext_get? fun k => (sets_nil_iff.mp (h k)).symm)
  | cons cs pieces ih =>
    rw [List.foldlM_cons, bind_eq_ok_iff, List.forall_mem_cons]
    by_cases hmark : '=' ∈ cs
    · simp only [takePiece_eq_ok_iff hmark, ih, valuesOf_cons, sets_append_iff, hmark, true_and]
      constructor
      · rintro ⟨between, hcs, hmarks, hrest⟩
        exact ⟨hmarks, fun k => ⟨_, hcs k, hrest k⟩⟩
      · rintro ⟨hmarks, h⟩
        choose texts hcs hrest using h
        obtain ⟨between, hget⟩ := Fields.exists_get? texts
        refine ⟨between, ?_, hmarks, ?_⟩
        · intro k
          rw [hget]
          exact hcs k
        · intro k
          rw [hget]
          exact hrest k
    · exact iff_of_false (fun ⟨_, h, _⟩ => takePiece_ne_ok hmark fs _ h) fun h => hmark h.1.1

/-! ## The cursor that a payload describes -/

/-- What some pieces say of a key: nothing, and then a default holds, or one of them gives it a value
    whose text has a meaning. -/
inductive Says {β : Type} (pieces : List (List Char)) (k : Key) (default : β)
    (Means : String → β → Prop) : β → Prop
  | unsaid (h : valuesOf k pieces = []) : Says pieces k default Means default
  | said {value : List Char} {text : String} {b : β} (h : valuesOf k pieces = [value])
      (htext : unescape value = .ok text) (hmeans : Means text b) : Says pieces k default Means b

/-- Pieces with a mark each that describe a cursor.  The offset is a count held at the cutoff, or zero;
    the direction is backward for an integer other than zero, and forward without one; the position
    is any text, or none. -/
structure Describes (cutoff : Option UInt64) (pieces : List (List Char)) (c : Cursor) : Prop where
  marked : ∀ cs ∈ pieces, '=' ∈ cs
  offset : Says pieces .offset 0
    (fun text n => ∃ m, readCount? text.toList = some m ∧ n = heldAt cutoff m) c.offset
  reverse : Says pieces .reverse false
    (fun text b => ∃ n, readInt64? text.toList = some n ∧ b = (n != 0)) c.reverse
  position : Says pieces .position none (fun text p => p = some ⟨text⟩) c.position

/-- A key has at most one value in pieces that say something of it. -/
theorem Says.length_le {β : Type} {pieces : List (List Char)} {k : Key} {default b : β}
    {Means : String → β → Prop} (h : Says pieces k default Means b) :
    (valuesOf k pieces).length ≤ 1 := by
  cases h with
  | unsaid h => simp [h]
  | said h _ _ => simp [h]

/-- What pieces say of a key is what the text means that they set its field to. -/
theorem says_iff {β : Type} {pieces : List (List Char)} {k : Key} {default : β}
    {Means : String → β → Prop} {b : β} :
    Says pieces k default Means b ↔
      ∃ after, Sets none (valuesOf k pieces) after ∧
        match after with
        | none => b = default
        | some text => Means text b := by
  constructor
  · intro h
    cases h with
    | unsaid h =>
      refine ⟨none, ?_, rfl⟩
      rw [h]
      exact .keeps none
    | @said value text _ h htext hmeans =>
      refine ⟨some text, ?_, hmeans⟩
      rw [h]
      exact .sets htext
  · rintro ⟨after, hsets, hmeans⟩
    generalize hvalues : valuesOf k pieces = values at hsets
    cases hsets with
    | keeps =>
      obtain rfl := hmeans
      exact .unsaid hvalues
    | sets htext => exact .said hvalues htext hmeans

/-! ## Reading a payload -/

theorem readOffset_eq_ok_iff {cutoff : Option UInt64} {text : Option String} {n : UInt64} :
    readOffset cutoff text = .ok n ↔
      match text with
      | none => n = 0
      | some text => ∃ m, readCount? text.toList = some m ∧ n = heldAt cutoff m := by
  cases text with
  | none => rw [readOffset, Except.ok.injEq, eq_comm]
  | some text =>
    simp only [readOffset, readLimited?_eq]
    cases readCount? text.toList with
    | none => simp
    | some m => simp [eq_comm]

theorem readReverse_eq_ok_iff {text : Option String} {b : Bool} :
    readReverse text = .ok b ↔
      match text with
      | none => b = false
      | some text => ∃ n, readInt64? text.toList = some n ∧ b = (n != 0) := by
  cases text with
  | none => rw [readReverse, Except.ok.injEq, eq_comm]
  | some text =>
    simp only [readReverse]
    cases readInt64? text.toList with
    | none => simp
    | some n => simp [eq_comm]

/-- The fields of a payload make a cursor if the offset and the direction can be read. -/
theorem toCursor_eq_ok_iff {cutoff : Option UInt64} {fs : Fields} {c : Cursor} :
    fs.toCursor cutoff = .ok c ↔
      readOffset cutoff (fs.get? .offset) = .ok c.offset ∧
      readReverse (fs.get? .reverse) = .ok c.reverse ∧
      c.position = (fs.get? .position).map Position.mk := by
  simp only [Fields.toCursor, bind_eq_ok_iff, Fields.get?]
  constructor
  · rintro ⟨offset, hoffset, reverse, hreverse, h⟩
    obtain rfl := Except.ok.inj h
    exact ⟨hoffset, hreverse, rfl⟩
  · rintro ⟨hoffset, hreverse, hposition⟩
    refine ⟨c.offset, hoffset, c.reverse, hreverse, ?_⟩
    rw [← hposition]
    rfl

theorem readCursor_eq_ok_iff {cutoff : Option UInt64} {payload : List Char} {c : Cursor} :
    readCursor cutoff payload = .ok c ↔
      ∃ fs, readFields payload = .ok fs ∧ fs.toCursor cutoff = .ok c := by
  rw [readCursor]
  cases readFields payload with
  | error why => simp
  | ok fs => simp

/-- A payload is read as the cursor that its pieces describe, and as none if they describe none. -/
theorem readCursor_iff_describes {cutoff : Option UInt64} {payload : List Char} {c : Cursor} :
    readCursor cutoff payload = .ok c ↔ Describes cutoff (payload.splitOn '&') c := by
  have hempty : ∀ k, Fields.empty.get? k = none := by
    intro k
    cases k <;> rfl
  simp only [readCursor_eq_ok_iff, readFields, foldlM_takePiece_eq_ok_iff, toCursor_eq_ok_iff,
    readOffset_eq_ok_iff, readReverse_eq_ok_iff, hempty]
  constructor
  · rintro ⟨fs, ⟨hmarked, hsets⟩, hoffset, hreverse, hposition⟩
    refine ⟨hmarked, says_iff.mpr ⟨_, hsets .offset, hoffset⟩,
      says_iff.mpr ⟨_, hsets .reverse, hreverse⟩, says_iff.mpr ⟨_, hsets .position, ?_⟩⟩
    rw [hposition]
    cases fs.get? .position <;> rfl
  · rintro ⟨hmarked, hoffset, hreverse, hposition⟩
    obtain ⟨offset, hoffset, hoffset'⟩ := says_iff.mp hoffset
    obtain ⟨reverse, hreverse, hreverse'⟩ := says_iff.mp hreverse
    obtain ⟨position, hposition, hposition'⟩ := says_iff.mp hposition
    refine ⟨⟨offset, reverse, position⟩, ⟨hmarked, ?_⟩, hoffset', hreverse', ?_⟩
    · intro k
      cases k with
      | offset => exact hoffset
      | reverse => exact hreverse
      | position => exact hposition
    · cases position with
      | none => exact hposition'
      | some text => exact hposition'

/-! ## Pieces in another sequence -/

/-- Pieces that name no key give a key no value. -/
theorem valuesOf_of_unknown {pieces : List (List Char)} (h : ∀ cs ∈ pieces, Unknown cs) (k : Key) :
    valuesOf k pieces = [] := by
  refine List.filterMap_eq_nil_iff.mpr ?_
  intro cs hcs
  obtain ⟨name, value, rfl, hmark, hname⟩ := h cs hcs
  rw [valueOf?, Text.splitAt?_append hmark]
  exact if_neg (hname k)

/-- A key has the same values in pieces that change places and come with others that name no key. -/
theorem valuesOf_perm {pieces pieces' extra : List (List Char)} (hextra : ∀ cs ∈ extra, Unknown cs)
    (hperm : pieces'.Perm (pieces ++ extra)) (k : Key) :
    (valuesOf k pieces').Perm (valuesOf k pieces) := by
  have hvalues := hperm.filterMap (valueOf? k)
  have hnone : extra.filterMap (valueOf? k) = [] := valuesOf_of_unknown hextra k
  rw [List.filterMap_append, hnone, List.append_nil] at hvalues
  exact hvalues

/-- At most one value leaves nothing to the sequence of the values. -/
theorem Says.of_perm {β : Type} {pieces pieces' : List (List Char)} {k : Key} {default b : β}
    {Means : String → β → Prop} (h : Says pieces k default Means b)
    (hperm : (valuesOf k pieces').Perm (valuesOf k pieces)) : Says pieces' k default Means b := by
  cases h with
  | unsaid h =>
    rw [h] at hperm
    exact .unsaid hperm.eq_nil
  | said h htext hmeans =>
    rw [h] at hperm
    exact .said (List.perm_singleton.mp hperm) htext hmeans

theorem describes_perm {cutoff : Option UInt64} {pieces pieces' extra : List (List Char)}
    {c : Cursor} (hextra : ∀ cs ∈ extra, Unknown cs) (hperm : pieces'.Perm (pieces ++ extra)) :
    Describes cutoff pieces c ↔ Describes cutoff pieces' c := by
  have hvalues := valuesOf_perm hextra hperm
  constructor
  · intro h
    refine ⟨?_, h.offset.of_perm (hvalues _), h.reverse.of_perm (hvalues _),
      h.position.of_perm (hvalues _)⟩
    intro cs hcs
    rcases List.mem_append.mp (hperm.mem_iff.mp hcs) with hcs | hcs
    · exact h.marked cs hcs
    · obtain ⟨name, value, rfl, -⟩ := hextra cs hcs
      exact List.mem_append_right _ List.mem_cons_self
  · intro h
    refine ⟨?_, h.offset.of_perm (hvalues _).symm, h.reverse.of_perm (hvalues _).symm,
      h.position.of_perm (hvalues _).symm⟩
    intro cs hcs
    exact h.marked cs (hperm.mem_iff.mpr (List.mem_append_left _ hcs))

/-! ## Tokens -/

/-- No cursor is given by no token and by the empty one, and by no other. -/
theorem decode_eq_none_iff {cutoff : Option UInt64} {token : Option String} :
    decode cutoff token = .ok none ↔ token = none ∨ token = some "" := by
  cases token with
  | none => simp [decode]
  | some text =>
    by_cases hempty : text = ""
    · simp [decode, hempty]
    · by_cases hlong : maxLength < text.utf8ByteSize
      · simp [decode, hempty, hlong]
      · cases hpayload : readPayload text with
        | error why => simp [decode, hempty, hlong, hpayload]
        | ok payload =>
          cases hcursor : readCursor cutoff payload <;>
            simp [decode, hempty, hlong, hpayload, hcursor, Except.map]

/-- A text that is short enough to be read and carries a payload. -/
structure Carries (text : String) (payload : List Char) : Prop where
  fits : text.utf8ByteSize ≤ maxLength
  read : readPayload text = .ok payload

/-- A token with a payload other than the empty one is read as the cursor of the payload. -/
theorem decode_of_carries {text : String} {payload : List Char} (h : Carries text payload)
    (hpayload : payload ≠ []) (cutoff : Option UInt64) :
    decode cutoff (some text) = (readCursor cutoff payload).map some := by
  have hempty : text ≠ "" := by
    rintro rfl
    exact hpayload (Except.ok.inj h.read).symm
  rw [decode, if_neg hempty, if_neg (Nat.not_lt.mpr h.fits)]
  simp only [h.read]

theorem decode_eq_ok_iff {text : String} {payload : List Char} (h : Carries text payload)
    (hpayload : payload ≠ []) {cutoff : Option UInt64} {cursor : Option Cursor} :
    decode cutoff (some text) = .ok cursor ↔
      ∃ c, cursor = some c ∧ Describes cutoff (payload.splitOn '&') c := by
  simp only [decode_of_carries h hpayload, ← readCursor_iff_describes]
  cases readCursor cutoff payload with
  | error error => simp [Except.map]
  | ok c => simp [Except.map, eq_comm]

/-- Only the empty payload has the empty piece alone. -/
theorem ne_nil_of_perm {payload payload' : List Char} {extra : List (List Char)}
    (hpayload : payload ≠ []) (hperm : (payload'.splitOn '&').Perm (payload.splitOn '&' ++ extra)) :
    payload' ≠ [] := by
  rintro rfl
  have hpieces : payload.splitOn '&' ++ extra = [[]] := (List.singleton_perm.mp hperm).symm
  have hfirst : payload.splitOn '&' = [[]] := by
    obtain ⟨cs, pieces, hcons⟩ := List.exists_cons_of_ne_nil (List.splitOn_ne_nil '&' payload)
    rw [hcons] at hpieces ⊢
    obtain ⟨rfl, hrest⟩ := List.cons.inj hpieces
    rw [(List.append_eq_nil_iff.mp hrest).1]
  have hjoin : ['&'].intercalate (payload.splitOn '&') = payload :=
    List.intercalate_splitOn '&'
  rw [hfirst] at hjoin
  exact hpayload hjoin.symm

/-- Of two tokens whose payloads have the same pieces, in any sequence and one with more that name
    no key, either both are refused or both are read as one cursor, and this is the cursor that the
    pieces describe; no key has more than one value then. -/
theorem decode_rearranged {text text' : String} {payload payload' : List Char}
    {extra : List (List Char)} (htext : Carries text payload) (htext' : Carries text' payload')
    (hpayload : payload ≠ []) (hextra : ∀ cs ∈ extra, Unknown cs)
    (hperm : (payload'.splitOn '&').Perm (payload.splitOn '&' ++ extra)) (cutoff : Option UInt64) :
    (∀ cursor, decode cutoff (some text) = .ok cursor ↔ decode cutoff (some text') = .ok cursor) ∧
    (∀ cursor, decode cutoff (some text) = .ok cursor ↔
      ∃ c, cursor = some c ∧ Describes cutoff (payload.splitOn '&') c) ∧
    ∀ cursor, decode cutoff (some text) = .ok cursor →
      ∀ k, (valuesOf k (payload.splitOn '&')).length ≤ 1 := by
  have hpayload' := ne_nil_of_perm hpayload hperm
  refine ⟨?_, fun cursor => decode_eq_ok_iff htext hpayload, ?_⟩
  · intro cursor
    rw [decode_eq_ok_iff htext hpayload, decode_eq_ok_iff htext' hpayload']
    simp only [describes_perm hextra hperm]
  · intro cursor h k
    obtain ⟨c, -, hdescribes⟩ := (decode_eq_ok_iff htext hpayload).mp h
    cases k with
    | offset => exact hdescribes.offset.length_le
    | reverse => exact hdescribes.reverse.length_le
    | position => exact hdescribes.position.length_le

/-- The text that carries a payload does so if it is short enough. -/
theorem carries_carrier {payload : List Char} (h : Position.byteCount payload ≤ 6143) :
    Carries (carrier payload) payload := by
  refine ⟨?_, readPayload_carrier payload⟩
  have hlimit : maxLength = 8192 := rfl
  rw [utf8ByteSize_carrier, hlimit]
  omega

/-- A payload with a direction and an offset. -/
def turned : List Char := ['r', '=', '-', '1', '&', 'o', '=', '7']

/-- The same pieces in the other sequence, and between them one with a name of its own and marks of a
    payload in its value. -/
def turnedNoisy : List Char :=
  ['o', '=', '7', '&', 'x', '=', '=', '%', '&', 'r', '=', '-', '1']

/-- Both are read as one cursor, with the offset held at the cutoff. -/
theorem decode_rearranged_noisy :
    Carries (carrier turned) turned ∧ Carries (carrier turnedNoisy) turnedNoisy ∧
    decode (some 4) (some (carrier turned)) = .ok (some ⟨4, true, none⟩) ∧
    decode (some 4) (some (carrier turnedNoisy)) = .ok (some ⟨4, true, none⟩) := by
  have hturned : Carries (carrier turned) turned := carries_carrier (by decide)
  have hnoisy : Carries (carrier turnedNoisy) turnedNoisy := carries_carrier (by decide)
  have hextra : ∀ cs ∈ [['x', '=', '=', '%']], Unknown cs := by
    intro cs hcs
    obtain rfl := List.mem_singleton.mp hcs
    refine ⟨['x'], ['=', '%'], rfl, by decide, ?_⟩
    intro k
    cases k <;> decide
  obtain ⟨hsame, hread, -⟩ := decode_rearranged hturned hnoisy (by decide) hextra (by decide) (some 4)
  have hoffset : unescape ['7'] = .ok "7" := unescape_of_not_mem (by decide)
  have hreverse : unescape ['-', '1'] = .ok "-1" := unescape_of_not_mem (by decide)
  have hdescribes : Describes (some 4) (turned.splitOn '&') ⟨4, true, none⟩ :=
    ⟨by decide, .said rfl hoffset ⟨7, by decide, rfl⟩, .said rfl hreverse ⟨-1, by decide, rfl⟩,
      .unsaid rfl⟩
  have hcursor := (hread _).mpr ⟨_, rfl, hdescribes⟩
  exact ⟨hturned, hnoisy, hcursor, (hsame _).mp hcursor⟩

end Keyset.Token
