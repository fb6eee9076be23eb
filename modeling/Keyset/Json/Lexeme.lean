import Keyset.Json.Numeral
import Keyset.Text.Hex

/-! # Lexemes of JSON text

JSON text is cut into lexemes: marks, strings and scalars, with blanks between them.  Every lexeme
takes at least one character, so the cutting ends. -/

namespace Keyset.Json

/-- A lexeme of JSON text. -/
inductive Lexeme where
  | openArray
  | closeArray
  | openObject
  | closeObject
  | comma
  | colon
  | string (s : String)
  | scalar (value : Json)

/-- The white space that JSON text may hold between lexemes. -/
def isGap (c : Char) : Bool := c == ' ' || c == '\t' || c == '\n' || c == '\r'

/-- The character that a backslash and a letter stand for. -/
def escaped? : Char → Option Char
  | '"' => some '"'
  | '\\' => some '\\'
  | '/' => some '/'
  | 'b' => some '\x08'
  | 'f' => some '\x0c'
  | 'n' => some '\n'
  | 'r' => some '\r'
  | 't' => some '\t'
  | _ => none

/-- The number of four hexadecimal digits. -/
def unit? (a b c d : Char) : Option Nat := do
  let a ← Text.Hex.value? a
  let b ← Text.Hex.value? b
  let c ← Text.Hex.value? c
  let d ← Text.Hex.value? d
  return ((a * 16 + b) * 16 + c) * 16 + d

/-- Whether a code unit is the first half of a pair. -/
def isHighHalf (n : Nat) : Bool := 0xD800 ≤ n && n ≤ 0xDBFF

/-- Whether a code unit is the second half of a pair. -/
def isLowHalf (n : Nat) : Bool := 0xDC00 ≤ n && n ≤ 0xDFFF

/-- Reads the rest of a string, up to and with its closing quote.  Halves of a pair must stand side
by side, and control characters must be escaped. -/
def stringBody (done : List Char) : List Char → Option (String × List Char)
  | [] => none
  | '"' :: rest => some (String.ofList done.reverse, rest)
  | '\\' :: 'u' :: a :: b :: c :: d :: '\\' :: 'u' :: e :: f :: g :: h :: rest =>
      match unit? a b c d with
      | none => none
      | some n =>
          if isHighHalf n then
            match unit? e f g h with
            | none => none
            | some m =>
                if isLowHalf m then
                  stringBody (Char.ofNat (0x10000 + (n - 0xD800) * 0x400 + (m - 0xDC00)) :: done) rest
                else none
          else if isLowHalf n then none
          else stringBody (Char.ofNat n :: done) ('\\' :: 'u' :: e :: f :: g :: h :: rest)
  | '\\' :: 'u' :: a :: b :: c :: d :: rest =>
      match unit? a b c d with
      | none => none
      | some n =>
          if isHighHalf n || isLowHalf n then none else stringBody (Char.ofNat n :: done) rest
  | '\\' :: c :: rest =>
      match escaped? c with
      | none => none
      | some e => stringBody (e :: done) rest
  | c :: rest => if c.toNat < 0x20 ∨ c = '\\' then none else stringBody (c :: done) rest

/-- Whether a power of ten is negative, and its text after the sign. -/
def powerSign : List Char → Bool × List Char
  | '-' :: rest => (true, rest)
  | '+' :: rest => (false, rest)
  | cs => (false, cs)

/-- Reads the power of ten of a numeral, if there is one. -/
def numeralPower : List Char → Option (Option Int × List Char)
  | mark :: rest =>
      if mark = 'e' ∨ mark = 'E' then
        match (powerSign rest).2.takeWhile Number.isDigit with
        | [] => none
        | ds =>
            let n : Int := Number.ofDigits ds
            some (some (if (powerSign rest).1 then -n else n),
              (powerSign rest).2.dropWhile Number.isDigit)
      else some (none, mark :: rest)
  | [] => some (none, [])

/-- Reads the places of a numeral, if it has a point; a point needs a digit after it. -/
def numeralPlaces : List Char → Option (Option (List Char) × List Char)
  | '.' :: rest =>
      match rest.takeWhile Number.isDigit with
      | [] => none
      | ds => some (some ds, rest.dropWhile Number.isDigit)
  | cs => some (none, cs)

/-- The digits of a numeral before its point.  A zero in front stands alone. -/
def numeralWhole : List Char → Option (List Char × List Char)
  | '0' :: rest => some (['0'], rest)
  | cs =>
      match cs.takeWhile Number.isDigit with
      | [] => none
      | ds => some (ds, cs.dropWhile Number.isDigit)

/-- Reads a numeral after its sign. -/
def numeralBody (negative : Bool) (cs : List Char) : Option (Json × List Char) :=
  match numeralWhole cs with
  | none => none
  | some (whole, afterWhole) =>
      match numeralPlaces afterWhole with
      | none => none
      | some (places, afterPlaces) =>
          match numeralPower afterPlaces with
          | none => none
          | some (power, rest) =>
              (Numeral.value? ⟨negative, whole, places, power⟩).map fun value => (value, rest)

/-- Reads the lexeme at the front of a text. -/
def lexeme? : List Char → Option (Lexeme × List Char)
  | '[' :: rest => some (.openArray, rest)
  | ']' :: rest => some (.closeArray, rest)
  | '\x7b' :: rest => some (.openObject, rest)
  | '\x7d' :: rest => some (.closeObject, rest)
  | ',' :: rest => some (.comma, rest)
  | ':' :: rest => some (.colon, rest)
  | '"' :: rest => (stringBody [] rest).map fun (s, rest) => (.string s, rest)
  | 'n' :: 'u' :: 'l' :: 'l' :: rest => some (.scalar .null, rest)
  | 't' :: 'r' :: 'u' :: 'e' :: rest => some (.scalar (.bool true), rest)
  | 'f' :: 'a' :: 'l' :: 's' :: 'e' :: rest => some (.scalar (.bool false), rest)
  | '-' :: rest => (numeralBody true rest).map fun (v, rest) => (.scalar v, rest)
  | cs => (numeralBody false cs).map fun (v, rest) => (.scalar v, rest)

/-! ## Every lexeme takes a character -/

theorem length_dropWhile_lt {p : Char → Bool} {cs : List Char} (h : cs.takeWhile p ≠ []) :
    (cs.dropWhile p).length < cs.length := by
  have whole := congrArg List.length (List.takeWhile_append_dropWhile (p := p) (l := cs))
  have some := List.length_pos_iff.2 h
  rw [List.length_append] at whole
  omega

theorem length_of_stringBody {done cs : List Char} {s : String} {rest : List Char}
    (h : stringBody done cs = some (s, rest)) : rest.length < cs.length := by
  fun_induction stringBody done cs <;> simp_all <;> omega

theorem length_powerSign (cs : List Char) : (powerSign cs).2.length ≤ cs.length := by
  unfold powerSign
  split <;> simp

theorem length_of_numeralWhole {cs rest ds : List Char}
    (h : numeralWhole cs = some (ds, rest)) : rest.length < cs.length := by
  unfold numeralWhole at h
  split at h
  · obtain ⟨-, rfl⟩ := Prod.mk.inj (Option.some.inj h)
    exact Nat.lt_succ_self _
  · split at h
    · exact nomatch h
    · next hne =>
      obtain ⟨-, rfl⟩ := Prod.mk.inj (Option.some.inj h)
      exact length_dropWhile_lt hne

theorem length_of_numeralPlaces {cs rest : List Char} {places : Option (List Char)}
    (h : numeralPlaces cs = some (places, rest)) : rest.length ≤ cs.length := by
  unfold numeralPlaces at h
  split at h
  · split at h
    · exact nomatch h
    · next hne =>
      obtain ⟨-, rfl⟩ := Prod.mk.inj (Option.some.inj h)
      exact Nat.le_succ_of_le (Nat.le_of_lt (length_dropWhile_lt hne))
  · obtain ⟨-, rfl⟩ := Prod.mk.inj (Option.some.inj h)
    exact Nat.le_refl _

theorem length_of_numeralPower {cs rest : List Char} {power : Option Int}
    (h : numeralPower cs = some (power, rest)) : rest.length ≤ cs.length := by
  unfold numeralPower at h
  split at h
  · next mark more =>
    split at h
    · split at h
      · exact nomatch h
      · next hne =>
        obtain ⟨-, rfl⟩ := Prod.mk.inj (Option.some.inj h)
        exact Nat.le_succ_of_le
          (Nat.le_trans (Nat.le_of_lt (length_dropWhile_lt hne)) (length_powerSign more))
    · obtain ⟨-, rfl⟩ := Prod.mk.inj (Option.some.inj h)
      exact Nat.le_refl _
  · obtain ⟨-, rfl⟩ := Prod.mk.inj (Option.some.inj h)
    exact Nat.le_refl _

theorem length_of_numeralBody {negative : Bool} {cs rest : List Char} {value : Json}
    (h : numeralBody negative cs = some (value, rest)) : rest.length < cs.length := by
  unfold numeralBody at h
  split at h
  · exact nomatch h
  next hwhole =>
  split at h
  · exact nomatch h
  next hplaces =>
  split at h
  · exact nomatch h
  next hpower =>
  obtain ⟨v, -, hrest⟩ := Option.map_eq_some_iff.1 h
  obtain ⟨-, rfl⟩ := Prod.mk.inj hrest
  exact Nat.lt_of_le_of_lt
    (Nat.le_trans (length_of_numeralPower hpower) (length_of_numeralPlaces hplaces))
    (length_of_numeralWhole hwhole)

theorem length_of_lexeme? {cs rest : List Char} {l : Lexeme}
    (h : lexeme? cs = some (l, rest)) : rest.length < cs.length := by
  unfold lexeme? at h
  split at h
  case h_7 =>
    obtain ⟨⟨s, more⟩, hs, heq⟩ := Option.map_eq_some_iff.1 h
    obtain ⟨-, rfl⟩ := Prod.mk.inj heq
    exact Nat.lt_succ_of_lt (length_of_stringBody hs)
  case h_11 =>
    obtain ⟨⟨v, more⟩, hv, heq⟩ := Option.map_eq_some_iff.1 h
    obtain ⟨-, rfl⟩ := Prod.mk.inj heq
    exact Nat.lt_succ_of_lt (length_of_numeralBody hv)
  case h_12 =>
    obtain ⟨⟨v, more⟩, hv, heq⟩ := Option.map_eq_some_iff.1 h
    obtain ⟨-, rfl⟩ := Prod.mk.inj heq
    exact length_of_numeralBody hv
  all_goals
    obtain ⟨-, rfl⟩ := Prod.mk.inj (Option.some.inj h)
    simp only [List.length_cons]
    omega

/-! ## All lexemes -/

/-- Cuts a text into lexemes, after those that are `done`. -/
def lexemesAfter (done : List Lexeme) (cs : List Char) : Option (List Lexeme) :=
  match cs with
  | [] => some done.reverse
  | c :: rest =>
      if isGap c then lexemesAfter done rest
      else match h : lexeme? (c :: rest) with
        | none => none
        | some (l, more) =>
            have : more.length < (c :: rest).length := length_of_lexeme? h
            lexemesAfter (l :: done) more
termination_by cs.length
decreasing_by
  · simp
  · exact this

/-- The lexemes of a text; `none` if some part of it is none. -/
def lexemes? (cs : List Char) : Option (List Lexeme) := lexemesAfter [] cs

end Keyset.Json
