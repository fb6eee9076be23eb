/-! # Base64

Three bytes are written as four symbols of six bits.  An alphabet fixes the last two symbols and
whether a short last group is filled up with `=`.  Reading works group by group, and each way a
text can fail names the byte or the length at fault. -/

namespace Keyset.Text.Base64

/-- The variable part of an alphabet: its last two symbols, and whether short groups are padded. -/
structure Alphabet where
  symbol62 : UInt8
  symbol63 : UInt8
  padded : Bool
deriving DecidableEq

/-- The alphabet that needs no escaping in an address; padding is left out, and optional when read. -/
def urlSafe : Alphabet := ⟨45, 95, false⟩

/-- The standard alphabet, whose short groups must be padded. -/
def standard : Alphabet := ⟨43, 47, true⟩

/-- The fill byte `=`. -/
def pad : UInt8 := 61

/-- Why a text is no base64. -/
inductive Fault where
  /-- A byte that may not stand where it does. -/
  | badSymbol (byte : UInt8) (offset : Nat)
  /-- A group cut off after its first symbol. -/
  | badLength (length : Nat)
  /-- A last symbol whose unused bits are not zero. -/
  | badLastSymbol (byte : UInt8) (offset : Nat)
  /-- A short group without the fill it needs. -/
  | badPadding
deriving DecidableEq

/-- The fault in words. -/
def Fault.message : Fault → String
  | .badSymbol byte offset =>
      "Invalid symbol " ++ toString byte.toNat ++ ", offset " ++ toString offset ++ "."
  | .badLength length => "Invalid input length: " ++ toString length
  | .badLastSymbol byte offset =>
      "Invalid last symbol " ++ toString byte.toNat ++ ", offset " ++ toString offset ++ "."
  | .badPadding => "Invalid padding"

namespace Alphabet

/-- The symbol of a six-bit number. -/
def symbol (a : Alphabet) (n : Nat) : UInt8 :=
  if n < 26 then UInt8.ofNat (65 + n)
  else if n < 52 then UInt8.ofNat (71 + n)
  else if n < 62 then UInt8.ofNat (n - 4)
  else if n = 62 then a.symbol62
  else a.symbol63

/-- The six-bit number that a symbol stands for. -/
def value? (a : Alphabet) (byte : UInt8) : Option Nat :=
  let n := byte.toNat
  if 65 ≤ n ∧ n ≤ 90 then some (n - 65)
  else if 97 ≤ n ∧ n ≤ 122 then some (n - 71)
  else if 48 ≤ n ∧ n ≤ 57 then some (n + 4)
  else if byte = a.symbol62 then some 62
  else if byte = a.symbol63 then some 63
  else none

end Alphabet

/-! ## Writing -/

/-- The symbols of some bytes, three bytes at a time. -/
def encode (a : Alphabet) : List UInt8 → List UInt8
  | [] => []
  | [x] =>
      let n := x.toNat * 16
      [a.symbol (n / 64), a.symbol (n % 64)] ++ if a.padded then [pad, pad] else []
  | [x, y] =>
      let n := (x.toNat * 256 + y.toNat) * 4
      [a.symbol (n / 4096), a.symbol (n / 64 % 64), a.symbol (n % 64)]
        ++ if a.padded then [pad] else []
  | x :: y :: z :: rest =>
      let n := (x.toNat * 256 + y.toNat) * 256 + z.toNat
      a.symbol (n / 262144) :: a.symbol (n / 4096 % 64) :: a.symbol (n / 64 % 64)
        :: a.symbol (n % 64) :: encode a rest

/-- The symbols of some bytes as a text. -/
def encodeText (a : Alphabet) (bytes : List UInt8) : String :=
  String.ofList ((encode a bytes).map fun symbol => Char.ofNat symbol.toNat)

/-! ## Reading -/

/-- The numbers of the symbols of the full groups, the first of which stands at `offset`. -/
def values (a : Alphabet) : Nat → List UInt8 → Except Fault (List Nat)
  | _, [] => .ok []
  | offset, byte :: rest =>
      match a.value? byte with
      | none => .error (.badSymbol byte offset)
      | some n => (values a (offset + 1) rest).map (n :: ·)

/-- The bytes that full groups of four numbers stand for. -/
def joinGroups : List Nat → List UInt8
  | p :: q :: r :: s :: rest =>
      let n := ((p * 64 + q) * 64 + r) * 64 + s
      UInt8.ofNat (n / 65536) :: UInt8.ofNat (n / 256 % 256) :: UInt8.ofNat (n % 256)
        :: joinGroups rest
  | _ => []

/-- Cuts the last group, whose first byte stands at `start`, into its symbols with their numbers and
the offset of its first fill byte.  Fill may stand only in the third and fourth place, and nothing
but fill may follow it. -/
def lastSymbols (a : Alphabet) (start : Nat) :
    Nat → Option Nat → List UInt8 → Except Fault (List (UInt8 × Nat))
  | _, _, [] => .ok []
  | index, firstPad, byte :: rest =>
      if byte = pad then
        if index < 2 then .error (.badSymbol byte (start + index))
        else lastSymbols a start (index + 1) (firstPad <|> some (start + index)) rest
      else
        match firstPad with
        | some offset => .error (.badSymbol pad offset)
        | none =>
            match a.value? byte with
            | none => .error (.badSymbol byte (start + index))
            | some n => (lastSymbols a start (index + 1) none rest).map ((byte, n) :: ·)

/-- The bytes of the last group, given its symbols. -/
def lastBytes (start : Nat) : List (UInt8 × Nat) → Except Fault (List UInt8)
  | [(_, p), (byte, q)] =>
      if q % 16 = 0 then .ok [UInt8.ofNat ((p * 64 + q) / 16)]
      else .error (.badLastSymbol byte (start + 1))
  | [(_, p), (_, q), (byte, r)] =>
      let n := ((p * 64 + q) * 64 + r) / 4
      if r % 4 = 0 then .ok [UInt8.ofNat (n / 256), UInt8.ofNat (n % 256)]
      else .error (.badLastSymbol byte (start + 2))
  | [(_, p), (_, q), (_, r), (_, s)] => .ok (joinGroups [p, q, r, s])
  | symbols => .error (.badLength (start + symbols.length))

/-- The length of the last group: one to four bytes, and none only if there is no text at all. -/
def lastLength (n : Nat) : Nat := if n % 4 = 0 then min n 4 else n % 4

/-- A text one byte longer than full groups whose last byte is no symbol is refused for that byte. -/
def strayLastByte? (a : Alphabet) (text : List UInt8) : Option Fault :=
  match text.getLast? with
  | some byte =>
      if text.length % 4 = 1 ∧ byte ≠ pad ∧ a.value? byte = none then
        some (.badSymbol byte (text.length - 1))
      else none
  | none => none

/-- The bytes that a text of symbols stands for. -/
def decode (a : Alphabet) (text : List UInt8) : Except Fault (List UInt8) := do
  if let some fault := strayLastByte? a text then
    throw fault
  let start := text.length - lastLength text.length
  let full ← values a 0 (text.take start)
  match text.drop start with
  | [] => return []
  | group =>
      let symbols ← lastSymbols a start 0 none group
      let bytes ← lastBytes start symbols
      if a.padded && group.length != 4 then
        throw .badPadding
      return joinGroups full ++ bytes

end Keyset.Text.Base64
