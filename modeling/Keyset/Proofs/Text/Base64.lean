import Keyset.Proofs.Text.Utf8
import Keyset.Text.Base64

/-! # Base64 reads what it writes

    In the address alphabet the symbols of some bytes read as those bytes
    (`decode_encode`).  The reader treats the last group by itself, so the bytes
    are cut the same way: full groups of three, which `values` and `joinGroups`
    undo, and a last group of one to three, which `lastSymbols` and `lastBytes`
    undo.

    The symbols are ASCII characters, so the text they form has one byte for
    each of them (`utf8_encodeText`), four for every three bytes written. -/

namespace Keyset.Text.Base64

/-! ## Symbols -/

theorem value?_symbol {n : Nat} (h : n < 64) : urlSafe.value? (urlSafe.symbol n) = some n :=
  (by decide : ∀ m < 64, urlSafe.value? (urlSafe.symbol m) = some m) n h

theorem symbol_ne_pad {n : Nat} (h : n < 64) : urlSafe.symbol n ≠ pad :=
  (by decide : ∀ m < 64, urlSafe.symbol m ≠ pad) n h

theorem toNat_symbol_lt {n : Nat} (h : n < 64) : (urlSafe.symbol n).toNat < 128 :=
  (by decide : ∀ m < 64, (urlSafe.symbol m).toNat < 128) n h

theorem values_symbol {n : Nat} (h : n < 64) (offset : Nat) (rest : List UInt8) :
    values urlSafe offset (urlSafe.symbol n :: rest)
      = (values urlSafe (offset + 1) rest).map (n :: ·) := by
  rw [values, value?_symbol h]

theorem lastSymbols_symbol {n : Nat} (h : n < 64) (start index : Nat) (rest : List UInt8) :
    lastSymbols urlSafe start index none (urlSafe.symbol n :: rest)
      = (lastSymbols urlSafe start (index + 1) none rest).map ((urlSafe.symbol n, n) :: ·) := by
  rw [lastSymbols, if_neg (symbol_ne_pad h), value?_symbol h]

/-! ## Full groups -/

/-- The number that three bytes form. -/
private def join (x y z : UInt8) : Nat := (x.toNat * 256 + y.toNat) * 256 + z.toNat

private theorem join_lt (x y z : UInt8) : join x y z < 16777216 := by
  have hx := UInt8.toNat_lt x
  have hy := UInt8.toNat_lt y
  have hz := UInt8.toNat_lt z
  unfold join
  omega

private theorem encode_group (x y z : UInt8) (rest : List UInt8) :
    encode urlSafe (x :: y :: z :: rest)
      = urlSafe.symbol (join x y z / 262144) :: urlSafe.symbol (join x y z / 4096 % 64)
        :: urlSafe.symbol (join x y z / 64 % 64) :: urlSafe.symbol (join x y z % 64)
        :: encode urlSafe rest := rfl

private theorem joinGroups_group (x y z : UInt8) (rest : List Nat) :
    joinGroups (join x y z / 262144 :: join x y z / 4096 % 64 :: join x y z / 64 % 64
      :: join x y z % 64 :: rest) = x :: y :: z :: joinGroups rest := by
  have hx := UInt8.toNat_lt x
  have hy := UInt8.toNat_lt y
  have hz := UInt8.toNat_lt z
  have hn : ((join x y z / 262144 * 64 + join x y z / 4096 % 64) * 64
      + join x y z / 64 % 64) * 64 + join x y z % 64 = join x y z := by omega
  have h1 : join x y z / 65536 = x.toNat := by unfold join; omega
  have h2 : join x y z / 256 % 256 = y.toNat := by unfold join; omega
  have h3 : join x y z % 256 = z.toNat := by unfold join; omega
  rw [joinGroups]
  simp only [hn, h1, h2, h3, UInt8.ofNat_toNat]

/-- Full groups read as the numbers that join to the bytes written. -/
theorem values_encode {bytes : List UInt8} (h : bytes.length % 3 = 0) (offset : Nat) :
    ∃ ns, values urlSafe offset (encode urlSafe bytes) = .ok ns ∧ joinGroups ns = bytes := by
  induction bytes using encode.induct generalizing offset with
  | case1 => exact ⟨[], rfl, rfl⟩
  | case2 x => simp at h
  | case3 x y => simp at h
  | case4 x y z rest ih =>
    obtain ⟨ns, hns, hjoin⟩ := ih (by simp only [List.length_cons] at h; omega)
      (offset + 1 + 1 + 1 + 1)
    have hlt := join_lt x y z
    refine ⟨_, ?_, (joinGroups_group x y z ns).trans (by rw [hjoin])⟩
    rw [encode_group, values_symbol (by omega), values_symbol (by omega), values_symbol (by omega),
      values_symbol (by omega), hns]
    rfl

theorem encode_append {front : List UInt8} (h : front.length % 3 = 0) (rest : List UInt8) :
    encode urlSafe (front ++ rest) = encode urlSafe front ++ encode urlSafe rest := by
  induction front using encode.induct with
  | case1 => rfl
  | case2 x => simp at h
  | case3 x y => simp at h
  | case4 x y z more ih =>
    have hmore := ih (by simp only [List.length_cons] at h; omega)
    rw [List.cons_append, List.cons_append, List.cons_append, encode_group, encode_group, hmore]
    rfl

/-- Every three bytes take four symbols; a shorter last group takes one more than it has bytes. -/
theorem length_encode (bytes : List UInt8) :
    (encode urlSafe bytes).length = (bytes.length * 4 + 2) / 3 := by
  induction bytes using encode.induct with
  | case1 => rfl
  | case2 x => simp [encode, urlSafe]
  | case3 x y => simp [encode, urlSafe]
  | case4 x y z rest ih =>
    rw [encode_group]
    simp only [List.length_cons, ih]
    omega

/-! ## The last group -/

/-- The last group, of one to three bytes, reads as those bytes. -/
theorem lastSymbols_encode {bytes : List UInt8} (hpos : 0 < bytes.length) (hle : bytes.length ≤ 3)
    (start : Nat) :
    ∃ symbols, lastSymbols urlSafe start 0 none (encode urlSafe bytes) = .ok symbols ∧
      lastBytes start symbols = .ok bytes := by
  match bytes, hpos, hle with
  | [x], _, _ =>
    have hx := UInt8.toNat_lt x
    -- four zero bits fill up the second symbol
    let n := x.toNat * 16
    have hn : (n / 64 * 64 + n % 64) / 16 = x.toNat := by omega
    refine ⟨[(urlSafe.symbol (n / 64), n / 64), (urlSafe.symbol (n % 64), n % 64)], ?_, ?_⟩
    · show lastSymbols urlSafe start 0 none [urlSafe.symbol (n / 64), urlSafe.symbol (n % 64)] = _
      rw [lastSymbols_symbol (by omega), lastSymbols_symbol (by omega)]
      rfl
    · rw [lastBytes, if_pos (by omega), hn, UInt8.ofNat_toNat]
  | [x, y], _, _ =>
    have hx := UInt8.toNat_lt x
    have hy := UInt8.toNat_lt y
    -- two zero bits fill up the third symbol
    let n := (x.toNat * 256 + y.toNat) * 4
    have hn : ((n / 4096 * 64 + n / 64 % 64) * 64 + n % 64) / 4 = x.toNat * 256 + y.toNat := by
      omega
    have h1 : (x.toNat * 256 + y.toNat) / 256 = x.toNat := by omega
    have h2 : (x.toNat * 256 + y.toNat) % 256 = y.toNat := by omega
    refine ⟨[(urlSafe.symbol (n / 4096), n / 4096), (urlSafe.symbol (n / 64 % 64), n / 64 % 64),
      (urlSafe.symbol (n % 64), n % 64)], ?_, ?_⟩
    · show lastSymbols urlSafe start 0 none
        [urlSafe.symbol (n / 4096), urlSafe.symbol (n / 64 % 64), urlSafe.symbol (n % 64)] = _
      rw [lastSymbols_symbol (by omega), lastSymbols_symbol (by omega),
        lastSymbols_symbol (by omega)]
      rfl
    · rw [lastBytes]
      simp only [hn]
      rw [if_pos (by omega), h1, h2, UInt8.ofNat_toNat, UInt8.ofNat_toNat]
  | [x, y, z], _, _ =>
    have hlt := join_lt x y z
    let n := join x y z
    refine ⟨[(urlSafe.symbol (n / 262144), n / 262144),
      (urlSafe.symbol (n / 4096 % 64), n / 4096 % 64),
      (urlSafe.symbol (n / 64 % 64), n / 64 % 64), (urlSafe.symbol (n % 64), n % 64)], ?_, ?_⟩
    · rw [encode_group, lastSymbols_symbol (by omega), lastSymbols_symbol (by omega),
        lastSymbols_symbol (by omega), lastSymbols_symbol (by omega)]
      rfl
    · rw [lastBytes, joinGroups_group]
      rfl

/-! ## Whole texts -/

/-- Nothing is written but symbols. -/
theorem exists_symbol_of_mem_encode {bytes : List UInt8} {byte : UInt8}
    (h : byte ∈ encode urlSafe bytes) : ∃ n < 64, byte = urlSafe.symbol n := by
  induction bytes using encode.induct with
  | case1 => exact nomatch h
  | case2 x =>
    have hx := UInt8.toNat_lt x
    simp only [encode, urlSafe, List.mem_append, List.mem_cons, Bool.false_eq_true, if_false,
      List.not_mem_nil, or_false] at h
    rcases h with h | h <;> exact ⟨_, by omega, h⟩
  | case3 x y =>
    have hx := UInt8.toNat_lt x
    have hy := UInt8.toNat_lt y
    simp only [encode, urlSafe, List.mem_append, List.mem_cons, Bool.false_eq_true, if_false,
      List.not_mem_nil, or_false] at h
    rcases h with h | h | h <;> exact ⟨_, by omega, h⟩
  | case4 x y z rest ih =>
    have hlt := join_lt x y z
    rw [encode_group] at h
    simp only [List.mem_cons] at h
    rcases h with h | h | h | h | h
    · exact ⟨_, by omega, h⟩
    · exact ⟨_, by omega, h⟩
    · exact ⟨_, by omega, h⟩
    · exact ⟨_, by omega, h⟩
    · exact ih h

theorem toNat_lt_of_mem_encode {bytes : List UInt8} {byte : UInt8}
    (h : byte ∈ encode urlSafe bytes) : byte.toNat < 128 := by
  obtain ⟨n, hn, rfl⟩ := exists_symbol_of_mem_encode h
  exact toNat_symbol_lt hn

/-- The bytes of an encoded text are its symbols. -/
theorem utf8_encodeText (bytes : List UInt8) :
    utf8 (encodeText urlSafe bytes) = encode urlSafe bytes :=
  utf8_ofList_bytes fun _ h => toNat_lt_of_mem_encode h

theorem strayLastByte?_eq_none {text : List UInt8} (h : text.length % 4 ≠ 1) :
    strayLastByte? urlSafe text = none := by
  unfold strayLastByte?
  split
  · rw [if_neg fun hc => h hc.1]
  · rfl

/-- A text is read group by group when its last group is cut off where it starts. -/
theorem decode_append {front group bytes : List UInt8} {ns : List Nat}
    {symbols : List (UInt8 × Nat)}
    (hfront : front.length % 4 = 0) (hgroup : 2 ≤ group.length) (hgroup' : group.length ≤ 4)
    (hns : values urlSafe 0 front = .ok ns)
    (hsymbols : lastSymbols urlSafe front.length 0 none group = .ok symbols)
    (hbytes : lastBytes front.length symbols = .ok bytes) :
    decode urlSafe (front ++ group) = .ok (joinGroups ns ++ bytes) := by
  have hlen : (front ++ group).length = front.length + group.length := List.length_append
  -- the reader starts the last group where the full groups end
  have hstart : (front ++ group).length - lastLength (front ++ group).length = front.length := by
    unfold lastLength
    split <;> omega
  have hcons : ∃ byte rest, group = byte :: rest :=
    List.exists_cons_of_length_pos (by omega)
  obtain ⟨byte, rest, rfl⟩ := hcons
  unfold decode
  rw [strayLastByte?_eq_none (by omega), hstart]
  simp only [bind, Except.bind, List.take_left, List.drop_left, hns, hsymbols, hbytes]
  rfl

/-- What is written in the address alphabet reads back. -/
theorem decode_encode (bytes : List UInt8) :
    decode urlSafe (encode urlSafe bytes) = .ok bytes := by
  rcases Nat.eq_zero_or_pos bytes.length with hzero | hpos
  · rw [List.length_eq_zero_iff.mp hzero]
    rfl
  -- the bytes before the last group, and the last group
  let cut := (bytes.length - 1) / 3 * 3
  have hfront : (bytes.take cut).length = cut := by rw [List.length_take]; omega
  have hlast : (bytes.drop cut).length = bytes.length - cut := List.length_drop
  obtain ⟨ns, hns, hjoin⟩ := values_encode (show (bytes.take cut).length % 3 = 0 by omega) 0
  have hlen := length_encode (bytes.take cut)
  have hlen' := length_encode (bytes.drop cut)
  obtain ⟨symbols, hsymbols, hbytes⟩ :=
    lastSymbols_encode (show 0 < (bytes.drop cut).length by omega) (by omega)
      (encode urlSafe (bytes.take cut)).length
  have hread := decode_append (by omega) (by omega) (by omega) hns hsymbols hbytes
  rw [← encode_append (by omega), hjoin, List.take_append_drop] at hread
  exact hread

end Keyset.Text.Base64
