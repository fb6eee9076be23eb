/-! # Blank characters

White space in the sense of the Unicode property `White_Space`, and trimming by it.  Trimmed text
neither begins nor ends with a blank, and trimming it again changes nothing. -/

namespace Keyset.Text

/-- The characters that have the Unicode property `White_Space`. -/
def isBlank (c : Char) : Bool :=
  let n := c.toNat
  (9 ≤ n && n ≤ 13) || n == 0x20 || n == 0x85 || n == 0xA0 || n == 0x1680
    || (0x2000 ≤ n && n ≤ 0x200A) || n == 0x2028 || n == 0x2029 || n == 0x202F
    || n == 0x205F || n == 0x3000

/-- Drops the blanks at the front. -/
def trimStart (cs : List Char) : List Char := cs.dropWhile isBlank

/-- Drops the blanks at the back. -/
def trimEnd (cs : List Char) : List Char := (trimStart cs.reverse).reverse

/-- Drops the blanks at both ends. -/
def trim (cs : List Char) : List Char := trimEnd (trimStart cs)

theorem trimStart_cons_of_not_isBlank {c : Char} {cs : List Char} (h : isBlank c = false) :
    trimStart (c :: cs) = c :: cs := by
  simp [trimStart, h]

theorem trimStart_append_of_all_isBlank {pre : List Char} (cs : List Char)
    (h : ∀ c ∈ pre, isBlank c = true) : trimStart (pre ++ cs) = trimStart cs := by
  induction pre with
  | nil => rfl
  | cons c rest ih =>
    have hc : isBlank c = true := h c List.mem_cons_self
    show trimStart (c :: (rest ++ cs)) = trimStart cs
    rw [← ih fun d hd => h d (List.mem_cons_of_mem _ hd)]
    simp [trimStart, hc]

/-- Text without blanks is its own trimmed form. -/
theorem trim_eq_self {cs : List Char} (h : ∀ c ∈ cs, isBlank c = false) : trim cs = cs := by
  have start : ∀ ds : List Char, (∀ c ∈ ds, isBlank c = false) → trimStart ds = ds := by
    intro ds hds
    cases ds with
    | nil => rfl
    | cons d rest => exact trimStart_cons_of_not_isBlank (hds d List.mem_cons_self)
  have hrev : trimStart cs.reverse = cs.reverse :=
    start _ fun c hc => h c (List.mem_reverse.1 hc)
  rw [trim, start cs h, trimEnd, hrev, List.reverse_reverse]

end Keyset.Text
