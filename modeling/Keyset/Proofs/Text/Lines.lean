import Keyset.Proofs.Text.Blank
import Mathlib.Data.List.Forall2

/-! # The lines of a text

    A newline ends a line, and a carriage return right before it belongs to the
    end of the line.  What stands after the last newline is a line too, if
    anything stands there (`lines`).

    What stands between newlines is a line up to such a carriage return
    (`UpToReturn`), but for an empty rest after the last newline
    (`forall₂_splitOn_lines`).  Trimming takes the carriage return away
    (`UpToReturn.trim_eq`), so for trimmed lines it is enough to split a text at
    its newlines. -/

namespace Keyset.Text

/-- The lines of a text, without their ends. -/
def lines : List Char → List (List Char)
  | [] => []
  | '\n' :: rest => [] :: lines rest
  | '\r' :: '\n' :: rest => [] :: lines rest
  | c :: rest =>
      match lines rest with
      | [] => [[c]]
      | line :: later => (c :: line) :: later

/-! ## Segments -/

theorem splitOn_cons_of_ne {mark c : Char} (h : c ≠ mark) (cs : List Char) :
    (c :: cs).splitOn mark = (cs.splitOn mark).modifyHead (c :: ·) := by
  rw [List.splitOn_cons_eq_if_modifyHead, if_neg]
  rwa [beq_iff_eq]

/-- There is one segment more than there are marks. -/
theorem length_splitOn (mark : Char) (cs : List Char) :
    (cs.splitOn mark).length = cs.count mark + 1 := by
  induction cs with
  | nil => rfl
  | cons c cs ih =>
    by_cases hc : c = mark
    · rw [hc, List.splitOn_cons_eq_if_modifyHead, if_pos (beq_self_eq_true mark),
        List.length_cons, ih, List.count_cons_self]
    · rw [splitOn_cons_of_ne hc, List.length_modifyHead, ih, List.count_cons_of_ne hc]

/-- A segment is a line, or a line and a carriage return. -/
def UpToReturn (segment line : List Char) : Prop := segment = line ∨ segment = line ++ ['\r']

theorem UpToReturn.refl (line : List Char) : UpToReturn line line := .inl rfl

theorem UpToReturn.cons {segment line : List Char} (h : UpToReturn segment line) (c : Char) :
    UpToReturn (c :: segment) (c :: line) := by
  rcases h with rfl | rfl
  · exact .inl rfl
  · exact .inr rfl

theorem UpToReturn.trim_eq {segment line : List Char} (h : UpToReturn segment line) :
    trim segment = trim line := by
  rcases h with rfl | rfl
  · rfl
  · exact trim_append_of_all_isBlank line (List.forall_mem_singleton.mpr rfl)

/-- A character in front of a text lengthens its first segment and its first line. -/
theorem forall₂_modifyHead_cons {segments ls : List (List Char)} (c : Char)
    (h : List.Forall₂ UpToReturn segments ls) :
    List.Forall₂ UpToReturn (segments.modifyHead (c :: ·)) (ls.modifyHead (c :: ·)) := by
  cases h with
  | nil => exact .nil
  | cons hfirst hlater => exact .cons (hfirst.cons c) hlater

/-- The segments between newlines are the lines of a text, up to carriage returns at their ends and
    to what is empty at the end of the text. -/
theorem forall₂_splitOn_lines (cs : List Char) :
    ∃ rest, (∀ line ∈ rest, line = []) ∧
      List.Forall₂ UpToReturn (cs.splitOn '\n') (lines cs ++ rest) := by
  fun_induction lines cs with
  | case1 => exact ⟨[[]], by simp, .cons (.refl []) .nil⟩
  | case2 cs ih =>
    obtain ⟨rest, hrest, hlines⟩ := ih
    exact ⟨rest, hrest, .cons (.refl []) hlines⟩
  | case3 cs ih =>
    obtain ⟨rest, hrest, hlines⟩ := ih
    exact ⟨rest, hrest, .cons (.inr rfl) hlines⟩
  | case4 c cs hnewline _ hnone ih =>
    obtain ⟨rest, hrest, hlines⟩ := ih
    rw [hnone, List.nil_append] at hlines
    -- there is always a segment, so the rest begins with one, which the character turns into a line
    cases rest with
    | nil => exact absurd (List.forall₂_nil_right_iff.mp hlines) (List.splitOn_ne_nil _ _)
    | cons first rest =>
      obtain rfl : first = [] := hrest first List.mem_cons_self
      refine ⟨rest, fun line hline => hrest line (List.mem_cons_of_mem _ hline), ?_⟩
      rw [splitOn_cons_of_ne hnewline]
      exact forall₂_modifyHead_cons c hlines
  | case5 c cs hnewline _ line later hsome ih =>
    obtain ⟨rest, hrest, hlines⟩ := ih
    rw [hsome] at hlines
    refine ⟨rest, hrest, ?_⟩
    rw [splitOn_cons_of_ne hnewline]
    exact forall₂_modifyHead_cons c hlines

example : lines ['a', '\r', '\n', '\n', 'b', '\r'] = [['a'], [], ['b', '\r']] := by decide

/-- A carriage return before a newline adds no segment. -/
theorem forall₂_splitOn_crlf (before after : List Char) :
    List.Forall₂ UpToReturn ((before ++ '\r' :: '\n' :: after).splitOn '\n')
      ((before ++ '\n' :: after).splitOn '\n') := by
  have hafter : List.Forall₂ UpToReturn (after.splitOn '\n') (after.splitOn '\n') :=
    List.forall₂_same.mpr fun line _ => .refl line
  induction before with
  | nil => exact .cons (.inr rfl) hafter
  | cons c before ih =>
    by_cases hc : c = '\n'
    · subst hc
      exact .cons (.refl []) ih
    · rw [List.cons_append, List.cons_append, splitOn_cons_of_ne hc, splitOn_cons_of_ne hc]
      exact forall₂_modifyHead_cons c ih

end Keyset.Text
