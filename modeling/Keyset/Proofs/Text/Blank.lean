import Keyset.Text.Blank
import Mathlib.Data.List.TakeWhile

/-! # What trimming leaves

    Trimming leaves the part of a text that has only blanks around it and none at
    its own ends (`trim_eq_iff`).  There is one such part in every text, the empty
    one if the text is blank throughout (`trim_eq_nil_iff`). -/

namespace Keyset.Text

/-- No blank is the first or the last character. -/
structure Bare (cs : List Char) : Prop where
  first : ∀ c ∈ cs.head?, isBlank c = false
  last : ∀ c ∈ cs.getLast?, isBlank c = false

/-- A bare text with nothing but blanks around it. -/
def Trims (cs bare : List Char) : Prop :=
  ∃ before after, cs = before ++ bare ++ after ∧ (∀ c ∈ before, isBlank c = true) ∧
    (∀ c ∈ after, isBlank c = true) ∧ Bare bare

theorem Bare.nil : Bare [] := ⟨fun _ h => (nomatch h), fun _ h => (nomatch h)⟩

/-! ## One end -/

/-- What stands in front of a text trimmed at its start is blank, and what is left begins with no
    blank. -/
theorem exists_trimStart (cs : List Char) :
    ∃ before, cs = before ++ trimStart cs ∧ (∀ c ∈ before, isBlank c = true) ∧
      ∀ c ∈ (trimStart cs).head?, isBlank c = false := by
  refine ⟨cs.takeWhile isBlank, List.takeWhile_append_dropWhile.symm,
    fun c hc => List.mem_takeWhile_imp hc, ?_⟩
  intro c hc
  have hnot := List.head?_dropWhile_not isBlank cs
  rw [show (cs.dropWhile isBlank).head? = some c from hc] at hnot
  exact hnot

theorem exists_trimEnd (cs : List Char) :
    ∃ after, cs = trimEnd cs ++ after ∧ (∀ c ∈ after, isBlank c = true) ∧
      ∀ c ∈ (trimEnd cs).getLast?, isBlank c = false := by
  obtain ⟨before, hcs, hbefore, hhead⟩ := exists_trimStart cs.reverse
  refine ⟨before.reverse, ?_, fun c hc => hbefore c (List.mem_reverse.mp hc), ?_⟩
  · rw [trimEnd, ← List.reverse_append, ← hcs, List.reverse_reverse]
  · rwa [trimEnd, List.getLast?_reverse]

theorem trimStart_eq_self {cs : List Char} (h : ∀ c ∈ cs.head?, isBlank c = false) :
    trimStart cs = cs := by
  cases cs with
  | nil => rfl
  | cons c cs => exact trimStart_cons_of_not_isBlank (h c rfl)

theorem trimEnd_append {bare after : List Char} (hafter : ∀ c ∈ after, isBlank c = true)
    (hlast : ∀ c ∈ bare.getLast?, isBlank c = false) : trimEnd (bare ++ after) = bare := by
  have hreverse : ∀ c ∈ after.reverse, isBlank c = true :=
    fun c hc => hafter c (List.mem_reverse.mp hc)
  rw [trimEnd, List.reverse_append, trimStart_append_of_all_isBlank _ hreverse, trimStart_eq_self,
    List.reverse_reverse]
  rwa [List.head?_reverse]

/-! ## Both ends -/

theorem trims_trim (cs : List Char) : Trims cs (trim cs) := by
  obtain ⟨before, hcs, hbefore, hfirst⟩ := exists_trimStart cs
  obtain ⟨after, hstart, hafter, hlast⟩ := exists_trimEnd (trimStart cs)
  refine ⟨before, after, ?_, hbefore, hafter, ?_, hlast⟩
  · rw [trim, List.append_assoc, ← hstart, ← hcs]
  · intro c hc
    apply hfirst c
    -- what is cut off at the end takes nothing from the front
    obtain ⟨rest, hrest⟩ := List.head?_eq_some_iff.mp hc
    rw [hstart, show trimEnd (trimStart cs) = c :: rest from hrest]
    rfl

/-- Trimming leaves the bare text that has only blanks around it. -/
theorem trim_eq_iff {cs bare : List Char} : trim cs = bare ↔ Trims cs bare := by
  constructor
  · rintro rfl
    exact trims_trim cs
  · rintro ⟨before, after, rfl, hbefore, hafter, hfirst, hlast⟩
    rw [trim, List.append_assoc, trimStart_append_of_all_isBlank _ hbefore]
    cases bare with
    | nil =>
      have hnil : trimStart after = [] := by
        have h := trimStart_append_of_all_isBlank [] hafter
        rwa [List.append_nil] at h
      rw [List.nil_append, hnil]
      rfl
    | cons c bare =>
      rw [List.cons_append, trimStart_cons_of_not_isBlank (hfirst c rfl), ← List.cons_append]
      exact trimEnd_append hafter hlast

/-- Only of text that is blank throughout nothing is left. -/
theorem trim_eq_nil_iff {cs : List Char} : trim cs = [] ↔ ∀ c ∈ cs, isBlank c = true := by
  rw [trim_eq_iff]
  constructor
  · rintro ⟨before, after, rfl, hbefore, hafter, -⟩ c hc
    rw [List.append_nil] at hc
    rcases List.mem_append.mp hc with hc | hc
    · exact hbefore c hc
    · exact hafter c hc
  · intro h
    exact ⟨cs, [], by simp, h, List.forall_mem_nil _, Bare.nil⟩

/-- Some character of the text is not blank. -/
def Filled (cs : List Char) : Prop := ∃ c ∈ cs, isBlank c = false

instance (cs : List Char) : Decidable (Filled cs) :=
  decidable_of_iff (cs.any (!isBlank ·) = true) (by simp [Filled])

theorem filled_iff {cs : List Char} : Filled cs ↔ trim cs ≠ [] := by
  rw [ne_eq, trim_eq_nil_iff]
  simp [Filled]

/-- Trimming takes its characters from the text. -/
theorem mem_of_mem_trim {cs : List Char} {c : Char} (h : c ∈ trim cs) : c ∈ cs := by
  obtain ⟨before, after, hcs, -⟩ := trims_trim cs
  rw [hcs]
  exact List.mem_append_left _ (List.mem_append_right _ h)

/-- Blanks after a text change nothing in what trimming leaves. -/
theorem trim_append_of_all_isBlank (cs : List Char) {after : List Char}
    (h : ∀ c ∈ after, isBlank c = true) : trim (cs ++ after) = trim cs := by
  obtain ⟨before, behind, hcs, hbefore, hbehind, hbare⟩ := trims_trim cs
  refine trim_eq_iff.mpr ⟨before, behind ++ after, ?_, hbefore, ?_, hbare⟩
  · rw [← List.append_assoc, ← hcs]
  · exact fun c hc => (List.mem_append.mp hc).elim (hbehind c) (h c)

end Keyset.Text
