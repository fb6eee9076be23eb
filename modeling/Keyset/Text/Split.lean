/-! # Splitting

A text is split at the first place where a mark stands; the mark belongs to neither part. -/

namespace Keyset.Text

/-- Splits at the first place where a character stands; the character is dropped. -/
def splitAt? (mark : Char) : List Char → Option (List Char × List Char)
  | [] => none
  | c :: rest =>
      if c = mark then some ([], rest)
      else (splitAt? mark rest).map fun (before, after) => (c :: before, after)

theorem length_of_splitAt? {mark : Char} {cs before after : List Char}
    (h : splitAt? mark cs = some (before, after)) : after.length < cs.length := by
  induction cs generalizing before with
  | nil => exact nomatch h
  | cons c rest ih =>
    rw [splitAt?] at h
    by_cases hc : c = mark
    · rw [if_pos hc] at h
      obtain ⟨_, rfl⟩ := Prod.mk.inj (Option.some.inj h)
      simp
    · rw [if_neg hc] at h
      obtain ⟨⟨b, a⟩, hr, he⟩ := Option.map_eq_some_iff.1 h
      obtain ⟨_, rfl⟩ := Prod.mk.inj he
      have := ih hr
      simp only [List.length_cons]
      omega

/-- A text before the mark and the text after it are what they were joined from. -/
theorem splitAt?_append {mark : Char} {before : List Char} (h : mark ∉ before)
    (after : List Char) : splitAt? mark (before ++ mark :: after) = some (before, after) := by
  induction before with
  | nil => exact if_pos rfl
  | cons c before ih =>
    have hc : c ≠ mark := fun heq => h (heq ▸ List.mem_cons_self)
    have hrest : mark ∉ before := fun hmem => h (List.mem_cons_of_mem _ hmem)
    rw [List.cons_append, splitAt?, if_neg hc, ih hrest]
    rfl

/-- A text is split where it has the mark for the first time. -/
theorem splitAt?_eq_some_iff {mark : Char} {cs before after : List Char} :
    splitAt? mark cs = some (before, after) ↔ cs = before ++ mark :: after ∧ mark ∉ before := by
  constructor
  · intro h
    induction cs generalizing before with
    | nil => exact nomatch h
    | cons c rest ih =>
      rw [splitAt?] at h
      by_cases hc : c = mark
      · rw [if_pos hc] at h
        obtain ⟨rfl, rfl⟩ := Prod.mk.inj (Option.some.inj h)
        exact ⟨by rw [hc]; rfl, List.not_mem_nil⟩
      · rw [if_neg hc] at h
        obtain ⟨⟨b, a⟩, hr, he⟩ := Option.map_eq_some_iff.1 h
        obtain ⟨rfl, rfl⟩ := Prod.mk.inj he
        obtain ⟨rfl, hb⟩ := ih hr
        refine ⟨rfl, ?_⟩
        intro hmem
        rcases List.mem_cons.1 hmem with heq | hmem
        · exact hc heq.symm
        · exact hb hmem
  · rintro ⟨rfl, h⟩
    exact splitAt?_append h after

end Keyset.Text
