import Keyset.JsonLines
import Keyset.Proofs.Text.Lines

/-! # Rows of joined texts

    A blank line gives nothing, and any other line a row or a fault.  Lines can
    be loaded in parts: the rows of the first part come before those of the
    second, whose lines are numbered on from the first (`loadFrom_append`,
    `loadFrom_add`).  Two texts with a newline between them are such parts, and
    the first has one line more than it has newlines (`load_append_newline`).

    The rows of lines are those of the lines that are not blank, in their order
    (`loadFrom_eq_ok_iff`), and a fault is that of the first line that cannot be
    read, under the number of that line (`loadFrom_eq_error_iff`).  A text has
    the rows and the fault of its lines, however these end
    (`load_eq_loadFrom_lines`). -/

namespace Keyset.JsonLines

open Text

variable {ε α : Type} {read : List Char → Except ε α}

/-! ## Outcomes -/

theorem map_eq_ok_iff {β : Type} {x : Except ε α} {f : α → β} {b : β} :
    x.map f = .ok b ↔ ∃ a, x = .ok a ∧ f a = b := by
  cases x <;> simp [Except.map]

theorem map_eq_error_iff {β : Type} {x : Except ε α} {f : α → β} {e : ε} :
    x.map f = .error e ↔ x = .error e := by
  cases x <;> simp [Except.map]

theorem mapError_eq_ok_iff {δ : Type} {x : Except ε α} {f : ε → δ} {a : α} :
    x.mapError f = .ok a ↔ x = .ok a := by
  cases x <;> simp [Except.mapError]

/-! ## One line -/

theorem loadFrom_cons_blank {line : List Char} (h : ¬ Filled line) (number : Nat)
    (later : List (List Char)) :
    loadFrom read number (line :: later) = loadFrom read (number + 1) later := by
  have hline : trim line = [] := not_not.mp (mt filled_iff.mpr h)
  rw [loadFrom, hline]

theorem loadFrom_cons_row {line : List Char} {row : α} (h : Filled line)
    (hrow : read (trim line) = .ok row) (number : Nat) (later : List (List Char)) :
    loadFrom read number (line :: later) =
      (loadFrom read (number + 1) later).map (row :: ·) := by
  obtain ⟨c, cs, hline⟩ := List.exists_cons_of_ne_nil (filled_iff.mp h)
  rw [hline] at hrow
  simp only [loadFrom, hline, hrow]

theorem loadFrom_cons_fault {line : List Char} {fault : ε} (h : Filled line)
    (hfault : read (trim line) = .error fault) (number : Nat) (later : List (List Char)) :
    loadFrom read number (line :: later) = .error (number, fault) := by
  obtain ⟨c, cs, hline⟩ := List.exists_cons_of_ne_nil (filled_iff.mp h)
  rw [hline] at hfault
  simp only [loadFrom, hline, hfault]

/-- A line is blank, has a row or cannot be read. -/
theorem line_cases (read : List Char → Except ε α) (line : List Char) :
    ¬ Filled line ∨ (Filled line ∧ ∃ row, read (trim line) = .ok row) ∨
      (Filled line ∧ ∃ fault, read (trim line) = .error fault) := by
  by_cases hfilled : Filled line
  · cases hread : read (trim line) with
    | ok row => exact .inr (.inl ⟨hfilled, row, rfl⟩)
    | error fault => exact .inr (.inr ⟨hfilled, fault, rfl⟩)
  · exact .inl hfilled

/-! ## Parts -/

/-- The rows of the first lines come before those of the others, and so does their fault. -/
theorem loadFrom_append (number : Nat) (ls ls' : List (List Char)) :
    loadFrom read number (ls ++ ls') =
      (loadFrom read number ls).bind fun rows =>
        (loadFrom read (number + ls.length) ls').map (rows ++ ·) := by
  induction ls generalizing number with
  | nil =>
    show loadFrom read number ls' = (loadFrom read number ls').map ([] ++ ·)
    cases loadFrom read number ls' <;> rfl
  | cons line ls ih =>
    have hnumber : number + (line :: ls).length = number + 1 + ls.length := by
      rw [List.length_cons]
      omega
    rw [List.cons_append, hnumber]
    rcases line_cases read line with hblank | ⟨hfilled, row, hrow⟩ | ⟨hfilled, fault, hfault⟩
    · rw [loadFrom_cons_blank hblank, loadFrom_cons_blank hblank, ih]
    · rw [loadFrom_cons_row hfilled hrow, loadFrom_cons_row hfilled hrow, ih]
      cases loadFrom read (number + 1) ls with
      | error _ => rfl
      | ok rows => cases loadFrom read (number + 1 + ls.length) ls' <;> rfl
    · -- what comes after a fault is not read, in the first part as in all lines
      rw [loadFrom_cons_fault hfilled hfault, loadFrom_cons_fault hfilled hfault]
      rfl

/-- Only the number of a fault depends on the number of the first line. -/
theorem loadFrom_add (number moved : Nat) (ls : List (List Char)) :
    loadFrom read (number + moved) ls =
      (loadFrom read number ls).mapError fun (n, fault) => (n + moved, fault) := by
  induction ls generalizing number with
  | nil => rfl
  | cons line ls ih =>
    rcases line_cases read line with hblank | ⟨hfilled, row, hrow⟩ | ⟨hfilled, fault, hfault⟩
    · rw [loadFrom_cons_blank hblank, loadFrom_cons_blank hblank, Nat.add_right_comm, ih]
    · rw [loadFrom_cons_row hfilled hrow, loadFrom_cons_row hfilled hrow, Nat.add_right_comm, ih]
      cases loadFrom read (number + 1) ls <;> rfl
    · rw [loadFrom_cons_fault hfilled hfault, loadFrom_cons_fault hfilled hfault]
      rfl

/-- A text after a newline is loaded as it is alone, with its lines numbered on. -/
theorem load_append_newline (t₁ t₂ : List Char) :
    load read (t₁ ++ '\n' :: t₂) =
      (load read t₁).bind fun rows =>
        ((load read t₂).mapError fun (n, fault) => (n + (t₁.count '\n' + 1), fault)).map
          (rows ++ ·) := by
  rw [load, load, load, List.splitOn_append_cons_self, loadFrom_append, length_splitOn,
    loadFrom_add]

/-! ## Rows and faults -/

theorem loadFrom_eq_ok_iff {number : Nat} {ls : List (List Char)} {rows : List α} :
    loadFrom read number ls = .ok rows ↔
      List.Forall₂ (fun line row => read (trim line) = .ok row) (ls.filter (Filled ·)) rows := by
  induction ls generalizing number rows with
  | nil => rw [List.filter_nil, List.forall₂_nil_left_iff, loadFrom, Except.ok.injEq, eq_comm]
  | cons line ls ih =>
    rcases line_cases read line with hblank | ⟨hfilled, row, hrow⟩ | ⟨hfilled, fault, hfault⟩
    · rw [loadFrom_cons_blank hblank, ih, List.filter_cons_of_neg (by simpa using hblank)]
    · rw [loadFrom_cons_row hfilled hrow, List.filter_cons_of_pos (by simpa using hfilled),
        List.forall₂_cons_left_iff, map_eq_ok_iff]
      constructor
      · rintro ⟨later, hlater, rfl⟩
        exact ⟨row, later, hrow, ih.mp hlater, rfl⟩
      · rintro ⟨row', later, hrow', hlater, rfl⟩
        obtain rfl : row = row' := Except.ok.inj (hrow.symm.trans hrow')
        exact ⟨later, ih.mpr hlater, rfl⟩
    · rw [loadFrom_cons_fault hfilled hfault, List.filter_cons_of_pos (by simpa using hfilled),
        List.forall₂_cons_left_iff]
      simp [hfault]

/-- A line cannot be read, and each line before it is blank or has a row. -/
structure Stops (read : List Char → Except ε α) (before : List (List Char)) (line : List Char)
    (fault : ε) : Prop where
  readable : ∀ earlier ∈ before, Filled earlier → ∃ row, read (trim earlier) = .ok row
  filled : Filled line
  unreadable : read (trim line) = .error fault

theorem Stops.cons {before : List (List Char)} {line first : List Char} {fault : ε}
    (h : Stops read before line fault)
    (hfirst : Filled first → ∃ row, read (trim first) = .ok row) :
    Stops read (first :: before) line fault :=
  ⟨List.forall_mem_cons.mpr ⟨hfirst, h.readable⟩, h.filled, h.unreadable⟩

/-- Lines that are blank or have rows are loaded. -/
theorem exists_loadFrom {ls : List (List Char)}
    (h : ∀ line ∈ ls, Filled line → ∃ row, read (trim line) = .ok row) (number : Nat) :
    ∃ rows, loadFrom read number ls = .ok rows := by
  induction ls generalizing number with
  | nil => exact ⟨[], rfl⟩
  | cons line ls ih =>
    obtain ⟨hline, hls⟩ := List.forall_mem_cons.mp h
    obtain ⟨rows, hrows⟩ := ih hls (number + 1)
    by_cases hfilled : Filled line
    · obtain ⟨row, hrow⟩ := hline hfilled
      refine ⟨row :: rows, ?_⟩
      rw [loadFrom_cons_row hfilled hrow, hrows]
      rfl
    · refine ⟨rows, ?_⟩
      rw [loadFrom_cons_blank hfilled, hrows]

theorem exists_stops {number n : Nat} {fault : ε} {ls : List (List Char)}
    (h : loadFrom read number ls = .error (n, fault)) :
    ∃ before line after, ls = before ++ line :: after ∧ n = number + before.length ∧
      Stops read before line fault := by
  induction ls generalizing number with
  | nil => cases h
  | cons first ls ih =>
    rcases line_cases read first with hblank | ⟨hfilled, row, hrow⟩ | ⟨hfilled, other, hother⟩
    · rw [loadFrom_cons_blank hblank] at h
      obtain ⟨before, line, after, rfl, rfl, hstops⟩ := ih h
      refine ⟨first :: before, line, after, rfl, Nat.add_right_comm _ _ _, hstops.cons ?_⟩
      exact fun hfilled => absurd hfilled hblank
    · rw [loadFrom_cons_row hfilled hrow, map_eq_error_iff] at h
      obtain ⟨before, line, after, rfl, rfl, hstops⟩ := ih h
      refine ⟨first :: before, line, after, rfl, Nat.add_right_comm _ _ _, hstops.cons ?_⟩
      exact fun _ => ⟨row, hrow⟩
    · rw [loadFrom_cons_fault hfilled hother] at h
      obtain ⟨rfl, rfl⟩ := Prod.mk.inj (Except.error.inj h)
      exact ⟨[], first, ls, rfl, rfl, List.forall_mem_nil _, hfilled, hother⟩

theorem loadFrom_eq_error_iff {number n : Nat} {fault : ε} {ls : List (List Char)} :
    loadFrom read number ls = .error (n, fault) ↔
      ∃ before line after, ls = before ++ line :: after ∧ n = number + before.length ∧
        Stops read before line fault := by
  constructor
  · exact exists_stops
  · rintro ⟨before, line, after, rfl, rfl, hstops⟩
    obtain ⟨rows, hrows⟩ := exists_loadFrom hstops.readable number
    rw [loadFrom_append, hrows]
    show (loadFrom read _ (line :: after)).map _ = _
    rw [loadFrom_cons_fault hstops.filled hstops.unreadable]
    rfl

/-! ## Line ends -/

/-- Carriage returns at the ends of lines change nothing. -/
theorem loadFrom_congr {segments ls : List (List Char)}
    (h : List.Forall₂ UpToReturn segments ls) (number : Nat) :
    loadFrom read number segments = loadFrom read number ls := by
  induction h generalizing number with
  | nil => rfl
  | cons hfirst _ ih => rw [loadFrom, loadFrom, hfirst.trim_eq, ih]

/-- A text is loaded as its lines are. -/
theorem load_eq_loadFrom_lines (t : List Char) : load read t = loadFrom read 1 (lines t) := by
  obtain ⟨rest, hrest, hlines⟩ := forall₂_splitOn_lines t
  have hnone : loadFrom read (1 + (lines t).length) rest = .ok [] := by
    rw [loadFrom_eq_ok_iff, List.filter_eq_nil_iff.mpr]
    · exact .nil
    · intro line hline
      rw [hrest line hline]
      simp [Filled]
  rw [load, loadFrom_congr hlines, loadFrom_append, hnone]
  cases loadFrom read 1 (lines t) with
  | error _ => rfl
  | ok rows => exact congrArg Except.ok (List.append_nil rows)

theorem load_crlf (before after : List Char) :
    load read (before ++ '\r' :: '\n' :: after) = load read (before ++ '\n' :: after) :=
  loadFrom_congr (forall₂_splitOn_crlf before after) 1

/-! ## Joined texts -/

theorem loadDocuments_join (s₁ s₂ : String) :
    loadDocuments (s₁ ++ "\n" ++ s₂) = load readDocument (s₁.toList ++ '\n' :: s₂.toList) := by
  rw [loadDocuments, String.toList_append, String.toList_append, List.append_assoc]
  rfl

/-- The rows of a text are those of its lines that are not blank, in their order; or a line cannot
    be read, and the fault is that of the first such line, under the number that it has among all
    lines.  A text joined to another by a newline has its rows after those of the other, or its
    fault after the other's lines; the fault of the other comes first.  A carriage return before the
    newline changes nothing. -/
theorem load_joins (read : List Char → Except ε α) (t₁ t₂ : List Char) :
    (∀ rows₁, load read t₁ = .ok rows₁ →
      (∀ rows, load read (t₁ ++ '\n' :: t₂) = .ok rows ↔
        ∃ rows₂, load read t₂ = .ok rows₂ ∧ rows₁ ++ rows₂ = rows) ∧
      ∀ n fault, load read t₂ = .error (n, fault) →
        load read (t₁ ++ '\n' :: t₂) = .error (n + t₁.count '\n' + 1, fault)) ∧
    (∀ n fault, load read t₁ = .error (n, fault) →
      load read (t₁ ++ '\n' :: t₂) = .error (n, fault)) ∧
    load read (t₁ ++ '\r' :: '\n' :: t₂) = load read (t₁ ++ '\n' :: t₂) ∧
    ∀ t,
      (∀ rows, load read t = .ok rows ↔
        List.Forall₂ (fun line row => read (trim line) = .ok row) ((lines t).filter (Filled ·))
          rows) ∧
      ∀ n fault, load read t = .error (n, fault) ↔
        ∃ before line after, lines t = before ++ line :: after ∧ n = before.length + 1 ∧
          Stops read before line fault := by
  refine ⟨?_, ?_, load_crlf t₁ t₂, ?_⟩
  · intro rows₁ hrows₁
    have hjoin : load read (t₁ ++ '\n' :: t₂) =
        ((load read t₂).mapError fun (n, fault) => (n + (t₁.count '\n' + 1), fault)).map
          (rows₁ ++ ·) := by
      rw [load_append_newline, hrows₁]
      rfl
    constructor
    · intro rows
      rw [hjoin, map_eq_ok_iff]
      simp only [mapError_eq_ok_iff]
    · intro n fault hfault
      rw [hjoin, hfault]
      rfl
  · intro n fault hfault
    rw [load_append_newline, hfault]
    rfl
  · intro t
    rw [load_eq_loadFrom_lines]
    refine ⟨fun rows => loadFrom_eq_ok_iff, fun n fault => ?_⟩
    rw [loadFrom_eq_error_iff]
    simp only [Nat.add_comm 1]

/-- A line with a document. -/
def documentLine : List Char := ['\x7b', '"', 'a', '"', ':', '1', '\x7d']

/-- The document, and a blank line after it; both lines end with a carriage return and a newline. -/
def shelf : String := String.ofList documentLine ++ "\r\n\r\n"

/-- A blank line, and an array on the line after it. -/
def brokenShelf : String := " \n[]"

/-- Joined to itself the first text has its document twice.  The array is named by its line, which
    is the fifth after the first text and the second before it. -/
theorem load_joins_numbered :
    loadDocuments (shelf ++ "\n" ++ shelf) = .ok [[("a", .int32 1)], [("a", .int32 1)]] ∧
    loadDocuments (shelf ++ "\n" ++ brokenShelf) = .error (5, .notObject) ∧
    loadDocuments (brokenShelf ++ "\n" ++ shelf) = .error (2, .notObject) := by
  have hlines : (lines shelf.toList).filter (Filled ·) = [documentLine] := by decide
  have hcount : shelf.toList.count '\n' = 2 := by decide
  -- the reader of lexemes recurses on the length of the text, which has to be unfolded
  have hdocument : readDocument (trim documentLine) = .ok [("a", .int32 1)] := by
    with_unfolding_all rfl
  have hbroken : load readDocument brokenShelf.toList = .error (2, .notObject) := by
    with_unfolding_all rfl
  have hshelf : load readDocument shelf.toList = .ok [[("a", .int32 1)]] := by
    rw [((load_joins readDocument [] []).2.2.2 _).1, hlines]
    exact .cons hdocument .nil
  refine ⟨?_, ?_, ?_⟩
  · rw [loadDocuments_join, ((load_joins readDocument _ _).1 _ hshelf).1]
    exact ⟨_, hshelf, rfl⟩
  · rw [loadDocuments_join, ((load_joins readDocument _ _).1 _ hshelf).2 _ _ hbroken, hcount]
  · rw [loadDocuments_join]
    exact (load_joins readDocument _ _).2.1 _ _ hbroken

end Keyset.JsonLines
