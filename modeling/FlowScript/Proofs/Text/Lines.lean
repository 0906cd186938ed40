import FlowScript.Script.Writer

/-!
# Lines in a text

Splitting at line feeds undoes joining with them as long as no line holds one, and a writer whose
unit holds none never writes one into a line.
-/
namespace FlowScript

/-- What is true of the separator and of every part is true of all of them together, if appending
keeps it. -/
theorem intercalate_of_append {α : Type} {P : List α → Prop} (hnil : P [])
    (happend : ∀ {s t : List α}, P s → P t → P (s ++ t)) {separator : List α} (hsep : P separator)
    {parts : List (List α)} (h : ∀ part ∈ parts, P part) : P (separator.intercalate parts) := by
  induction parts with
  | nil => exact hnil
  | cons part parts ih =>
    rw [List.forall_mem_cons] at h
    by_cases hparts : parts = []
    · simpa [hparts] using h.1
    · rw [List.intercalate_cons_of_ne_nil hparts]
      exact happend (happend h.1 hsep) (ih h.2)

namespace Text

/-- A text that fits on one line. -/
def IsLine (t : Text) : Prop := CodePoint.lineFeed ∉ t

theorem isLine_of_mem_lines {t l : Text} (h : l ∈ t.lines) : l.IsLine := by
  induction t generalizing l with
  | nil =>
    simp only [lines, List.splitOn_nil, List.mem_singleton] at h
    subst h
    exact List.not_mem_nil
  | cons c t ih =>
    rw [lines, List.splitOn_cons_eq_if_modifyHead] at h
    obtain ⟨first, rest, hsplit⟩ := List.exists_cons_of_ne_nil
      (List.splitOn_ne_nil CodePoint.lineFeed t)
    have hmem (k : Text) (hk : k ∈ first :: rest) : k.IsLine := ih (by rw [lines, hsplit]; exact hk)
    rw [hsplit, List.modifyHead_cons] at h
    by_cases hc : c = CodePoint.lineFeed
    · rw [if_pos (by simpa using hc)] at h
      rcases List.mem_cons.mp h with rfl | h
      · exact List.not_mem_nil
      · exact hmem l h
    · rw [if_neg (by simpa using hc)] at h
      rcases List.mem_cons.mp h with rfl | h
      · intro hin
        rcases List.mem_cons.mp hin with h | h
        · exact hc h.symm
        · exact hmem first List.mem_cons_self h
      · exact hmem l (List.mem_cons_of_mem first h)

theorem lines_of_isLine {t : Text} (h : t.IsLine) : t.lines = [t] := List.splitOn_eq_singleton h

/-- Lines that are joined and ended by a line feed are read back, with an empty one after them. -/
theorem lines_join {ls : List Text} (h : ∀ l ∈ ls, l.IsLine) (hne : ls ≠ []) :
    (join [CodePoint.lineFeed] ls ++ [CodePoint.lineFeed]).lines = ls ++ [[]] := by
  rw [lines, List.splitOn_append_cons_self, join, List.splitOn_intercalate _ h hne,
    List.splitOn_nil]

theorem lines_append_lineFeed (s t : Text) :
    (s ++ CodePoint.lineFeed :: t).lines = s.lines ++ t.lines := by
  rw [lines, List.splitOn_append_cons_self, lines, lines]

/-- A last line that holds no line feed is read back, whatever stands in front of it. -/
theorem exists_lines_join_concat (ls : List Text) {l : Text} (h : l.IsLine) :
    ∃ before, (join [CodePoint.lineFeed] (ls ++ [l]) ++ [CodePoint.lineFeed]).lines =
      before ++ [l, []] := by
  have hend : (l ++ [CodePoint.lineFeed]).lines = [l, []] := by
    rw [lines_append_lineFeed, lines_of_isLine h]
    rfl
  induction ls with
  | nil => exact ⟨[], by simpa [join] using hend⟩
  | cons first ls ih =>
    obtain ⟨before, hrest⟩ := ih
    refine ⟨first.lines ++ before, ?_⟩
    rw [join, List.cons_append, List.intercalate_cons_of_ne_nil (by simp), ← join, List.append_assoc,
      List.append_assoc, List.singleton_append, lines_append_lineFeed, hrest, List.append_assoc]

/-- Behind the text a line starts. -/
def StartsLine (s : Text) : Prop := s = [] ∨ s.getLast? = some CodePoint.lineFeed

/-- In front of the text a line ends, and these are the lines that follow. -/
def EndsLine (rest : Text) (after : List Text) : Prop :=
  rest = [] ∧ after = [] ∨ ∃ t : Text, rest = CodePoint.lineFeed :: t ∧ t.lines = after

theorem exists_lines_eq {s l rest : Text} {after : List Text} (hs : s.StartsLine) (hl : l.IsLine)
    (hrest : rest.EndsLine after) : ∃ before, (s ++ l ++ rest).lines = before ++ l :: after := by
  have hline : (l ++ rest).lines = l :: after := by
    rcases hrest with ⟨rfl, rfl⟩ | ⟨t, rfl, rfl⟩
    · rw [List.append_nil, lines_of_isLine hl]
    · rw [lines_append_lineFeed, lines_of_isLine hl, List.singleton_append]
  rw [List.append_assoc]
  rcases hs with rfl | hs
  · exact ⟨[], hline⟩
  · obtain ⟨s', rfl⟩ := List.getLast?_eq_some_iff.mp hs
    refine ⟨lines s', ?_⟩
    rw [List.append_assoc, List.singleton_append, lines_append_lineFeed, hline]

/-- The first line of a text and what is behind it. -/
theorem exists_of_lines_eq_cons {t l : Text} {after : List Text} (h : t.lines = l :: after) :
    ∃ rest, t = l ++ rest ∧ rest.EndsLine after := by
  have hjoin : join [CodePoint.lineFeed] (l :: after) = t := by
    rw [← h, join, lines, List.intercalate_splitOn]
  by_cases hafter : after = []
  · subst hafter
    exact ⟨[], by simpa [join] using hjoin.symm, .inl ⟨rfl, rfl⟩⟩
  · have hlines : ∀ k ∈ after, k.IsLine := fun k hk =>
      isLine_of_mem_lines (h ▸ List.mem_cons_of_mem l hk)
    refine ⟨CodePoint.lineFeed :: join [CodePoint.lineFeed] after, ?_, .inr ⟨_, rfl, ?_⟩⟩
    · rw [← hjoin, join, List.intercalate_cons_of_ne_nil hafter, List.append_assoc]
      rfl
    · exact List.splitOn_intercalate _ hlines hafter

/-- Every line of a text stands between a line start and a line end. -/
theorem exists_of_lines_eq {t l : Text} {before after : List Text}
    (h : t.lines = before ++ l :: after) :
    ∃ s rest, t = s ++ l ++ rest ∧ s.StartsLine ∧ rest.EndsLine after := by
  induction before generalizing t with
  | nil =>
    obtain ⟨rest, ht, hrest⟩ := exists_of_lines_eq_cons h
    exact ⟨[], rest, ht, .inl rfl, hrest⟩
  | cons first before ih =>
    obtain ⟨rest, rfl, hrest⟩ := exists_of_lines_eq_cons h
    rcases hrest with ⟨-, hnil⟩ | ⟨u, rfl, hu⟩
    · exact absurd hnil (by simp)
    · obtain ⟨s, rest, rfl, hs, hrest⟩ := ih hu
      refine ⟨first ++ CodePoint.lineFeed :: s, rest, by simp, .inr ?_, hrest⟩
      rw [List.getLast?_append, List.getLast?_cons]
      rcases hs with rfl | hs
      · rfl
      · rw [hs]
        rfl

theorem mem_of_mem_repeated {t : Text} {n : Nat} {c : CodePoint} (h : c ∈ t.repeated n) :
    c ∈ t := by
  obtain ⟨s, hs, hc⟩ := List.mem_flatten.mp h
  rwa [List.eq_of_mem_replicate hs] at hc

theorem mem_of_mem_trimRight {t : Text} {c : CodePoint} (h : c ∈ t.trimRight) : c ∈ t := by
  rw [trimRight, List.mem_reverse] at h
  exact List.mem_reverse.mp (List.dropWhile_sublist _ |>.subset h)

/-- Nothing is trimmed from a text that does not end in a blank. -/
theorem trimRight_eq_self {t : Text} (h : ∀ c ∈ t.getLast?, c.isBlank = false) :
    t.trimRight = t := by
  rcases List.eq_nil_or_concat t with rfl | ⟨s, c, rfl⟩
  · rfl
  · have hc := h c (by simp)
    simp [trimRight, hc]

end Text

namespace Writer

theorem isLine_layout {unit part : Text} (depth : Int) (hu : unit.IsLine) (hp : part.IsLine) :
    (layout unit depth part).IsLine := by
  intro h
  rw [layout] at h
  split at h
  · exact List.not_mem_nil h
  · rcases List.mem_append.mp h with h | h
    · exact hu (Text.mem_of_mem_repeated h)
    · exact hp (Text.mem_of_mem_trimRight h)

/-- No line feed stands in the unit or in a line, so line numbers mean the same in the writer and in
its text. -/
structure IsLineWise (w : Writer) : Prop where
  unit : w.unit.IsLine
  lines : ∀ l ∈ w.lines, l.IsLine

theorem isLineWise_empty {unit : Text} (h : unit.IsLine) : (empty unit).IsLineWise :=
  ⟨h, fun _ hl => absurd hl List.not_mem_nil⟩

theorem IsLineWise.append {w : Writer} (h : w.IsLineWise) (t : Text) : (w.append t).IsLineWise := by
  refine ⟨h.unit, fun l hl => ?_⟩
  rcases List.mem_append.mp hl with hl | hl
  · exact h.lines l hl
  · obtain ⟨part, hp, rfl⟩ := List.mem_map.mp hl
    exact isLine_layout _ h.unit (Text.isLine_of_mem_lines hp)

/-- A writer that was only written to. -/
inductive Reached (unit : Text) : Writer → Prop
  | empty : Reached unit (empty unit)
  | append {w : Writer} (h : Reached unit w) (t : Text) : Reached unit (w.append t)
  | startBlock {w : Writer} (h : Reached unit w) : Reached unit w.startBlock
  | endBlock {w : Writer} (h : Reached unit w) : Reached unit w.endBlock

/-- Every writer is line-wise, unless its unit holds a line feed. -/
theorem Reached.isLineWise {unit : Text} {w : Writer} (hu : unit.IsLine) (h : Reached unit w) :
    w.IsLineWise := by
  induction h with
  | empty => exact isLineWise_empty hu
  | append _ t ih => exact ih.append t
  | startBlock _ ih => exact ⟨ih.unit, ih.lines⟩
  | endBlock _ ih => exact ⟨ih.unit, ih.lines⟩

/-- The text of a writer that has written something is made of its lines and a final line feed. -/
theorem IsLineWise.text_lines {w : Writer} (h : w.IsLineWise) (hne : w.lines ≠ []) :
    w.text.lines = w.lines ++ [[]] := Text.lines_join h.lines hne

end Writer

end FlowScript
