import Mathlib.Data.List.Induction
import FlowScript.Proofs.Script.Scan

/-!
# Scanning line by line

A text without comments that starts and ends in code does so on each of its lines, since a literal
ends on its line. What a line leaves of itself then follows it through a writer: indentation and the
blanks at its end are code, and no blank ends a literal.
-/
namespace FlowScript

def CodePoint.slash : CodePoint := ⟨47, by decide⟩

/-- The text of lines that are each ended by a line feed. -/
def Text.ofLines (ls : List Text) : Text := ls.flatMap (· ++ [CodePoint.lineFeed])

theorem Text.ofLines_append (first second : List Text) :
    ofLines (first ++ second) = ofLines first ++ ofLines second := List.flatMap_append

theorem Text.ofLines_singleton (l : Text) : ofLines [l] = l ++ [CodePoint.lineFeed] := by
  simp [ofLines]

theorem Writer.text_eq_ofLines {w : Writer} (h : w.lines ≠ []) : w.text = Text.ofLines w.lines := by
  obtain ⟨unit, depth, lines⟩ := w
  obtain ⟨first, rest, rfl⟩ := List.exists_cons_of_ne_nil h
  rw [text]
  clear h
  induction rest generalizing first with
  | nil => simp [Text.join, Text.ofLines]
  | cons l rest ih => simpa [Text.join, Text.ofLines, List.intercalate_cons_of_ne_nil] using ih l

namespace Scan

/-- A skeleton without a slash, hence without a comment. -/
def IsQuiet (sk : Skeleton) : Prop := some CodePoint.slash ∉ sk

/-- No comment is being read, and none may start. -/
def Mode.IsQuiet : Mode → Prop
  | slash | comment => False
  | _ => True

theorem isQuiet_code (due : List CodePoint) : (State.mk .code due).mode.IsQuiet := trivial

theorem isQuiet_append {first rest : Skeleton} :
    IsQuiet (first ++ rest) ↔ IsQuiet first ∧ IsQuiet rest := by
  simp [IsQuiet]

theorem isQuiet_map_some {t : Text} (h : ∀ c ∈ t, IsPlain c) : IsQuiet (t.map some) := by
  intro hmem
  obtain ⟨c, hc, hslash⟩ := List.mem_map.mp hmem
  rw [Option.some.injEq] at hslash
  exact h c hc (hslash ▸ by decide)

/-- A code point leaves nothing, a hole or itself. -/
theorem output_cases {st st' : State} {c : CodePoint} {sk : Skeleton}
    (h : step st c = some (sk, st')) : sk = [] ∨ sk = [none] ∨ sk = [some c] := by
  obtain ⟨mode, due⟩ := st
  cases mode <;> simp only [step, codeStep, literalStep] at h <;> grind

theorem quiet_of_step {st st' : State} {c : CodePoint} {sk : Skeleton} (hst : st.mode.IsQuiet)
    (h : step st c = some (sk, st')) (hsk : IsQuiet sk) : st'.mode.IsQuiet := by
  obtain ⟨mode, due⟩ := st
  cases mode with
  | code =>
    simp only [step, codeStep] at h
    split at h
    iterate 3 (cases h; trivial)
    · next hc =>
      cases h
      have hslash : c = CodePoint.slash := by
        cases c
        cases hc
        rfl
      exact absurd (List.mem_singleton.mpr (congrArg some hslash.symm)) hsk
    iterate 3 (cases h; trivial)
    iterate 3
      split at h
      · split at h
        · cases h; trivial
        · cases h
      · cases h
    · cases h; trivial
  | slash => exact hst.elim
  | comment => exact hst.elim
  | literal q dollar =>
    simp only [step, literalStep] at h
    split at h
    · cases h; trivial
    split at h
    · cases h; trivial
    split at h
    · cases h
    · cases h; trivial
  | escape q =>
    simp only [step] at h
    split at h
    · cases h
    · cases h; trivial

theorem quiet_of_run {st st' : State} {t : Text} {sk : Skeleton} (hst : st.mode.IsQuiet)
    (h : run st t = some (sk, st')) (hsk : IsQuiet sk) : st'.mode.IsQuiet := by
  induction t generalizing st sk with
  | nil =>
    cases h
    exact hst
  | cons c t ih =>
    obtain ⟨first, mid, rest, hstep, hrun, rfl⟩ := run_cons_eq_some_iff.mp h
    rw [isQuiet_append] at hsk
    exact ih (quiet_of_step hst hstep hsk.1) hrun hsk.2

/-- Only code goes on past a line feed. -/
theorem step_lineFeed {st st' : State} {sk : Skeleton} (hst : st.mode.IsQuiet)
    (h : step st CodePoint.lineFeed = some (sk, st')) :
    st.mode = .code ∧ sk = [some CodePoint.lineFeed] ∧ st' = st := by
  obtain ⟨mode, due⟩ := st
  cases mode with
  | code =>
    cases h
    exact ⟨rfl, rfl, rfl⟩
  | slash => exact hst.elim
  | comment => exact hst.elim
  | literal q dollar => cases q <;> exact nomatch h
  | escape q => exact nomatch h

/-- Lines without comments that each start and end in code, with what they leave of themselves, from
some brackets that are due to others. -/
inductive Lines : List CodePoint → List Text → List Skeleton → List CodePoint → Prop
  | nil {due : List CodePoint} : Lines due [] [] due
  | cons {due mid due' : List CodePoint} {l : Text} {ls : List Text} {sk : Skeleton}
    {sks : List Skeleton} (hline : run ⟨.code, due⟩ l = some (sk, ⟨.code, mid⟩))
    (hquiet : IsQuiet sk) (hrest : Lines mid ls sks due') : Lines due (l :: ls) (sk :: sks) due'

variable {due mid due' : List CodePoint} {ls ls' : List Text} {sks sks' : List Skeleton}

theorem Lines.append (h : Lines due ls sks mid) (h' : Lines mid ls' sks' due') :
    Lines due (ls ++ ls') (sks ++ sks') due' := by
  induction h with
  | nil => exact h'
  | cons hline hquiet _ ih => exact .cons hline hquiet (ih h')

theorem Lines.length_eq (h : Lines due ls sks due') : ls.length = sks.length := by
  induction h with
  | nil => rfl
  | cons _ _ _ ih => rw [List.length_cons, List.length_cons, ih]

/-- What lines leave of themselves, and the brackets that are due behind them, are determined. -/
theorem Lines.unique {due'' : List CodePoint} (h : Lines due ls sks due')
    (h' : Lines due ls sks' due'') : sks = sks' ∧ due' = due'' := by
  induction h generalizing sks' with
  | nil =>
    cases h'
    exact ⟨rfl, rfl⟩
  | cons hline _ _ ih =>
    cases h' with
    | cons hline' _ hrest' =>
      cases hline.symm.trans hline'
      obtain ⟨rfl, rfl⟩ := ih hrest'
      exact ⟨rfl, rfl⟩

theorem run_lineFeed (due : List CodePoint) : run ⟨.code, due⟩ [CodePoint.lineFeed] =
    some ([some CodePoint.lineFeed], ⟨.code, due⟩) := rfl

/-- Lines are scanned as the text they make up. -/
theorem Lines.run (h : Lines due ls sks due') : Scan.run ⟨.code, due⟩ (Text.ofLines ls) =
    some (sks.flatMap (· ++ [some CodePoint.lineFeed]), ⟨.code, due'⟩) := by
  induction h with
  | nil => rfl
  | cons hline _ _ ih =>
    rw [Text.ofLines, List.flatMap_cons, List.flatMap_cons]
    exact run_append (run_append hline (run_lineFeed _)) ih

/-- A text is scanned as its lines, the first of which may start inside a literal. -/
theorem exists_lines_of_run {st : State} {t : Text} {sk : Skeleton} (hst : st.mode.IsQuiet)
    (h : run st t = some (sk, ⟨.code, due'⟩)) (hsk : IsQuiet sk) :
    ∃ l ls first rest, t.lines = l :: ls ∧ sk.splitOn (some CodePoint.lineFeed) = first :: rest ∧
      ∃ mid, run st l = some (first, ⟨.code, mid⟩) ∧ IsQuiet first ∧ Lines mid ls rest due' := by
  induction t generalizing st sk with
  | nil =>
    cases h
    exact ⟨[], [], [], [], rfl, rfl, due', rfl, hsk, .nil⟩
  | cons c t ih =>
    obtain ⟨out, mid, sk, hstep, hrun, rfl⟩ := run_cons_eq_some_iff.mp h
    rw [isQuiet_append] at hsk
    obtain ⟨l, ls, first, rest, hlines, hsplit, due₁, hline, hquiet, hrest⟩ :=
      ih (quiet_of_step hst hstep hsk.1) hrun hsk.2
    rw [Text.lines] at hlines
    by_cases hc : c = CodePoint.lineFeed
    · subst hc
      obtain ⟨hmode, rfl, rfl⟩ := step_lineFeed hst hstep
      obtain ⟨_, due⟩ := mid
      cases hmode
      refine ⟨[], l :: ls, [], first :: rest, ?_, ?_, due, rfl, by simp [IsQuiet],
        .cons hline hquiet hrest⟩
      · rw [Text.lines, List.splitOn_cons_eq_if_modifyHead, hlines]
        simp
      · rw [List.singleton_append, List.splitOn_cons_eq_if_modifyHead, hsplit]
        simp
    · refine ⟨c :: l, ls, out ++ first, rest, ?_, ?_, due₁, run_cons hstep hline,
        isQuiet_append.mpr ⟨hsk.1, hquiet⟩, hrest⟩
      · rw [Text.lines, List.splitOn_cons_eq_if_modifyHead, hlines]
        simp [hc]
      · rcases output_cases hstep with rfl | rfl | rfl <;>
          simp [List.splitOn_cons_eq_if_modifyHead, hsplit, hc]

theorem lines_of_run {t : Text} {sk : Skeleton} (h : run ⟨.code, due⟩ t = some (sk, ⟨.code, due'⟩))
    (hsk : IsQuiet sk) : Lines due t.lines (sk.splitOn (some CodePoint.lineFeed)) due' := by
  obtain ⟨l, ls, first, rest, hlines, hsplit, mid, hline, hquiet, hrest⟩ :=
    exists_lines_of_run (isQuiet_code due) h hsk
  rw [hlines, hsplit]
  exact .cons hline hquiet hrest

/-- A skeleton without the blanks at its end. -/
def trim (sk : Skeleton) : Skeleton :=
  (sk.reverse.dropWhile (Option.any CodePoint.isBlank)).reverse

/-- A skeleton as a writer lays it out. -/
def layout (unit : Text) (depth : Int) (sk : Skeleton) : Skeleton :=
  if (trim sk).isEmpty then [] else (unit.repeated depth.toNat).map some ++ trim sk

/-- A blank that is followed by code is code itself. -/
theorem step_blank {st : State} {c : CodePoint} {sk : Skeleton} (hst : st.mode.IsQuiet)
    (hc : c.isBlank = true) (h : step st c = some (sk, ⟨.code, due'⟩)) :
    st = ⟨.code, due'⟩ ∧ sk = [some c] := by
  obtain ⟨mode, due⟩ := st
  cases mode with
  | code =>
    have hstep : step ⟨.code, due⟩ c = _ := codeStep_of_isPlain (isPlain_of_isBlank hc) due
    rw [hstep] at h
    cases h
    exact ⟨rfl, rfl⟩
  | slash => exact hst.elim
  | comment => exact hst.elim
  | literal q dollar =>
    have hquote : c ≠ q.codePoint := by
      rintro rfl
      cases q <;> exact absurd hc (by decide)
    simp only [step, literalStep, if_neg hquote] at h
    split at h
    · cases h
    · split at h <;> cases h
  | escape q =>
    simp only [step] at h
    split at h <;> cases h

/-- What ends in code does not end in nothing. -/
theorem output_ne_nil {st : State} {c : CodePoint} {sk : Skeleton}
    (h : step st c = some (sk, ⟨.code, due'⟩)) : sk ≠ [] := by
  obtain ⟨mode, due⟩ := st
  cases mode <;> simp only [step, codeStep, literalStep] at h <;> grind

/-- Trimming a line trims its skeleton, and leaves nothing of one if it leaves nothing of the
other. -/
theorem run_trimRight {l : Text} {sk : Skeleton}
    (h : run ⟨.code, due⟩ l = some (sk, ⟨.code, due'⟩)) (hsk : IsQuiet sk) :
    run ⟨.code, due⟩ l.trimRight = some (trim sk, ⟨.code, due'⟩) ∧
      (l.trimRight = [] ↔ trim sk = []) := by
  induction l using List.reverseRecOn generalizing sk due' with
  | nil =>
    cases h
    exact ⟨rfl, by simp [Text.trimRight, trim]⟩
  | append_singleton s c ih =>
    obtain ⟨first, st, rest, hs, hlast, rfl⟩ := run_append_eq_some_iff.mp h
    obtain ⟨_, _, _, hstep, hend, rfl⟩ := run_cons_eq_some_iff.mp hlast
    cases hend
    rw [isQuiet_append] at hsk
    by_cases hc : c.isBlank = true
    · obtain ⟨rfl, rfl⟩ := step_blank (quiet_of_run (isQuiet_code due) hs hsk.1) hc hstep
      have htrim : trim (first ++ [some c]) = trim first := by simp [trim, hc]
      have hline : Text.trimRight (s ++ [c]) = Text.trimRight s := by simp [Text.trimRight, hc]
      rw [List.append_nil, htrim, hline]
      exact ih hs hsk.1
    · have hline : Text.trimRight (s ++ [c]) = s ++ [c] := by simp [Text.trimRight, hc]
      have htrim (x : Option CodePoint) (hx : x.any CodePoint.isBlank = false) :
          trim (first ++ [x]) = first ++ [x] := by simp [trim, hx]
      rw [hline]
      rcases output_cases hstep with rfl | rfl | rfl
      · exact absurd rfl (output_ne_nil hstep)
      · rw [List.append_nil, htrim none rfl]
        exact ⟨h, by simp⟩
      · rw [List.append_nil, htrim (some c) (by simpa using hc)]
        exact ⟨h, by simp⟩

theorem isQuiet_trim {sk : Skeleton} (h : IsQuiet sk) : IsQuiet (trim sk) := by
  intro hmem
  rw [trim, List.mem_reverse] at hmem
  exact h (List.mem_reverse.mp (List.dropWhile_sublist _ |>.subset hmem))

theorem run_layout {unit : Text} (hunit : unit.isBlank = true) (depth : Int) {l : Text}
    {sk : Skeleton} (h : run ⟨.code, due⟩ l = some (sk, ⟨.code, due'⟩)) (hsk : IsQuiet sk) :
    run ⟨.code, due⟩ (Writer.layout unit depth l) = some (layout unit depth sk, ⟨.code, due'⟩) ∧
      IsQuiet (layout unit depth sk) := by
  obtain ⟨htrim, hempty⟩ := run_trimRight h hsk
  have hplain : ∀ c ∈ unit.repeated depth.toNat, IsPlain c := fun c hc =>
    isPlain_of_isBlank (List.all_eq_true.mp hunit c (Text.mem_of_mem_repeated hc))
  rw [Writer.layout, Scan.layout]
  by_cases hnil : trim sk = []
  · rw [hempty.mpr hnil, hnil] at htrim
    rw [hempty.mpr hnil, hnil]
    exact ⟨htrim, List.not_mem_nil⟩
  · have hline : l.trimRight ≠ [] := fun hl => hnil (hempty.mp hl)
    rw [if_neg (by simpa using hline), if_neg (by simpa using hnil), isQuiet_append]
    exact ⟨run_append (run_of_isPlain hplain due) htrim, isQuiet_map_some hplain, isQuiet_trim hsk⟩

theorem Lines.layout {unit : Text} (hunit : unit.isBlank = true) (depth : Int)
    (h : Lines due ls sks due') :
    Lines due (ls.map (Writer.layout unit depth)) (sks.map (Scan.layout unit depth)) due' := by
  induction h with
  | nil => exact .nil
  | cons hline hquiet _ ih =>
    obtain ⟨hline, hquiet⟩ := run_layout hunit depth hline hquiet
    exact .cons hline hquiet ih

end Scan

end FlowScript
