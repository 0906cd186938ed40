import FlowScript.Proofs.Script.ScannedScripts
import FlowScript.Proofs.Script.TidyLines

/-!
# The margins of scripts

Two units of indentation give tidy acts the same lines but for the blanks in front: a unit stands at
the start of a line only, and no blank at the end of a line survives. So the lines are as many, and
the source map is the same.
-/
namespace FlowScript

namespace Text

/-- Lines that are the same but for the blanks in front. -/
def SameLines (ls ls' : List Text) : Prop := ls.map trimLeft = ls'.map trimLeft

theorem SameLines.length_eq {ls ls' : List Text} (h : SameLines ls ls') :
    ls.length = ls'.length := by
  simpa using congrArg List.length h

theorem SameLines.append {ls ls' rest rest' : List Text} (h : SameLines ls ls')
    (hrest : SameLines rest rest') : SameLines (ls ++ rest) (ls' ++ rest') := by
  rw [SameLines, List.map_append, List.map_append, h, hrest]

theorem trimLeft_append {s : Text} (h : s.isBlank = true) (t : Text) :
    (s ++ t).trimLeft = t.trimLeft :=
  List.dropWhile_append_of_pos (List.all_eq_true.mp h)

theorem trimRight_cons (c : CodePoint) (t : Text) :
    trimRight (c :: t) = if t.trimRight = [] ∧ c.isBlank = true then [] else c :: t.trimRight := by
  rw [trimRight, List.reverse_cons, List.dropWhile_append, trimRight]
  by_cases h : t.reverse.dropWhile CodePoint.isBlank = []
  · by_cases hc : c.isBlank = true <;> simp [h, hc]
  · simp [h]

/-- The blanks at the start do not matter for those at the end. -/
theorem trimLeft_trimRight (t : Text) : t.trimRight.trimLeft = t.trimLeft.trimRight.trimLeft := by
  induction t with
  | nil => rfl
  | cons c t ih =>
    by_cases hc : c.isBlank = true
    · have hcons (t : Text) : trimLeft (c :: t) = t.trimLeft := List.dropWhile_cons_of_pos hc
      rw [hcons, ← ih, trimRight_cons]
      split
      · next h => rw [h.1]
      · rw [hcons]
    · rw [show trimLeft (c :: t) = c :: t from List.dropWhile_cons_of_neg hc]

theorem isBlank_getLast?_trimRight (t : Text) : ∀ c ∈ t.trimRight.getLast?, c.isBlank = false := by
  intro c hc
  rw [trimRight, List.getLast?_reverse, Option.mem_def] at hc
  have hhead := List.head?_dropWhile_not CodePoint.isBlank t.reverse
  rw [hc] at hhead
  simpa using hhead

theorem exists_lines_eq_cons (t : Text) : ∃ l rest, t.lines = l :: rest :=
  List.exists_cons_of_ne_nil (List.splitOn_ne_nil CodePoint.lineFeed t)

theorem lines_append_of_isLine {s t l : Text} {rest : List Text} (hs : s.IsLine)
    (ht : t.lines = l :: rest) : (s ++ t).lines = (s ++ l) :: rest := by
  induction s with
  | nil => exact ht
  | cons c s ih =>
    have hc : c ≠ CodePoint.lineFeed := fun hc => hs (hc ▸ List.mem_cons_self)
    have hrest := ih fun hmem => hs (List.mem_cons_of_mem c hmem)
    rw [lines] at hrest
    rw [List.cons_append, lines, List.splitOn_cons_eq_if_modifyHead, if_neg (by simpa using hc),
      hrest]
    rfl

/-- Texts whose lines are the same but for the blanks in front, and the first line in every respect
unless `fresh` holds. -/
def Flush : (fresh : Bool) → Text → Text → Prop
  | true, t, t' => SameLines t.lines t'.lines
  | false, t, t' => ∃ l rest rest', t.lines = l :: rest ∧ t'.lines = l :: rest' ∧
      SameLines rest rest'

variable {fresh : Bool} {s s' t t' : Text}

theorem Flush.of_false (h : Flush false t t') : Flush fresh t t' := by
  cases fresh with
  | false => exact h
  | true =>
    obtain ⟨l, rest, rest', ht, ht', hrest⟩ := h
    have hfirst : SameLines [l] [l] := rfl
    rw [Flush, ht, ht']
    exact hfirst.append hrest

theorem flush_nil : Flush fresh [] [] := Flush.of_false ⟨[], [], [], rfl, rfl, rfl⟩

/-- A line break starts a line afresh. -/
theorem Flush.lineFeed (h : Flush true t t') :
    Flush fresh (CodePoint.lineFeed :: t) (CodePoint.lineFeed :: t') :=
  Flush.of_false ⟨[], t.lines, t'.lines, lines_append_lineFeed [] t, lines_append_lineFeed [] t', h⟩

/-- The same text may stand in front of both, -/
theorem Flush.append (s : Text) (h : Flush false t t') : Flush false (s ++ t) (s ++ t') := by
  induction s with
  | nil => exact h
  | cons c s ih =>
    by_cases hc : c = CodePoint.lineFeed
    · subst hc
      exact ih.of_false.lineFeed
    · have hline : IsLine [c] := fun hmem => hc (List.mem_singleton.mp hmem).symm
      obtain ⟨l, rest, rest', ht, ht', hrest⟩ := ih
      exact ⟨[c] ++ l, rest, rest', lines_append_of_isLine hline ht,
        lines_append_of_isLine hline ht', hrest⟩

/-- and blanks in front of what starts a line, different ones at that. -/
theorem Flush.indent (hs : s.isBlank = true) (hs' : s'.isBlank = true) (hline : s.IsLine)
    (hline' : s'.IsLine) (h : Flush true t t') : Flush true (s ++ t) (s' ++ t') := by
  obtain ⟨l, rest, ht⟩ := exists_lines_eq_cons t
  obtain ⟨l', rest', ht'⟩ := exists_lines_eq_cons t'
  rw [Flush, ht, ht'] at h
  rw [Flush, lines_append_of_isLine hline ht, lines_append_of_isLine hline' ht', SameLines,
    List.map_cons, List.map_cons, trimLeft_append hs, trimLeft_append hs']
  exact h

end Text

/-- A line less the blanks in front depends on neither the unit nor the depth. -/
theorem Writer.trimLeft_layout {unit : Text} (hunit : unit.isBlank = true) (depth : Int)
    (part : Text) : (layout unit depth part).trimLeft = part.trimLeft.trimRight.trimLeft := by
  have hmargin : (unit.repeated depth.toNat).isBlank = true :=
    List.all_eq_true.mpr fun c hc => List.all_eq_true.mp hunit c (Text.mem_of_mem_repeated hc)
  rw [← Text.trimLeft_trimRight, layout]
  split
  · next h => rw [List.isEmpty_iff.mp h]
  · exact Text.trimLeft_append hmargin _

theorem Writer.sameLines_layout {unit unit' : Text} (hunit : unit.isBlank = true)
    (hunit' : unit'.isBlank = true) (depth : Int) {ls ls' : List Text} (h : Text.SameLines ls ls') :
    Text.SameLines (ls.map (layout unit depth)) (ls'.map (layout unit' depth)) := by
  have hlayout {unit : Text} (hunit : unit.isBlank = true) (ls : List Text) :
      (ls.map (layout unit depth)).map Text.trimLeft =
        (ls.map Text.trimLeft).map fun part => part.trimRight.trimLeft := by
    simp [trimLeft_layout hunit]
  rw [Text.SameLines, hlayout hunit, hlayout hunit', h]

theorem Writer.isBlank_getLast?_layout (unit : Text) (depth : Int) (part : Text) :
    ∀ c ∈ (layout unit depth part).getLast?, c.isBlank = false := by
  intro c hc
  rw [layout] at hc
  split at hc
  · cases hc
  · next h =>
    have hne : part.trimRight ≠ [] := by simpa using h
    rw [List.getLast?_append_of_ne_nil _ hne] at hc
    exact Text.isBlank_getLast?_trimRight part c hc

/-- A unit of indentation that only sets lines off from the margin. -/
structure Text.IsMargin (unit : Text) : Prop where
  blank : unit.isBlank = true
  line : unit.IsLine

theorem Text.IsMargin.repeated {unit : Text} (h : unit.IsMargin) (n : Nat) :
    (unit.repeated n).IsMargin where
  blank := List.all_eq_true.mpr fun c hc => List.all_eq_true.mp h.blank c (mem_of_mem_repeated hc)
  line hmem := h.line (mem_of_mem_repeated hmem)

section Units

variable {unit unit' : Text} (hunit : unit.IsMargin) (hunit' : unit'.IsMargin)
include hunit hunit'

/-- Tidy pieces come to the same text with either unit, but for the margins. -/
theorem Piece.flush_textAll {pieces : List Piece} {fresh : Bool} (h : IsTidy fresh pieces)
    {size : Nat} {t t' : Text} (ht : textAll unit size pieces = .ok t)
    (ht' : textAll unit' size pieces = .ok t') : Text.Flush fresh t t' := by
  induction pieces generalizing fresh t t' with
  | nil =>
    cases ht
    cases ht'
    exact Text.flush_nil
  | cons p pieces ih =>
    obtain ⟨s, rest, hs, hrest, rfl⟩ := textAll_cons_eq_ok_iff.mp ht
    obtain ⟨s', rest', hs', hrest', rfl⟩ := textAll_cons_eq_ok_iff.mp ht'
    cases p with
    | indent levels =>
      cases hs
      cases hs'
      obtain ⟨rfl, h⟩ := h
      have hmargin := hunit.repeated levels
      have hmargin' := hunit'.repeated levels
      exact (ih h hrest hrest').indent hmargin.blank hmargin'.blank hmargin.line hmargin'.line
    | lineBreak =>
      cases hs
      cases hs'
      exact (ih h hrest hrest').lineFeed
    | code c =>
      cases hs
      cases hs'
      exact ((ih h.2 hrest hrest').append _).of_false
    | _ =>
      cases hs.symm.trans hs'
      exact ((ih h hrest hrest').append _).of_false

namespace Act

theorem sameLines_linesAt {a : Act} (h : a.IsTidy) (ha : a.Completes) (depth : Int) (size : Nat) :
    Text.SameLines (a.linesAt unit depth size) (a.linesAt unit' depth size) := by
  cases a with
  | line pieces =>
    obtain ⟨t, ht⟩ := Piece.textAll_of_hasText ha unit size
    obtain ⟨t', ht'⟩ := Piece.textAll_of_hasText ha unit' size
    simp only [linesAt, ht, ht']
    exact Writer.sameLines_layout hunit.blank hunit'.blank depth
      (Piece.flush_textAll hunit hunit' h ht ht')
  | _ => rfl

/-- Tidy acts write the same lines with either unit, but for the margins. -/
theorem sameLines_written {acts : List Act} (h : AllTidy acts) (hacts : ∀ a ∈ acts, a.Completes)
    (depth : Int) (size : Nat) :
    Text.SameLines (written unit depth size acts) (written unit' depth size acts) := by
  induction acts generalizing depth size with
  | nil => rfl
  | cons a acts ih =>
    rw [allTidy_cons] at h
    rw [List.forall_mem_cons] at hacts
    have hline := sameLines_linesAt hunit hunit' h.1 hacts.1 depth size
    rw [written, written, ← hline.length_eq]
    exact hline.append (ih h.2 hacts.2 _ _)

end Act

end Units

namespace Writer
open Act

/-- Writers that are to write the same line next, at the same depth, with units of their own. -/
structure Abreast (w w' : Writer) : Prop where
  margin : w.unit.IsMargin
  margin' : w'.unit.IsMargin
  depth : w.depth = w'.depth
  size : w.size = w'.size

variable {w w' : Writer} {acts : List Act}

theorem Abreast.sameLines (h : w.Abreast w') (htidy : AllTidy acts)
    (hacts : ∀ a ∈ acts, a.Completes) : Text.SameLines (w.written acts) (w'.written acts) := by
  rw [written, written, ← h.depth, ← h.size]
  exact sameLines_written h.margin h.margin' htidy hacts w.depth w.size

/-- Tidy acts keep writers abreast. -/
theorem Abreast.after (h : w.Abreast w') (htidy : AllTidy acts)
    (hacts : ∀ a ∈ acts, a.Completes) : (w.after acts).Abreast (w'.after acts) where
  margin := h.margin
  margin' := h.margin'
  depth := by rw [Writer.after, Writer.after, h.depth]
  size := by rw [size_after, size_after, h.size, (h.sameLines htidy hacts).length_eq]

end Writer

namespace Template
open Act

variable {t : Template} {r : Recording} {unit unit' script : Text} {s' : Session}

/-- Every act that a recording makes a template run is tidy. -/
structure IsTidy (t : Template) (r : Recording) : Prop where
  prologue : AllTidy (flowActs t.beforeAllSteps r)
  steps : ∀ step, AllTidy (t.stepActs step (some r))
  epilogue : AllTidy (flowActs t.afterAllSteps r)

theorem IsTidy.recordingActs (h : t.IsTidy r) : AllTidy (t.recordingActs r) :=
  allTidy_append.mpr ⟨allTidy_append.mpr ⟨h.prologue,
    List.forall_mem_flatMap.mpr fun step _ => h.steps step⟩, h.epilogue⟩

theorem IsTidy.length_stepBlocks (h : t.IsTidy r) {steps : List Step}
    (hacts : ∀ step ∈ steps, ∀ a ∈ t.stepActs step (some r), a.Completes) {w w' : Writer}
    (hw : w.Abreast w') : List.Forall₂ (fun block block' => block.length = block'.length)
      (t.stepBlocks r w steps) (t.stepBlocks r w' steps) := by
  induction steps generalizing w w' with
  | nil => exact .nil
  | cons step steps ih =>
    rw [List.forall_mem_cons] at hacts
    exact .cons (hw.sameLines (h.steps step) hacts.1).length_eq
      (ih hacts.2 (hw.after (h.steps step) hacts.1))

/-- The ranges of the steps do not depend on the unit. -/
theorem IsTidy.ranges_eq (h : t.IsTidy r) (hacts : ∀ a ∈ t.recordingActs r, a.Completes)
    {w w' : Writer} (hw : w.Abreast w') : t.ranges r w = t.ranges r w' := by
  obtain ⟨hbefore, hsteps, -⟩ := completes_recordingActs hacts
  have hprologue := hw.after h.prologue hbefore
  rw [ranges, ranges, ← hprologue.size]
  exact SourceMap.rangesFrom_of_length_eq (h.length_stepBlocks hsteps hprologue) _

/-- With another unit, a recording renders to the same lines but for the margins, above the very same
comment. -/
theorem IsTidy.exists_renderRecording (h : t.IsTidy r) (hunit : unit.IsMargin)
    (hunit' : unit'.IsMargin) (hdepth : shiftAll (t.recordingActs r) = 0)
    (hrun : t.renderRecording r (.start unit) = .ok script s') :
    ∃ script' s'' before before' payload,
      t.renderRecording r (.start unit') = .ok script' s'' ∧
      script.lines = before ++ [SourceMap.marker ++ payload, []] ∧
      script'.lines = before' ++ [SourceMap.marker ++ payload, []] ∧
      Text.SameLines before before' := by
  have hacts := completes_of_renderRecording hrun
  have habreast : (Writer.empty unit).Abreast (.empty unit') := ⟨hunit, hunit', rfl, rfl⟩
  have hranges := h.ranges_eq hacts habreast
  obtain ⟨comment, hline, -⟩ := exists_comment_of_renderRecording hrun
  rw [show t.ranges r (Session.start unit).writer = _ from hranges] at hline
  have hexists : ∃ script' s'', t.renderRecording r (.start unit') = .ok script' s'' :=
    ⟨_, renderRecording_of_completes hacts hline⟩
  obtain ⟨script', s'', hrun'⟩ := hexists
  have hlines {unit script : Text} {s' : Session} (hunit : unit.IsMargin)
      (hrun : t.renderRecording r (.start unit) = .ok script s') :
      script.lines = written unit 0 0 (t.recordingActs r) ++
        [SourceMap.marker ++ (numbers (t.ranges r (.empty unit))).flatMap SourceMap.encodeNat,
          []] := by
    have hlines := lines_of_renderRecording (Writer.isLineWise_empty hunit.line) hrun
    simpa [Session.start, Writer.after, Writer.empty, hdepth, Text.repeated, Writer.written,
      Writer.size] using hlines
  refine ⟨script', s'', _, _, _, hrun', hlines hunit hrun, ?_,
    sameLines_written hunit hunit' h.recordingActs hacts 0 0⟩
  rw [hranges]
  exact hlines hunit' hrun'

/-- No line of a script ends in a blank. -/
theorem trimmed_of_renderRecording (hunit : unit.IsLine)
    (hrun : t.renderRecording r (.start unit) = .ok script s') :
    ∀ l ∈ script.lines, ∀ c ∈ l.getLast?, c.isBlank = false := by
  obtain ⟨hwriter, rfl⟩ := writer_of_renderRecording hrun
  have hwise : s'.writer.IsLineWise := by
    rw [hwriter]
    exact ((Writer.isLineWise_empty hunit).after _).append _
  have hwritten := writer_lines_of_renderRecording hrun
  rw [hwise.text_lines (by simp [hwritten]), hwritten, ← SourceMap.layout_comment]
  intro l hl
  rcases List.mem_append.mp hl with hl | hl
  · rcases List.mem_append.mp hl with hl | hl
    · obtain ⟨_, _, _, depth, part, -, -, -, rfl⟩ := exists_layout_of_mem_written hl
      exact Writer.isBlank_getLast?_layout unit depth part
    · rw [List.mem_singleton.mp hl]
      exact Writer.isBlank_getLast?_layout unit _ _
  · rw [List.mem_singleton.mp hl]
    exact nofun

end Template

end FlowScript
