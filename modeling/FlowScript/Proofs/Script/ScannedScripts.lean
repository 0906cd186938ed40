import Mathlib.Data.List.TakeWhile
import FlowScript.Proofs.Script.Brackets
import FlowScript.Proofs.Script.Extraction

/-!
# Scanning whole scripts

A script whose steps close what they open, and whose epilogue closes what the prologue leaves open,
is scanned from start to start; so is every step in it. Scripts that differ in the texts of literals
only leave the same of themselves, and their steps stand on the same lines.
-/
namespace FlowScript

namespace Scan

theorem exists_run {st st' : State} {t : Text} (h : (run st t).map (·.2) = some st') :
    ∃ sk, run st t = some (sk, st') := by
  obtain ⟨⟨sk, _⟩, hrun, rfl⟩ := Option.map_eq_some_iff.mp h
  exact ⟨sk, hrun⟩

/-- A comment goes on to the end of its line. -/
theorem run_comment {t : Text} (h : ∀ c ∈ t, c.val ∉ [10, 13, 0x2028, 0x2029])
    (due : List CodePoint) : run ⟨.comment, due⟩ t = some (t.map some, ⟨.comment, due⟩) := by
  induction t with
  | nil => rfl
  | cons c t ih =>
    rw [List.forall_mem_cons] at h
    have hstep : step ⟨.comment, due⟩ c = some ([some c], ⟨.comment, due⟩) := by
      simpa [step] using h.1
    exact run_cons hstep (ih h.2)

theorem marker_eq : SourceMap.marker =
    CodePoint.slash :: CodePoint.slash :: SourceMap.marker.drop 2 := by
  decide

/-- The source map of a script is a comment. -/
theorem run_sourceMap (ns : List Nat) : ∃ sk,
    run start (Text.ofLines [SourceMap.marker ++ ns.flatMap SourceMap.encodeNat]) =
      some (sk, start) := by
  have hsymbol : ∀ b < 64, (SourceMap.symbol b).val ∉ [10, 13, 0x2028, 0x2029] := by decide
  have hcomment : ∀ c ∈ SourceMap.marker.drop 2 ++ ns.flatMap SourceMap.encodeNat,
      c.val ∉ [10, 13, 0x2028, 0x2029] := by
    rw [List.forall_mem_append]
    refine ⟨by decide, fun c hc => ?_⟩
    obtain ⟨n, -, hc⟩ := List.mem_flatMap.mp hc
    obtain ⟨b, hb, rfl⟩ := SourceMap.exists_symbol_of_mem_encodeNat hc
    exact hsymbol b hb
  have hend : run ⟨.comment, []⟩ [CodePoint.lineFeed] =
      some ([some CodePoint.lineFeed], start) := rfl
  have hslash : step start CodePoint.slash = some ([some CodePoint.slash], ⟨.slash, []⟩) := rfl
  have hslashes : step ⟨.slash, []⟩ CodePoint.slash =
      some ([some CodePoint.slash], ⟨.comment, []⟩) := rfl
  rw [marker_eq, Text.ofLines_singleton, List.cons_append, List.cons_append]
  exact ⟨_, run_cons hslash (run_cons hslashes (run_append (run_comment hcomment []) hend))⟩

/-- A line that holds no comment is no source map. -/
theorem payload?_eq_none {l : Text} {due : List CodePoint} {st : State} {sk : Skeleton}
    (h : run ⟨.code, due⟩ l = some (sk, st)) (hsk : IsQuiet sk) : SourceMap.payload? l = none := by
  let isIndent (c : CodePoint) : Bool := c.val = 32 || c.val = 9
  rw [SourceMap.payload?, if_neg]
  intro hpayload
  have hmarker : SourceMap.marker <+: l.dropWhile isIndent :=
    List.isPrefixOf_iff_prefix.mp (Bool.and_eq_true_iff.mp hpayload).1
  obtain ⟨payload, hrest⟩ := hmarker
  have hindent : ∀ c ∈ l.takeWhile isIndent, IsPlain c := by
    intro c hc
    have hblank : c.val = 32 ∨ c.val = 9 := by
      simpa [isIndent] using List.mem_takeWhile_imp hc
    intro hmem
    simp only [List.mem_cons, List.not_mem_nil, or_false] at hmem
    omega
  rw [← List.takeWhile_append_dropWhile (p := isIndent) (l := l), ← hrest] at h
  obtain ⟨first, mid, rest, hfirst, hslash, rfl⟩ := run_append_eq_some_iff.mp h
  rw [run_of_isPlain hindent] at hfirst
  cases hfirst
  rw [marker_eq, List.cons_append] at hslash
  obtain ⟨out, mid, rest, hstep, hrun, rfl⟩ := run_cons_eq_some_iff.mp hslash
  cases hstep
  exact hsk (by simp)

theorem Lines.payload?_eq_none {due due' : List CodePoint} {ls : List Text} {sks : List Skeleton}
    (h : Lines due ls sks due') : ls.filterMap SourceMap.payload? = [] := by
  induction h with
  | nil => rfl
  | cons hline hquiet _ ih =>
    rw [List.filterMap_cons_none (Scan.payload?_eq_none hline hquiet), ih]

end Scan

/-- Of lists that are related one by one, every element is related to one of the other list. -/
theorem exists_of_forall₂ {α β : Type} {R : α → β → Prop} {xs : List α} {ys : List β}
    (h : List.Forall₂ R xs ys) {x : α} (hx : x ∈ xs) : ∃ y ∈ ys, R x y := by
  induction h with
  | nil => exact absurd hx List.not_mem_nil
  | cons hxy _ ih =>
    rcases List.mem_cons.mp hx with rfl | hx
    · exact ⟨_, List.mem_cons_self, hxy⟩
    · obtain ⟨y, hy, hxy⟩ := ih hx
      exact ⟨y, List.mem_cons_of_mem _ hy, hxy⟩

theorem SourceMap.rangesFrom_of_length_eq {blocks blocks' : List (List Text)}
    (h : List.Forall₂ (fun block block' => block.length = block'.length) blocks blocks')
    (first : Nat) : rangesFrom first blocks = rangesFrom first blocks' := by
  induction h generalizing first with
  | nil => rfl
  | cons hblock _ ih => rw [rangesFrom, rangesFrom, hblock, ih]

/-- Acts that complete, lead from some brackets that are due to others, and differ from acts that
complete as well in the texts of literals only. -/
structure Act.Twins (due due' : List CodePoint) (acts acts' : List Act) : Prop where
  redacted : acts.map Act.redacted = acts'.map Act.redacted
  scan : Act.scanAll due acts = some due'
  completes : ∀ a ∈ acts, a.Completes
  completes' : ∀ a ∈ acts', a.Completes

namespace Writer
open Act Scan

/-- Writers that lay out the next line alike, and give it the same number. -/
structure Aligned (w w' : Writer) : Prop where
  unit : w.unit = w'.unit
  depth : w.depth = w'.depth
  size : w.size = w'.size

variable {w w' : Writer} {due due' : List CodePoint} {acts acts' : List Act}

theorem Aligned.refl (w : Writer) : w.Aligned w := ⟨rfl, rfl, rfl⟩

theorem Aligned.alikeLines (h : w.Aligned w') (hunit : w.unit.isBlank = true)
    (htwins : Twins due due' acts acts') :
    AlikeLines due due' (w.written acts) (w'.written acts') := by
  rw [written, written, ← h.unit, ← h.depth, ← h.size]
  exact alikeLines_of_redacted_eq hunit htwins.redacted htwins.scan htwins.completes
    htwins.completes' w.depth w.size

/-- Such acts keep writers aligned. -/
theorem Aligned.after (h : w.Aligned w') (hunit : w.unit.isBlank = true)
    (htwins : Twins due due' acts acts') : (w.after acts).Aligned (w'.after acts') := by
  refine ⟨h.unit, ?_, ?_⟩
  · have hshift : shiftAll acts = shiftAll acts' := by
      rw [← shiftAll_map_redacted, htwins.redacted, shiftAll_map_redacted]
    rw [Writer.after, Writer.after, h.depth, hshift]
  · rw [size_after, size_after, h.size, (h.alikeLines hunit htwins).length_eq]

end Writer

/-- Acts that start a script and may write comments, with the lines they write. -/
structure Banner where
  acts : List Act
  lines : List Text
  written (unit : Text) : Act.written unit 0 0 acts = lines
  closed : ∃ sk, Scan.run Scan.start (Text.ofLines lines) = some (sk, Scan.start)
  unmarked : lines.filterMap SourceMap.payload? = []

namespace Template
open Act Scan

variable {t : Template} {r r' : Recording} {unit script : Text} {s' : Session}

/-- What a template writes in front of the steps of a recording. -/
def prologueLines (t : Template) (r : Recording) (unit : Text) : List Text :=
  written unit 0 0 (flowActs t.beforeAllSteps r)

/-- What a template writes behind the steps of a recording. -/
def epilogueLines (t : Template) (r : Recording) (unit : Text) : List Text :=
  (((Writer.empty unit).after (flowActs t.beforeAllSteps r)).after
    (r.steps.flatMap fun step => t.stepActs step (some r))).written (flowActs t.afterAllSteps r)

theorem lines_after_recordingActs (t : Template) (r : Recording) (unit : Text) :
    ((Writer.empty unit).after (t.recordingActs r)).lines = t.prologueLines r unit ++
      (t.blocks r (.empty unit)).flatten ++ t.epilogueLines r unit := by
  rw [blocks, flatten_stepBlocks, recordingActs, Writer.after_append, Writer.after_append]
  rfl

/-- Behind the banner, the prologue opens the brackets that the epilogue closes, and steps close what
they open. -/
structure IsBracketed (t : Template) (r : Recording) (banner : Banner) (opening : List Act)
    (due : List CodePoint) : Prop where
  prologue : flowActs t.beforeAllSteps r = banner.acts ++ opening
  opening : scanAll [] opening = some due
  steps : ∀ step, IsNeutral (t.stepActs step (some r))
  epilogue : scanAll due (flowActs t.afterAllSteps r) = some []

/-- Recordings that make a template run the same acts, but for the texts of literals. -/
structure IsAlike (t : Template) (r r' : Recording) : Prop where
  prologue : (flowActs t.beforeAllSteps r).map Act.redacted =
    (flowActs t.beforeAllSteps r').map Act.redacted
  steps : List.Forall₂ (fun step step' => (t.stepActs step (some r)).map Act.redacted =
    (t.stepActs step' (some r')).map Act.redacted) r.steps r'.steps
  epilogue : (flowActs t.afterAllSteps r).map Act.redacted =
    (flowActs t.afterAllSteps r').map Act.redacted

theorem IsAlike.refl (t : Template) (r : Recording) : t.IsAlike r r :=
  ⟨rfl, List.forall₂_same.mpr fun _ _ => rfl, rfl⟩

/-- Steps that differ in the texts of literals only. -/
abbrev StepTwins (t : Template) (r r' : Recording) (step step' : Step) : Prop :=
  ∀ due, Twins due due (t.stepActs step (some r)) (t.stepActs step' (some r'))

theorem StepTwins.flatMap {steps steps' : List Step}
    (h : List.Forall₂ (t.StepTwins r r') steps steps') (due : List CodePoint) :
    Twins due due (steps.flatMap fun step => t.stepActs step (some r))
      (steps'.flatMap fun step => t.stepActs step (some r')) := by
  induction h with
  | nil => exact ⟨rfl, rfl, List.forall_mem_nil _, List.forall_mem_nil _⟩
  | cons hstep _ ih =>
    refine ⟨?_, ?_, List.forall_mem_append.mpr ⟨(hstep due).completes, ih.completes⟩,
      List.forall_mem_append.mpr ⟨(hstep due).completes', ih.completes'⟩⟩
    · simp only [List.flatMap_cons, List.map_append, (hstep due).redacted, ih.redacted]
    · exact scanAll_trans (hstep due).scan ih.scan

theorem stepTwins_of_redacted_eq {steps steps' : List Step}
    (hneutral : ∀ step, IsNeutral (t.stepActs step (some r)))
    (h : List.Forall₂ (fun step step' => (t.stepActs step (some r)).map Act.redacted =
      (t.stepActs step' (some r')).map Act.redacted) steps steps')
    (hacts : ∀ step ∈ steps, ∀ a ∈ t.stepActs step (some r), a.Completes)
    (hacts' : ∀ step ∈ steps', ∀ a ∈ t.stepActs step (some r'), a.Completes) :
    List.Forall₂ (t.StepTwins r r') steps steps' := by
  induction h with
  | nil => exact .nil
  | cons hstep _ ih =>
    rw [List.forall_mem_cons] at hacts hacts'
    exact .cons (fun due => ⟨hstep, hneutral _ due, hacts.1, hacts'.1⟩) (ih hacts.2 hacts'.2)

/-- The blocks of such steps are scanned alike, one by one. -/
theorem alikeLines_stepBlocks {steps steps' : List Step}
    (h : List.Forall₂ (t.StepTwins r r') steps steps') {w w' : Writer} (hw : w.Aligned w')
    (hunit : w.unit.isBlank = true) (due : List CodePoint) :
    List.Forall₂ (AlikeLines due due) (t.stepBlocks r w steps) (t.stepBlocks r' w' steps') := by
  induction h generalizing w w' with
  | nil => exact .nil
  | cons hstep _ ih =>
    exact .cons (hw.alikeLines hunit (hstep due)) (ih (hw.after hunit (hstep due)) hunit)

variable {banner : Banner} {opening opening' : List Act} {due : List CodePoint}

theorem prologueLines_eq (h : t.IsBracketed r banner opening due) (unit : Text) :
    t.prologueLines r unit =
      banner.lines ++ ((Writer.empty unit).after banner.acts).written opening := by
  rw [prologueLines, h.prologue, ← banner.written unit]
  exact (Writer.empty unit).written_append banner.acts opening

/-- The parts of two scripts, as far as they are not the same anyway, are scanned alike. -/
structure PartsAlike (t : Template) (r r' : Recording) (unit : Text) (banner : Banner)
    (due : List CodePoint) : Prop where
  prologue : ∃ ls ls', t.prologueLines r unit = banner.lines ++ ls ∧
    t.prologueLines r' unit = banner.lines ++ ls' ∧ AlikeLines [] due ls ls'
  blocks : ∀ due, List.Forall₂ (AlikeLines due due) (t.blocks r (.empty unit))
    (t.blocks r' (.empty unit))
  epilogue : AlikeLines due [] (t.epilogueLines r unit) (t.epilogueLines r' unit)

theorem IsAlike.parts (h : t.IsAlike r r') (hr : t.IsBracketed r banner opening due)
    (hr' : t.IsBracketed r' banner opening' due) (hunit : unit.isBlank = true)
    (hacts : ∀ a ∈ t.recordingActs r, a.Completes) (hacts' : ∀ a ∈ t.recordingActs r', a.Completes) :
    t.PartsAlike r r' unit banner due := by
  obtain ⟨hbefore, hsteps, hafter⟩ := completes_recordingActs hacts
  obtain ⟨hbefore', hsteps', hafter'⟩ := completes_recordingActs hacts'
  have hprologue := h.prologue
  rw [hr.prologue, hr'.prologue, List.map_append, List.map_append] at hprologue
  rw [hr.prologue, List.forall_mem_append] at hbefore
  rw [hr'.prologue, List.forall_mem_append] at hbefore'
  have hopening : Twins [] due opening opening' :=
    ⟨List.append_cancel_left hprologue, hr.opening, hbefore.2, hbefore'.2⟩
  have hstep := stepTwins_of_redacted_eq hr.steps h.steps hsteps hsteps'
  have hclosing : Twins due [] (flowActs t.afterAllSteps r) (flowActs t.afterAllSteps r') :=
    ⟨h.epilogue, hr.epilogue, hafter, hafter'⟩
  let w := (Writer.empty unit).after banner.acts
  have hopened : (w.after opening).Aligned (w.after opening') :=
    (Writer.Aligned.refl w).after hunit hopening
  have hwriter : (Writer.empty unit).after (flowActs t.beforeAllSteps r) = w.after opening := by
    rw [hr.prologue, Writer.after_append]
  have hwriter' : (Writer.empty unit).after (flowActs t.beforeAllSteps r') = w.after opening' := by
    rw [hr'.prologue, Writer.after_append]
  refine ⟨⟨w.written opening, w.written opening', ?_, ?_, ?_⟩, fun d => ?_, ?_⟩
  · exact prologueLines_eq hr unit
  · exact prologueLines_eq hr' unit
  · exact (Writer.Aligned.refl w).alikeLines hunit hopening
  · rw [blocks, blocks, hwriter, hwriter']
    exact alikeLines_stepBlocks hstep hopened hunit d
  · rw [epilogueLines, epilogueLines, hwriter, hwriter']
    exact (hopened.after hunit (StepTwins.flatMap hstep due)).alikeLines hunit hclosing

/-- The lines of a script that ends undented, the comment on the ranges of its blocks last. -/
def scriptLines (t : Template) (r : Recording) (unit : Text) : List Text :=
  t.prologueLines r unit ++ (t.blocks r (.empty unit)).flatten ++ t.epilogueLines r unit ++
    [SourceMap.marker ++ (numbers (t.ranges r (.empty unit))).flatMap SourceMap.encodeNat]

theorem lines_eq_scriptLines (hunit : unit.IsLine)
    (h : t.renderRecording r (.start unit) = .ok script s')
    (hdepth : ((Writer.empty unit).after (t.recordingActs r)).depth = 0) :
    script.lines = t.scriptLines r unit ++ [[]] := by
  have hlines := lines_of_renderRecording (Writer.isLineWise_empty hunit) h
  rw [Session.start, hdepth, lines_after_recordingActs] at hlines
  rw [hlines, scriptLines, List.append_assoc _ [_] [[]]]
  rfl

/-- The unit may have line feeds here: the lines are those that the writer counts. -/
theorem script_eq_ofLines (h : t.renderRecording r (.start unit) = .ok script s')
    (hdepth : ((Writer.empty unit).after (t.recordingActs r)).depth = 0) :
    script = Text.ofLines (t.scriptLines r unit) := by
  obtain ⟨-, rfl⟩ := writer_of_renderRecording h
  have hwritten := writer_lines_of_renderRecording h
  rw [Session.start, hdepth, lines_after_recordingActs] at hwritten
  rw [Writer.text_eq_ofLines (by simp [hwritten]), hwritten]
  rfl

theorem ranges_eq (t : Template) (r : Recording) (unit : Text) : t.ranges r (.empty unit) =
    SourceMap.rangesFrom (t.prologueLines r unit).length (t.blocks r (.empty unit)) := by
  rw [ranges, Writer.size_after]
  exact congrArg (SourceMap.rangesFrom · _) (Nat.zero_add _)

/-- Steps stand on the same lines, if they write as many behind prologues that do. -/
theorem PartsAlike.ranges_eq (h : t.PartsAlike r r' unit banner due) :
    t.ranges r (.empty unit) = t.ranges r' (.empty unit) := by
  obtain ⟨ls, ls', hprologue, hprologue', hopening⟩ := h.prologue
  have hfirst : (t.prologueLines r unit).length = (t.prologueLines r' unit).length := by
    rw [hprologue, hprologue', List.length_append, List.length_append, hopening.length_eq]
  rw [Template.ranges_eq, Template.ranges_eq, hfirst]
  exact SourceMap.rangesFrom_of_length_eq ((h.blocks due).imp fun _ _ hblock => hblock.length_eq) _

/-- Scripts with parts that are scanned alike leave the same of themselves. -/
theorem PartsAlike.run_scriptLines (h : t.PartsAlike r r' unit banner due) : ∃ sk,
    Scan.run start (Text.ofLines (t.scriptLines r unit)) = some (sk, start) ∧
      Scan.run start (Text.ofLines (t.scriptLines r' unit)) = some (sk, start) := by
  obtain ⟨ls, ls', hprologue, hprologue', hopening⟩ := h.prologue
  obtain ⟨first, hbanner⟩ := banner.closed
  obtain ⟨last, hlast⟩ := run_sourceMap (numbers (t.ranges r (.empty unit)))
  obtain ⟨middle, hmiddle, hmiddle'⟩ :=
    ((hopening.append (AlikeLines.flatten (h.blocks due))).append h.epilogue).run
  refine ⟨first ++ (middle ++ last), ?_, ?_⟩
  · have hrun := run_append hbanner (run_append hmiddle hlast)
    simpa only [scriptLines, hprologue, Text.ofLines_append, List.append_assoc] using hrun
  · rw [h.ranges_eq] at hlast
    have hrun := run_append hbanner (run_append hmiddle' hlast)
    simpa only [scriptLines, hprologue', Text.ofLines_append, List.append_assoc] using hrun

end Template

end FlowScript
