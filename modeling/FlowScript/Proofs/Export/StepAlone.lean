import FlowScript.Proofs.Export.Rendering
import FlowScript.Proofs.Script.Extraction

/-!
# Steps by themselves

The code of a step does not depend on the steps around it. Rendered by itself it is the code that
stands in the script of a recording, but for the blocks around it and the attribute, which a
recording may prefer and a step cannot.
-/
namespace FlowScript

namespace Template
open Act

/-- A step has the same code in a recording, so many blocks deep, and by itself in a template
`alone`. -/
structure IsModular (t alone : Template) (r : Recording) (depth : Nat) : Prop where
  prologue : shiftAll (flowActs t.beforeAllSteps r) = depth
  steps : ∀ step, t.stepActs step (some r) = alone.stepActs step none
  closed : ∀ step, Closed (t.stepActs step (some r))
  epilogue : shiftAll (flowActs t.afterAllSteps r) = -depth

variable {t alone : Template} {r : Recording} {depth : Nat}

/-- The lines of a step that is rendered by itself. -/
def linesAlone (t : Template) (unit : Text) (step : Step) : List Text :=
  written unit 0 0 (t.stepActs step none)

theorem IsModular.depth_after (h : IsModular t alone r depth) {w : Writer} (hw : w.depth = 0) :
    (w.after (t.recordingActs r)).depth = 0 := by
  have hsteps := closed_flatMap h.closed r.steps
  simp only [Writer.after, recordingActs, shiftAll_append, hsteps.shiftAll_eq, h.prologue,
    h.epilogue, hw]
  omega

/-- The block of a step is what the step writes by itself, set deeper. -/
theorem IsModular.stepBlocks_eq (h : IsModular t alone r depth) {w : Writer} (hw : w.depth = depth)
    (steps : List Step) : t.stepBlocks r w steps =
      steps.map fun step => (alone.linesAlone w.unit step).map (Text.indented w.unit depth) := by
  induction steps generalizing w with
  | nil => rfl
  | cons step steps ih =>
    have hblock : w.written (t.stepActs step (some r)) =
        (alone.linesAlone w.unit step).map (Text.indented w.unit depth) := by
      have hdeep := (h.closed step).written_add w.unit (Int.le_refl 0) depth w.size 0
      rw [Int.zero_add, ← hw] at hdeep
      rw [Writer.written, hdeep, h.steps, linesAlone]
    have hafter : (w.after (t.stepActs step (some r))).depth = depth := by
      simp [Writer.after, (h.closed step).shiftAll_eq, hw]
    rw [stepBlocks, List.map_cons, hblock, ih hafter]
    rfl

theorem IsModular.blocks_eq (h : IsModular t alone r depth) (unit : Text) :
    t.blocks r (.empty unit) =
      r.steps.map fun step => (alone.linesAlone unit step).map (Text.indented unit depth) := by
  have hdepth : ((Writer.empty unit).after (flowActs t.beforeAllSteps r)).depth = depth := by
    simp [Writer.after, Writer.empty, h.prologue]
  rw [blocks, h.stepBlocks_eq hdepth]
  rfl

/-- A step whose acts complete renders to its lines. -/
theorem renderStep_of_completes {unit : Text} {step : Step} (hunit : unit.IsLine)
    (h : ∀ a ∈ t.stepActs step none, a.Completes) :
    ∃ text s', t.renderStep step (.start unit) = .ok text s' ∧
      s'.writer.lines = t.linesAlone unit step ∧
      (s'.writer.lines ≠ [] → text.lines.dropLast = t.linesAlone unit step) := by
  let finish := (Session.start unit).after (t.stepActs step none)
  have hrun : t.renderStep step (.start unit) = .ok finish.writer.text finish := by
    rw [renderStep, Rendering.bind_of_ok (runAll_of_completes h _)]
    rfl
  refine ⟨_, finish, hrun, rfl, fun hne => ?_⟩
  have hlines := ((Writer.isLineWise_empty hunit).after (t.stepActs step none)).text_lines hne
  exact (congrArg List.dropLast hlines).trans List.dropLast_concat

end Template

/-- How many blocks deep the steps of a script stand. -/
def Framework.stepDepth : Framework → Nat
  | puppeteer => 1
  | playwrightTest => 2

theorem Framework.isModular (f : Framework) (c : TemplateConfig) (r : Recording) :
    Template.IsModular (f.template c)
      (f.template { c with selectorAttribute := c.attributeFor (some r) }) r f.stepDepth := by
  cases f with
  | puppeteer =>
    refine ⟨Puppeteer.shiftAll_prologue c r, fun step => ?_, fun step => ?_,
      Puppeteer.shiftAll_epilogue⟩
    · simp [template]
    · simpa [template] using Puppeteer.closed_stepActs step
  | playwrightTest =>
    refine ⟨Playwright.shiftAll_prologue r, fun step => ?_, fun step => ?_,
      Playwright.shiftAll_epilogue⟩
    · simpa [template] using Playwright.stepActs_attributeFor c step r
    · simpa [template] using Playwright.closed_stepActs c step (some r)

/-- Wherever a recording renders, the range of a step in its source map holds what the step renders
to by itself, with the attribute in force and each line set as deep as steps stand. -/
theorem Framework.extract_stepAlone (f : Framework) (c : TemplateConfig) (r : Recording)
    {unit script : Text} {s' : Session} (hunit : unit.IsLine)
    (h : (f.template c).renderRecording r (.start unit) = .ok script s') :
    ∃ ranges, SourceMap.extract script = .ok ranges ∧
      List.Forall₂ (fun step range => ∃ text alone,
        (f.template { c with selectorAttribute := c.attributeFor (some r) }).renderStep step
          (.start unit) = .ok text alone ∧
        if alone.writer.lines = [] then range.2 = 0
        else range.2 = text.lines.dropLast.length ∧
          (script.lines.drop range.1).take range.2 =
            text.lines.dropLast.map (Text.indented unit f.stepDepth)) r.steps ranges := by
  have hlines : (Session.start unit).writer.IsLineWise := Writer.isLineWise_empty hunit
  have hmodular := f.isModular c r
  have hcompletes := (Template.completes_recordingActs
    (Template.completes_of_renderRecording h)).2.1
  have hlocate := (Template.ranges_locate hlines h).flip
  rw [show (f.template c).blocks r (Session.start unit).writer = _ from hmodular.blocks_eq unit,
    List.forall₂_map_left_iff] at hlocate
  refine ⟨_, Template.extract_of_renderRecording h (hmodular.depth_after rfl), ?_⟩
  refine ((List.forall₂_and_left _ _).mpr ⟨fun step hstep => hstep, hlocate⟩).imp ?_
  rintro step range ⟨hstep, hcount, hrange⟩
  have hacts := hcompletes step hstep
  rw [hmodular.steps] at hacts
  obtain ⟨text, alone, hrun, hwritten, htext⟩ := Template.renderStep_of_completes hunit hacts
  rw [List.length_map, ← hwritten] at hcount
  refine ⟨text, alone, hrun, ?_⟩
  split
  · next hempty => rw [hcount, hempty, List.length_nil]
  · next hne =>
    rw [htext hne, hrange, ← hwritten]
    exact ⟨hcount, rfl⟩

/-- The recording prefers an attribute, its first step writes nothing and its second a block. -/
theorem Framework.extract_stepAlone_preferred :
    let skipped : Step := .emulateNetworkConditions ⟨none, none, none⟩ 0 0 0
    let framed : Step :=
      .hover ⟨⟨⟨none, none, none⟩, some [0]⟩, ⟨.plain "a", [.plain "[id=a]"]⟩⟩
    let r : Recording := ⟨"menu", [skipped, framed], none, some "id"⟩
    ∃ script s' ranges,
      (playwrightTest.template {}).renderRecording r (.start "  ") = .ok script s' ∧
      SourceMap.extract script = .ok ranges ∧
      List.Forall₂ (fun step range => ∃ text alone,
        (playwrightTest.template { selectorAttribute := some "id" }).renderStep step
          (.start "  ") = .ok text alone ∧
        if alone.writer.lines = [] then range.2 = 0
        else range.2 = text.lines.dropLast.length ∧
          (script.lines.drop range.1).take range.2 =
            text.lines.dropLast.map (Text.indented "  " 2)) [skipped, framed] ranges := by
  intro skipped framed r
  have hunit : Text.IsLine "  " := by
    unfold Text.IsLine
    decide
  have hsize : ((Writer.empty "  ").after ((Playwright.template {}).recordingActs r)).size <
      2 ^ 31 := by
    decide +kernel
  obtain ⟨script, s', hrun⟩ := Template.exists_renderRecording (s := .start "  ")
    (Playwright.failure?_recordingActs {} r) hsize
  obtain ⟨ranges, hranges, hsteps⟩ := playwrightTest.extract_stepAlone {} r hunit hrun
  exact ⟨script, s', ranges, hrun, hranges, hsteps⟩

end FlowScript
