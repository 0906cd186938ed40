import FlowScript.Proofs.Export.ClosedScripts
import FlowScript.Proofs.Playwright.TidyLines
import FlowScript.Proofs.Puppeteer.TidyLines
import FlowScript.Proofs.Script.Margins

/-!
# Indentation is layout

Scripts of one recording that are indented by different units say the same: line by line they differ
in the blanks in front only, and their source map is the same.
-/
namespace FlowScript.Framework

theorem isTidy (f : Framework) (c : TemplateConfig) (r : Recording) :
    (f.template c).IsTidy r := by
  cases f with
  | puppeteer =>
    refine ⟨Puppeteer.tidy_prologue c r, fun step => ?_, Puppeteer.tidy_epilogue⟩
    simpa [template] using Puppeteer.tidy_stepActs step
  | playwrightTest =>
    refine ⟨Playwright.tidy_prologue r, fun step => ?_, Playwright.tidy_epilogue⟩
    simpa [template] using Playwright.tidy_stepActs c step (some r)

/-- What renders with one unit renders with any other. The lines are as many, less the blanks in front
they are the same, and none ends in a blank. The last one holds the same source map. -/
theorem scripts_sameLines (f : Framework) (c : TemplateConfig) (r : Recording)
    {unit unit' script : Text} {s' : Session} (hunit : unit.IsMargin) (hunit' : unit'.IsMargin)
    (h : (f.template c).renderRecording r (.start unit) = .ok script s') :
    ∃ script' s'', (f.template c).renderRecording r (.start unit') = .ok script' s'' ∧
      script.lines.length = script'.lines.length ∧
      (∃ before before' payload,
        script.lines = before ++ [SourceMap.marker ++ payload, []] ∧
        script'.lines = before' ++ [SourceMap.marker ++ payload, []]) ∧
      script.lines.map Text.trimLeft = script'.lines.map Text.trimLeft ∧
      ∀ l ∈ script.lines ++ script'.lines, ∀ c ∈ l.getLast?, c.isBlank = false := by
  have hdepth := (f.isModular c r).depth_after (w := .empty unit) rfl
  rw [Writer.after, Writer.empty, Int.zero_add] at hdepth
  obtain ⟨script', s'', before, before', payload, hrun', hlines, hlines', hsame⟩ :=
    (f.isTidy c r).exists_renderRecording hunit hunit' hdepth h
  have hscripts : Text.SameLines script.lines script'.lines := by
    rw [hlines, hlines']
    exact hsame.append rfl
  refine ⟨script', s'', hrun', hscripts.length_eq, ⟨before, before', payload, hlines, hlines'⟩,
    hscripts, fun l hl => ?_⟩
  rcases List.mem_append.mp hl with hl | hl
  · exact Template.trimmed_of_renderRecording hunit.line h l hl
  · exact Template.trimmed_of_renderRecording hunit'.line hrun' l hl

/-- Text is typed into an element, by lines of several depths in one of the frameworks, and a viewport
is printed over several lines in both. -/
theorem scripts_sameLines_form :
    let element : ElementScope := ⟨⟨⟨none, none, none⟩, none⟩, ⟨.plain "#name", []⟩⟩
    let r : Recording := ⟨"form", [.change element " a\n ",
      .setViewport ⟨none, none, none⟩ ⟨800, 600, 1, false, false, false⟩], none, none⟩
    ∀ f : Framework, ∃ script s' script' s'',
      (f.template {}).renderRecording r (.start "\t") = .ok script s' ∧
      (f.template {}).renderRecording r (.start "   ") = .ok script' s'' ∧
      script.lines.map Text.trimLeft = script'.lines.map Text.trimLeft := by
  intro element r f
  have htab : Text.IsMargin "\t" := ⟨by decide, by unfold Text.IsLine; decide⟩
  have hblanks : Text.IsMargin "   " := ⟨by decide, by unfold Text.IsLine; decide⟩
  obtain ⟨script, s', hrun⟩ := f.exists_script (c := {}) r trivial (by nofun) htab.line rfl
    (by cases f <;> decide +kernel)
  obtain ⟨script', s'', hrun', -, -, hsame, -⟩ := f.scripts_sameLines {} r htab hblanks hrun
  exact ⟨script, s', script', s'', hrun, hrun', hsame⟩

end FlowScript.Framework
