import FlowScript.Proofs.Export.ClosedScripts
import FlowScript.Proofs.Playwright.Redaction
import FlowScript.Proofs.Puppeteer.Redaction

/-!
# Free texts never become code

Recordings that differ in free texts only have scripts that differ in literals only: with a hole in
the place of every literal they are the same, line by line, and so are their source maps.
-/
namespace FlowScript.Framework
open Scan

theorem redacted_stepActs_of_eq {f : Framework} (c : TemplateConfig) {r r' : Recording}
    (hattribute : r.selectorAttribute = r'.selectorAttribute) {step step' : Step}
    (h : f.redactStep step = f.redactStep step') :
    ((f.template c).stepActs step (some r)).map Act.redacted =
      ((f.template c).stepActs step' (some r')).map Act.redacted := by
  cases f with
  | puppeteer =>
    simp only [template, Puppeteer.template_stepActs]
    rw [← Puppeteer.redacted_stepActs step, h, Puppeteer.redacted_stepActs step']
  | playwrightTest =>
    have hpreferred : c.attributeFor (some r) = c.attributeFor (some r') := by
      simp only [TemplateConfig.attributeFor, Option.bind_some, hattribute]
    have hrecording : Playwright.stepActs c step' (some r) =
        Playwright.stepActs c step' (some r') := by
      rw [Playwright.stepActs, hpreferred, Playwright.stepActs]
    simp only [template, Playwright.template_stepActs]
    rw [← Playwright.redacted_stepActs c step, h, Playwright.redacted_stepActs c step', hrecording]

/-- Such recordings make a template run the same acts, but for the texts of literals. -/
theorem isAlike_of_redact_eq {f : Framework} (c : TemplateConfig) {r r' : Recording}
    (h : f.redact r = f.redact r') : (f.template c).IsAlike r r' := by
  obtain ⟨-, hsteps, htimeout, hattribute⟩ := Recording.mk.inj h
  refine ⟨?prologue, ?steps, ?epilogue⟩
  case prologue =>
    cases f with
    | puppeteer =>
      have hsame : Puppeteer.prologue c r = Puppeteer.prologue c r' := by
        simp only [Puppeteer.prologue, show r.timeout = r'.timeout from htimeout]
      exact congrArg (List.map Act.redacted) hsame
    | playwrightTest =>
      have hr := Playwright.redacted_prologue r
      rw [h, Playwright.redacted_prologue r'] at hr
      exact hr.symm
  case steps =>
    have hpairs : List.Forall₂ (fun step step' => f.redactStep step = f.redactStep step')
        r.steps r'.steps := by
      rw [← List.forall₂_map_right_iff, ← List.forall₂_map_left_iff, List.forall₂_eq_eq_eq]
      exact hsteps
    exact hpairs.imp fun _ _ hstep => redacted_stepActs_of_eq c hattribute hstep
  case epilogue => cases f <;> rfl

/-- If two recordings differ in free texts only and both render, their scripts are the same once
every literal is replaced by a hole; they have as many lines, and the same source map. -/
theorem scripts_alike (f : Framework) (c : TemplateConfig) {r r' : Recording}
    (h : f.redact r = f.redact r') (hdefault : c.defaultTimeout.IsAtomic) {unit : Text}
    (hblank : unit.isBlank = true) {script script' : Text} {s s' : Session}
    (hr : (f.template c).renderRecording r (.start unit) = .ok script s)
    (hr' : (f.template c).renderRecording r' (.start unit) = .ok script' s') :
    (∃ sk, run start script = some (sk, start) ∧ run start script' = some (sk, start)) ∧
    script.lines.length = script'.lines.length ∧
    ∃ ranges, SourceMap.extract script = .ok ranges ∧ SourceMap.extract script' = .ok ranges := by
  have hparts := (isAlike_of_redact_eq c h).parts (f.isBracketed hdefault r)
    (f.isBracketed hdefault r') hblank (Template.completes_of_renderRecording hr)
    (Template.completes_of_renderRecording hr')
  obtain ⟨sk, hrun, hrun'⟩ := hparts.run_scriptLines
  rw [← script_eq_ofLines hr] at hrun
  rw [← script_eq_ofLines hr'] at hrun'
  refine ⟨⟨sk, hrun, hrun'⟩, length_lines_of_run hrun hrun', _, extract_script hr, ?_⟩
  rw [hparts.ranges_eq]
  exact extract_script hr'

/-- One recording is harmless, the other would close a literal, end a line and open a block. -/
theorem scripts_alike_popups :
    let visit (target url title : Text) : Recording := ⟨"visit",
      [.navigate ⟨some target, none, some [⟨some url, some title⟩]⟩ url], none, none⟩
    let harmless := visit "popup" "a" "b"
    let harmful := visit "`'\"" "'\n\x7b" "//`\")"
    ∀ f : Framework, ∃ script script' s s',
      (f.template {}).renderRecording harmless (.start "  ") = .ok script s ∧
      (f.template {}).renderRecording harmful (.start "  ") = .ok script' s' ∧
      (∃ sk, run start script = some (sk, start) ∧ run start script' = some (sk, start)) ∧
      script.lines.length = script'.lines.length ∧
      ∃ ranges, SourceMap.extract script = .ok ranges ∧ SourceMap.extract script' = .ok ranges := by
  intro visit harmless harmful f
  have hunit : Text.IsLine "  " := by
    unfold Text.IsLine
    decide
  have hredact : f.redact harmless = f.redact harmful := by
    cases f <;> rfl
  obtain ⟨script, s, hr⟩ := f.exists_script (c := {}) harmless trivial (by nofun) hunit rfl
    (by cases f <;> decide +kernel)
  obtain ⟨script', s', hr'⟩ := f.exists_script (c := {}) harmful trivial (by nofun) hunit rfl
    (by cases f <;> decide +kernel)
  exact ⟨script, script', s, s', hr, hr',
    f.scripts_alike {} hredact trivial (by decide) hr hr'⟩

end FlowScript.Framework
