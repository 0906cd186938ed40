import FlowScript.Proofs.Export.StepAlone
import FlowScript.Proofs.Playwright.Brackets
import FlowScript.Proofs.Puppeteer.Brackets
import FlowScript.Proofs.Script.LineCounts

/-!
# Scripts are lexically closed

Whatever a recording holds, each literal of its script ends on the line it starts on, no template
literal has a substitution, and brackets are nested and closed at the end. The same holds of the code
of every step.
-/
namespace FlowScript

namespace Framework
open Scan

def banner : Framework → Banner
  | puppeteer => Puppeteer.banner
  | playwrightTest => Playwright.banner

/-- The prologue behind the banner. -/
def opening (c : TemplateConfig) (r : Recording) : Framework → List Act
  | puppeteer => Puppeteer.opening c r
  | playwrightTest => Playwright.prologue r

/-- The brackets that stay open around the steps. -/
def openBrackets : Framework → List CodePoint
  | puppeteer => Puppeteer.openBrackets
  | playwrightTest => Playwright.openBrackets

theorem isBracketed (f : Framework) {c : TemplateConfig} (h : c.defaultTimeout.IsAtomic)
    (r : Recording) :
    (f.template c).IsBracketed r f.banner (f.opening c r) f.openBrackets := by
  cases f with
  | puppeteer => exact Puppeteer.isBracketed h r
  | playwrightTest => exact Playwright.isBracketed c r

variable {f : Framework} {c : TemplateConfig} {r r' : Recording} {unit script : Text} {s' : Session}

/-- The lines of a script, in the parts that the template writes. -/
theorem lines_script (hunit : unit.IsLine)
    (h : (f.template c).renderRecording r (.start unit) = .ok script s') :
    script.lines = (f.template c).scriptLines r unit ++ [[]] :=
  Template.lines_eq_scriptLines hunit h ((f.isModular c r).depth_after rfl)

theorem script_eq_ofLines (h : (f.template c).renderRecording r (.start unit) = .ok script s') :
    script = Text.ofLines ((f.template c).scriptLines r unit) :=
  Template.script_eq_ofLines h ((f.isModular c r).depth_after rfl)

theorem extract_script (h : (f.template c).renderRecording r (.start unit) = .ok script s') :
    SourceMap.extract script = .ok ((f.template c).ranges r (.empty unit)) :=
  Template.extract_of_renderRecording h ((f.isModular c r).depth_after rfl)

/-- Every script is scanned from start to start, and so is the range of every step in it. -/
theorem closed_script (f : Framework) (c : TemplateConfig) (r : Recording)
    {unit script : Text} {s' : Session} (hdefault : c.defaultTimeout.IsAtomic)
    (hblank : unit.isBlank = true) (hunit : unit.IsLine)
    (h : (f.template c).renderRecording r (.start unit) = .ok script s') :
    (∃ sk, run start script = some (sk, start)) ∧
    ∃ ranges, SourceMap.extract script = .ok ranges ∧ ranges.length = r.steps.length ∧
      ∀ range ∈ ranges, ∃ sk,
        run start (Text.ofLines ((script.lines.drop range.1).take range.2)) = some (sk, start) := by
  have hbracketed := f.isBracketed hdefault r
  have hacts := Template.completes_of_renderRecording h
  have hparts := (Template.IsAlike.refl _ r).parts hbracketed hbracketed hblank hacts hacts
  refine ⟨?_, _, extract_script h, Template.length_ranges _ r _, ?_⟩
  · obtain ⟨sk, hrun, -⟩ := hparts.run_scriptLines
    rw [script_eq_ofLines h]
    exact ⟨sk, hrun⟩
  · have hblocks := List.forall₂_same.mp (hparts.blocks [])
    have hlocate := Template.ranges_locate (Writer.isLineWise_empty hunit) h
    intro range hrange
    obtain ⟨block, hblock, -, hlines⟩ := exists_of_forall₂ hlocate hrange
    obtain ⟨sk, hrun, -⟩ := (hblocks block hblock).run
    exact ⟨sk, hlines ▸ hrun⟩

/-- The lines that the script of a recording has without its comment, at the most. -/
def lineBound (f : Framework) (c : TemplateConfig) (r : Recording) : Nat :=
  f.banner.lines.length + ((f.opening c r ++
    (r.steps.flatMap fun step => (f.template c).stepActs step (some r)) ++
      Template.flowActs (f.template c).afterAllSteps r).map Act.bound).sum

/-- A recording without payloads that go wrong renders, if it is small. -/
theorem exists_script (f : Framework) {c : TemplateConfig} (r : Recording) {unit : Text}
    (hdefault : c.defaultTimeout.IsAtomic) (hnumber : ∀ x, c.defaultTimeout ≠ .nonFinite x)
    (hunit : unit.IsLine) (hfinite : r.steps.flatMap Step.nonFinites = [])
    (hsize : f.lineBound c r < 2 ^ 31) :
    ∃ script s', (f.template c).renderRecording r (.start unit) = .ok script s' := by
  refine (f.isBracketed hdefault r).exists_renderRecording hunit ?_ hsize
  cases f with
  | puppeteer =>
    rw [template, Puppeteer.failure?_recordingActs hnumber, hfinite]
    rfl
  | playwrightTest => exact Playwright.failure?_recordingActs c r

/-- The text has every quote, and would open a substitution, a comment and brackets. -/
theorem closed_script_quotes :
    let quotes : Text := "`$\x7b'\"]\n//("
    let r : Recording := ⟨quotes, [.change ⟨⟨⟨quotes, none, none⟩, some [0]⟩,
      ⟨.chain quotes [quotes], []⟩⟩ quotes], none, none⟩
    ∀ f : Framework, ∃ script s',
      (f.template {}).renderRecording r (.start "\t") = .ok script s' ∧
      (∃ sk, run start script = some (sk, start)) ∧
      ∃ ranges, SourceMap.extract script = .ok ranges ∧ ranges.length = 1 ∧
        ∀ range ∈ ranges, ∃ sk,
          run start (Text.ofLines ((script.lines.drop range.1).take range.2)) = some (sk, start) := by
  intro quotes r f
  have hunit : Text.IsLine "\t" := by
    unfold Text.IsLine
    decide
  obtain ⟨script, s', hrun⟩ := f.exists_script (c := {}) r trivial (by nofun) hunit rfl
    (by cases f <;> decide +kernel)
  exact ⟨script, s', hrun, f.closed_script {} r trivial (by decide) hunit hrun⟩

end Framework

end FlowScript
