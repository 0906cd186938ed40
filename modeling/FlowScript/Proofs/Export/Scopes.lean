import FlowScript.Proofs.Playwright.Names
import FlowScript.Proofs.Puppeteer.Names

/-!
# The scopes of steps

In scripts of every framework, the code of a step resolves its names by itself. A frame has been
walked to before it is used, and a step that needs no scope of its own has none.
-/
namespace FlowScript

namespace Framework
open Act Names

/-- The lines of a step up to its end, or up to where it fails: a block whose scope is in order, or
lines of a specification that open no block and mention no variable of steps. -/
inductive KeepsScope (unit : Text) (depth : Int) (s : Step) (finished : Bool) :
    Framework → List Text → Prop
  | block {f : Framework} {body : List Text} {ms : List Mention}
      (needed : f = playwrightTest → s.target ≠ Step.mainTarget ∨ s.framePath ≠ [])
      (inScope : Step.InScope unit (depth + 1) s.framePath body ms) :
      KeepsScope unit depth s finished f (braceLine unit depth "\x7b" :: body ++
        if finished then [braceLine unit depth "\x7d"] else [])
  | plain {lines : List Text}
      (needless : s.target = Step.mainTarget ∧ s.framePath = [] ∨ lines = [])
      (told : Tells (Text.ofLines lines) []) : KeepsScope unit depth s finished playwrightTest lines

theorem isScoped_iff (s : Step) :
    Playwright.isScoped s = true ↔ s.target ≠ Step.mainTarget ∨ s.framePath ≠ [] := by
  simp [Playwright.isScoped, Step.inFrame]

variable {unit : Text} (f : Framework) (c : TemplateConfig) (s : Step) (r : Option Recording)

theorem keepsScope_written (hunit : unit.isBlank = true) (depth : Int) (size : Nat) :
    KeepsScope unit depth s (failure? ((f.template c).stepActs s r)).isNone f
      (written unit depth size (completed ((f.template c).stepActs s r))) := by
  cases f with
  | puppeteer =>
    obtain ⟨body, ms, hbody, hlines⟩ := Puppeteer.inScope_written s hunit depth size
    simp only [template, Puppeteer.template_stepActs, hlines, ← Option.isNone_iff_eq_none]
    exact .block nofun hbody
  | playwrightTest =>
    have hnone : failure? (Playwright.stepActs c s r) = none := by
      rw [failure?, Playwright.failures_stepActs]
      rfl
    rw [template, Playwright.template_stepActs, hnone,
      completed_of_completes (failure?_eq_none_iff.mp hnone)]
    cases hstatement : Playwright.statement s (c.attributeFor r) with
    | error reason =>
      have hlines : written unit depth size (Playwright.stepActs c s r) = [] := by
        rw [Playwright.stepActs, hstatement]
        rfl
      rw [hlines]
      exact .plain (.inr rfl) ⟨[], rfl, rfl⟩
    | ok st =>
      cases hscoped : Playwright.isScoped s with
      | true =>
        obtain ⟨body, ms, hbody, hlines⟩ :=
          Playwright.inScope_written s hunit depth size c r hstatement hscoped
        rw [hlines]
        exact .block (fun _ => (isScoped_iff s).mp hscoped) hbody
      | false =>
        have hneedless : s.target = Step.mainTarget ∧ s.framePath = [] := by
          simpa [hscoped] using (isScoped_iff s).not
        exact .plain (.inl hneedless)
          (Playwright.tells_written s hunit depth size c r hstatement hscoped)

/-- Wherever a step is written with a blank indentation, its lines keep to the scope that they set
up, if it fails as well. -/
theorem keepsScope_runAll {σ : Session} (hunit : σ.writer.unit.isBlank = true) :
    ∃ σ' lines, σ'.writer.lines = σ.writer.lines ++ lines ∧
      (runAll ((f.template c).stepActs s r) σ = .ok () σ' ∧
          f.KeepsScope σ.writer.unit σ.writer.depth s true lines ∨
        ∃ e, runAll ((f.template c).stepActs s r) σ = .error e σ' ∧
          f.KeepsScope σ.writer.unit σ.writer.depth s false lines) := by
  have hkeeps := f.keepsScope_written c s r hunit σ.writer.depth σ.writer.size
  cases hfailure : failure? ((f.template c).stepActs s r) with
  | none =>
    have hcompletes := failure?_eq_none_iff.mp hfailure
    rw [hfailure, completed_of_completes hcompletes] at hkeeps
    exact ⟨_, _, rfl, .inl ⟨runAll_of_completes hcompletes σ, hkeeps⟩⟩
  | some e =>
    rw [hfailure] at hkeeps
    exact ⟨_, _, rfl, .inr ⟨e, runAll_of_failure hfailure σ, hkeeps⟩⟩

/-- The step waits in a frame of another page, and a navigation is expected of it. -/
theorem keepsScope_runAll_popup :
    let page : PageScope := ⟨some "https://shop.example/", some 500, some [⟨none, some "Paid"⟩]⟩
    let s : Step := .waitForExpression ⟨page, some [1, 0]⟩ "ready"
    let σ : Session := ⟨⟨"\t", 2, ["test();"]⟩, []⟩
    let acts := (puppeteer.template {}).stepActs s none
    ∃ σ' lines, σ'.writer.lines = ("test();" : Text) :: lines ∧
      (runAll acts σ = .ok () σ' ∧ puppeteer.KeepsScope "\t" 2 s true lines ∨
        ∃ e, runAll acts σ = .error e σ' ∧ puppeteer.KeepsScope "\t" 2 s false lines) := by
  intro page s σ acts
  have hunit : σ.writer.unit.isBlank = true := by decide
  exact puppeteer.keepsScope_runAll {} s none hunit

end Framework

end FlowScript
