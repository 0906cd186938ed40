import FlowScript.Proofs.Export.Redaction
import FlowScript.Proofs.Playwright.Steps

/-!
# Free texts in Playwright Test specifications

A step without its free texts is left out for the same reason, or rendered by the same acts as
before, but for the texts of literals.
-/
namespace FlowScript

namespace Framework

/-- Selectors are translated, so they are not free. -/
@[simp] theorem redactAlternatives_playwrightTest (a : Alternatives) :
    playwrightTest.redactAlternatives a = a := by
  have htext : playwrightTest.redactText .selector = id := rfl
  have hselector : playwrightTest.redactSelector = id := by
    funext s
    cases s <;> simp [redactSelector, htext]
  simp [redactAlternatives, hselector]

@[simp] theorem selectors_redactElement (e : ElementScope) :
    (playwrightTest.redactElement e).selectors = e.selectors :=
  redactAlternatives_playwrightTest e.selectors

/-- A wait is only looked at for whether it matches attributes. -/
@[simp] theorem redactWait_playwrightTest (w : ElementWait) : playwrightTest.redactWait w = w := by
  have htext : playwrightTest.redactText .attribute = id := rfl
  simp [redactWait, htext]

end Framework

namespace Playwright
open Framework

section Names
variable (s : Step)

@[simp] theorem selectors?_redactStep :
    (playwrightTest.redactStep s).selectors? = s.selectors? := by
  cases s with
  | scroll _ _ _ selectors => cases selectors <;> simp [redactStep, Step.selectors?]
  | _ => simp [redactStep, Step.selectors?]

@[simp] theorem isScoped_redactStep : isScoped (playwrightTest.redactStep s) = isScoped s := by
  simp [isScoped]

@[simp] theorem pageName_redactStep : pageName (playwrightTest.redactStep s) = pageName s := by
  simp [pageName]

@[simp] theorem rootName_redactStep : rootName (playwrightTest.redactStep s) = rootName s := by
  simp [rootName]

@[simp] theorem timeoutOption_redactStep :
    timeoutOption (playwrightTest.redactStep s) = timeoutOption s := by
  simp [timeoutOption]

@[simp] theorem locator_redactStep (preferred : Option Text) (selectors : Alternatives) :
    locator (playwrightTest.redactStep s) preferred selectors = locator s preferred selectors := by
  simp [locator]

end Names

/-- A statement without the texts of its literals. -/
def Statement.redacted (st : Statement) : Statement :=
  { st with pieces := st.pieces.map Piece.redacted }

theorem map_redacted_commaList (entries : List (List Piece)) :
    (commaList entries).map Piece.redacted = commaList (entries.map (List.map Piece.redacted)) :=
  map_commaList rfl entries

theorem redacted_call (receiver : List Piece) (method : String) (arguments : List (List Piece)) :
    (call receiver method arguments).redacted =
      call (receiver.map Piece.redacted) method (arguments.map (List.map Piece.redacted)) := by
  simp [call, Statement.redacted, map_redacted_commaList, Piece.redacted]

section Statements
variable (s : Step) (preferred : Option Text)

/-- Statements that differ in the texts of literals only, or the same reason for none. -/
def SameCode (x y : Except SkipReason Statement) : Prop :=
  x.map Statement.redacted = y.map Statement.redacted

theorem sameCode_of_locator {selectors : Alternatives}
    {g g' : List Piece → Except SkipReason Statement}
    (h : ∀ element, SameCode (g element) (g' element)) :
    SameCode (locator s preferred selectors >>= g) (locator s preferred selectors >>= g') := by
  rw [locator]
  cases pickSelector selectors.toList preferred with
  | none => exact rfl
  | some selector => exact h _

/-- The arguments of a call may differ in the texts of literals. -/
theorem sameCode_call {receiver : List Piece} {method : String}
    {arguments arguments' : List (List Piece)}
    (h : arguments.map (List.map Piece.redacted) = arguments'.map (List.map Piece.redacted)) :
    SameCode (pure (call receiver method arguments)) (pure (call receiver method arguments')) := by
  refine congrArg Except.ok ?_
  rw [redacted_call, redacted_call, h]

theorem sameCode_statement :
    SameCode (statement (playwrightTest.redactStep s) preferred) (statement s preferred) := by
  have hlocator := locator_redactStep s preferred
  have htimeout := timeoutOption_redactStep s
  have hpage := pageName_redactStep s
  have hroot := rootName_redactStep s
  cases s
  all_goals simp only [redactStep] at hlocator htimeout hpage hroot ⊢
  case change e value =>
    simp only [statement, selectors_redactElement, hlocator, htimeout]
    exact sameCode_of_locator _ _ fun element => sameCode_call rfl
  case navigate scope url =>
    simp only [statement, hpage, htimeout]
    exact sameCode_call rfl
  case waitForExpression scope expression =>
    simp only [statement, hroot, htimeout]
    exact sameCode_call rfl
  case scroll scope x y selectors =>
    have hselectors : selectors.map playwrightTest.redactAlternatives = selectors := by
      cases selectors <;> simp
    simp only [hselectors] at hlocator htimeout hpage ⊢
    simp only [statement, hlocator, htimeout, hpage]
    rfl
  case waitForElement e w =>
    simp only [redactWait_playwrightTest] at hlocator htimeout ⊢
    simp only [statement, waitForElement, selectors_redactElement, hlocator, htimeout]
    rfl
  all_goals
    simp only [statement, click, keyboard, selectors_redactElement, hlocator, htimeout, hpage]
    rfl

end Statements

section Steps
variable (c : TemplateConfig) (s : Step) (r : Option Recording)

theorem redacted_expectationActs : (expectationActs (playwrightTest.redactStep s)).map Act.redacted =
    (expectationActs s).map Act.redacted := by
  simp only [expectationActs, assertedEvents_redactStep, List.map_flatMap, List.flatMap_map,
    pageName_redactStep]
  congr 1
  funext e
  cases hurl : e.url <;> cases htitle : e.title <;>
    simp [redactEvent, hurl, htitle, Act.redacted, Piece.redacted]

theorem redacted_contextActs : (contextActs (playwrightTest.redactStep s)).map Act.redacted =
    (contextActs s).map Act.redacted := by
  by_cases htarget : s.target = Step.mainTarget <;>
    simp [contextActs, htarget, Act.redacted, Piece.redacted, options, map_redacted_commaList]

/-- The code of a step is the same but for texts, and left out for the same reason. -/
theorem redacted_stepActs : (stepActs c (playwrightTest.redactStep s) r).map Act.redacted =
    (stepActs c s r).map Act.redacted := by
  have hsame := sameCode_statement s (c.attributeFor r)
  rw [stepActs, stepActs]
  cases hstatement : statement s (c.attributeFor r) with
  | error reason =>
    cases hredacted : statement (playwrightTest.redactStep s) (c.attributeFor r) with
    | ok st =>
      rw [hstatement, hredacted] at hsame
      cases hsame
    | error reason' =>
      rw [hstatement, hredacted] at hsame
      cases hsame
      simp
  | ok st =>
    cases hredacted : statement (playwrightTest.redactStep s) (c.attributeFor r) with
    | error reason =>
      rw [hstatement, hredacted] at hsame
      cases hsame
    | ok st' =>
      rw [hstatement, hredacted] at hsame
      obtain ⟨hnotices, hpieces⟩ := Statement.mk.inj (Except.ok.inj hsame)
      have hline : (Act.line st'.pieces).redacted = (Act.line st.pieces).redacted :=
        congrArg Act.line hpieces
      by_cases hscope : isScoped s = true <;>
        simp [hscope, hnotices, hline, redacted_contextActs, redacted_expectationActs]

theorem redacted_prologue (r : Recording) :
    (prologue (playwrightTest.redact r)).map Act.redacted = (prologue r).map Act.redacted := rfl

end Steps

end Playwright

end FlowScript
