import FlowScript.Proofs.Export.Redaction

/-!
# Free texts in Puppeteer scripts

A step without its free texts is rendered by the same acts as before, but for the texts of literals.
-/
namespace FlowScript

namespace Framework

theorem redacted_toJson_redactSelector (s : Selector) :
    (puppeteer.redactSelector s).toJson.redacted = s.toJson.redacted := by
  cases s <;> simp [redactSelector, Selector.toJson, Function.comp_def]

theorem redacted_toJson_redactAlternatives (a : Alternatives) :
    (puppeteer.redactAlternatives a).toJson.redacted = a.toJson.redacted := by
  simp [redactAlternatives, Alternatives.toJson, Alternatives.toList,
    redacted_toJson_redactSelector, Function.comp_def]

theorem redacted_toJson_redactEvent (e : NavigationEvent) :
    (puppeteer.redactEvent e).toJson.redacted = e.toJson.redacted := by
  cases hurl : e.url <;> cases htitle : e.title <;>
    simp [redactEvent, NavigationEvent.toJson, Json.redacted_ofFields, hurl, htitle]

/-- A field less the texts in its value. -/
abbrev redactField (field : Text × Option Json) : Text × Option Json :=
  (field.1, field.2.map Json.redacted)

theorem redactField_eventsField (s : PageScope) :
    redactField (puppeteer.redactPage s).eventsField = redactField s.eventsField := by
  cases hevents : s.assertedEvents with
  | none => simp [redactPage, PageScope.eventsField, hevents]
  | some es =>
    simp [redactPage, PageScope.eventsField, hevents, Function.comp_def,
      redacted_toJson_redactEvent]

theorem map_redactField_fields (s : FrameScope) :
    (puppeteer.redactFrame s).fields.map redactField = s.fields.map redactField := by
  have htarget : redactField (puppeteer.redactPage s.toPageScope).targetField =
      redactField s.targetField := by
    simp [redactPage, PageScope.targetField, Function.comp_def]
  simp only [FrameScope.fields, List.map_cons, List.map_nil, redactFrame, htarget,
    redactField_eventsField]
  rfl

/-- What is printed of a wait is the same but for texts. -/
theorem redacted_toJson_redactStep (e : ElementScope) (w : ElementWait) :
    (puppeteer.redactStep (.waitForElement e w)).toJson.redacted =
      (Step.waitForElement e w).toJson.redacted := by
  have hselectors : redactField (puppeteer.redactElement e).selectorsField =
      redactField e.selectorsField := by
    simp [redactElement, ElementScope.selectorsField, redacted_toJson_redactAlternatives]
  have hwait : (puppeteer.redactWait w).fields.map redactField = w.fields.map redactField := by
    simp [redactWait, ElementWait.fields, Function.comp_def]
  have hframe := map_redactField_fields e.toFrameScope
  rw [Step.toJson, Step.toJson, Json.redacted_ofFields, Json.redacted_ofFields]
  simp only [redactStep, Step.fields, Step.type, List.map_cons, List.map_append, List.cons_append,
    hselectors, hwait]
  rw [show (puppeteer.redactElement e).toFrameScope = puppeteer.redactFrame e.toFrameScope from rfl,
    hframe]

end Framework

namespace Puppeteer
open Framework

variable (s : Step)

theorem contextName_redactStep : contextName (puppeteer.redactStep s) = contextName s := by
  simp [contextName]

theorem timeoutActs_redactStep : timeoutActs (puppeteer.redactStep s) = timeoutActs s := by
  simp [timeoutActs]

theorem promiseActs_redactStep : promiseActs (puppeteer.redactStep s) = promiseActs s := by
  simp [promiseActs, contextName_redactStep, Function.comp_def]

theorem awaitActs_redactStep : awaitActs (puppeteer.redactStep s) = awaitActs s := by
  simp [awaitActs]

theorem redacted_contextActs : (contextActs (puppeteer.redactStep s)).map Act.redacted =
    (contextActs s).map Act.redacted := by
  by_cases htarget : s.target = Step.mainTarget <;>
    simp [contextActs, targetActs, htarget, Act.redacted, Piece.redacted]

theorem redacted_elementActs (selectors : Alternatives) :
    (elementActs (puppeteer.redactStep s) (puppeteer.redactAlternatives selectors)).map Act.redacted =
      (elementActs s selectors).map Act.redacted := by
  simp [elementActs, Act.redacted, Piece.redacted, Piece.map_redacted_value,
    redacted_toJson_redactAlternatives, contextName_redactStep]

theorem redacted_append {first first' second second' : List Act}
    (h : first.map Act.redacted = first'.map Act.redacted)
    (h' : second.map Act.redacted = second'.map Act.redacted) :
    (first ++ second).map Act.redacted = (first' ++ second').map Act.redacted := by
  rw [List.map_append, List.map_append, h, h']

theorem redacted_actionActs : (actionActs (puppeteer.redactStep s)).map Act.redacted =
    (actionActs s).map Act.redacted := by
  have helement (selectors : Alternatives) := redacted_elementActs s selectors
  have hname := contextName_redactStep s
  cases s with
  | change e value => exact redacted_append (helement e.selectors) rfl
  | click e p => exact redacted_append (helement e.selectors) rfl
  | doubleClick e p => exact redacted_append (redacted_append (helement e.selectors) rfl) rfl
  | hover e => exact redacted_append (helement e.selectors) rfl
  | scroll scope x y selectors =>
    cases selectors with
    | some alternatives => exact redacted_append (helement alternatives) rfl
    | none =>
      simp only [redactStep, Option.map_none] at hname
      simp [actionActs, scrollActs, redactStep, hname]
  | waitForElement e w =>
    have hstep := redacted_toJson_redactStep e w
    simp only [redactStep] at hname hstep
    simp [actionActs, redactStep, Act.redacted, Piece.redacted, Piece.map_redacted_value, hstep,
      hname]
  | waitForExpression scope expression =>
    simp only [redactStep] at hname
    simp [actionActs, redactStep, Act.redacted, Piece.redacted, hname]
  | _ => rfl

/-- The code of a step is the same but for texts. -/
theorem redacted_stepActs : (stepActs (puppeteer.redactStep s)).map Act.redacted =
    (stepActs s).map Act.redacted := by
  simp only [stepActs, List.map_append, timeoutActs_redactStep, promiseActs_redactStep,
    awaitActs_redactStep, redacted_contextActs, redacted_actionActs]

end Puppeteer

end FlowScript
