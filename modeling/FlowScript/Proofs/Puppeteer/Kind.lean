import FlowScript.Proofs.Puppeteer.Steps
import FlowScript.Proofs.Script.Kind

/-!
# Kinds of numbers in Puppeteer scripts

A step without kinds of numbers is rendered by the acts of the step, without kinds: where a number
decides what is written, it is asked for its value.
-/
namespace FlowScript.Puppeteer

variable (s : Step)

@[simp] theorem contextName_kindless : contextName s.kindless = contextName s := by
  rw [contextName, Step.inFrame_kindless, contextName]

theorem timeoutActs_kindless : timeoutActs s.kindless = (timeoutActs s).map Act.kindless := by
  rw [timeoutActs, Step.timeout_kindless, timeoutActs]
  cases s.timeout <;> rfl

theorem contextActs_kindless : contextActs s.kindless = (contextActs s).map Act.kindless := by
  by_cases htarget : s.target = Step.mainTarget <;> by_cases hframe : s.inFrame = true <;>
    simp [contextActs, targetActs, htarget, hframe]

theorem promiseActs_kindless : promiseActs s.kindless = (promiseActs s).map Act.kindless := by
  by_cases hevents : s.assertedEvents.isEmpty = true <;>
    simp [promiseActs, hevents]

theorem awaitActs_kindless : awaitActs s.kindless = (awaitActs s).map Act.kindless := by
  by_cases hevents : s.assertedEvents.isEmpty = true <;> simp [awaitActs, hevents]

/-- The literal of selectors holds no number. -/
theorem map_kindless_selectors (a : Alternatives) :
    (Piece.value a.toJson).map Piece.kindless = Piece.value a.toJson := by
  rw [← Piece.value_kindless, a.kindless_toJson]

theorem elementActs_kindless (a : Alternatives) :
    elementActs s.kindless a = (elementActs s a).map Act.kindless := by
  simp [elementActs, map_kindless_selectors]

theorem delayLines_kindless (p : Press) :
    delayLines p.kindless = (delayLines p).map (List.map Piece.kindless) := by
  cases hduration : p.duration with
  | none => simp [delayLines, Press.kindless, hduration]
  | some d =>
    by_cases hzero : d.isZero = true <;>
      simp [delayLines, Press.kindless, hduration, hzero]

theorem clickActs_kindless (p : Press) (extra : List (List Piece)) :
    clickActs p.kindless (extra.map (List.map Piece.kindless)) =
      (clickActs p extra).map Act.kindless := by
  cases hbutton : p.button <;>
    simp [clickActs, Press.kindless, hbutton]

theorem map_kindless_changeActs (value : Text) :
    (changeActs value).map Act.kindless = changeActs value := by
  have htypes : (Piece.value (.arr (typeableInputTypes.map .str))).map Piece.kindless =
      Piece.value (.arr (typeableInputTypes.map .str)) := by
    rw [← Piece.value_kindless]
    simp [Function.comp_def]
  simp [changeActs, htypes]

theorem networkActs_kindless (download upload latency : Number) :
    networkActs download.kindless upload.kindless latency.kindless =
      (networkActs download upload latency).map Act.kindless := by
  simp [networkActs]

theorem scrollActs_kindless (x y : Option Number) (selectors : Option Alternatives) :
    scrollActs s.kindless (x.map Number.kindless) (y.map Number.kindless) selectors =
      (scrollActs s x y selectors).map Act.kindless := by
  cases selectors <;> simp [scrollActs, Number.getD_map_kindless, elementActs_kindless]

theorem actionActs_kindless : actionActs s.kindless = (actionActs s).map Act.kindless := by
  have helement := elementActs_kindless s
  have hname := contextName_kindless s
  cases s with
  | change e value =>
    simp only [actionActs, List.map_append, map_kindless_changeActs]
    rw [← helement]
    rfl
  | click e p =>
    simp only [actionActs, List.map_append, ← clickActs_kindless, ← delayLines_kindless]
    rw [← helement]
    rfl
  | doubleClick e p =>
    have hfirst := clickActs_kindless p []
    have hsecond := clickActs_kindless p ([.code "clickCount: 2,"] :: delayLines p)
    rw [List.map_cons, ← delayLines_kindless] at hsecond
    simp only [actionActs, List.map_append, ← hfirst, ← hsecond]
    rw [← helement]
    rfl
  | hover e =>
    simp only [actionActs, List.map_append]
    rw [← helement]
    rfl
  | emulateNetworkConditions scope download upload latency =>
    exact networkActs_kindless download upload latency
  | scroll scope x y selectors => exact scrollActs_kindless _ x y selectors
  | setViewport scope v =>
    have hsize := Piece.value_kindless (.obj [("width", .num v.width), ("height", .num v.height)])
    simp only [Json.kindless_obj, List.map_cons, List.map_nil, Json.kindless_num] at hsize
    simp [actionActs, Step.kindless, Viewport.kindless, hsize]
  | waitForElement e w =>
    have hpayload := Piece.value_kindless (Step.waitForElement e w).toJson
    rw [Step.kindless_toJson] at hpayload
    simp only [Step.kindless] at hpayload hname
    simp [actionActs, Step.kindless, hpayload, hname]
  | waitForExpression scope expression =>
    simp only [Step.kindless] at hname
    simp [actionActs, Step.kindless, hname]
  | _ => rfl

/-- A step without kinds has the acts of the step, without kinds. -/
theorem stepActs_kindless : stepActs s.kindless = (stepActs s).map Act.kindless := by
  simp only [stepActs, List.map_append, timeoutActs_kindless, contextActs_kindless,
    promiseActs_kindless, actionActs_kindless, awaitActs_kindless]
  rfl

theorem prologue_kindless (c : TemplateConfig) (r : Recording) :
    prologue c r.kindless = (prologue c r).map Act.kindless := by
  cases h : r.timeout <;> simp [prologue, Recording.kindless, h]

/-- The support functions hold numbers as code only. -/
theorem isNumber_support : ∀ pieces ∈ Support.lines, ∀ p ∈ pieces, p.isNumber = false := by
  decide +kernel

theorem map_kindless_epilogue : epilogue.map Act.kindless = epilogue := by
  have hpieces : ∀ pieces ∈ Support.lines, pieces.map Piece.kindless = pieces := by
    intro pieces hpieces
    have hkindless := List.map_congr_left fun p hp =>
      Piece.kindless_of_isNumber (isNumber_support pieces hpieces p hp)
    exact hkindless.trans (List.map_id pieces)
  have hsupport : (Support.lines.map Act.line).map Act.kindless = Support.lines.map Act.line := by
    rw [List.map_map]
    exact List.map_congr_left fun pieces h => congrArg Act.line (hpieces pieces h)
  simp only [epilogue, List.map_append, hsupport]
  rfl

end FlowScript.Puppeteer
