import FlowScript.Export.Framework
import FlowScript.Proofs.Script.Settled

/-!
# The acts of Puppeteer scripts

A step is one block, and all in it is settled but the payload that a wait for an element prints.
Steps stand one block deep.
-/
namespace FlowScript

@[simp] theorem Selector.nonFinites_toJson (s : Selector) : s.toJson.nonFinites = [] := by
  cases s <;> simp [toJson]

@[simp] theorem Alternatives.nonFinites_toJson (a : Alternatives) : a.toJson.nonFinites = [] := by
  simp [toJson]

/-- The doubles that are no number in what a step prints of its payload. -/
def Step.nonFinites : Step → List NonFinite
  | waitForElement _ w => w.properties.nonFinites
  | _ => []

/-- A field goes wrong with nothing, if it is left out or no value that it may have does. -/
theorem Json.elim_nonFinites {α : Type} {g : α → Json} (h : ∀ a, (g a).nonFinites = [])
    (o : Option α) : o.elim [] (nonFinites ∘ g) = [] := by
  cases o <;> simp [h]

theorem NavigationEvent.nonFinites_toJson (n : NavigationEvent) : n.toJson.nonFinites = [] := by
  simp [toJson, Json.nonFinites_ofFields, Json.elim_nonFinites]

theorem Step.nonFinites_toJson (e : ElementScope) (w : ElementWait) :
    (waitForElement e w).toJson.nonFinites = w.properties.nonFinites := by
  have hproperties : w.properties.nonNull?.elim [] Json.nonFinites = w.properties.nonFinites := by
    cases w.properties <;> rfl
  have hattributes (ms : List (Text × Text)) :
      (Json.obj (ms.map fun m => (m.1, .str m.2))).nonFinites = [] := by
    simp [List.flatMap_map]
  simp [toJson, fields, ElementScope.selectorsField, ElementWait.fields, FrameScope.fields,
    PageScope.targetField, PageScope.timeoutField, PageScope.eventsField, Json.nonFinites_ofFields,
    Json.elim_nonFinites, NavigationEvent.nonFinites_toJson, hattributes, hproperties, Json.int]

namespace Puppeteer
open Act

variable (s : Step)

theorem settled_timeoutActs : AllSettled (timeoutActs s) := by
  cases h : s.timeout <;> simp [timeoutActs, h]

theorem settled_contextActs : AllSettled (contextActs s) := by
  by_cases htarget : s.target = Step.mainTarget <;> by_cases hframe : s.inFrame = true <;>
    simp [contextActs, targetActs, htarget, hframe, Step.frameActs]

theorem settled_promiseActs : AllSettled (promiseActs s) := by
  by_cases h : s.assertedEvents.isEmpty = true <;> simp [promiseActs, h, AllSettled]

theorem settled_awaitActs : AllSettled (awaitActs s) := by
  by_cases h : s.assertedEvents.isEmpty = true <;> simp [awaitActs, h]

theorem settled_elementActs (selectors : Alternatives) :
    AllSettled (elementActs s selectors) := by
  simp [elementActs]

theorem settled_clickActs (p : Press) {extra : List (List Piece)} (h : Piece.EntriesSettled extra) :
    AllSettled (clickActs p extra) := by
  have hextra : ∀ option ∈ extra, Piece.AllSettled option := h
  cases hb : p.button <;> simpa [clickActs, hb] using hextra

theorem settled_delayLines (p : Press) : Piece.EntriesSettled (delayLines p) := by
  rw [delayLines]
  split
  · split <;> simp
  · simp

theorem settled_changeActs (value : Text) : AllSettled (changeActs value) := by
  simp [changeActs]

theorem settled_scrollActs (x y : Option Number) (selectors : Option Alternatives) :
    AllSettled (scrollActs s x y selectors) := by
  cases selectors <;> simp [scrollActs, settled_elementActs]

/-- Only the payload of a wait for an element can go wrong. -/
theorem prints_actionActs : Prints (actionActs s) s.nonFinites := by
  cases s with
  | change e value =>
    exact (allSettled_append.mpr ⟨settled_elementActs _ _, settled_changeActs value⟩).prints
  | click e p =>
    have hclick := settled_clickActs p (settled_delayLines p)
    exact (allSettled_append.mpr ⟨settled_elementActs _ _, hclick⟩).prints
  | doubleClick e p =>
    have hfirst := settled_clickActs p Piece.entriesSettled_nil
    have hsecond : AllSettled (clickActs p ([.code "clickCount: 2,"] :: delayLines p)) :=
      settled_clickActs p (by simp [settled_delayLines p])
    exact (allSettled_append.mpr
      ⟨allSettled_append.mpr ⟨settled_elementActs _ _, hfirst⟩, hsecond⟩).prints
  | hover e => exact (allSettled_append.mpr ⟨settled_elementActs _ _, by simp⟩).prints
  | scroll scope x y selectors => exact (settled_scrollActs _ x y selectors).prints
  | waitForElement e w =>
    refine ⟨?plain, ?failures⟩
    case plain => simp [actionActs, IsPlain]
    case failures =>
      simp [actionActs, Piece.nonFinite?_of_isSettled, Step.nonFinites_toJson, Step.nonFinites]
  | emulateNetworkConditions => exact AllSettled.prints (by simp [actionActs, networkActs])
  | _ => exact AllSettled.prints (by simp [actionActs])

/-- What stands in the block of a step. -/
def body : List Act :=
  timeoutActs s ++ contextActs s ++ promiseActs s ++ actionActs s ++ awaitActs s

theorem stepActs_eq :
    stepActs s = [Act.code "\x7b"] ++ (startBlock :: body s ++ [endBlock]) ++ [.code "\x7d"] := by
  simp [stepActs, body]

theorem prints_body : Prints (body s) s.nonFinites := by
  have hbefore : AllSettled (timeoutActs s ++ contextActs s ++ promiseActs s) := by
    simp [settled_timeoutActs, settled_contextActs, settled_promiseActs]
  have hbody := (hbefore.prints.append (prints_actionActs s)).append (settled_awaitActs s).prints
  simpa [body] using hbody

/-- The code of a step is one block. -/
theorem closed_stepActs : Closed (stepActs s) := by
  rw [stepActs_eq]
  exact .append (.append (.plain (isSettled_code _).isPlain)
    (.block (closed_of_isPlain (prints_body s).plain))) (.plain (isSettled_code _).isPlain)

theorem failures_stepActs : (stepActs s).flatMap failures = s.nonFinites.map .nonFinite := by
  rw [stepActs_eq]
  simp [(prints_body s).failures]

theorem settled_support : Piece.EntriesSettled Support.lines := by
  unfold Piece.EntriesSettled Piece.AllSettled
  decide +kernel

theorem shiftAll_lines (lines : List (List Piece)) : shiftAll (lines.map line) = 0 := by
  induction lines with
  | nil => rfl
  | cons pieces lines ih => simp [shiftAll, shift, ih]

variable (c : TemplateConfig) (r : Recording)

/-- The steps stand in one block, which the prologue opens. -/
theorem shiftAll_prologue : shiftAll (prologue c r) = 1 := rfl

theorem shiftAll_epilogue : shiftAll epilogue = -1 := by
  simp [epilogue, shiftAll_append, shiftAll_lines, shiftAll, shift, code]

variable {c}

/-- Only a default timeout that is no number makes the prologue fail. -/
theorem failures_prologue (h : ∀ x, c.defaultTimeout ≠ .nonFinite x) :
    (prologue c r).flatMap failures = [] := by
  have hdefault : (Piece.scalar c.defaultTimeout).nonFinite? = none := by
    cases hv : c.defaultTimeout with
    | nonFinite x => exact absurd hv (h x)
    | _ => rfl
  cases htimeout : r.timeout <;>
    simp [prologue, htimeout, Piece.nonFinite?_of_isSettled, hdefault]

theorem failures_epilogue : epilogue.flatMap failures = [] := by
  have hlines : AllSettled (Support.lines.map line) := allSettled_map.mpr settled_support
  simp [epilogue, hlines.prints.failures]

@[simp] theorem template_stepActs (c : TemplateConfig) (s : Step) (r : Option Recording) :
    (template c).stepActs s r = stepActs s := by
  simp [Template.stepActs, Template.optionalActs, Template.requiredActs, template]

end Puppeteer

end FlowScript
