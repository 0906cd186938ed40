import FlowScript.Export.Framework
import FlowScript.Proofs.Script.Settled

/-!
# The acts of Playwright Test specifications

Everything that a specification prints of a recording is settled: a step that would print a payload
is left out. A step is one statement with its expectations, in a block if it has a scope of its own,
and steps stand two blocks deep.
-/
namespace FlowScript.Playwright

section Pieces
open Piece

variable {entries : List (List Piece)} {s : Step}

theorem settled_commaList (h : EntriesSettled entries) : AllSettled (commaList entries) :=
  intercalate_of_append allSettled_nil (fun hs ht => allSettled_append.mpr ⟨hs, ht⟩) (by simp) h

theorem settled_options (h : EntriesSettled entries) : EntriesSettled (options entries) := by
  by_cases hempty : entries.isEmpty = true
  · simp [options, hempty]
  · simp [options, hempty, settled_commaList h]

theorem settled_timeoutOption : EntriesSettled (timeoutOption s) := by
  cases h : s.timeout <;> simp [timeoutOption, h]

theorem settled_delayOption (p : Press) : EntriesSettled (delayOption p) := by
  rw [delayOption]
  split
  · split <;> simp
  · simp

theorem settled_buttonOption (p : Press) : EntriesSettled (buttonOption p).1 := by
  rw [buttonOption]
  split <;> simp

theorem settled_call {receiver : List Piece} {method : String} (hreceiver : AllSettled receiver)
    (h : EntriesSettled entries) : AllSettled (call receiver method entries).pieces := by
  simp [call, hreceiver, settled_commaList h]

/-- A change that leaves commas alone may be made before they are put in. -/
theorem map_commaList {change : Piece → Piece} (h : change (.code ", ") = .code ", ")
    (entries : List (List Piece)) :
    (commaList entries).map change = commaList (entries.map (List.map change)) := by
  rw [commaList, commaList]
  induction entries with
  | nil => rfl
  | cons e entries ih =>
    cases entries with
    | nil => simp
    | cons e' entries =>
      have hcons : (e :: e' :: entries).map (List.map change) = e.map change ::
          e'.map change :: entries.map (List.map change) := rfl
      rw [hcons, List.intercalate_cons_cons, List.intercalate_cons_cons, List.map_append,
        List.map_append, ih, List.map_singleton, h]
      rfl

end Pieces

/-- If there is a statement, it is settled. -/
def Settles (x : Except SkipReason Statement) : Prop :=
  ∀ st, x = .ok st → Piece.AllSettled st.pieces

section Statements
open Piece

variable {s : Step} {preferred : Option Text}

theorem settles_pure {st : Statement} (h : AllSettled st.pieces) : Settles (pure st) := by
  rintro _ ⟨⟩
  exact h

theorem settles_throw (reason : SkipReason) : Settles (throw reason) := nofun

theorem settles_of_locator {selectors : Alternatives}
    {g : List Piece → Except SkipReason Statement}
    (h : ∀ element, AllSettled element → Settles (g element)) :
    Settles (locator s preferred selectors >>= g) := by
  rw [locator]
  cases pickSelector selectors.toList preferred with
  | none => exact nofun
  | some selector => exact h _ (by simp)

theorem settles_click (e : ElementScope) (p : Press) (method : String) :
    Settles (click s preferred e p method) := by
  refine settles_of_locator fun element helement => settles_pure ?_
  change AllSettled (call element method
    (options ((buttonOption p).1 ++ delayOption p ++ timeoutOption s))).pieces
  refine settled_call helement (settled_options ?_)
  simp [settled_buttonOption p, settled_delayOption p, settled_timeoutOption]

theorem settles_keyboard (key : Text) (method : String) : Settles (keyboard s key method) := by
  rw [keyboard]
  split
  · exact settles_pure (settled_call (by simp) (by simp))
  · exact settles_throw _

theorem settles_waitForElement (e : ElementScope) (w : ElementWait) :
    Settles (waitForElement s preferred e w) := by
  rw [waitForElement]
  dsimp only
  split
  · exact nofun
  split
  · refine settles_of_locator fun element helement => settles_pure ?_
    have hcount : EntriesSettled ([.number (w.count.getD 1)] :: options (timeoutOption s)) := by
      simp [settled_options settled_timeoutOption]
    simp [helement, settled_commaList hcount]
  split
  · refine settles_of_locator fun element helement => settles_pure (settled_call ?_ ?_)
    · simp [helement]
    · exact settled_options (by simp [settled_timeoutOption])
  · exact settles_throw _

theorem settles_statement : Settles (statement s preferred) := by
  cases s with
  | change e value =>
    refine settles_of_locator fun element helement => settles_pure (settled_call helement ?_)
    simp [settled_options settled_timeoutOption]
  | click e p => exact settles_click e p "click"
  | doubleClick e p => exact settles_click e p "dblclick"
  | hover e =>
    exact settles_of_locator fun element helement =>
      settles_pure (settled_call helement (settled_options settled_timeoutOption))
  | keyDown _ key => exact settles_keyboard key "down"
  | keyUp _ key => exact settles_keyboard key "up"
  | customStep | emulateNetworkConditions => exact settles_throw _
  | close => exact settles_pure (settled_call (by simp) (by simp))
  | navigate =>
    exact settles_pure (settled_call (by simp) (by simp [settled_options settled_timeoutOption]))
  | scroll _ x y selectors =>
    cases selectors with
    | none => exact settles_pure (settled_call (by simp) (by simp))
    | some alternatives =>
      exact settles_of_locator fun element helement =>
        settles_pure (settled_call helement (settled_options settled_timeoutOption))
  | setViewport => exact settles_pure (settled_call (by simp) (by simp))
  | waitForElement e w => exact settles_waitForElement e w
  | waitForExpression scope expression =>
    have hlimits := settled_options (settled_timeoutOption (s := .waitForExpression scope expression))
    refine settles_pure (settled_call (by simp) ?_)
    split <;> simp [hlimits]

end Statements

open Act

variable (c : TemplateConfig) (s : Step) (r : Option Recording)

theorem settled_expectationActs : AllSettled (expectationActs s) := by
  rw [AllSettled, expectationActs, List.forall_mem_flatMap]
  intro e _
  cases hurl : e.url <;> cases htitle : e.title <;> simp

theorem settled_contextActs : AllSettled (contextActs s) := by
  have hsearch : Piece.AllSettled (commaList (options
      ([.code "predicate: ", .code "p => p.url() === ", .quoted s.target] :: timeoutOption s))) :=
    settled_commaList (settled_options (by simp [settled_timeoutOption]))
  by_cases htarget : s.target = Step.mainTarget <;> by_cases hframe : s.inFrame = true <;>
    simp [contextActs, htarget, hframe, Step.frameActs, hsearch]

theorem settled_body {preferred : Option Text} {st : Statement}
    (h : statement s preferred = .ok st) : AllSettled (.line st.pieces :: expectationActs s) :=
  allSettled_cons.mpr ⟨settles_statement st h, settled_expectationActs s⟩

/-- A step is notices, and then its code in a block or as it is. -/
theorem closed_stepActs : Closed (stepActs c s r) := by
  rw [stepActs]
  split
  · exact .plain trivial
  · next st h =>
    have hnotices : AllSettled (st.notices.map notify) := by simp
    have hbody := (settled_body s h).closed
    have hcode (t : String) : Closed [.code t] := .plain (isSettled_code t).isPlain
    refine hnotices.closed.append ?_
    split
    · have hblock := (settled_contextActs s).closed.append hbody |>.block
      simpa using ((hcode "\x7b").append hblock).append (hcode "\x7d")
    · exact hbody

theorem failures_stepActs : (stepActs c s r).flatMap failures = [] := by
  rw [stepActs]
  split
  · rfl
  · next st h =>
    have hnotices : AllSettled (st.notices.map notify) := by simp
    have hbody := (settled_body s h).prints.failures
    have hcontext := (settled_contextActs s).prints.failures
    rw [List.flatMap_append, hnotices.prints.failures]
    split <;> simp_all

/-- An empty attribute is no preference. -/
theorem statement_empty : statement s (some []) = statement s none := by
  cases s <;> rfl

/-- A step does not look at its recording but for the attribute in force. -/
theorem stepActs_attributeFor (r : Recording) : stepActs c s (some r) =
    stepActs { c with selectorAttribute := c.attributeFor (some r) } s none := by
  rw [stepActs, stepActs]
  rcases h : c.attributeFor (some r) with _ | (_ | ⟨x, xs⟩)
  · rfl
  · rw [statement_empty]
    rfl
  · rfl

/-- The steps stand in two blocks, which the prologue opens. -/
theorem shiftAll_prologue (r : Recording) : shiftAll (prologue r) = 2 := by
  cases h : r.timeout <;> simp [prologue, h, shiftAll, shift, code]

theorem failures_prologue (r : Recording) : (prologue r).flatMap failures = [] := by
  cases h : r.timeout <;> simp [prologue, h, Piece.nonFinite?_of_isSettled]

theorem shiftAll_epilogue : shiftAll epilogue = -2 := rfl

theorem failures_epilogue : epilogue.flatMap failures = [] := rfl

@[simp] theorem template_stepActs : (template c).stepActs s r = stepActs c s r := by
  simp [Template.stepActs, Template.optionalActs, Template.requiredActs, template]

end FlowScript.Playwright
