import FlowScript.Proofs.Playwright.Steps
import FlowScript.Proofs.Script.Kind

/-!
# Kinds of numbers in Playwright Test specifications

A step without kinds of numbers is left out for the reason that the step is, or rendered by its
acts, without kinds: a count is compared with one by its value.
-/
namespace FlowScript.Playwright

/-- Entries without kinds of numbers. -/
abbrev kindlessEntries (entries : List (List Piece)) : List (List Piece) :=
  entries.map (List.map Piece.kindless)

def Statement.kindless (st : Statement) : Statement :=
  ⟨st.notices.map Notice.kindless, st.pieces.map Piece.kindless⟩

/-- A statement, or a reason for none, without kinds of numbers. -/
def kindlessOutcome : Except SkipReason Statement → Except SkipReason Statement
  | .ok st => .ok st.kindless
  | .error reason => .error reason.kindless

section Names
variable (s : Step)

@[simp] theorem isScoped_kindless : isScoped s.kindless = isScoped s := by
  simp [isScoped]

@[simp] theorem pageName_kindless : pageName s.kindless = pageName s := by
  simp [pageName]

@[simp] theorem rootName_kindless : rootName s.kindless = rootName s := by
  simp [rootName]

@[simp] theorem locator_kindless (preferred : Option Text) (selectors : Alternatives) :
    locator s.kindless preferred selectors = locator s preferred selectors := by
  simp [locator]

end Names

section Options
variable {s : Step}

theorem map_kindless_commaList (entries : List (List Piece)) :
    (commaList entries).map Piece.kindless = commaList (kindlessEntries entries) :=
  map_commaList rfl entries

theorem options_kindless (entries : List (List Piece)) :
    options (kindlessEntries entries) = kindlessEntries (options entries) := by
  by_cases h : entries.isEmpty = true <;> simp [options, h, map_kindless_commaList]

theorem timeoutOption_kindless : timeoutOption s.kindless = kindlessEntries (timeoutOption s) := by
  cases h : s.timeout <;> simp [timeoutOption, h]

theorem delayOption_kindless (p : Press) :
    delayOption p.kindless = kindlessEntries (delayOption p) := by
  cases hduration : p.duration with
  | none => simp [delayOption, Press.kindless, hduration]
  | some d =>
    by_cases hzero : d.isZero = true <;> simp [delayOption, Press.kindless, hduration, hzero]

/-- An option and a notice for a button show no number. -/
theorem buttonOption_kindless (p : Press) : buttonOption p.kindless =
    (kindlessEntries (buttonOption p).1, (buttonOption p).2.map Notice.kindless) := by
  have hbutton : p.kindless.button = p.button := rfl
  rw [buttonOption, hbutton, buttonOption]
  cases p.button with
  | none => rfl
  | some b => cases b <;> rfl

theorem call_kindless (receiver : List Piece) (method : String) (arguments : List (List Piece)) :
    (call receiver method arguments).kindless =
      call (receiver.map Piece.kindless) method (kindlessEntries arguments) := by
  simp [call, Statement.kindless, map_kindless_commaList]

end Options

section Statements

/-- The expression for an element shows no number. -/
theorem kindless_of_locator {s : Step} {preferred : Option Text} {selectors : Alternatives}
    {g g' : List Piece → Except SkipReason Statement}
    (h : ∀ element, element.map Piece.kindless = element →
      g' element = kindlessOutcome (g element)) :
    (locator s.kindless preferred selectors >>= g') =
      kindlessOutcome (locator s preferred selectors >>= g) := by
  rw [locator_kindless, locator]
  cases pickSelector selectors.toList preferred with
  | none => rfl
  | some selector => exact h _ (by simp)

theorem pure_call_kindless {receiver receiver' : List Piece} {method : String}
    {arguments arguments' : List (List Piece)} (hreceiver : receiver' = receiver.map Piece.kindless)
    (harguments : arguments' = kindlessEntries arguments) :
    pure (call receiver' method arguments') =
      kindlessOutcome (pure (call receiver method arguments)) := by
  rw [hreceiver, harguments, ← call_kindless]
  rfl

variable (s : Step) (preferred : Option Text)

theorem click_kindless (e : ElementScope) (p : Press) (method : String) :
    click s.kindless preferred e.kindless p.kindless method =
      kindlessOutcome (click s preferred e p method) := by
  simp only [click, buttonOption_kindless, delayOption_kindless, timeoutOption_kindless,
    ← List.map_append, options_kindless]
  refine kindless_of_locator fun element helement => ?_
  have hcall := call_kindless element method
    (options ((buttonOption p).1 ++ delayOption p ++ timeoutOption s))
  rw [helement] at hcall
  simp only [← hcall]
  rfl

theorem keyboard_kindless (key : Text) (method : String) :
    keyboard s.kindless key method = kindlessOutcome (keyboard s key method) := by
  rw [keyboard, keyboard, pageName_kindless]
  cases key? key with
  | none => rfl
  | some k => exact pure_call_kindless rfl rfl

theorem matchesPayload_kindless (w : ElementWait) :
    matchesPayload w.kindless = matchesPayload w := by
  simp [matchesPayload, ElementWait.kindless]

theorem waitForElement_kindless (e : ElementScope) (w : ElementWait) :
    waitForElement s.kindless preferred e.kindless w.kindless =
      kindlessOutcome (waitForElement s preferred e w) := by
  have hcount : w.kindless.count.getD 1 = (w.count.getD 1).kindless :=
    Number.getD_map_kindless w.count (Number.kindless_int 1)
  have hoperator : w.kindless.operator = w.operator := rfl
  have hvisible : w.kindless.visible = w.visible := rfl
  simp only [waitForElement, matchesPayload_kindless, hcount, hoperator, hvisible,
    Number.value_kindless, timeoutOption_kindless]
  by_cases hpayload : matchesPayload w = true
  · simp only [hpayload, if_true]
    rfl
  simp only [hpayload, Bool.false_eq_true, if_false]
  by_cases hexact : w.operator.getD .atLeast = .exactly ∧ w.visible.getD true = true
  · simp only [hexact, and_self, if_true]
    refine kindless_of_locator fun element helement => ?_
    simp [kindlessOutcome, Statement.kindless, pure, Except.pure, helement, map_kindless_commaList,
      options_kindless]
  simp only [hexact, if_false]
  by_cases hfirst : w.operator.getD .atLeast = .atLeast ∧ (w.count.getD 1).value = 1
  · simp only [hfirst, and_self, if_true]
    refine kindless_of_locator fun element helement => ?_
    refine pure_call_kindless (by simp [helement]) ?_
    rw [← options_kindless]
    rfl
  simp only [hfirst, if_false]
  rfl

theorem statement_kindless :
    statement s.kindless preferred = kindlessOutcome (statement s preferred) := by
  have hlimits : options (timeoutOption s.kindless) =
      kindlessEntries (options (timeoutOption s)) := by
    rw [timeoutOption_kindless, options_kindless]
  have hpage := pageName_kindless s
  have hroot := rootName_kindless s
  cases s with
  | change e value =>
    refine kindless_of_locator fun element helement => pure_call_kindless helement.symm ?_
    simpa [Step.kindless] using hlimits
  | click e p => exact click_kindless _ preferred e p "click"
  | close scope =>
    refine pure_call_kindless ?_ rfl
    simp [← hpage, Step.kindless]
  | customStep | emulateNetworkConditions => rfl
  | doubleClick e p => exact click_kindless _ preferred e p "dblclick"
  | hover e => exact kindless_of_locator fun element helement => pure_call_kindless helement.symm hlimits
  | keyDown scope key => exact keyboard_kindless _ key "down"
  | keyUp scope key => exact keyboard_kindless _ key "up"
  | navigate scope url =>
    refine pure_call_kindless ?_ ?_
    · simp [← hpage, Step.kindless]
    · simpa [Step.kindless] using hlimits
  | scroll scope x y selectors =>
    cases selectors with
    | some alternatives =>
      exact kindless_of_locator fun element helement => pure_call_kindless helement.symm hlimits
    | none =>
      refine pure_call_kindless ?_ ?_
      · simp [← hpage, Step.kindless]
      · simp [Number.getD_map_kindless]
  | setViewport scope v =>
    have hsize := Piece.value_kindless (.obj [("width", .num v.width), ("height", .num v.height)])
    simp only [Json.kindless_obj, List.map_cons, List.map_nil, Json.kindless_num] at hsize
    refine pure_call_kindless ?_ ?_
    · simp [← hpage, Step.kindless]
    · simpa [Viewport.kindless] using hsize
  | waitForElement e w => exact waitForElement_kindless _ preferred e w
  | waitForExpression scope expression =>
    refine pure_call_kindless ?_ ?_
    · simp [← hroot, Step.kindless]
    · rw [hlimits]
      cases options (timeoutOption (.waitForExpression scope expression)) <;> simp

end Statements

section Steps
variable (c : TemplateConfig) (s : Step) (r : Recording)

theorem expectationActs_kindless :
    expectationActs s.kindless = (expectationActs s).map Act.kindless := by
  simp only [expectationActs, Step.assertedEvents_kindless, pageName_kindless, List.map_flatMap]
  congr 1
  funext e
  cases e.url <;> cases e.title <;> simp

theorem contextActs_kindless : contextActs s.kindless = (contextActs s).map Act.kindless := by
  by_cases htarget : s.target = Step.mainTarget <;> by_cases hframe : s.inFrame = true <;>
    simp [contextActs, htarget, hframe, timeoutOption_kindless, options, map_kindless_commaList]

/-- A step without kinds has the acts of the step, without kinds. -/
theorem stepActs_kindless : stepActs c s.kindless (some r.kindless) =
    (stepActs c s (some r)).map Act.kindless := by
  have hpreferred : c.attributeFor (some r.kindless) = c.attributeFor (some r) := rfl
  rw [stepActs, hpreferred, statement_kindless, stepActs]
  cases statement s (c.attributeFor (some r)) with
  | error reason => simp [kindlessOutcome, Notice.kindless]
  | ok st =>
    by_cases hscope : isScoped s = true <;>
      simp [kindlessOutcome, Statement.kindless, hscope, contextActs_kindless,
        expectationActs_kindless]

theorem prologue_kindless : prologue r.kindless = (prologue r).map Act.kindless := by
  cases h : r.timeout <;> simp [prologue, Recording.kindless, h]

end Steps

end FlowScript.Playwright
