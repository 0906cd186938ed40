import FlowScript.Proofs.Playwright.Steps
import FlowScript.Proofs.Script.TidyLines

/-!
# The lines of Playwright Test specifications are tidy

Only the size of a viewport is printed over several lines, and no code holds an angle bracket but for
arrows.
-/
namespace FlowScript.Playwright

section Pieces
open Piece

variable {entries : List (List Piece)} {s : Step}

theorem tidy_pageName (s : Step) {pieces : List Piece} (h : IsTidy false pieces) (fresh : Bool) :
    IsTidy fresh (code (pageName s) :: pieces) := by
  rw [pageName]
  split <;> simp [h]

theorem tidy_rootName (s : Step) {pieces : List Piece} (h : IsTidy false pieces) (fresh : Bool) :
    IsTidy fresh (code (rootName s) :: pieces) := by
  rw [rootName]
  split
  · simp [h]
  · exact tidy_pageName s h fresh

theorem tidy_commaList (h : EntriesTidy entries) : IsTidy false (commaList entries) :=
  intercalate_of_append isTidy_nil isTidy_append (by simp) h

theorem tidy_options (h : EntriesTidy entries) : EntriesTidy (options entries) := by
  by_cases hempty : entries.isEmpty = true
  · simp [options, hempty]
  · simp [options, hempty, tidy_commaList h]

theorem tidy_timeoutOption : EntriesTidy (timeoutOption s) := by
  cases h : s.timeout <;> simp [timeoutOption, h]

theorem tidy_delayOption (p : Press) : EntriesTidy (delayOption p) := by
  rw [delayOption]
  split
  · split <;> simp
  · simp

theorem tidy_buttonOption (p : Press) : EntriesTidy (buttonOption p).1 := by
  rw [buttonOption]
  split <;> simp

theorem tidy_call {receiver : List Piece} {method : String} (hreceiver : IsTidy false receiver)
    (hmethod : isTame method.toList = true) (h : EntriesTidy entries) :
    IsTidy false (call receiver method entries).pieces := by
  have harguments : IsTidy false (commaList entries ++ [code ");"]) := by
    simp [tidy_commaList h]
  have hcall : IsTidy false (code method :: code "(" :: (commaList entries ++ [code ");"])) :=
    ⟨hmethod, by simp [harguments]⟩
  simp [call, hreceiver, hcall]

end Pieces

/-- If there is a statement, it is tidy. -/
def Tidies (x : Except SkipReason Statement) : Prop :=
  ∀ st, x = .ok st → Piece.IsTidy false st.pieces

section Statements
open Piece

variable {s : Step} {preferred : Option Text}

theorem tidies_pure {st : Statement} (h : IsTidy false st.pieces) : Tidies (pure st) := by
  rintro _ ⟨⟩
  exact h

theorem tidies_throw (reason : SkipReason) : Tidies (throw reason) := nofun

theorem tidies_of_locator {selectors : Alternatives}
    {g : List Piece → Except SkipReason Statement}
    (h : ∀ element, IsTidy false element → Tidies (g element)) :
    Tidies (locator s preferred selectors >>= g) := by
  rw [locator]
  cases pickSelector selectors.toList preferred with
  | none => exact tidies_throw _
  | some selector => exact h _ (tidy_rootName s (by simp) false)

theorem tidies_click (e : ElementScope) (p : Press) {method : String}
    (hmethod : isTame method.toList = true) : Tidies (click s preferred e p method) := by
  refine tidies_of_locator fun element helement => tidies_pure ?_
  change IsTidy false (call element method
    (options ((buttonOption p).1 ++ delayOption p ++ timeoutOption s))).pieces
  refine tidy_call helement hmethod (tidy_options ?_)
  simp [tidy_buttonOption p, tidy_delayOption p, tidy_timeoutOption]

theorem tidies_keyboard (key : Text) {method : String} (hmethod : isTame method.toList = true) :
    Tidies (keyboard s key method) := by
  rw [keyboard]
  split
  · exact tidies_pure (tidy_call (tidy_pageName s (by simp) false) hmethod (by simp))
  · exact tidies_throw _

theorem tidies_waitForElement (e : ElementScope) (w : ElementWait) :
    Tidies (waitForElement s preferred e w) := by
  rw [waitForElement]
  dsimp only
  split
  · exact tidies_throw _
  split
  · refine tidies_of_locator fun element helement => tidies_pure ?_
    have hcount : EntriesTidy ([.number (w.count.getD 1)] :: options (timeoutOption s)) := by
      simp [tidy_options tidy_timeoutOption]
    simp [helement, tidy_commaList hcount]
  split
  · refine tidies_of_locator fun element helement => tidies_pure (tidy_call ?_ (by decide) ?_)
    · simp [helement]
    · refine tidy_options (entriesTidy_cons.mpr ⟨?_, tidy_timeoutOption⟩)
      split <;> simp
  · exact tidies_throw _

theorem tidies_statement : Tidies (statement s preferred) := by
  have htimeout (s : Step) := tidy_options (tidy_timeoutOption (s := s))
  cases s with
  | change e value =>
    refine tidies_of_locator fun element helement =>
      tidies_pure (tidy_call helement (by decide) ?_)
    simp [htimeout]
  | click e p => exact tidies_click e p (by decide)
  | doubleClick e p => exact tidies_click e p (by decide)
  | hover e =>
    exact tidies_of_locator fun element helement =>
      tidies_pure (tidy_call helement (by decide) (htimeout _))
  | keyDown _ key => exact tidies_keyboard key (by decide)
  | keyUp _ key => exact tidies_keyboard key (by decide)
  | customStep | emulateNetworkConditions => exact tidies_throw _
  | close =>
    exact tidies_pure (tidy_call (tidy_pageName _ isTidy_nil false) (by decide) entriesTidy_nil)
  | navigate _ url =>
    exact tidies_pure (tidy_call (tidy_pageName _ isTidy_nil false) (by decide) (by simp [htimeout]))
  | scroll _ x y selectors =>
    cases selectors with
    | none =>
      exact tidies_pure (tidy_call (tidy_pageName _ (by simp) false) (by decide) (by simp))
    | some alternatives =>
      exact tidies_of_locator fun element helement =>
        tidies_pure (tidy_call helement (by decide) (htimeout _))
  | setViewport _ v =>
    exact tidies_pure (tidy_call (tidy_pageName _ isTidy_nil false) (by decide) (by simp))
  | waitForElement e w => exact tidies_waitForElement e w
  | waitForExpression scope expression =>
    refine tidies_pure (tidy_call (tidy_rootName _ isTidy_nil false) (by decide) ?_)
    split <;> simp [htimeout]

end Statements

open Act

variable (c : TemplateConfig) (s : Step) (r : Option Recording)

theorem tidy_expectationActs : AllTidy (expectationActs s) := by
  rw [AllTidy, expectationActs, List.forall_mem_flatMap]
  intro e _
  cases hurl : e.url <;> cases htitle : e.title <;> simp [tidy_pageName]

theorem tidy_contextActs : AllTidy (contextActs s) := by
  have hsearch : Piece.IsTidy false (commaList (options
      ([.code "predicate: ", .code "p => p.url() === ", .quoted s.target] :: timeoutOption s))) :=
    tidy_commaList (tidy_options (by simp [tidy_timeoutOption]))
  by_cases htarget : s.target = Step.mainTarget <;> by_cases hframe : s.inFrame = true <;>
    simp [contextActs, htarget, hframe, Step.tidy_frameActs, hsearch]

theorem tidy_stepActs : AllTidy (stepActs c s r) := by
  rw [stepActs]
  split
  · simp
  · next st h =>
    have hbody : AllTidy (.line st.pieces :: expectationActs s) :=
      allTidy_cons.mpr ⟨(tidies_statement st h).of_false, tidy_expectationActs s⟩
    refine allTidy_append.mpr ⟨by simp, ?_⟩
    split
    · simp [tidy_contextActs, allTidy_cons.mp hbody]
    · exact hbody

theorem tidy_prologue (r : Recording) : AllTidy (prologue r) := by
  cases h : r.timeout <;> simp [prologue, h]

theorem tidy_epilogue : AllTidy epilogue := by
  simp [epilogue]

end FlowScript.Playwright
