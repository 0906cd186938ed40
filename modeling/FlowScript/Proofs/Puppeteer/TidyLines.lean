import FlowScript.Proofs.Puppeteer.Steps
import FlowScript.Proofs.Script.TidyLines

/-!
# The lines of Puppeteer scripts are tidy

In front of the options of a click and of network conditions stand indentations, and the support
functions compare numbers.
-/
namespace FlowScript.Puppeteer
open Act

variable (s : Step)

theorem tidy_contextName {pieces : List Piece} (h : Piece.IsTidy false pieces) (fresh : Bool) :
    Piece.IsTidy fresh (.code (contextName s) :: pieces) := by
  rw [contextName]
  split <;> simp [h]

theorem tidy_timeoutActs : AllTidy (timeoutActs s) := by
  cases h : s.timeout <;> simp [timeoutActs, h]

theorem tidy_contextActs : AllTidy (contextActs s) := by
  by_cases htarget : s.target = Step.mainTarget <;> by_cases hframe : s.inFrame = true <;>
    simp [contextActs, targetActs, htarget, hframe, Step.tidy_frameActs]

theorem tidy_promiseActs : AllTidy (promiseActs s) := by
  by_cases h : s.assertedEvents.isEmpty = true <;>
    simp [promiseActs, h, AllTidy, tidy_contextName]

theorem tidy_awaitActs : AllTidy (awaitActs s) := by
  by_cases h : s.assertedEvents.isEmpty = true <;> simp [awaitActs, h]

theorem tidy_elementActs (selectors : Alternatives) : AllTidy (elementActs s selectors) := by
  simp [elementActs, tidy_contextName]

theorem tidy_clickActs (p : Press) {extra : List (List Piece)} (h : Piece.EntriesTidy extra) :
    AllTidy (clickActs p extra) := by
  have hextra : ∀ option ∈ extra, Piece.IsTidy true option := fun option hoption =>
    (h option hoption).of_false
  have hname (b : MouseButton) : Piece.IsTidy false [.code b.physicalName, .code "',"] := by
    cases b <;> simp [MouseButton.physicalName]
  cases hb : p.button <;> simpa [clickActs, hb, hname] using hextra

theorem tidy_delayLines (p : Press) : Piece.EntriesTidy (delayLines p) := by
  rw [delayLines]
  split
  · split <;> simp
  · simp

theorem tidy_changeActs (value : Text) : AllTidy (changeActs value) := by
  simp [changeActs]

theorem tidy_networkActs (download upload latency : Number) :
    AllTidy (networkActs download upload latency) := by
  rw [networkActs]
  split <;> simp

theorem tidy_scrollActs (x y : Option Number) (selectors : Option Alternatives) :
    AllTidy (scrollActs s x y selectors) := by
  cases selectors <;> simp [scrollActs, tidy_elementActs, tidy_contextName]

theorem tidy_actionActs : AllTidy (actionActs s) := by
  cases s with
  | change e value => exact allTidy_append.mpr ⟨tidy_elementActs _ _, tidy_changeActs value⟩
  | click e p =>
    exact allTidy_append.mpr ⟨tidy_elementActs _ _, tidy_clickActs p (tidy_delayLines p)⟩
  | doubleClick e p =>
    have hfirst := tidy_clickActs p Piece.entriesTidy_nil
    have hsecond : AllTidy (clickActs p ([.code "clickCount: 2,"] :: delayLines p)) :=
      tidy_clickActs p (by simp [tidy_delayLines p])
    exact allTidy_append.mpr ⟨allTidy_append.mpr ⟨tidy_elementActs _ _, hfirst⟩, hsecond⟩
  | hover e =>
    refine allTidy_append.mpr ⟨tidy_elementActs _ _, ?_⟩
    simp
  | scroll _ x y selectors => exact tidy_scrollActs _ x y selectors
  | emulateNetworkConditions _ download upload latency =>
    exact tidy_networkActs download upload latency
  | _ => simp [actionActs, tidy_contextName]

theorem tidy_stepActs : AllTidy (stepActs s) := by
  simp [stepActs, tidy_timeoutActs, tidy_contextActs, tidy_promiseActs, tidy_actionActs,
    tidy_awaitActs]

namespace Support
open Snippet

theorem tidy_margin (depth : Nat) (fresh : Bool) (l : List Char) (pieces : List Piece) :
    Piece.IsTidy fresh (margin depth ++ .code (no_index (String.ofList l)) :: pieces) ↔
      Piece.isTame l = true ∧ Piece.IsTidy false pieces := by
  induction depth generalizing fresh with
  | zero => exact Piece.isTidy_code
  | succ depth ih =>
    rw [margin, List.replicate_succ, ← margin, List.cons_append, Piece.isTidy_code, ih]
    exact and_iff_right rfl

/-- The functions compare numbers, and that is all their code does with angle brackets. -/
theorem tidy_functions : ∀ s ∈ functions, AllTidy ((Snippet.lines 0 s).map line) := by
  intro s hs
  simp only [functions, List.mem_cons, List.not_mem_nil, or_false] at hs
  rcases hs with rfl | rfl | rfl | rfl | rfl | rfl | rfl | rfl | rfl | rfl | rfl | rfl
  all_goals
    simp only [waitForSelectors, scrollIntoViewIfNeeded, waitForConnected, waitForInViewport,
      waitForSelector, waitForElement, querySelectorsAll, querySelectorAll, waitForFunction,
      changeSelectElement, changeElementValue, typeIntoElement, Snippet.lines, linesAll,
      List.cons_append, List.nil_append, List.map, allTidy_cons, isTidy_line, tidy_margin,
      Piece.isTidy_code, Piece.isTidy_nil, allTidy_nil, true_and, and_true]
    and_intros <;> rfl

theorem tidy_lines : AllTidy (lines.map line) := by
  have happend {ls ls' : List (List Piece)} (h : AllTidy (ls.map line))
      (h' : AllTidy (ls'.map line)) : AllTidy ((ls ++ ls').map line) := by
    rw [List.map_append]
    exact allTidy_append.mpr ⟨h, h'⟩
  exact intercalate_of_append (P := fun ls => AllTidy (ls.map line)) allTidy_nil happend (by simp)
    (List.forall_mem_map.mpr tidy_functions)

end Support

variable (c : TemplateConfig) (r : Recording)

theorem tidy_prologue : AllTidy (prologue c r) := by
  cases h : r.timeout <;> simp [prologue, h]

theorem tidy_epilogue : AllTidy epilogue := by
  have hsupport : ∀ pieces ∈ Support.lines, Piece.IsTidy true pieces :=
    allTidy_map.mp Support.tidy_lines
  simpa [epilogue] using hsupport

end FlowScript.Puppeteer
