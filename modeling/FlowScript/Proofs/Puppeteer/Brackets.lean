import FlowScript.Proofs.Script.ScannedScripts
import FlowScript.Puppeteer.Template

/-!
# The brackets of Puppeteer scripts

Every step closes what it opens, as does every support function. What the prologue leaves open, the
epilogue closes.
-/
namespace FlowScript.Puppeteer
open Act Scan

/-- The variable of a step is a name, whichever it is. -/
theorem isNeutral_contextName (s : Step) : Piece.IsNeutral [.code (contextName s)] := by
  rw [contextName]
  split
  · exact Piece.isNeutral_of_isPlain (by decide)
  · exact Piece.isNeutral_of_isPlain (by decide)

section Steps

variable (s : Step)

theorem isNeutral_timeoutActs : IsNeutral (timeoutActs s) := by
  cases htimeout : s.timeout with
  | none =>
    simp only [timeoutActs, htimeout]
    exact isNeutral_nil
  | some t =>
    intro due
    simp only [timeoutActs, htimeout, scanAll, scan, Piece.scanAll, Piece.scan_code]
    rfl

theorem isNeutral_targetActs (target : Text) : IsNeutral (targetActs target) := by
  intro due
  rw [targetActs]
  split
  · simp only [code, scanAll, scan, Piece.scanAll, Piece.scan_code]
    rfl
  · simp only [code, scanAll, scan, Piece.scanAll, Piece.scan_code]
    rfl

theorem isNeutral_contextActs : IsNeutral (contextActs s) := by
  refine (isNeutral_targetActs s.target).append ?_
  split
  · exact Step.isNeutral_frameActs s.framePath
  · exact isNeutral_nil

theorem isNeutral_promiseActs : IsNeutral (promiseActs s) := by
  rw [promiseActs]
  split
  · exact isNeutral_nil
  refine .cons (fun due => ?declaration) (isNeutral_map fun event _ => isNeutral_line ?promise)
  case declaration =>
    simp only [code, scanAll, scan, Piece.scanAll, Piece.scan_code]
    rfl
  case promise =>
    refine (isNeutral_contextName s).of_hole [_] fun due => ?_
    simp only [List.cons_append, List.nil_append, Piece.scanAll, Piece.scan_code]
    rfl

theorem isNeutral_awaitActs : IsNeutral (awaitActs s) := by
  rw [awaitActs]
  split
  · exact isNeutral_nil
  · intro due
    simp only [code, scanAll, scan, Piece.scanAll, Piece.scan_code]
    rfl

/-- The list of selectors and the variable stand in the place of literals. -/
theorem isNeutral_elementLine (selectors : Alternatives) {before behind : String}
    (h : Piece.IsNeutral [.code before, .quoted [], .code ", ", .quoted [], .code behind]) :
    IsNeutral [line (.code before :: Piece.value selectors.toJson ++
      [.code ", ", .code (contextName s), .code behind])] :=
  isNeutral_line ((Piece.isNeutral_value selectors.toJson).of_hole [_]
    ((isNeutral_contextName s).of_hole [_, _, _] h))

theorem isNeutral_elementActs (selectors : Alternatives) : IsNeutral (elementActs s selectors) := by
  refine .cons (isNeutral_elementLine s selectors fun due => ?_)
    (isNeutral_elementLine s selectors fun due => ?_)
  · simp only [Piece.scanAll, Piece.scan_code]
    rfl
  · simp only [Piece.scanAll, Piece.scan_code]
    rfl

theorem isNeutral_delayLines (p : Press) : Piece.EntriesNeutral (delayLines p) := by
  have hdelay (d : Number) : Piece.IsNeutral [.code "delay: ", .number d, .code ","] := by
    intro due
    simp only [Piece.scanAll, Piece.scan_code]
    rfl
  rw [delayLines]
  split
  · split <;> simp [hdelay]
  · simp

theorem isNeutral_clickActs (p : Press) {extra : List (List Piece)}
    (hextra : Piece.EntriesNeutral extra) : IsNeutral (clickActs p extra) := by
  have hoptions : IsNeutral (extra.map fun option => line (.indent 1 :: option)) :=
    isNeutral_map fun option hoption => isNeutral_line
      ((Piece.isNeutral_indent 1).cons (hextra option hoption))
  intro due
  have hopening : (code "await element.click(\x7b").scan due =
      some (('\x7d' : CodePoint) :: ')' :: due) := by
    simp only [code, scan, Piece.scanAll, Piece.scan_code]
    rfl
  have hextra : scanAll due (code "await element.click(\x7b" ::
      extra.map fun option => line (.indent 1 :: option)) =
        some (('\x7d' : CodePoint) :: ')' :: due) := by
    rw [scanAll, hopening]
    exact hoptions _
  refine scanAll_between hextra ?button ?closing
  case button =>
    cases p.button with
    | none => exact isNeutral_nil
    | some b =>
      intro due
      cases b <;>
        (simp only [MouseButton.physicalName, scanAll, scan, Piece.scanAll, Piece.scan_code]; rfl)
  case closing =>
    simp only [code, scanAll, scan, Piece.scanAll, Piece.scan_code]
    rfl

theorem isNeutral_changeActs (value : Text) : IsNeutral (changeActs value) := by
  intro due
  simp only [changeActs, code, scanAll, scan, Piece.scanAll, Piece.scan_code, Piece.scanAll_append,
    List.cons_append]
  rfl

theorem isNeutral_networkActs (download upload latency : Number) :
    IsNeutral (networkActs download upload latency) := by
  intro due
  rw [networkActs]
  split <;>
    (simp only [code, scanAll, scan, Piece.scanAll, Piece.scan_code]; rfl)

theorem isNeutral_scrollActs (x y : Option Number) (selectors : Option Alternatives) :
    IsNeutral (scrollActs s x y selectors) := by
  cases selectors with
  | some alternatives =>
    refine (isNeutral_elementActs s alternatives).append fun due => ?_
    simp only [scanAll, scan, Piece.scanAll, Piece.scan_code]
    rfl
  | none =>
    refine isNeutral_line ((isNeutral_contextName s).of_hole [_] fun due => ?_)
    simp only [List.cons_append, List.nil_append, Piece.scanAll, Piece.scan_code]
    rfl

theorem isNeutral_actionActs : IsNeutral (actionActs s) := by
  cases s with
  | change e value => exact (isNeutral_elementActs _ _).append (isNeutral_changeActs value)
  | click e p =>
    exact (isNeutral_elementActs _ _).append (isNeutral_clickActs p (isNeutral_delayLines p))
  | doubleClick e p =>
    have hcount : Piece.IsNeutral [.code "clickCount: 2,"] := Piece.isNeutral_of_isPlain (by decide)
    exact ((isNeutral_elementActs _ _).append
      (isNeutral_clickActs p Piece.entriesNeutral_nil)).append
        (isNeutral_clickActs p (Piece.entriesNeutral_cons.mpr ⟨hcount, isNeutral_delayLines p⟩))
  | hover e =>
    refine (isNeutral_elementActs _ _).append fun due => ?_
    simp only [code, scanAll, scan, Piece.scanAll, Piece.scan_code]
    rfl
  | customStep _ name _ => exact isNeutral_notify _
  | emulateNetworkConditions _ download upload latency =>
    exact isNeutral_networkActs download upload latency
  | scroll _ x y selectors => exact isNeutral_scrollActs _ x y selectors
  | setViewport _ v =>
    have hsize := Piece.isNeutral_value (.obj [("width", .num v.width), ("height", .num v.height)])
    refine isNeutral_line (hsize.of_hole [_] fun due => ?_)
    simp only [List.cons_append, List.nil_append, Piece.scanAll, Piece.scan_code]
    rfl
  | waitForElement e w =>
    have hstep := Piece.isNeutral_value (Step.waitForElement e w).toJson
    refine isNeutral_line (hstep.of_hole [_]
      ((isNeutral_contextName _).of_hole [_, _, _] fun due => ?_))
    simp only [List.cons_append, List.nil_append, Piece.scanAll, Piece.scan_code]
    rfl
  | waitForExpression _ expression =>
    refine isNeutral_line ((isNeutral_contextName _).of_hole [_] fun due => ?_)
    simp only [List.cons_append, List.nil_append, Piece.scanAll, Piece.scan_code]
    rfl
  | close | keyDown | keyUp | navigate =>
    intro due
    simp only [actionActs, code, scanAll, scan, Piece.scanAll, Piece.scan_code]
    rfl

/-- The code of a step closes what it opens. -/
theorem isNeutral_stepActs : IsNeutral (stepActs s) := by
  have hbody := ((((isNeutral_timeoutActs s).append (isNeutral_contextActs s)).append
    (isNeutral_promiseActs s)).append (isNeutral_actionActs s)).append (isNeutral_awaitActs s)
  intro due
  have hopening : scanAll due [code "\x7b", startBlock] = some (('\x7d' : CodePoint) :: due) := by
    simp only [code, scanAll, scan, Piece.scanAll, Piece.scan_code]
    rfl
  have hclosing : scanAll (('\x7d' : CodePoint) :: due) [endBlock, code "\x7d"] = some due := by
    simp only [code, scanAll, scan, Piece.scanAll, Piece.scan_code]
    rfl
  simpa [stepActs] using scanAll_between hopening hbody hclosing

end Steps

namespace Support
open Snippet

theorem scanAll_margin (depth : Nat) (due : List CodePoint) (pieces : List Piece) :
    Piece.scanAll ⟨.code, due⟩ (margin depth ++ pieces) = Piece.scanAll ⟨.code, due⟩ pieces := by
  induction depth with
  | zero => rfl
  | succ depth ih =>
    rw [margin, List.replicate_succ, List.cons_append, ← margin, Piece.scanAll, Piece.scan_code]
    exact ih

/-- Every support function closes what it opens. -/
theorem isNeutral_functions : ∀ s ∈ functions, IsNeutral ((Snippet.lines 0 s).map line) := by
  intro s hs due
  simp only [functions, List.mem_cons, List.not_mem_nil, or_false] at hs
  rcases hs with rfl | rfl | rfl | rfl | rfl | rfl | rfl | rfl | rfl | rfl | rfl | rfl
  all_goals
    simp only [waitForSelectors, scrollIntoViewIfNeeded, waitForConnected, waitForInViewport,
      waitForSelector, waitForElement, querySelectorsAll, querySelectorAll, waitForFunction,
      changeSelectElement, changeElementValue, typeIntoElement, Snippet.lines, linesAll,
      List.cons_append, List.nil_append, List.map, scanAll, scan, Piece.scanAll, Piece.scan_code,
      scanAll_margin]
    rfl

theorem isNeutral_lines : IsNeutral (lines.map line) := by
  have happend {ls ls' : List (List Piece)} (h : IsNeutral (ls.map line))
      (h' : IsNeutral (ls'.map line)) : IsNeutral ((ls ++ ls').map line) := by
    rw [List.map_append]
    exact h.append h'
  exact intercalate_of_append (P := fun ls => IsNeutral (ls.map line)) isNeutral_nil happend
    (fun _ => rfl) (List.forall_mem_map.mpr isNeutral_functions)

end Support

section Frame

/-- What the first line of a script says; it ends in a comment. -/
def bannerText : Text := "const puppeteer = require('puppeteer'); // v13.0.0 or later"

theorem bannerText_facts :
    (Scan.run start (Text.ofLines [bannerText])).map (·.2) = some start ∧
    SourceMap.payload? bannerText = none ∧ bannerText.lines = [bannerText] ∧
    bannerText.trimRight = bannerText ∧ bannerText ≠ [] := by
  rw [bannerText, Text.ofString_ofList]
  decide

def banner : Banner where
  acts := [.line [.code "const puppeteer = require('puppeteer'); // v13.0.0 or later"]]
  lines := [bannerText]
  written unit := by
    obtain ⟨-, -, hlines, htrim, hne⟩ := bannerText_facts
    have htext : Piece.textAll unit 0
        [.code "const puppeteer = require('puppeteer'); // v13.0.0 or later"] =
          .ok (bannerText ++ []) := rfl
    simp [written, linesAt, htext, hlines, Writer.layout, htrim, hne, Text.repeated]
  closed := exists_run bannerText_facts.1
  unmarked := List.filterMap_cons_none bannerText_facts.2.1

/-- The prologue behind the banner. -/
def opening (c : TemplateConfig) (r : Recording) : List Act := (prologue c r).tail

/-- Brackets that stay open around the steps, the inner one first. -/
def openBrackets : List CodePoint := ['\x7d', ')']

theorem scanAll_opening {c : TemplateConfig} (h : c.defaultTimeout.IsAtomic) (r : Recording) :
    scanAll [] (opening c r) = some openBrackets := by
  obtain ⟨_, timeout⟩ := c
  rw [opening, prologue]
  cases r.timeout with
  | some t =>
    simp only [List.tail_cons, code, scanAll, scan, Piece.scanAll, Piece.scan_code]
    rfl
  | none =>
    cases timeout with
    | str _ => exact h.elim
    | arr _ => exact h.elim
    | obj _ => exact h.elim
    | _ =>
      simp only [List.tail_cons, code, scanAll, scan, Piece.scanAll, Piece.scan_code]
      rfl

theorem scanAll_epilogue : scanAll openBrackets epilogue = some [] := by
  have hopening : scanAll openBrackets [line [], code "await browser.close();", line []] =
      some openBrackets := by
    simp only [code, scanAll, scan, Piece.scanAll, Piece.scan_code]
    rfl
  rw [epilogue]
  refine scanAll_between hopening Support.isNeutral_lines ?_
  simp only [code, scanAll, scan, Piece.scanAll, Piece.scan_code]
  rfl

theorem isBracketed {c : TemplateConfig} (h : c.defaultTimeout.IsAtomic) (r : Recording) :
    (template c).IsBracketed r banner (opening c r) openBrackets where
  prologue := rfl
  opening := scanAll_opening h r
  steps step := by
    simpa [Template.stepActs, Template.optionalActs, Template.requiredActs, template] using
      isNeutral_stepActs step
  epilogue := scanAll_epilogue

end Frame

end FlowScript.Puppeteer
