import FlowScript.Playwright.Template
import FlowScript.Proofs.Script.ScannedScripts

/-!
# The brackets of Playwright Test specifications

Every statement closes what it opens, whatever a step records, and so does every step. What the
prologue leaves open, the epilogue closes.
-/
namespace FlowScript.Playwright

section Pieces
open Piece

variable {entries : List (List Piece)} {s : Step}

theorem isNeutral_pageName (s : Step) : IsNeutral [code (pageName s)] := by
  rw [pageName]
  split
  · exact isNeutral_of_isPlain (by decide)
  · exact isNeutral_of_isPlain (by decide)

theorem isNeutral_rootName (s : Step) : IsNeutral [code (rootName s)] := by
  rw [rootName]
  split
  · exact isNeutral_of_isPlain (by decide)
  · exact isNeutral_pageName s

theorem isNeutral_commaList (h : EntriesNeutral entries) : IsNeutral (commaList entries) :=
  intercalate_of_append isNeutral_nil IsNeutral.append (isNeutral_of_isPlain (by decide)) h

theorem isNeutral_options (h : EntriesNeutral entries) : EntriesNeutral (options entries) := by
  by_cases hempty : entries.isEmpty = true
  · simp [options, hempty]
  · have hbraces : IsNeutral (code "\x7b " :: commaList entries ++ [code " \x7d"]) := by
      refine (isNeutral_commaList h).of_hole [_] fun due => ?_
      simp only [List.cons_append, List.nil_append, scanAll, scan_code]
      rfl
    simpa [options, hempty] using hbraces

theorem isNeutral_timeoutOption (s : Step) : EntriesNeutral (timeoutOption s) := by
  have htimeout (t : Number) : IsNeutral [code "timeout: ", number t] := by
    intro due
    simp only [scanAll, scan_code]
    rfl
  cases h : s.timeout <;> simp [timeoutOption, h, htimeout]

theorem isNeutral_delayOption (p : Press) : EntriesNeutral (delayOption p) := by
  have hdelay (d : Number) : IsNeutral [code "delay: ", number d] := by
    intro due
    simp only [scanAll, scan_code]
    rfl
  rw [delayOption]
  split
  · split <;> simp [hdelay]
  · simp

theorem isNeutral_buttonOption (p : Press) : EntriesNeutral (buttonOption p).1 := by
  have hmiddle : IsNeutral [code "button: '", code "middle", code "'"] := by
    intro due
    simp only [scanAll, scan_code]
    rfl
  have hright : IsNeutral [code "button: '", code "right", code "'"] := by
    intro due
    simp only [scanAll, scan_code]
    rfl
  rw [buttonOption]
  split <;> simp [hmiddle, hright]

/-- A name stands in the place of a literal, the receiver and the arguments do as well. -/
theorem isNeutral_call {receiver : List Piece} {method : String} (hreceiver : IsNeutral receiver)
    (hmethod : IsNeutral [code method]) (h : EntriesNeutral entries) :
    IsNeutral (call receiver method entries).pieces := by
  have hcall : IsNeutral ([code "await "] ++ (receiver ++ [code ".", quoted [], code "(", quoted [],
      code ");"])) := by
    refine hreceiver.of_hole [_] fun due => ?_
    simp only [List.cons_append, List.nil_append, scanAll, scan_code]
    rfl
  have hnamed : IsNeutral ((code "await " :: receiver ++ [code "."]) ++
      ([code method] ++ [code "(", quoted [], code ");"])) :=
    hmethod.of_hole _ (by simpa using hcall)
  have hfilled : IsNeutral ((code "await " :: receiver ++ [code ".", code method, code "("]) ++
      (commaList entries ++ [code ");"])) :=
    (isNeutral_commaList h).of_hole _ (by simpa using hnamed)
  simpa [call] using hfilled

end Pieces

/-- If there is a statement, it closes what it opens. -/
def Balances (x : Except SkipReason Statement) : Prop :=
  ∀ st, x = .ok st → Piece.IsNeutral st.pieces

section Statements
open Piece

variable {s : Step} {preferred : Option Text}

theorem balances_pure {st : Statement} (h : IsNeutral st.pieces) : Balances (pure st) := by
  rintro _ ⟨⟩
  exact h

theorem balances_throw (reason : SkipReason) : Balances (throw reason) := nofun

theorem balances_of_locator {selectors : Alternatives}
    {g : List Piece → Except SkipReason Statement}
    (h : ∀ element, IsNeutral element → Balances (g element)) :
    Balances (locator s preferred selectors >>= g) := by
  rw [locator]
  cases pickSelector selectors.toList preferred with
  | none => exact nofun
  | some selector =>
    refine h _ ((isNeutral_rootName s).of_hole [] fun due => ?_)
    simp only [List.nil_append, scanAll, scan_code]
    rfl

theorem balances_click (e : ElementScope) (p : Press) {method : String}
    (hmethod : IsNeutral [code method]) : Balances (click s preferred e p method) := by
  refine balances_of_locator fun element helement => balances_pure ?_
  change IsNeutral (call element method
    (options ((buttonOption p).1 ++ delayOption p ++ timeoutOption s))).pieces
  refine isNeutral_call helement hmethod (isNeutral_options ?_)
  simp [isNeutral_buttonOption p, isNeutral_delayOption p, isNeutral_timeoutOption]

theorem balances_keyboard (key : Text) {method : String} (hmethod : IsNeutral [code method]) :
    Balances (keyboard s key method) := by
  have hkeyboard : IsNeutral [code (pageName s), code ".keyboard"] := by
    refine (isNeutral_pageName s).of_hole [] fun due => ?_
    simp only [List.nil_append, scanAll, scan_code]
    rfl
  rw [keyboard]
  split
  · next k _ =>
    have hkey : IsNeutral [quoted k] := fun _ => rfl
    exact balances_pure (isNeutral_call hkeyboard hmethod (by simp [hkey]))
  · exact balances_throw _

theorem balances_waitForElement (e : ElementScope) (w : ElementWait) :
    Balances (waitForElement s preferred e w) := by
  rw [waitForElement]
  dsimp only
  split
  · exact nofun
  split
  · refine balances_of_locator fun element helement => balances_pure ?_
    have hnumber : IsNeutral [number (w.count.getD 1)] := fun _ => rfl
    have harguments := isNeutral_commaList (entriesNeutral_cons.mpr
      ⟨hnumber, isNeutral_options (isNeutral_timeoutOption s)⟩)
    have hexpect : IsNeutral ([code "await expect("] ++ (element ++ [code ").toHaveCount(",
        quoted [], code ");"])) := by
      refine helement.of_hole [_] fun due => ?_
      simp only [List.cons_append, List.nil_append, scanAll, scan_code]
      rfl
    have hfilled : IsNeutral ((code "await expect(" :: element ++ [code ").toHaveCount("]) ++
        (commaList ([number (w.count.getD 1)] :: options (timeoutOption s)) ++ [code ");"])) :=
      harguments.of_hole _ (by simpa using hexpect)
    simpa using hfilled
  split
  · refine balances_of_locator fun element helement => balances_pure ?_
    have hfirst : IsNeutral [code ".first()"] := by
      intro due
      simp only [scanAll, scan_code]
      rfl
    have hstate : IsNeutral [code (if w.visible.getD true then "state: 'attached'"
        else "state: 'detached'")] := by
      intro due
      split <;> (simp only [scanAll, scan_code]; rfl)
    exact isNeutral_call (helement.append hfirst) (isNeutral_of_isPlain (by decide))
      (isNeutral_options (entriesNeutral_cons.mpr ⟨hstate, isNeutral_timeoutOption s⟩))
  · exact balances_throw _

theorem balances_statement : Balances (statement s preferred) := by
  have hquoted (t : Text) : IsNeutral [quoted t] := fun _ => rfl
  have htimeout := isNeutral_options (isNeutral_timeoutOption s)
  cases s with
  | change e value =>
    exact balances_of_locator fun element helement => balances_pure (isNeutral_call helement
      (isNeutral_of_isPlain (by decide)) (entriesNeutral_cons.mpr ⟨hquoted value, htimeout⟩))
  | click e p => exact balances_click e p (isNeutral_of_isPlain (by decide))
  | doubleClick e p => exact balances_click e p (isNeutral_of_isPlain (by decide))
  | hover e =>
    exact balances_of_locator fun element helement =>
      balances_pure (isNeutral_call helement (isNeutral_of_isPlain (by decide)) htimeout)
  | keyDown _ key => exact balances_keyboard key (isNeutral_of_isPlain (by decide))
  | keyUp _ key => exact balances_keyboard key (isNeutral_of_isPlain (by decide))
  | customStep | emulateNetworkConditions => exact balances_throw _
  | close =>
    exact balances_pure (isNeutral_call (isNeutral_pageName _) (isNeutral_of_isPlain (by decide))
      entriesNeutral_nil)
  | navigate _ url =>
    exact balances_pure (isNeutral_call (isNeutral_pageName _) (isNeutral_of_isPlain (by decide))
      (entriesNeutral_cons.mpr ⟨hquoted url, htimeout⟩))
  | scroll _ x y selectors =>
    cases selectors with
    | none =>
      have hnumber (n : Number) : IsNeutral [number n] := fun _ => rfl
      have hmouse : IsNeutral [code ".mouse"] := isNeutral_of_isPlain (by decide)
      exact balances_pure (isNeutral_call ((isNeutral_pageName _).append hmouse)
        (isNeutral_of_isPlain (by decide)) (by simp [hnumber]))
    | some alternatives =>
      exact balances_of_locator fun element helement =>
        balances_pure (isNeutral_call helement (isNeutral_of_isPlain (by decide)) htimeout)
  | setViewport _ v =>
    exact balances_pure (isNeutral_call (isNeutral_pageName _) (isNeutral_of_isPlain (by decide))
      (by simp [isNeutral_value]))
  | waitForElement e w => exact balances_waitForElement e w
  | waitForExpression _ expression =>
    have hundefined : IsNeutral [code "undefined"] := isNeutral_of_isPlain (by decide)
    refine balances_pure (isNeutral_call (isNeutral_rootName _) (isNeutral_of_isPlain (by decide))
      (entriesNeutral_cons.mpr ⟨hquoted expression, ?_⟩))
    split <;> simp [hundefined, htimeout]

end Statements

section Steps
open Act

variable (c : TemplateConfig) (s : Step) (r : Option Recording)

theorem isNeutral_expectationActs : IsNeutral (expectationActs s) := by
  have hexpect (t : Text) : IsNeutral
      [line [.code "await expect(", .code (pageName s), .code ").toHaveURL(", .quoted t,
        .code ");"]] := by
    refine isNeutral_line ((isNeutral_pageName s).of_hole [_] fun due => ?_)
    simp only [List.cons_append, List.nil_append, Piece.scanAll, Piece.scan_code]
    rfl
  have htitle (t : Text) : IsNeutral
      [line [.code "await expect(", .code (pageName s), .code ").toHaveTitle(", .quoted t,
        .code ");"]] := by
    refine isNeutral_line ((isNeutral_pageName s).of_hole [_] fun due => ?_)
    simp only [List.cons_append, List.nil_append, Piece.scanAll, Piece.scan_code]
    rfl
  refine isNeutral_flatMap fun e _ => .append ?_ ?_
  · cases e.url with
    | none => exact isNeutral_nil
    | some url => exact hexpect url
  · cases e.title with
    | none => exact isNeutral_nil
    | some title => exact htitle title

theorem isNeutral_contextActs : IsNeutral (contextActs s) := by
  have hframe : IsNeutral (if s.inFrame then Step.frameActs s.framePath else []) := by
    split
    · exact Step.isNeutral_frameActs s.framePath
    · exact isNeutral_nil
  refine .cons ?_ hframe
  split
  · intro due
    simp only [code, scanAll, scan, Piece.scanAll, Piece.scan_code]
    rfl
  · have hpredicate : Piece.IsNeutral
        [.code "predicate: ", .code "p => p.url() === ", .quoted s.target] := by
      intro due
      simp only [Piece.scanAll, Piece.scan_code]
      rfl
    have hsearch := isNeutral_commaList (isNeutral_options (Piece.entriesNeutral_cons.mpr
      ⟨hpredicate, isNeutral_timeoutOption s⟩))
    refine isNeutral_line (hsearch.of_hole [_, _, _, _] fun due => ?_)
    simp only [List.cons_append, List.nil_append, Piece.scanAll, Piece.scan_code]
    rfl

/-- A step closes what it opens, in a scope of its own or not. -/
theorem isNeutral_stepActs : IsNeutral (stepActs c s r) := by
  rw [stepActs]
  split
  · exact isNeutral_notify _
  · next st h =>
    have hbody : IsNeutral (line st.pieces :: expectationActs s) :=
      .cons (isNeutral_line (balances_statement st h)) (isNeutral_expectationActs s)
    refine (isNeutral_map fun n _ => isNeutral_notify n).append ?_
    split
    · intro due
      have hopening :
          scanAll due [code "\x7b", startBlock] = some (('\x7d' : CodePoint) :: due) := by
        simp only [code, scanAll, scan, Piece.scanAll, Piece.scan_code]
        rfl
      have hclosing : scanAll (('\x7d' : CodePoint) :: due) [endBlock, code "\x7d"] = some due := by
        simp only [code, scanAll, scan, Piece.scanAll, Piece.scan_code]
        rfl
      simpa using scanAll_between hopening ((isNeutral_contextActs s).append hbody) hclosing
    · exact hbody

end Steps

section Frame
open Act

/-- Brackets that stay open around the steps, the innermost first. -/
def openBrackets : List CodePoint := ['\x7d', ')', '\x7d', ')']

theorem scanAll_prologue (r : Recording) : scanAll [] (prologue r) = some openBrackets := by
  rw [prologue, scanAll_append]
  simp only [code, scanAll, scan, Piece.scanAll, Piece.scan_code]
  cases r.timeout with
  | none => rfl
  | some t =>
    simp only [scanAll, scan, Piece.scanAll, Piece.scan_code]
    rfl

theorem scanAll_epilogue : scanAll openBrackets epilogue = some [] := by
  simp only [epilogue, code, scanAll, scan, Piece.scanAll, Piece.scan_code]
  rfl

/-- A specification starts with its prologue. -/
def banner : Banner := ⟨[], [], fun _ => rfl, ⟨[], rfl⟩, rfl⟩

theorem isBracketed (c : TemplateConfig) (r : Recording) :
    (template c).IsBracketed r banner (prologue r) openBrackets where
  prologue := rfl
  opening := scanAll_prologue r
  steps step := by
    simpa [Template.stepActs, Template.optionalActs, Template.requiredActs, template] using
      isNeutral_stepActs c step (some r)
  epilogue := scanAll_epilogue

end Frame

end FlowScript.Playwright
