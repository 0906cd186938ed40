import FlowScript.Playwright.Selector
import FlowScript.Script.Scope
import FlowScript.Text.Case

/-!
# Playwright Test specifications

One test per recording, one statement per step. A step that Playwright cannot express is left out
with a notice, and then writes nothing, not even its scope.
-/
namespace FlowScript.Playwright

/-- Key names in lower case, and Playwright's names for them. -/
def namedKeys : List (Text × Text) :=
  [("backspace", "Backspace"), ("enter", "Enter"), ("arrowup", "ArrowUp"),
    ("arrowdown", "ArrowDown"), ("arrowleft", "ArrowLeft"), ("arrowright", "ArrowRight"),
    ("escape", "Escape"), ("pageup", "PageUp"), ("pagedown", "PageDown"), ("end", "End"),
    ("home", "Home"), ("insert", "Insert"), ("delete", "Delete"), ("tab", "Tab"),
    ("shift", "Shift"), ("control", "Control"), ("alt", "Alt"), ("meta", "Meta")]

/-- A key by its name in any case, or by the one code point it types. -/
def key? (key : Text) : Option Text :=
  match namedKeys.find? fun k => k.1 = key.lower with
  | some k => some k.2
  | none => if key.length = 1 then some key else none

/-- Whether the step needs a scope of its own, for another page or a frame. -/
def isScoped (s : Step) : Bool := s.target ≠ Step.mainTarget || s.inFrame

/-- The variable that stands for the page of a step. -/
def pageName (s : Step) : String := if isScoped s then "targetPage" else "page"

/-- The variable that stands for the frame of a step, or for its page. -/
def rootName (s : Step) : String := if s.inFrame then "frame" else pageName s

/-- Entries with a comma between neighbours. -/
def commaList (entries : List (List Piece)) : List Piece := [Piece.code ", "].intercalate entries

/-- An options object with these entries; none at all without entries. -/
def options (entries : List (List Piece)) : List (List Piece) :=
  if entries.isEmpty then []
  else [.code "\x7b " :: commaList entries ++ [.code " \x7d"]]

def timeoutOption (s : Step) : List (List Piece) :=
  match s.timeout with
  | some t => [[.code "timeout: ", .number t]]
  | none => []

/-- The code of a step: notices that go with it, and one statement. -/
structure Statement where
  notices : List Notice := []
  pieces : List Piece

/-- The element that a step acts on, as an expression. -/
def locator (s : Step) (preferred : Option Text) (selectors : Alternatives) :
    Except SkipReason (List Piece) :=
  match pickSelector selectors.toList preferred with
  | some selector => pure [.code (rootName s), .code ".locator(", .quoted selector, .code ")"]
  | none => throw .noUsableSelector

/-- A call of a method of a page or an element. -/
def call (receiver : List Piece) (method : String) (arguments : List (List Piece)) : Statement :=
  ⟨[], .code "await " :: receiver ++ .code "." :: .code method :: .code "(" ::
    commaList arguments ++ [.code ");"]⟩

/-- The buttons with an option of their own, the left one being implied; others are ignored. -/
def buttonOption (p : Press) : List (List Piece) × List Notice :=
  match p.button with
  | none | some .primary => ([], [])
  | some .auxiliary => ([[.code "button: '", .code "middle", .code "'"]], [])
  | some .secondary => ([[.code "button: '", .code "right", .code "'"]], [])
  | some b => ([], [.buttonIgnored b])

def delayOption (p : Press) : List (List Piece) :=
  match p.duration with
  | some d => if d.isZero then [] else [[.code "delay: ", .number d]]
  | none => []

def click (s : Step) (preferred : Option Text) (e : ElementScope) (p : Press) (method : String) :
    Except SkipReason Statement := do
  let element ← locator s preferred e.selectors
  let (button, notices) := buttonOption p
  pure { call element method (options (button ++ delayOption p ++ timeoutOption s)) with
    notices := notices }

def keyboard (s : Step) (key : Text) (method : String) : Except SkipReason Statement :=
  match key? key with
  | some k => pure (call [.code (pageName s), .code ".keyboard"] method [[.quoted k]])
  | none => throw (.unsupportedKey key)

/-- Whether elements are matched by their attributes or properties. -/
def matchesPayload (w : ElementWait) : Bool :=
  w.attributes.any (fun ms => !ms.isEmpty) || !w.properties.isFalsy

/-- Two waits can be expressed: for an exact number of visible elements, and for the first element
to come or go. -/
def waitForElement (s : Step) (preferred : Option Text) (e : ElementScope) (w : ElementWait) :
    Except SkipReason Statement := do
  let operator := w.operator.getD .atLeast
  let count := w.count.getD 1
  let visible := w.visible.getD true
  if matchesPayload w then throw .payloadMatching
  if operator = .exactly ∧ visible = true then
    let element ← locator s preferred e.selectors
    pure ⟨[], .code "await expect(" :: element ++ .code ").toHaveCount(" ::
      commaList ([.number count] :: options (timeoutOption s)) ++ [.code ");"]⟩
  else if operator = .atLeast ∧ count.value = 1 then
    let element ← locator s preferred e.selectors
    let state : List Piece :=
      [.code (if visible then "state: 'attached'" else "state: 'detached'")]
    pure (call (element ++ [.code ".first()"]) "waitFor" (options (state :: timeoutOption s)))
  else throw (.elementCount operator count)

/-- The statement for a step, or why there is none. -/
def statement (s : Step) (preferred : Option Text) : Except SkipReason Statement :=
  match s with
  | .change e value => do
    let element ← locator s preferred e.selectors
    pure (call element "fill" ([.quoted value] :: options (timeoutOption s)))
  | .click e p => click s preferred e p "click"
  | .close _ => pure (call [.code (pageName s)] "close" [])
  | .customStep _ name _ => throw (.customStep name)
  | .doubleClick e p => click s preferred e p "dblclick"
  | .emulateNetworkConditions .. => throw .networkEmulation
  | .hover e => do
    let element ← locator s preferred e.selectors
    pure (call element "hover" (options (timeoutOption s)))
  | .keyDown _ key => keyboard s key "down"
  | .keyUp _ key => keyboard s key "up"
  | .navigate _ url =>
    pure (call [.code (pageName s)] "goto" ([.quoted url] :: options (timeoutOption s)))
  | .scroll _ x y selectors =>
    match selectors with
    | some alternatives => do
      let element ← locator s preferred alternatives
      pure (call element "scrollIntoViewIfNeeded" (options (timeoutOption s)))
    | none =>
      pure (call [.code (pageName s), .code ".mouse"] "wheel"
        [[.number (x.getD 0)], [.number (y.getD 0)]])
  | .setViewport _ v =>
    pure (call [.code (pageName s)] "setViewportSize"
      [Piece.value (.obj [("width", .num v.width), ("height", .num v.height)])])
  | .waitForElement e w => waitForElement s preferred e w
  | .waitForExpression _ expression =>
    let limits := options (timeoutOption s)
    pure (call [.code (rootName s)] "waitForFunction"
      ([.quoted expression] ::
        if limits.isEmpty then [] else [.code "undefined"] :: limits))

/-- What the page has to show after a step. -/
def expectationActs (s : Step) : List Act :=
  s.assertedEvents.flatMap fun e =>
    (match e.url with
      | some url =>
        [Act.line [.code "await expect(", .code (pageName s), .code ").toHaveURL(", .quoted url,
          .code ");"]]
      | none => []) ++
    (match e.title with
      | some title =>
        [Act.line [.code "await expect(", .code (pageName s), .code ").toHaveTitle(",
          .quoted title, .code ");"]]
      | none => [])

/-- Declares the page of a step, which may have to open first, and its frame. -/
def contextActs (s : Step) : List Act :=
  let isTarget : List Piece := [.code "p => p.url() === ", .quoted s.target]
  (if s.target = Step.mainTarget then Act.code "const targetPage = page;"
    else .line (.code "const targetPage = context.pages().find(" :: isTarget ++
      .code ") || await context.waitForEvent('page', " ::
      commaList (options ((.code "predicate: " :: isTarget) :: timeoutOption s)) ++
      [.code ");"])) ::
  if s.inFrame then Step.frameActs s.framePath else []

def stepActs (c : TemplateConfig) (s : Step) (r : Option Recording) : List Act :=
  match statement s (c.attributeFor r) with
  | .error reason =>
    [.notify (.skipped s.type (s.selectors?.map fun a => a.best.first) reason)]
  | .ok statement =>
    let body := Act.line statement.pieces :: expectationActs s
    statement.notices.map Act.notify ++
      if isScoped s then
        [.code "\x7b", .startBlock] ++ contextActs s ++ body ++ [.endBlock, .code "\x7d"]
      else body

def prologue (r : Recording) : List Act :=
  [.code "const \x7b test, expect \x7d = require('@playwright/test');",
    .line [],
    .line [.code "test.describe(", .quoted r.title, .code ", () => \x7b"],
    .startBlock,
    .line [.code "test(", .quoted (("tests " : Text) ++ r.title),
      .code ", async (\x7b page, context \x7d) => \x7b"],
    .startBlock] ++
  match r.timeout with
  | some t => [.line [.code "page.setDefaultTimeout(", .number t, .code ");"]]
  | none => []

def epilogue : List Act :=
  [.endBlock, .code "\x7d);", .endBlock, .code "\x7d);"]

def template (c : TemplateConfig) : Template where
  beforeAllSteps := some prologue
  stringifyStep := some (stepActs c)
  afterAllSteps := some fun _ => epilogue

end FlowScript.Playwright
