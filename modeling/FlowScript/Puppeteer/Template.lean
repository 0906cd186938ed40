import FlowScript.Puppeteer.Support
import FlowScript.Script.Scope

/-!
# Puppeteer scripts

A stand-alone script that launches a browser. Every step is a block of its own, which first declares
the page it acts on, and waits for its element while the script runs.
-/
namespace FlowScript.Puppeteer

/-- Input types that are filled by typing; any other gets its value set. -/
def typeableInputTypes : List Text :=
  ["textarea", "text", "url", "tel", "search", "password", "number", "email"]

/-- The variable that stands for what a step acts on. -/
def contextName (s : Step) : String := if s.inFrame then "frame" else "targetPage"

def timeoutActs (s : Step) : List Act :=
  match s.timeout with
  | some t => [.line [.code "const timeout = ", .number t, .code ";"]]
  | none => []

def targetActs (target : Text) : List Act :=
  if target = Step.mainTarget then [.code "const targetPage = page;"]
  else [
    .line [.code "const target = await browser.waitForTarget(t => t.url() === ", .quoted target,
      .code ", \x7b timeout \x7d);"],
    .code "const targetPage = await target.page();",
    .code "targetPage.setDefaultTimeout(timeout);"]

def contextActs (s : Step) : List Act :=
  targetActs s.target ++ if s.inFrame then Step.frameActs s.framePath else []

/-- One promise for each asserted navigation, made before the step acts. -/
def promiseActs (s : Step) : List Act :=
  if s.assertedEvents.isEmpty then []
  else Act.code "const promises = [];" ::
    s.assertedEvents.map fun _ =>
      .line [.code "promises.push(", .code (contextName s), .code ".waitForNavigation());"]

def awaitActs (s : Step) : List Act :=
  if s.assertedEvents.isEmpty then [] else [.code "await Promise.all(promises);"]

/-- Waits for the element and brings it into view. -/
def elementActs (s : Step) (selectors : Alternatives) : List Act :=
  let list := Piece.value selectors.toJson
  [.line (.code "await scrollIntoViewIfNeeded(" :: list ++
      [.code ", ", .code (contextName s), .code ", timeout);"]),
    .line (.code "const element = await waitForSelectors(" :: list ++
      [.code ", ", .code (contextName s), .code ", \x7b timeout, visible: true \x7d);"])]

/-- The delay of a click that is held down for some time. -/
def delayLines (p : Press) : List (List Piece) :=
  match p.duration with
  | some d => if d.isZero then [] else [[.code "delay: ", .number d, .code ","]]
  | none => []

/-- One click with its options, `extra` in front of those every click has. -/
def clickActs (p : Press) (extra : List (List Piece)) : List Act :=
  .code "await element.click(\x7b" ::
    (extra.map fun option => .line (.indent 1 :: option)) ++
    (match p.button with
      | some b =>
        [.line [.indent 1, .code "button: '", .code b.physicalName, .code "',"]]
      | none => []) ++
    [.line [.indent 1, .code "offset: \x7b"],
      .line [.indent 2, .code "x: ", .number p.offsetX, .code ","],
      .line [.indent 2, .code "y: ", .number p.offsetY, .code ","],
      .line [.indent 1, .code "\x7d,"],
      .code "\x7d);"]

def changeActs (value : Text) : List Act :=
  let types := Piece.value (.arr (typeableInputTypes.map .str))
  [.code "const inputType = await element.evaluate(el => el.type);",
    .code "if (inputType === 'select-one') \x7b",
    .line [.indent 1, .code "await changeSelectElement(element, ", .quoted value, .code ");"],
    .line (.code "\x7d else if (" :: types ++ [.code ".includes(inputType)) \x7b"]),
    .line [.indent 1, .code "await typeIntoElement(element, ", .quoted value, .code ");"],
    .code "\x7d else \x7b",
    .line [.indent 1, .code "await changeElementValue(element, ", .quoted value, .code ");"],
    .code "\x7d"]

/-- The network counts as offline when nothing can be sent or received. -/
def networkActs (download upload latency : Number) : List Act :=
  [.code "await targetPage.emulateNetworkConditions(\x7b",
    .line [.indent 1, .code "offline: ",
      .code (if download.isZero && upload.isZero then "true" else "false"), .code ","],
    .line [.indent 1, .code "downloadThroughput: ", .number download, .code ","],
    .line [.indent 1, .code "uploadThroughput: ", .number upload, .code ","],
    .line [.indent 1, .code "latency: ", .number latency, .code ","],
    .code "\x7d);"]

def scrollActs (s : Step) (x y : Option Number) (selectors : Option Alternatives) : List Act :=
  let point := [.number (x.getD 0), .code ", ", .number (y.getD 0), .code ");"]
  match selectors with
  | some alternatives =>
    elementActs s alternatives ++
      [.line (.code "await element.evaluate((el, x, y) => \x7b el.scrollTop = y; el.scrollLeft = x; \x7d, "
        :: point)]
  | none =>
    [.line (.code "await " :: .code (contextName s) ::
      .code ".evaluate((x, y) => \x7b window.scroll(x, y); \x7d, " :: point)]

/-- What a step does, inside its block and behind its context. -/
def actionActs (s : Step) : List Act :=
  match s with
  | .change e value => elementActs s e.selectors ++ changeActs value
  | .click e p => elementActs s e.selectors ++ clickActs p (delayLines p)
  | .close _ => [.code "await targetPage.close();"]
  | .customStep _ name _ => [.notify (.customStepOmitted name)]
  | .doubleClick e p =>
    elementActs s e.selectors ++ clickActs p [] ++
      clickActs p ([.code "clickCount: 2,"] :: delayLines p)
  | .emulateNetworkConditions _ download upload latency => networkActs download upload latency
  | .hover e => elementActs s e.selectors ++ [.code "await element.hover();"]
  | .keyDown _ key => [.line [.code "await targetPage.keyboard.down(", .quoted key, .code ");"]]
  | .keyUp _ key => [.line [.code "await targetPage.keyboard.up(", .quoted key, .code ");"]]
  | .navigate _ url => [.line [.code "await targetPage.goto(", .quoted url, .code ");"]]
  | .scroll _ x y selectors => scrollActs s x y selectors
  | .setViewport _ v =>
    [.line (.code "await targetPage.setViewport(" ::
      Piece.value (.obj [("width", .num v.width), ("height", .num v.height)]) ++ [.code ");"])]
  | .waitForElement _ _ =>
    [.line (.code "await waitForElement(" :: Piece.value s.toJson ++
      [.code ", ", .code (contextName s), .code ", timeout);"])]
  | .waitForExpression _ expression =>
    [.line [.code "await ", .code (contextName s), .code ".waitForFunction(", .quoted expression,
      .code ", \x7b timeout \x7d);"]]

def stepActs (s : Step) : List Act :=
  [.code "\x7b", .startBlock] ++ timeoutActs s ++ contextActs s ++ promiseActs s ++ actionActs s ++
    awaitActs s ++ [.endBlock, .code "\x7d"]

def prologue (c : TemplateConfig) (r : Recording) : List Act :=
  let timeout : Piece := match r.timeout with
    | some t => .number t
    | none => .scalar c.defaultTimeout
  [.code "const puppeteer = require('puppeteer'); // v13.0.0 or later",
    .line [],
    .code "(async () => \x7b",
    .startBlock,
    .code "const browser = await puppeteer.launch();",
    .code "const page = await browser.newPage();",
    .line [.code "const timeout = ", timeout, .code ";"],
    .code "page.setDefaultTimeout(timeout);",
    .line []]

def epilogue : List Act :=
  [.line [], .code "await browser.close();", .line []] ++ Support.lines.map Act.line ++
    [.endBlock,
      .code "\x7d)().catch(err => \x7b",
      .startBlock,
      .code "console.error(err);",
      .code "process.exit(1);",
      .endBlock,
      .code "\x7d);"]

def template (c : TemplateConfig) : Template where
  beforeAllSteps := some (prologue c)
  stringifyStep := some fun s _ => stepActs s
  afterAllSteps := some fun _ => epilogue

end FlowScript.Puppeteer
