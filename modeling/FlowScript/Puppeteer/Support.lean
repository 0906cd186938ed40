import FlowScript.Script.Piece

/-!
# Support functions of Puppeteer scripts

A script resolves its selectors while it runs: every step waits for the first alternative that
matches. The functions that do so are appended to each script. Their code is kept as a tree, so that
every bracket a line opens is closed by a later one.
-/
namespace FlowScript.Puppeteer

/-- Code of a support function; what stands in brackets is two blanks deeper. -/
inductive Snippet where
  | blank
  | line (s : String)
  /-- Braces behind a head, and a tail behind the closing one. -/
  | block (head : String) (body : List Snippet) (tail : String)
  /-- Parentheses behind a head, and a tail behind the closing one. -/
  | group (head : String) (body : List Snippet) (tail : String)
  /-- Two blocks, the second behind the end of the first. -/
  | branch (head : String) (body : List Snippet) (turn : String) (other : List Snippet)
  /-- A block behind a condition that has lines of its own. -/
  | guarded (head : String) (condition body : List Snippet)

namespace Snippet

def margin (depth : Nat) : List Piece := List.replicate depth (.code "  ")

mutual

/-- The lines of a snippet. -/
def lines (depth : Nat) : Snippet → List (List Piece)
  | blank => [[]]
  | line s => [margin depth ++ [.code s]]
  | block head body tail =>
    (margin depth ++ [.code head, .code "\x7b"]) :: linesAll (depth + 1) body ++
      [margin depth ++ [.code "\x7d", .code tail]]
  | group head body tail =>
    (margin depth ++ [.code head, .code "("]) :: linesAll (depth + 1) body ++
      [margin depth ++ [.code ")", .code tail]]
  | branch head body turn other =>
    (margin depth ++ [.code head, .code "\x7b"]) :: linesAll (depth + 1) body ++
      (margin depth ++ [.code "\x7d", .code turn, .code "\x7b"]) :: linesAll (depth + 1) other ++
      [margin depth ++ [.code "\x7d"]]
  | guarded head condition body =>
    (margin depth ++ [.code head, .code "("]) :: linesAll (depth + 1) condition ++
      (margin depth ++ [.code ") \x7b"]) :: linesAll (depth + 1) body ++
      [margin depth ++ [.code "\x7d"]]

def linesAll (depth : Nat) : List Snippet → List (List Piece)
  | [] => []
  | s :: ss => lines depth s ++ linesAll depth ss

end

end Snippet

namespace Support

open Snippet

def waitForSelectors : Snippet :=
  block "async function waitForSelectors(selectors, frame, options) " [
    block "for (const selector of selectors) " [
      branch "try " [
        line "return await waitForSelector(selector, frame, options);"] " catch (err) " [
        line "console.error(err);"]] "",
    line "throw new Error('Could not find element for selectors: ' + JSON.stringify(selectors));"] ""

def scrollIntoViewIfNeeded : Snippet :=
  block "async function scrollIntoViewIfNeeded(selectors, frame, timeout) " [
    line "const element = await waitForSelectors(selectors, frame, \x7b visible: false, timeout \x7d);",
    block "if (!element) " [
      group "throw new Error" [
        line "'The element could not be found.'"] ";"] "",
    line "await waitForConnected(element, timeout);",
    line "const isInViewport = await element.isIntersectingViewport(\x7bthreshold: 0\x7d);",
    block "if (isInViewport) " [
      line "return;"] "",
    block "await element.evaluate(element => " [
      block "element.scrollIntoView(" [
        line "block: 'center',",
        line "inline: 'center',",
        line "behavior: 'auto',"] ");"] ");",
    line "await waitForInViewport(element, timeout);"] ""

def waitForConnected : Snippet :=
  block "async function waitForConnected(element, timeout) " [
    block "await waitForFunction(async () => " [
      line "return await element.getProperty('isConnected');"] ", timeout);"] ""

def waitForInViewport : Snippet :=
  block "async function waitForInViewport(element, timeout) " [
    block "await waitForFunction(async () => " [
      line "return await element.isIntersectingViewport(\x7bthreshold: 0\x7d);"] ", timeout);"] ""

def waitForSelector : Snippet :=
  block "async function waitForSelector(selector, frame, options) " [
    block "if (!Array.isArray(selector)) " [
      line "selector = [selector];"] "",
    block "if (!selector.length) " [
      line "throw new Error('Empty selector provided to waitForSelector');"] "",
    line "let element = null;",
    block "for (let i = 0; i < selector.length; i++) " [
      line "const part = selector[i];",
      branch "if (element) " [
        line "element = await element.waitForSelector(part, options);"] " else " [
        line "element = await frame.waitForSelector(part, options);"],
      block "if (!element) " [
        line "throw new Error('Could not find element: ' + selector.join('>>'));"] "",
      block "if (i < selector.length - 1) " [
        line "element = (await element.evaluateHandle(el => el.shadowRoot ? el.shadowRoot : el)).asElement();"] ""] "",
    block "if (!element) " [
      line "throw new Error('Could not find element: ' + selector.join('|'));"] "",
    line "return element;"] ""

def waitForElement : Snippet :=
  block "async function waitForElement(step, frame, timeout) " [
    block "const " [
      line "count = 1,",
      line "operator = '>=',",
      line "visible = true,",
      line "properties,",
      line "attributes,"] " = step;",
    block "const compFn = " [
      line "'==': (a, b) => a === b,",
      line "'>=': (a, b) => a >= b,",
      line "'<=': (a, b) => a <= b,"] "[operator];",
    block "await waitForFunction(async () => " [
      line "const elements = await querySelectorsAll(step.selectors, frame);",
      line "let result = compFn(elements.length, count);",
      block "const elementsHandle = await frame.evaluateHandle((...elements) => " [
        line "return elements;"] ", ...elements);",
      line "await Promise.all(elements.map((element) => element.dispose()));",
      block "if (result && (properties || attributes)) " [
        group "result = await elementsHandle.evaluate" [
          block "(elements, properties, attributes) => " [
            block "for (const element of elements) " [
              block "if (attributes) " [
                block "for (const [name, value] of Object.entries(attributes)) " [
                  block "if (element.getAttribute(name) !== value) " [
                    line "return false;"] ""] ""] "",
              block "if (properties) " [
                block "if (!isDeepMatch(properties, element)) " [
                  line "return false;"] ""] ""] "",
            line "return true;",
            blank,
            block "function isDeepMatch(a, b) " [
              block "if (a === b) " [
                line "return true;"] "",
              block "if ((a && !b) || (!a && b)) " [
                line "return false;"] "",
              block "if (!(a instanceof Object) || !(b instanceof Object)) " [
                line "return false;"] "",
              block "for (const [key, value] of Object.entries(a)) " [
                block "if (!isDeepMatch(value, b[key])) " [
                  line "return false;"] ""] "",
              line "return true;"] ""] ",",
          line "properties,",
          line "attributes"] ";"] "",
      line "await elementsHandle.dispose();",
      line "return result === visible;"] ", timeout);"] ""

def querySelectorsAll : Snippet :=
  block "async function querySelectorsAll(selectors, frame) " [
    block "for (const selector of selectors) " [
      line "const result = await querySelectorAll(selector, frame);",
      block "if (result.length) " [
        line "return result;"] ""] "",
    line "return [];"] ""

def querySelectorAll : Snippet :=
  block "async function querySelectorAll(selector, frame) " [
    block "if (!Array.isArray(selector)) " [
      line "selector = [selector];"] "",
    block "if (!selector.length) " [
      line "throw new Error('Empty selector provided to querySelectorAll');"] "",
    line "let elements = [];",
    block "for (let i = 0; i < selector.length; i++) " [
      line "const part = selector[i];",
      branch "if (i === 0) " [
        line "elements = await frame.$$(part);"] " else " [
        line "const tmpElements = elements;",
        line "elements = [];",
        block "for (const el of tmpElements) " [
          line "elements.push(...(await el.$$(part)));"] ""],
      block "if (elements.length === 0) " [
        line "return [];"] "",
      block "if (i < selector.length - 1) " [
        line "const tmpElements = [];",
        block "for (const el of elements) " [
          line "const newEl = (await el.evaluateHandle(el => el.shadowRoot ? el.shadowRoot : el)).asElement();",
          block "if (newEl) " [
            line "tmpElements.push(newEl);"] ""] "",
        line "elements = tmpElements;"] ""] "",
    line "return elements;"] ""

def waitForFunction : Snippet :=
  block "async function waitForFunction(fn, timeout) " [
    line "let isActive = true;",
    block "const timeoutId = setTimeout(() => " [
      line "isActive = false;"] ", timeout);",
    block "while (isActive) " [
      line "const result = await fn();",
      block "if (result) " [
        line "clearTimeout(timeoutId);",
        line "return;"] "",
      line "await new Promise(resolve => setTimeout(resolve, 100));"] "",
    line "throw new Error('Timed out');"] ""

def changeSelectElement : Snippet :=
  block "async function changeSelectElement(element, value) " [
    line "await element.select(value);",
    block "await element.evaluateHandle((e) => " [
      line "e.blur();",
      line "e.focus();"] ");"] ""

def changeElementValue : Snippet :=
  block "async function changeElementValue(element, value) " [
    line "await element.focus();",
    block "await element.evaluate((input, value) => " [
      line "input.value = value;",
      line "input.dispatchEvent(new Event('input', \x7b bubbles: true \x7d));",
      line "input.dispatchEvent(new Event('change', \x7b bubbles: true \x7d));"] ", value);"] ""

def typeIntoElement : Snippet :=
  block "async function typeIntoElement(element, value) " [
    block "const textToType = await element.evaluate((input, newValue) => " [
      guarded "if " [
        line "newValue.length <= input.value.length ||",
        line "!newValue.startsWith(input.value)"] [
        line "input.value = '';",
        line "return newValue;"],
      line "const originalValue = input.value;",
      line "input.value = '';",
      line "input.value = originalValue;",
      line "return newValue.substring(originalValue.length);"] ", value);",
    line "await element.type(textToType);"] ""

/-- All support functions, in the order in which a script holds them. -/
def functions : List Snippet :=
  [waitForSelectors, scrollIntoViewIfNeeded, waitForConnected, waitForInViewport, waitForSelector,
    waitForElement, querySelectorsAll, querySelectorAll, waitForFunction, changeSelectElement,
    changeElementValue, typeIntoElement]

/-- The lines of all support functions, one blank line between neighbours. -/
def lines : List (List Piece) :=
  [([] : List Piece)].intercalate (functions.map (Snippet.lines 0))

end Support

end FlowScript.Puppeteer
