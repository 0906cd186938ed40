import FlowScript.Selector

/-!
# Steps

What a recorder noted about one user action. Each variant has the layer of its scope: a page, a
frame in a page, or an element in a frame.
-/
namespace FlowScript

inductive StepType where
  | change
  | click
  | close
  | customStep
  | doubleClick
  | emulateNetworkConditions
  | hover
  | keyDown
  | keyUp
  | navigate
  | scroll
  | setViewport
  | waitForElement
  | waitForExpression
  deriving DecidableEq

namespace StepType

def all : List StepType :=
  [change, click, close, customStep, doubleClick, emulateNetworkConditions, hover, keyDown, keyUp,
    navigate, scroll, setViewport, waitForElement, waitForExpression]

def name : StepType → Text
  | change => "change"
  | click => "click"
  | close => "close"
  | customStep => "customStep"
  | doubleClick => "doubleClick"
  | emulateNetworkConditions => "emulateNetworkConditions"
  | hover => "hover"
  | keyDown => "keyDown"
  | keyUp => "keyUp"
  | navigate => "navigate"
  | scroll => "scroll"
  | setViewport => "setViewport"
  | waitForElement => "waitForElement"
  | waitForExpression => "waitForExpression"

def ofName? (t : Text) : Option StepType := all.find? fun k => k.name = t

theorem mem_all (k : StepType) : k ∈ all := by cases k <;> decide

@[simp] theorem ofName?_name (k : StepType) : ofName? k.name = some k := by
  cases k <;> decide +kernel

end StepType

inductive PointerDevice where
  | mouse
  | pen
  | touch
  deriving DecidableEq

namespace PointerDevice

def all : List PointerDevice := [mouse, pen, touch]

def name : PointerDevice → Text
  | mouse => "mouse"
  | pen => "pen"
  | touch => "touch"

def ofName? (t : Text) : Option PointerDevice := all.find? fun d => d.name = t

@[simp] theorem ofName?_name (d : PointerDevice) : ofName? d.name = some d := by
  cases d <;> decide +kernel

end PointerDevice

/-- Mouse buttons by their role. -/
inductive MouseButton where
  | primary
  | auxiliary
  | secondary
  | back
  | forward
  deriving DecidableEq

namespace MouseButton

def all : List MouseButton := [primary, auxiliary, secondary, back, forward]

def name : MouseButton → Text
  | primary => "primary"
  | auxiliary => "auxiliary"
  | secondary => "secondary"
  | back => "back"
  | forward => "forward"

def ofName? (t : Text) : Option MouseButton := all.find? fun b => b.name = t

@[simp] theorem ofName?_name (b : MouseButton) : ofName? b.name = some b := by
  cases b <;> decide +kernel

end MouseButton

/-- How the number of matching elements is compared with the count waited for. -/
inductive WaitOperator where
  | atLeast
  | exactly
  | atMost
  deriving DecidableEq

namespace WaitOperator

def all : List WaitOperator := [atLeast, exactly, atMost]

def name : WaitOperator → Text
  | atLeast => ">="
  | exactly => "=="
  | atMost => "<="

def ofName? (t : Text) : Option WaitOperator := all.find? fun o => o.name = t

@[simp] theorem ofName?_name (o : WaitOperator) : ofName? o.name = some o := by
  cases o <;> decide +kernel

end WaitOperator

/-- A navigation that a step is expected to cause, and what the page then shows. -/
structure NavigationEvent where
  url : Option Text
  title : Option Text
  deriving DecidableEq

/-- Fields of every step. A step without target acts on the main page. -/
structure PageScope where
  target : Option Text
  timeout : Option Number
  assertedEvents : Option (List NavigationEvent)
  deriving DecidableEq

/-- The child indices that lead from the page's main frame to the frame acted on. -/
structure FrameScope extends PageScope where
  frame : Option (List Nat)
  deriving DecidableEq

structure ElementScope extends FrameScope where
  selectors : Alternatives
  deriving DecidableEq

/-- Where on the element a click lands, and with what. -/
structure Press where
  offsetX : Number
  offsetY : Number
  duration : Option Number
  deviceType : Option PointerDevice
  button : Option MouseButton
  deriving DecidableEq

structure Viewport where
  width : Number
  height : Number
  deviceScaleFactor : Number
  isMobile : Bool
  hasTouch : Bool
  isLandscape : Bool
  deriving DecidableEq

/-- What has to hold of the matching elements. Left out, the operator is "at least", the count is
one and the elements have to be visible; properties are null when there are none. -/
structure ElementWait where
  operator : Option WaitOperator
  count : Option Number
  visible : Option Bool
  attributes : Option (List (Text × Text))
  properties : Json

inductive Step where
  | change (scope : ElementScope) (value : Text)
  | click (scope : ElementScope) (press : Press)
  | close (scope : PageScope)
  /-- A step of a recorder extension; its parameters are opaque, and null when there are none. -/
  | customStep (scope : FrameScope) (name : Text) (parameters : Json)
  | doubleClick (scope : ElementScope) (press : Press)
  /-- Throughputs are bytes per second. -/
  | emulateNetworkConditions (scope : PageScope) (download upload latency : Number)
  | hover (scope : ElementScope)
  | keyDown (scope : PageScope) (key : Text)
  | keyUp (scope : PageScope) (key : Text)
  | navigate (scope : PageScope) (url : Text)
  /-- Scrolls the element when there are selectors, otherwise the window. -/
  | scroll (scope : FrameScope) (x y : Option Number) (selectors : Option Alternatives)
  | setViewport (scope : PageScope) (viewport : Viewport)
  | waitForElement (scope : ElementScope) (wait : ElementWait)
  | waitForExpression (scope : FrameScope) (expression : Text)

namespace Step

def type : Step → StepType
  | change .. => .change
  | click .. => .click
  | close .. => .close
  | customStep .. => .customStep
  | doubleClick .. => .doubleClick
  | emulateNetworkConditions .. => .emulateNetworkConditions
  | hover .. => .hover
  | keyDown .. => .keyDown
  | keyUp .. => .keyUp
  | navigate .. => .navigate
  | scroll .. => .scroll
  | setViewport .. => .setViewport
  | waitForElement .. => .waitForElement
  | waitForExpression .. => .waitForExpression

def page : Step → PageScope
  | change s _ | click s _ | doubleClick s _ | hover s | waitForElement s _ => s.toPageScope
  | customStep s _ _ | scroll s _ _ _ | waitForExpression s _ => s.toPageScope
  | close s | emulateNetworkConditions s _ _ _ | keyDown s _ | keyUp s _ | navigate s _
  | setViewport s _ => s

/-- The recorded frame, for the variants that have one. -/
def frame? : Step → Option (List Nat)
  | change s _ | click s _ | doubleClick s _ | hover s | waitForElement s _ => s.frame
  | customStep s _ _ | scroll s _ _ _ | waitForExpression s _ => s.frame
  | _ => none

def selectors? : Step → Option Alternatives
  | change s _ | click s _ | doubleClick s _ | hover s | waitForElement s _ => some s.selectors
  | scroll _ _ _ selectors => selectors
  | _ => none

def mainTarget : Text := "main"

/-- The target acted on; an empty one counts as none. -/
def target (s : Step) : Text :=
  match s.page.target with
  | some t => if t.isEmpty then mainTarget else t
  | none => mainTarget

/-- The frame path acted on, empty for the main frame. -/
def framePath (s : Step) : List Nat := s.frame?.getD []

def timeout (s : Step) : Option Number := s.page.timeout

def assertedEvents (s : Step) : List NavigationEvent := s.page.assertedEvents.getD []

end Step

end FlowScript
