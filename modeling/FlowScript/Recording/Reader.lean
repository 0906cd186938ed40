import FlowScript.Recording
import FlowScript.Recording.Defect

/-!
# Reading recordings

A recording is accepted field by field, and the first defect met is reported. Nothing but the
present fields of an object is looked at, and a field set to null counts as absent.

Steps are read in layers, each owning some fields: a page scope (timeout, asserted events, target),
around it a frame scope (frame) and around that an element scope (selectors).
-/
namespace FlowScript

/-- The present fields of an object, by name. -/
abbrev Fields := Text → Option Json

def Json.fields (ms : List (Text × Json)) : Fields := fun name => (find? name ms).bind nonNull?

/-- A timeout is at least one millisecond and at most thirty seconds. -/
def Number.isTimeout (n : Number) : Bool := 1 ≤ n.value && n.value ≤ 30000

/-- The value as a finite number, if it is one. An integer that no double comes near is neither a
finite number nor anything else: it cannot be judged. -/
def Json.finite? : Json → Except Defect (Option Number)
  | .num (.int n) =>
    if Double.overflowBound ≤ n.natAbs then .error .integerTooLarge else .ok (some (.int n))
  | .num (.double d) => .ok (some (.double d))
  | _ => .ok none

namespace Fields

def number (f : Fields) (name : Text) : Except Defect Number := do
  match f name with
  | none => throw (.notNumber name)
  | some v =>
    match ← v.finite? with
    | some n => pure n
    | none => throw (.notNumber name)

def text (f : Fields) (name : Text) : Except Defect Text :=
  match f name with
  | some (.str t) => pure t
  | _ => throw (.notText name)

def boolean (f : Fields) (name : Text) : Except Defect Bool :=
  match f name with
  | some (.bool b) => pure b
  | _ => throw (.notBoolean name)

/-- The field read by `read`, unless it is absent. -/
def optional (read : Fields → Text → Except Defect α) (f : Fields) (name : Text) :
    Except Defect (Option α) :=
  match f name with
  | none => pure none
  | some _ => some <$> read f name

/-- The field as one of the named values; an empty text counts as none. -/
def choice (ofName? : Text → Option α) (defect : Defect) (f : Fields) (name : Text) :
    Except Defect (Option α) := do
  match ← f.optional text name with
  | none => pure none
  | some t =>
    if t.isEmpty then pure none
    else match ofName? t with
      | some a => pure (some a)
      | none => throw defect

end Fields

namespace NavigationEvent

def ofJson : Json → Except Defect NavigationEvent
  | .obj ms => do
    let f := Json.fields ms
    match f "type" with
    | none => throw .eventWithoutType
    | some type =>
      match type with
      | .str t =>
        if t = "navigation" then
          pure ⟨← f.optional Fields.text "url", ← f.optional Fields.text "title"⟩
        else throw (.eventTypeUnknown type)
      | _ => throw (.eventTypeUnknown type)
  | _ => throw .eventNotObject

end NavigationEvent

namespace Selector

def partOfJson : Json → Except Defect Text
  | .str t => pure t
  | _ => throw .selectorPartNotText

def ofJson : Json → Except Defect Selector
  | .str t => pure (plain t)
  | .arr [] => throw .selectorListEmpty
  | .arr (x :: xs) => do pure (chain (← partOfJson x) (← xs.mapM partOfJson))
  | _ => throw .selectorNotListOrText

end Selector

def Alternatives.ofFields (f : Fields) : Except Defect Alternatives :=
  match f "selectors" with
  | none => throw .selectorsMissing
  | some (.arr []) => throw .selectorsMissing
  | some (.arr (x :: xs)) => do pure ⟨← Selector.ofJson x, ← xs.mapM Selector.ofJson⟩
  | some _ => throw .selectorsNotList

/-- A child index is a finite number equal to a natural one. -/
def frameIndexOfJson (v : Json) : Except Defect Nat := do
  match (← v.finite?).bind Number.toNat? with
  | some i => pure i
  | none => throw .frameNotIndices

namespace PageScope

/-- A timeout that is no finite number counts as none. -/
def timeoutOfFields (f : Fields) : Except Defect (Option Number) := do
  match f "timeout" with
  | none => pure none
  | some v =>
    match ← v.finite? with
    | none => pure none
    | some n => if n.isTimeout then pure (some n) else throw .timeoutOutOfBounds

def eventsOfFields (f : Fields) : Except Defect (Option (List NavigationEvent)) :=
  match f "assertedEvents" with
  | some (.arr xs) => some <$> xs.mapM NavigationEvent.ofJson
  | _ => pure none

def targetOfFields (f : Fields) : Option Text :=
  match f "target" with
  | some (.str t) => some t
  | _ => none

def ofFields (f : Fields) : Except Defect PageScope := do
  let timeout ← timeoutOfFields f
  let events ← eventsOfFields f
  pure ⟨targetOfFields f, timeout, events⟩

end PageScope

namespace FrameScope

def frameOfFields (f : Fields) : Except Defect (Option (List Nat)) :=
  match f "frame" with
  | none => pure none
  | some (.arr xs) => some <$> xs.mapM frameIndexOfJson
  | some _ => throw .frameNotIndices

def ofFields (f : Fields) : Except Defect FrameScope := do
  let page ← PageScope.ofFields f
  pure ⟨page, ← frameOfFields f⟩

end FrameScope

def ElementScope.ofFields (f : Fields) : Except Defect ElementScope := do
  let scope ← FrameScope.ofFields f
  pure ⟨scope, ← Alternatives.ofFields f⟩

def Press.ofFields (f : Fields) : Except Defect Press := do
  let offsetX ← f.number "offsetX"
  let offsetY ← f.number "offsetY"
  let duration ← f.optional Fields.number "duration"
  let deviceType ← f.choice PointerDevice.ofName? .deviceTypeUnknown "deviceType"
  let button ← f.choice MouseButton.ofName? .buttonUnknown "button"
  pure ⟨offsetX, offsetY, duration, deviceType, button⟩

def Viewport.ofFields (f : Fields) : Except Defect Viewport := do
  let width ← f.number "width"
  let height ← f.number "height"
  let deviceScaleFactor ← f.number "deviceScaleFactor"
  let isMobile ← f.boolean "isMobile"
  let hasTouch ← f.boolean "hasTouch"
  let isLandscape ← f.boolean "isLandscape"
  pure ⟨width, height, deviceScaleFactor, isMobile, hasTouch, isLandscape⟩

namespace ElementWait

def attributeOfMember : Text × Json → Except Defect (Text × Text)
  | (k, .str t) => pure (k, t)
  | _ => throw .attributesNotTexts

def attributesOfFields (f : Fields) : Except Defect (Option (List (Text × Text))) :=
  match f "attributes" with
  | none => pure none
  | some (.obj ms) => some <$> ms.mapM attributeOfMember
  | some _ => throw .attributesNotTexts

def propertiesOfFields (f : Fields) : Except Defect Json :=
  match f "properties" with
  | none => pure .null
  | some (.obj ms) => pure (.obj ms)
  | some (.arr xs) => pure (.arr xs)
  | some _ => throw .propertiesNotObject

end ElementWait

namespace Step

def waitForElementOfFields (f : Fields) : Except Defect Step := do
  let operator ← f.choice WaitOperator.ofName? .operatorUnknown "operator"
  let attributes ← ElementWait.attributesOfFields f
  let properties ← ElementWait.propertiesOfFields f
  let scope ← ElementScope.ofFields f
  let count ← f.optional Fields.number "count"
  let visible ← f.optional Fields.boolean "visible"
  pure (waitForElement scope ⟨operator, count, visible, attributes, properties⟩)

def customStepOfFields (f : Fields) : Except Defect Step :=
  match f "name" with
  | none => throw .customNameMissing
  | some (.str name) => do
    pure (customStep (← FrameScope.ofFields f) name ((f "parameters").getD .null))
  | some _ => throw .customNameNotText

def waitForExpressionOfFields (f : Fields) : Except Defect Step := do
  if (f "expression").isNone then throw .expressionMissing
  let scope ← FrameScope.ofFields f
  pure (waitForExpression scope (← f.text "expression"))

/-- The step of a given type that the fields describe. -/
def ofFields (f : Fields) : StepType → Except Defect Step
  | .change => do
    let scope ← ElementScope.ofFields f
    pure (change scope (← f.text "value"))
  | .click => do
    let scope ← ElementScope.ofFields f
    pure (click scope (← Press.ofFields f))
  | .close => close <$> PageScope.ofFields f
  | .customStep => customStepOfFields f
  | .doubleClick => do
    let scope ← ElementScope.ofFields f
    pure (doubleClick scope (← Press.ofFields f))
  | .emulateNetworkConditions => do
    let scope ← PageScope.ofFields f
    let download ← f.number "download"
    let upload ← f.number "upload"
    let latency ← f.number "latency"
    pure (emulateNetworkConditions scope download upload latency)
  | .hover => hover <$> ElementScope.ofFields f
  | .keyDown => do
    let scope ← PageScope.ofFields f
    pure (keyDown scope (← f.text "key"))
  | .keyUp => do
    let scope ← PageScope.ofFields f
    pure (keyUp scope (← f.text "key"))
  | .navigate => do
    let scope ← PageScope.ofFields f
    pure (navigate scope (← f.text "url"))
  | .scroll => do
    let scope ← FrameScope.ofFields f
    let x ← f.optional Fields.number "x"
    let y ← f.optional Fields.number "y"
    let selectors ← f.optional (fun f _ => Alternatives.ofFields f) "selectors"
    pure (scroll scope x y selectors)
  | .setViewport => do
    let scope ← PageScope.ofFields f
    pure (setViewport scope (← Viewport.ofFields f))
  | .waitForElement => waitForElementOfFields f
  | .waitForExpression => waitForExpressionOfFields f

/-- The step that a value describes; `index` is its place in a recording, for messages. -/
def ofJson (index : Option Int) : Json → Except Defect Step
  | .obj ms =>
    let f := Json.fields ms
    match f "type" with
    | none => throw (.stepWithoutType index)
    | some (.str name) =>
      match StepType.ofName? name with
      | some type => ofFields f type
      | none => throw (.stepTypeUnknown name)
    | some _ => throw (.stepTypeNotText index)
  | _ => throw (.stepNotObject index)

/-- The steps in order; the first defective one is reported with its index. -/
def listOfJson : (index : Nat) → List Json → Except Defect (List Step)
  | _, [] => pure []
  | index, x :: xs => do
    let step ← ofJson (some index) x
    pure (step :: (← listOfJson (index + 1) xs))

end Step

namespace Recording

def timeoutOfFields (f : Fields) : Except Defect (Option Number) := do
  match f "timeout" with
  | none => pure none
  | some v =>
    match ← v.finite? with
    | none => throw .timeoutNotNumber
    | some n => pure (some n)

/-- A preferred attribute that is no text counts as none. -/
def selectorAttributeOfFields (f : Fields) : Option Text :=
  match f "selectorAttribute" with
  | some (.str t) => some t
  | _ => none

def ofFields (f : Fields) : Except Defect Recording := do
  let title ← match f "title" with
    | none => throw .titleMissing
    | some (.str t) => pure t
    | some _ => throw .titleNotText
  let timeout ← timeoutOfFields f
  match f "steps" with
  | none => throw .stepsMissing
  | some steps =>
    if timeout.any fun n => !n.isTimeout then throw .timeoutOutOfBounds
    match steps with
    | .arr xs =>
      let steps ← Step.listOfJson 0 xs
      pure ⟨title, steps, timeout, selectorAttributeOfFields f⟩
    | _ => throw .stepsNotList

/-- The recording that a value describes. -/
def ofJson : Json → Except Defect Recording
  | .obj ms => ofFields (Json.fields ms)
  | _ => throw .recordingNotObject

end Recording

end FlowScript
