import FlowScript.Json.Equiv
import FlowScript.Step

/-!
# Steps as JSON objects

The recorder's form of a step: its type first, then its fields in a fixed order, those without a
value left out.
-/
namespace FlowScript

namespace Json

/-- The object with these fields, less those without a value. -/
def ofFields (fs : List (Text × Option Json)) : Json :=
  .obj (fs.filterMap fun f => f.2.map fun v => (f.1, v))

/-- A field whose value null stands for no value. -/
def nonNull? : Json → Option Json
  | null => none
  | v => some v

end Json

def NavigationEvent.toJson (e : NavigationEvent) : Json :=
  Json.ofFields [("type", some (.str "navigation")), ("url", e.url.map .str),
    ("title", e.title.map .str)]

namespace PageScope

def timeoutField (s : PageScope) : Text × Option Json := ("timeout", s.timeout.map .num)

def eventsField (s : PageScope) : Text × Option Json :=
  ("assertedEvents", s.assertedEvents.map fun es => .arr (es.map NavigationEvent.toJson))

def targetField (s : PageScope) : Text × Option Json := ("target", s.target.map .str)

def fields (s : PageScope) : List (Text × Option Json) :=
  [s.targetField, s.timeoutField, s.eventsField]

end PageScope

def FrameScope.fields (s : FrameScope) : List (Text × Option Json) :=
  [s.targetField, ("frame", s.frame.map fun p => .arr (p.map fun (i : Nat) => Json.int i)),
    s.timeoutField, s.eventsField]

def ElementScope.selectorsField (s : ElementScope) : Text × Option Json :=
  ("selectors", some s.selectors.toJson)

def Press.fields (p : Press) : List (Text × Option Json) :=
  [("offsetX", some (.num p.offsetX)), ("offsetY", some (.num p.offsetY)),
    ("duration", p.duration.map .num), ("deviceType", p.deviceType.map fun d => .str d.name),
    ("button", p.button.map fun b => .str b.name)]

def Viewport.fields (v : Viewport) : List (Text × Option Json) :=
  [("width", some (.num v.width)), ("height", some (.num v.height)),
    ("deviceScaleFactor", some (.num v.deviceScaleFactor)), ("isMobile", some (.bool v.isMobile)),
    ("hasTouch", some (.bool v.hasTouch)), ("isLandscape", some (.bool v.isLandscape))]

def ElementWait.fields (w : ElementWait) : List (Text × Option Json) :=
  [("operator", w.operator.map fun o => .str o.name), ("count", w.count.map .num),
    ("visible", w.visible.map .bool),
    ("attributes", w.attributes.map fun ms => .obj (ms.map fun m => (m.1, .str m.2))),
    ("properties", w.properties.nonNull?)]

namespace Step

/-- The fields of a step in their order, with those that have no value. -/
def fields : Step → List (Text × Option Json)
  | change s value => s.selectorsField :: ("value", some (.str value)) :: s.toFrameScope.fields
  | click s p | doubleClick s p => s.selectorsField :: p.fields ++ s.toFrameScope.fields
  | close s => s.fields
  | customStep s name parameters =>
    ("name", some (.str name)) :: ("parameters", parameters.nonNull?) :: s.fields
  | emulateNetworkConditions s download upload latency =>
    ("download", some (.num download)) :: ("upload", some (.num upload)) ::
      ("latency", some (.num latency)) :: s.fields
  | hover s => s.selectorsField :: s.toFrameScope.fields
  | keyDown s key | keyUp s key => ("key", some (.str key)) :: s.fields
  | navigate s url => ("url", some (.str url)) :: s.fields
  | scroll s x y selectors =>
    ("x", x.map .num) :: ("y", y.map .num) :: ("selectors", selectors.map Alternatives.toJson) ::
      s.fields
  | setViewport s v => v.fields ++ s.fields
  | waitForElement s w => s.selectorsField :: w.fields ++ s.toFrameScope.fields
  | waitForExpression s expression => ("expression", some (.str expression)) :: s.fields

def toJson (s : Step) : Json := Json.ofFields (("type", some (.str s.type.name)) :: s.fields)

/-- Equality of steps: the same type, and fields equal as JSON values. -/
def equiv (a b : Step) : Bool := Json.equiv a.toJson b.toJson

/-- Fields with free JSON in them, which no fingerprint looks at. -/
def opaqueFields : List Text := ["attributes", "properties", "parameters"]

/-- What equal steps have in common: the values of all fields but the opaque ones, in order. The
type is not part of it. -/
def fingerprint (s : Step) : Json :=
  .arr ((s.fields.filter fun f => !opaqueFields.contains f.1).map fun f => f.2.getD .null)

def sameFingerprint (a b : Step) : Bool := Json.equiv a.fingerprint b.fingerprint

end Step

end FlowScript
