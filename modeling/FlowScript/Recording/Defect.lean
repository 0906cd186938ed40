import FlowScript.Json.Display
import FlowScript.Step

/-!
# What is wrong with a recording

The causes for which a document is no recording, and their wording.
-/
namespace FlowScript

/-- The step that a message speaks of: a step by itself, or the one at an index of its recording. -/
def stepLabel (index : Option Int) : Text :=
  match index with
  | none => "Step"
  | some i => ("Step " : Text) ++ Decimal.intText i

inductive Defect where
  | stepNotObject (index : Option Int)
  | stepWithoutType (index : Option Int)
  | stepTypeNotText (index : Option Int)
  | stepTypeUnknown (name : Text)
  | notNumber (field : Text)
  | notText (field : Text)
  | notBoolean (field : Text)
  | timeoutOutOfBounds
  | frameNotIndices
  | selectorNotListOrText
  | selectorListEmpty
  | selectorPartNotText
  | selectorsMissing
  | selectorsNotList
  | eventNotObject
  | eventWithoutType
  | eventTypeUnknown (type : Json)
  | deviceTypeUnknown
  | buttonUnknown
  | operatorUnknown
  | attributesNotTexts
  | propertiesNotObject
  | expressionMissing
  | customNameMissing
  | customNameNotText
  | recordingNotObject
  | titleMissing
  | titleNotText
  | timeoutNotNumber
  | stepsMissing
  | stepsNotList
  /-- An integer too large for any double stood where a finite number is asked for. -/
  | integerTooLarge

inductive DefectKind where
  /-- A field is missing or has the wrong shape. -/
  | shape
  /-- A number is out of bounds. -/
  | range
  /-- The type of a step or an event is none of the known ones. -/
  | unknownVariant
  | overflow
  deriving DecidableEq

namespace Defect

def kind : Defect → DefectKind
  | stepTypeNotText _ | stepTypeUnknown _ | eventTypeUnknown _ => .unknownVariant
  | timeoutOutOfBounds => .range
  | integerTooLarge => .overflow
  | _ => .shape

def message : Defect → Text
  | stepNotObject i => stepLabel i ++ (" is not an object" : Text)
  | stepWithoutType i => stepLabel i ++ (" does not have a type" : Text)
  | stepTypeNotText i =>
    ("Type of s" : Text) ++ (stepLabel i).drop 1 ++ (" is not a string" : Text)
  | stepTypeUnknown name => ("Step type " : Text) ++ name ++ (" is not supported" : Text)
  | notNumber field => ("Step." : Text) ++ field ++ (" is not a number" : Text)
  | notText field => ("Step." : Text) ++ field ++ (" is not a string" : Text)
  | notBoolean field => ("Step." : Text) ++ field ++ (" is not a boolean" : Text)
  | timeoutOutOfBounds => "Timeout is not between 1 and 30000 milliseconds"
  | frameNotIndices => "Step `frame` is not an array of non-negative integers"
  | selectorNotListOrText => "Selector is not an array or string"
  | selectorListEmpty => "Selector array is empty"
  | selectorPartNotText => "Selector element is not a string"
  | selectorsMissing => "Step does not have required selectors"
  | selectorsNotList => "Step selectors are not an array"
  | eventNotObject => "Asserted event is not an object"
  | eventWithoutType => "Asserted event is missing type"
  | eventTypeUnknown type => ("Unknown assertedEvent type: " : Text) ++ type.plain
  | deviceTypeUnknown =>
    ("'deviceType' for click steps must be one of the following: " : Text) ++
      Text.join ", " (PointerDevice.all.map PointerDevice.name)
  | buttonUnknown =>
    ("'button' for click steps must be one of the following: " : Text) ++
      Text.join ", " (MouseButton.all.map MouseButton.name)
  | operatorUnknown => "WaitForElement step's operator is not one of '>=','==','<='"
  | attributesNotTexts => "WaitForElement step's attributes is not a dictionary of strings"
  | propertiesNotObject => "WaitForElement step's properties is not an object"
  | expressionMissing => "waitForExpression step is missing `expression`"
  | customNameMissing => "customStep is missing name"
  | customNameNotText => "customStep's name is not a string"
  | recordingNotObject => "Recording is not an object"
  | titleMissing => "Recording is missing `title`"
  | titleNotText => "Recording `title` is not a string"
  | timeoutNotNumber => "Recording `timeout` is not a number"
  | stepsMissing => "Recording is missing `steps`"
  | stepsNotList => "Recording `steps` is not an array"
  | integerTooLarge => "int too large to convert to float"

end Defect

end FlowScript
