import FlowScript.Step.Json

/-!
# Recordings

A titled list of steps in the order they were recorded.
-/
namespace FlowScript

structure Recording where
  title : Text
  steps : List Step
  /-- The timeout of every step that has none of its own, in milliseconds. -/
  timeout : Option Number
  /-- The attribute whose selectors are preferred. -/
  selectorAttribute : Option Text

namespace Recording

def toJson (r : Recording) : Json :=
  Json.ofFields [("title", some (.str r.title)), ("timeout", r.timeout.map .num),
    ("selectorAttribute", r.selectorAttribute.map .str),
    ("steps", some (.arr (r.steps.map Step.toJson)))]

/-- Equality of recordings, numbers compared by value. -/
def equiv (a b : Recording) : Bool := Json.equiv a.toJson b.toJson

end Recording

end FlowScript
