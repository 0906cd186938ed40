import FlowScript.Json

/-!
# Log events

An event has a severity, a message and fields. Nothing is filtered here; what becomes of an event is
up to whoever keeps the log.
-/
namespace FlowScript

inductive Severity where
  | debug
  | info
  | warning
  | error
  | critical
  deriving DecidableEq

structure LogEvent where
  severity : Severity
  message : Text
  fields : List (Text × Json)

namespace Severity

def name : Severity → Text
  | debug => "debug"
  | info => "info"
  | warning => "warning"
  | error => "error"
  | critical => "critical"

/-- The weight by which events are held back. -/
def weight : Severity → Nat
  | debug => 10
  | info => 20
  | warning => 30
  | error => 40
  | critical => 50

def ofName? (t : Text) : Option Severity :=
  [debug, info, warning, error, critical].find? fun s => s.name = t

end Severity

namespace LogEvent

/-- The event with the fields of a surrounding context added; its own fields win. -/
def within (context : List (Text × Json)) (e : LogEvent) : LogEvent :=
  { e with fields := Json.merge context e.fields }

def toJson (e : LogEvent) : Json :=
  .obj (("level", .str e.severity.name) :: ("event", .str e.message) :: e.fields)

end LogEvent

end FlowScript
