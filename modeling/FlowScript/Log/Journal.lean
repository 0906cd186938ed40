import FlowScript.Json.Display
import FlowScript.Log.Config
import FlowScript.Log.Operation
import FlowScript.Log.Scope
import FlowScript.Text.Blank

/-!
# Log lines

How events become lines: held back below a threshold, joined with the fields of the scope they
happen in, and written as objects or as columns of text.
-/
namespace FlowScript

inductive LogLine where
  | text (t : Text)
  | object (members : List (Text × Json))

namespace LogLine

/-- Text is quoted in a column only where it could be misread. -/
def needsQuotes (t : Text) : Bool :=
  t.any fun c => [9, 10, 13, 32, 34, 39, 61].contains c.val

def columnValue : Json → Text
  | .str t => if needsQuotes t then t.display else t
  | v => v.display

/-- Severity and message in columns, the logger in brackets, then the fields by key. -/
def columns (logger : Text) (e : LogEvent) : Text :=
  let fields := (e.fields.mergeSort fun a b => Text.le a.1 b.1).flatMap fun m =>
    (" " : Text) ++ m.1 ++ ("=" : Text) ++ columnValue m.2
  Text.trimRight (("[" : Text) ++ e.severity.name.padTo 9 ++ ("] " : Text) ++ e.message.padTo 30 ++
    (" [" : Text) ++ logger ++ ("]" : Text) ++ fields)

/-- A logger without a name is the root of all loggers. -/
def loggerName : Text → Text
  | [] => "root"
  | name => name

/-- Names that a line uses for itself; a field of such a name is lost. -/
def reserved : List Text := ["event", "level", "logger", "timestamp"]

def ofEvent (format : LogFormat) (logger : Text) (e : LogEvent) : LogLine :=
  let kept := { e with fields := e.fields.filter fun m => !reserved.contains m.1 }
  match format with
  | .console => text (columns logger kept)
  | .object =>
    object (("event", .str e.message) :: ("logger", .str logger) ::
      ("level", .str e.severity.name) :: kept.fields)

end LogLine

/-- The scope an event happens in, and the blocks still to be left, innermost first. -/
structure Journal where
  config : LogConfig
  scope : LogScope
  blocks : List (List LogScope.Undo)

namespace Journal

def start (c : LogConfig) : Journal := ⟨c, [], []⟩

/-- The lines of an event: one, or none below the threshold. -/
def lines (j : Journal) (logger : Text) (e : LogEvent) : List LogLine :=
  if e.severity.weight < j.config.threshold then []
  else [LogLine.ofEvent j.config.format (LogLine.loggerName logger) (e.within j.scope)]

def enter (j : Journal) (context : List (Text × Json)) : Journal :=
  let (scope, undos) := j.scope.enter context
  { j with scope := scope, blocks := undos :: j.blocks }

/-- Leaves the innermost block. -/
def leave (j : Journal) : Journal :=
  match j.blocks with
  | [] => j
  | undos :: blocks => { j with scope := j.scope.leave undos, blocks := blocks }

/-- The lines of an operation with some results, which may fail for a reason. -/
def operation (j : Journal) (logger : Text) (o : Operation) (results : List (Text × Json))
    (reason : Option Text) : List LogLine :=
  j.lines logger o.started ++ j.lines logger
    (match reason with
      | none => o.completed results
      | some r => o.failed results r)

end Journal

end FlowScript
