import FlowScript.Export.Config
import FlowScript.Export.Result
import FlowScript.Log.Operation
import FlowScript.Recording.Reader
import FlowScript.Settings

/-!
# Exports

From a recording in any of its forms to a result. No failure gets out of an export: it is reported
in the result, and logged.
-/
namespace FlowScript

/-- The forms in which a recording is handed over. -/
inductive RecordingSource where
  | document (v : Json)
  | text (t : Text)
  | parsed (r : Recording)

namespace RecordingSource

def readText (t : Text) : Except Failure Recording := do
  let v ← (Json.ofText t).mapError Failure.unreadable
  (Recording.ofJson v).mapError Failure.defective

/-- A document that is itself a text is read as one. -/
def load : RecordingSource → Except Failure Recording
  | document (.str t) => readText t
  | document v => (Recording.ofJson v).mapError Failure.defective
  | text t => readText t
  | parsed r => pure r

end RecordingSource

namespace Export

/-- A session's notices as events. -/
def noticeEvents (s : Session) : List LogEvent := s.notices.map Notice.toEvent

/-- A result with the events logged on the way to it. -/
structure Outcome where
  result : ExportResult
  events : List LogEvent

/-- The configuration in force: the given one, or the default framework of the settings. -/
def resolve (settings : Settings) (config : Option ExportConfig) : ExportConfig :=
  config.getD { framework := FrameworkChoice.ofJson (.str settings.framework) }

/-- The result for a configuration with faults. -/
def refusal (faults : List ConfigFault) : Outcome :=
  ⟨{ success := false, error := some (Text.join "; " (faults.map ConfigFault.message)) }, []⟩

def templateConfig (settings : Settings) (config : ExportConfig) : TemplateConfig :=
  ⟨config.selectorAttribute, Json.int settings.timeout⟩

def component : Text × Json := ("component", .str "export_engine")

def operation (f : Framework) : Operation := ⟨"export", [component, ("framework", .str f.name)]⟩

def recordingFields (r : Recording) : List (Text × Json) :=
  [("title", .str r.title), ("steps_count", Json.int r.steps.length)]

def sourceMapField (ranges : List (Nat × Nat)) : Text × Json :=
  ("source_map", .arr (ranges.map fun p => .arr [Json.int p.1, Json.int p.2]))

/-- The result for a finished script; its source map is read back for the metadata. -/
def scriptResult (f : Framework) (r : Recording) (code : Text) : ExportResult :=
  match SourceMap.extract code with
  | .ok ranges =>
    ExportResult.ofScript f code (recordingFields r ++ [sourceMapField ranges])
  | .error e => ExportResult.ofFailure (some f) (.sourceMap e)

/-- Exports a recording to a framework. -/
def run (settings : Settings) (config : ExportConfig) (f : Framework) (source : RecordingSource) :
    Outcome :=
  let o := operation f
  let failed (e : Failure) (events : List LogEvent) : Outcome :=
    ⟨ExportResult.ofFailure (some f) e, o.started :: events ++ [o.failed [] e.message]⟩
  match source.load with
  | .error e => failed e []
  | .ok r =>
    match (f.template (templateConfig settings config)).renderRecording r
        (Session.start (settings.unit config.indentation)) with
    | .error e s => failed e (noticeEvents s)
    | .ok code s =>
      ⟨scriptResult f r code, o.started :: noticeEvents s ++ [o.completed (recordingFields r)]⟩

/-- Exports a recording, if the configuration is valid. -/
def recording (settings : Settings) (config : Option ExportConfig) (source : RecordingSource) :
    Outcome :=
  let config := resolve settings config
  match config.validate, config.framework with
  | [], .known f => run settings config f source
  | faults, _ => refusal faults

def stepFailed (e : Failure) : LogEvent :=
  ⟨.error, "Step export failed",
    [component, ("error", .str e.message), ("error_type", .str e.name)]⟩

/-- Exports one step to a framework. -/
def runStep (settings : Settings) (config : ExportConfig) (f : Framework) (v : Json) : Outcome :=
  match Step.ofJson none v with
  | .error d =>
    let e := Failure.defective d
    ⟨ExportResult.ofFailure (some f) e, [stepFailed e]⟩
  | .ok s =>
    match (f.template (templateConfig settings config)).renderStep s
        (Session.start (settings.unit config.indentation)) with
    | .error e t => ⟨ExportResult.ofFailure (some f) e, noticeEvents t ++ [stepFailed e]⟩
    | .ok code t =>
      ⟨ExportResult.ofScript f code [("step_type", .str s.type.name)], noticeEvents t⟩

/-- Exports one step by itself, if the configuration is valid. -/
def step (settings : Settings) (config : Option ExportConfig) (v : Json) : Outcome :=
  let config := resolve settings config
  match config.validate, config.framework with
  | [], .known f => runStep settings config f v
  | faults, _ => refusal faults

end Export

end FlowScript
