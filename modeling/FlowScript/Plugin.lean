import FlowScript.Export.Engine
import FlowScript.Log.Scope

/-!
# Recorder plugins

What a recorder host calls: a recording or a step goes in and script text comes out. Failures reach
the host, and the events of a recording carry its title and the framework.
-/
namespace FlowScript

structure Plugin where
  framework : Framework := .playwrightTest
  indentation : Option Text := none

namespace Plugin

def template (p : Plugin) : Template := p.framework.template {}

/-- Script text, or a failure, and the events logged on the way. -/
structure Reply (α : Type) where
  answer : Except Failure α
  events : List LogEvent

/-- Whether a source holds nothing at all. -/
def isNothing : RecordingSource → Bool
  | .document v => v.isFalsy
  | .text t => t.isEmpty
  | .parsed _ => false

def nothingFound : LogEvent :=
  ⟨.info, "No recordings found. Please create and upload one before trying again.",
    [("component", .str "recorder_plugin")]⟩

/-- The context of every event while a recording is rendered. -/
def context (p : Plugin) (r : Recording) : List (Text × Json) :=
  [("recording", .str r.title), ("framework", .str p.framework.name)]

/-- The script of a recording, or none when there is no recording. -/
def stringify (p : Plugin) (settings : Settings) (source : RecordingSource) :
    Reply (Option Text) :=
  if isNothing source then ⟨.ok none, [nothingFound]⟩
  else
    match source.load with
    | .error e => ⟨.error e, []⟩
    | .ok r =>
      let scope := (LogScope.enter [] (p.context r)).1
      let events (s : Session) := (Export.noticeEvents s).map (LogEvent.within scope)
      match p.template.renderRecording r (Session.start (settings.unit p.indentation)) with
      | .ok code s => ⟨.ok (some code), events s⟩
      | .error e s => ⟨.error e, events s⟩

/-- A step as it is handed over: a document still to be read, or a step. -/
inductive StepSource where
  | document (v : Json)
  | parsed (s : Step)

/-- Only objects are read; anything else is taken for a step, and fails when it is used as one. -/
def StepSource.load : StepSource → Except Failure Step
  | document (.obj ms) => (Step.ofJson none (.obj ms)).mapError Failure.defective
  | document _ => throw .notStep
  | parsed s => pure s

/-- The code of one step. -/
def stringifyStep (p : Plugin) (settings : Settings) (source : StepSource) : Reply Text :=
  match source.load with
  | .error e => ⟨.error e, []⟩
  | .ok s =>
    match p.template.renderStep s (Session.start (settings.unit p.indentation)) with
    | .ok code t => ⟨.ok code, Export.noticeEvents t⟩
    | .error e t => ⟨.error e, Export.noticeEvents t⟩

end Plugin

end FlowScript
