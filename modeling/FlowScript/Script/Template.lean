import FlowScript.Recording
import FlowScript.Script.Act

/-!
# Templates

A template turns a recording into a script through up to five hooks, run in a fixed order: once
before all steps, three for each step, once after all steps. Only the hook for the code of a step is
required. A step rendered by itself has no recording, and the two outer hooks are left out.
-/
namespace FlowScript

/-- What a hook of a step gets to see: the step, and the recording it is rendered in. -/
abbrev StepHook := Step → Option Recording → List Act

structure Template where
  beforeAllSteps : Option (Recording → List Act) := none
  beforeEachStep : Option StepHook := none
  stringifyStep : Option StepHook := none
  afterEachStep : Option StepHook := none
  afterAllSteps : Option (Recording → List Act) := none

namespace Template

/-- The acts of an optional hook; a missing one does nothing. -/
def optionalActs (hook : Option StepHook) (s : Step) (r : Option Recording) : List Act :=
  match hook with
  | some h => h s r
  | none => []

/-- The acts of the hook for a step's code; a missing one fails. -/
def requiredActs (hook : Option StepHook) (s : Step) (r : Option Recording) : List Act :=
  match hook with
  | some h => h s r
  | none => [.fail .missingHook]

def flowActs (hook : Option (Recording → List Act)) (r : Recording) : List Act :=
  match hook with
  | some h => h r
  | none => []

/-- All acts for one step, in order. -/
def stepActs (t : Template) (s : Step) (r : Option Recording) : List Act :=
  optionalActs t.beforeEachStep s r ++ requiredActs t.stringifyStep s r ++
    optionalActs t.afterEachStep s r

/-- Runs the acts of a step and tells which lines they wrote: the first, and how many. -/
def renderRange (t : Template) (s : Step) (r : Recording) : Rendering (Nat × Nat) := do
  let first := (← get).writer.size
  Act.runAll (t.stepActs s (some r))
  pure (first, (← get).writer.size - first)

def renderRanges (t : Template) (r : Recording) : List Step → Rendering (List (Nat × Nat))
  | [] => pure []
  | s :: ss => do
    let range ← t.renderRange s r
    pure (range :: (← renderRanges t r ss))

/-- The numbers of the source map: its version, then a first line and a line count per step. -/
def sourceMapNumbers (ranges : List (Nat × Nat)) : List Int :=
  (SourceMap.version : Int) :: ranges.flatMap fun p => [(p.1 : Int), (p.2 : Int)]

/-- Appends the source map comment. -/
def appendSourceMap (ranges : List (Nat × Nat)) : Rendering Unit := fun s =>
  match SourceMap.line (sourceMapNumbers ranges) with
  | .ok l => .ok () { s with writer := s.writer.append l }
  | .error e => .error (.sourceMap e) s

/-- Writes the script of a recording and returns all text written so far. -/
def renderRecording (t : Template) (r : Recording) : Rendering Text := do
  Act.runAll (flowActs t.beforeAllSteps r)
  let ranges ← t.renderRanges r r.steps
  Act.runAll (flowActs t.afterAllSteps r)
  appendSourceMap ranges
  pure (← get).writer.text

/-- Writes the code of one step by itself and returns all text written so far. -/
def renderStep (t : Template) (s : Step) : Rendering Text := do
  Act.runAll (t.stepActs s none)
  pure (← get).writer.text

end Template

end FlowScript
