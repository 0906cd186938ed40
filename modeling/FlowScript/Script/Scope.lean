import FlowScript.Script.Act
import FlowScript.Script.Template

/-!
# Scopes in scripts

Names and lines that scripts of every framework share: physical mouse buttons, the variable that
stands for a page or a frame, and the walk down a frame path.
-/
namespace FlowScript

/-- The physical name of a button, as automation libraries know it. -/
def MouseButton.physicalName : MouseButton → String
  | .primary => "left"
  | .auxiliary => "middle"
  | .secondary => "right"
  | .back => "back"
  | .forward => "forward"

namespace Step

/-- Whether the step acts on a frame below the main one. -/
def inFrame (s : Step) : Bool := !s.framePath.isEmpty

/-- Lines that set `frame` to the frame at the end of a path. -/
def frameActs (path : List Nat) : List Act :=
  Act.code "let frame = targetPage.mainFrame();" ::
    path.map fun (i : Nat) =>
      .line [.code "frame = frame.childFrames()[", .number (.int i), .code "];"]

end Step

/-- The settings of a template: a preferred selector attribute, and what stands for the timeout of a
recording that has none. -/
structure TemplateConfig where
  selectorAttribute : Option Text := none
  defaultTimeout : Json := .num 5000

/-- The attribute in force: the configured one unless it is empty, else the recording's. -/
def TemplateConfig.attributeFor (c : TemplateConfig) (r : Option Recording) : Option Text :=
  match c.selectorAttribute with
  | some (x :: xs) => some (x :: xs)
  | _ => r.bind Recording.selectorAttribute

end FlowScript
