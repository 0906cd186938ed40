import FlowScript.Export.Framework
import FlowScript.Json.Display

/-!
# Export configurations

What an export is asked for. A framework is named by any value, so one that is not supported is kept
as it was given, and reported when the configuration is validated.
-/
namespace FlowScript

/-- The framework asked for: one of those there are, or something else that was named. -/
inductive FrameworkChoice where
  | known (f : Framework)
  | unknown (v : Json)

namespace FrameworkChoice

/-- Frameworks are named in any case. -/
def ofJson (v : Json) : FrameworkChoice :=
  match v with
  | .str t =>
    match Framework.ofName? t.lower with
    | some f => known f
    | none => unknown v
  | _ => unknown v

def known? : FrameworkChoice → Option Framework
  | known f => some f
  | unknown _ => none

end FrameworkChoice

structure ExportConfig where
  framework : FrameworkChoice := .known .playwrightTest
  /-- The indentation unit, when it is not the one of the settings. -/
  indentation : Option Text := none
  /-- A preferred attribute that overrides the recording's. -/
  selectorAttribute : Option Text := none

inductive ConfigFault where
  | unsupportedFramework (v : Json)
  | badIndentation

def ConfigFault.message : ConfigFault → Text
  | .unsupportedFramework v =>
    ("Unsupported framework: " : Text) ++ v.plain ++ (". Valid options: " : Text) ++
      (Json.arr (Framework.all.map fun f => .str f.name)).display
  | .badIndentation => "Indentation must be non-empty whitespace"

namespace ExportConfig

def frameworkFaults (c : ExportConfig) : List ConfigFault :=
  match c.framework with
  | .known _ => []
  | .unknown v => [.unsupportedFramework v]

def indentationFaults (c : ExportConfig) : List ConfigFault :=
  match c.indentation with
  | some t => if t.isIndentation then [] else [.badIndentation]
  | none => []

/-- Everything that is wrong with a configuration; a valid one has no faults. -/
def validate (c : ExportConfig) : List ConfigFault := c.frameworkFaults ++ c.indentationFaults

end ExportConfig

end FlowScript
