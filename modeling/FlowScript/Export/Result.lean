import FlowScript.Export.Framework

/-!
# Export results

What an export hands back in either case: a script with the file ending, the packages and the metadata
that go with it, or the text and the class of an error.
-/
namespace FlowScript

/-- What an export comes to: a script and what goes with it, or an error. -/
structure ExportResult where
  success : Bool
  code : Text := []
  framework : Option Framework := none
  fileExtension : Text := ".js"
  dependencies : List Text := []
  error : Option Text := none
  errorType : Option Text := none
  metadata : List (Text × Json) := []

namespace ExportResult

def ofFailure (framework : Option Framework) (f : Failure) : ExportResult :=
  { success := false, framework := framework, error := some f.message, errorType := some f.name }

def ofScript (framework : Framework) (code : Text) (metadata : List (Text × Json)) :
    ExportResult :=
  { success := true, code := code, framework := some framework,
    fileExtension := framework.fileExtension, dependencies := framework.dependencies,
    metadata := metadata }

def toJson (r : ExportResult) : Json :=
  .obj [("success", .bool r.success), ("code", .str r.code),
    ("framework", Json.ofText? (r.framework.map Framework.name)),
    ("file_extension", .str r.fileExtension), ("dependencies", .arr (r.dependencies.map .str)),
    ("error", Json.ofText? r.error), ("error_type", Json.ofText? r.errorType),
    ("metadata", .obj r.metadata)]

end ExportResult

end FlowScript
