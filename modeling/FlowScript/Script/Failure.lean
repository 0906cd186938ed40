import FlowScript.Json.Reader
import FlowScript.Recording.Defect
import FlowScript.Script.SourceMap

/-!
# Failures

Everything that can stop a recording from becoming a script, with the name of its class and its
message.
-/
namespace FlowScript

inductive Failure where
  /-- The recording is no JSON text. -/
  | unreadable (e : Json.SyntaxError)
  /-- The document is no recording. -/
  | defective (d : Defect)
  /-- A number without a numeral was due. -/
  | nonFinite (x : NonFinite)
  | sourceMap (e : SourceMap.Error)
  /-- A selector chain without parts has no outermost part. -/
  | emptyChain
  /-- A hook of a template gave up. -/
  | hook (reason : Text)
  /-- The template has no hook for the code of a step. -/
  | missingHook
  /-- What was handed over as a step is none. -/
  | notStep

namespace Failure

def name : Failure → Text
  | unreadable _ => "JSONDecodeError"
  | defective d =>
    match d.kind with
    | .shape => "ShapeError"
    | .range => "RangeError"
    | .unknownVariant => "UnknownVariantError"
    | .overflow => "OverflowError"
  | nonFinite _ => "ValueError"
  | sourceMap _ => "EncodingError"
  | emptyChain => "IndexError"
  | hook _ => "RuntimeError"
  | missingHook => "AttributeError"
  | notStep => "AttributeError"

/-- The message, of every failure that has one. -/
def message? : Failure → Option Text
  | unreadable e => some e.message
  | defective d => some d.message
  | nonFinite x => some (("Cannot format non-finite number: " : Text) ++ Json.NonFinite.text x)
  | sourceMap e => some e.message
  | emptyChain => some "tuple index out of range"
  | hook reason => some reason
  | missingHook => none
  | notStep => none

def message (f : Failure) : Text := f.message?.getD []

end Failure

end FlowScript
