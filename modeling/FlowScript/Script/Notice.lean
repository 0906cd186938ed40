import FlowScript.Log.Event
import FlowScript.Recording.Defect

/-!
# Notices

What a template has to tell its user beside the script: steps it left out, and parts of steps it
could not express.
-/
namespace FlowScript

/-- Why a step has no code. -/
inductive SkipReason where
  | noUsableSelector
  | unsupportedKey (key : Text)
  | payloadMatching
  | elementCount (operator : WaitOperator) (count : Number)
  | networkEmulation
  | customStep (name : Text)

def SkipReason.text : SkipReason → Text
  | noUsableSelector => "no usable selector"
  | unsupportedKey key => ("unsupported key " : Text) ++ key.display
  | payloadMatching => "attribute and property matching is not supported"
  | elementCount operator count =>
    ("cannot wait for " : Text) ++ operator.name ++ (" " : Text) ++ count.text ++
      (" elements" : Text)
  | networkEmulation => "network emulation is not supported"
  | customStep name => ("custom step " : Text) ++ name.display ++ (" is not supported" : Text)

inductive Notice where
  /-- A step was left out; with the first part of its best selector, if it has one. -/
  | skipped (type : StepType) (selector : Option Text) (reason : SkipReason)
  | buttonIgnored (button : MouseButton)
  | customStepOmitted (name : Text)

namespace Notice

def skippedMessage : Text := "Step was not exported to Playwright"

def toEvent : Notice → LogEvent
  | skipped type selector reason =>
    ⟨.warning, skippedMessage,
      [("component", .str "playwright_test_template"), ("step_type", .str type.name),
        ("selector", Json.ofText? selector), ("reason", .str reason.text)]⟩
  | buttonIgnored button =>
    ⟨.warning, "Mouse button is not supported by Playwright",
      [("component", .str "playwright_test_template"), ("button", .str button.name)]⟩
  | customStepOmitted name =>
    ⟨.debug, "Skipping custom step",
      [("component", .str "puppeteer_template"), ("name", .str name)]⟩

end Notice

end FlowScript
