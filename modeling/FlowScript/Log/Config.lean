import FlowScript.Log.Event
import FlowScript.Settings

/-!
# Log configurations

Which events are kept, and how they are written.
-/
namespace FlowScript

inductive LogFormat where
  | console
  | object
  deriving DecidableEq

structure LogConfig where
  threshold : Nat
  format : LogFormat

/-- The thresholds by name. -/
def LogConfig.thresholds : List (Text × Nat) :=
  [("DEBUG", 10), ("INFO", 20), ("WARNING", 30), ("WARN", 30), ("ERROR", 40), ("CRITICAL", 50),
    ("FATAL", 50), ("NOTSET", 0)]

/-- The configuration for a threshold named in any case; there is none for other names. -/
def LogConfig.ofLevel? (level : Text) (format : LogFormat) : Option LogConfig :=
  (thresholds.find? fun l => l.1 = level.upper).map fun l => ⟨l.2, format⟩

/-- The severity a level of the settings stands for. -/
def LogLevel.severity : LogLevel → Severity
  | .debug => .debug
  | .info => .info
  | .warning => .warning
  | .error => .error

/-- The configuration that the settings ask for. -/
def LogConfig.ofSettings (s : Settings) : LogConfig :=
  ⟨s.logLevel.severity.weight, if s.logJson then .object else .console⟩

theorem LogLevel.find?_thresholds (l : LogLevel) :
    (LogConfig.thresholds.find? fun t => t.1 = l.name.upper).map Prod.snd =
      some l.severity.weight := by
  cases l <;> decide +kernel

/-- The name of a level of the settings names its threshold. -/
theorem LogConfig.ofLevel?_logLevel (s : Settings) :
    ofLevel? s.logLevel.name (ofSettings s).format = some (ofSettings s) := by
  obtain ⟨t, h, hw⟩ := Option.map_eq_some_iff.1 s.logLevel.find?_thresholds
  simp only [ofLevel?, h, Option.map_some, hw]
  rfl

end FlowScript
