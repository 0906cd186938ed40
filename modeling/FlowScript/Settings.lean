import FlowScript.Json.Token
import FlowScript.Text.Blank
import FlowScript.Text.Case

/-!
# Settings

Defaults for exports and logging, read from named values. Values may come as text, as they do from
an environment, and are converted where that loses nothing. All bad values are reported, in the
order of the settings.
-/
namespace FlowScript

inductive SettingFault where
  | notText
  | notIndentation
  | notInteger
  | notIntegerText
  | fractional
  | outOfRange
  | nonFinite
  | tooSmall
  | tooLarge
  | unknownLevel
  | notBoolean
  | notBooleanText
  deriving DecidableEq

namespace SettingFault

/-- The kind of a fault, for programs. -/
def code : SettingFault → Text
  | notText => "string_type"
  | notIndentation => "value_error"
  | notInteger => "int_type"
  | notIntegerText => "int_parsing"
  | fractional => "int_from_float"
  | outOfRange => "int_parsing_size"
  | nonFinite => "finite_number"
  | tooSmall => "greater_than_equal"
  | tooLarge => "less_than_equal"
  | unknownLevel => "enum"
  | notBoolean => "bool_type"
  | notBooleanText => "bool_parsing"

def message : SettingFault → Text
  | notText => "Input should be a valid string"
  | notIndentation => "Value error, export_indentation must be non-empty whitespace"
  | notInteger => "Input should be a valid integer"
  | notIntegerText => "Input should be a valid integer, unable to parse string as an integer"
  | fractional => "Input should be a valid integer, got a number with a fractional part"
  | outOfRange => "Unable to parse input string as an integer, exceeded maximum size"
  | nonFinite => "Input should be a finite number"
  | tooSmall => "Input should be greater than or equal to 1"
  | tooLarge => "Input should be less than or equal to 30000"
  | unknownLevel => "Input should be 'DEBUG', 'INFO', 'WARNING' or 'ERROR'"
  | notBoolean => "Input should be a valid boolean"
  | notBooleanText => "Input should be a valid boolean, unable to interpret input"

end SettingFault

/-- A bad value of one setting. -/
structure SettingIssue where
  setting : Text
  fault : SettingFault

/-- The log levels that a setting may name. -/
inductive LogLevel where
  | debug
  | info
  | warning
  | error
  deriving DecidableEq

def LogLevel.name : LogLevel → Text
  | .debug => "DEBUG"
  | .info => "INFO"
  | .warning => "WARNING"
  | .error => "ERROR"

structure Settings where
  indentation : Text := "  "
  framework : Text := "playwright-test"
  /-- The timeout in milliseconds of a recording that sets none. -/
  timeout : Int := 5000
  logLevel : LogLevel := .info
  logJson : Bool := false

namespace Settings

/-- The indentation unit asked for, or the one of the settings; an empty one counts as none. -/
def unit (s : Settings) (given : Option Text) : Text :=
  match given with
  | some (x :: xs) => x :: xs
  | _ => s.indentation

/-- White space around a number; the information separators do not count as such here. -/
def isPadding (c : CodePoint) : Bool := c.isBlank && !(0x1C ≤ c.val && c.val ≤ 0x1F)

def trimPadding (t : Text) : Text :=
  ((t.dropWhile isPadding).reverse.dropWhile isPadding).reverse

/-- What follows a run of zeros and underscores. Its last code point, `last` so far, stays when a
point or nothing follows, so that a zero is left of zeros alone. -/
def afterZeros (last : CodePoint) : Text → Text
  | [] => [last]
  | c :: t =>
    if c.val = 48 || c.val = 95 then afterZeros c t
    else if c.val = 46 then last :: c :: t
    else c :: t

/-- A numeral without leading zeros. -/
def withoutLeadingZeros : Text → Text
  | [] => []
  | c :: t => if c.val = 48 then afterZeros c t else c :: t

/-- A numeral without its fraction, when the fraction is one or more zeros. -/
def withoutZeroFraction (t : Text) : Text :=
  let (whole, fraction) := t.span fun c => c.val ≠ 46
  match fraction with
  | _ :: z :: zs => if (z :: zs).all fun c => c.val = 48 then whole else t
  | _ => t

/-- A numeral without its underscores, if they stand one by one between other code points. -/
def withoutSeparators (t : Text) : Text :=
  let groups := t.splitOn ('_' : CodePoint)
  if groups.any List.isEmpty then t else groups.flatten

/-- The integer a text spells: a sign or none, then a numeral that starts with a digit. Less leading
zeros, a fraction of zeros and separators it has to be an integer of JSON, so a minus that does not
stand in front may still stand behind leading zeros. -/
def integerOfText? (t : Text) : Option Int :=
  let t := trimPadding t
  let (sign, numeral) : Text × Text := match t with
    | c :: r => if c.val = 45 then ([c], r) else if c.val = 43 then ([], r) else ([], t)
    | [] => ([], [])
  if numeral.head?.any CodePoint.isDigit then
    let plain := withoutSeparators (withoutZeroFraction (withoutLeadingZeros numeral))
    match Json.scanNumber (sign ++ plain) with
    | some (.num (.int n), []) => some n
    | _ => none
  else none

/-- The integer of 64 bits that a number equals, if it equals one. A double has to lie strictly
between the bounds, since the upper one is itself a double and no such integer. -/
def wordOf? : Number → Option Int
  | .int n => if -0x8000000000000000 ≤ n ∧ n < 0x8000000000000000 then some n else none
  | .double d => (Number.double d).toInt?.filter fun k => k.natAbs < 0x8000000000000000

def readText : Json → Except SettingFault Text
  | .str t => pure t
  | _ => throw .notText

def readIndentation (v : Json) : Except SettingFault Text := do
  let t ← readText v
  if t.isIndentation then pure t else throw .notIndentation

/-- An integer of any size, or an integral double of 64 bits. -/
def readInteger : Json → Except SettingFault Int
  | .num (.int n) => pure n
  | .num (.double d) =>
    if (Number.double d).toInt?.isNone then throw .fractional
    else match wordOf? (.double d) with
      | some k => pure k
      | none => throw .outOfRange
  | .bool b => pure (if b then 1 else 0)
  | .str t =>
    match integerOfText? t with
    | some k => pure k
    | none => throw .notIntegerText
  | .nonFinite _ => throw .nonFinite
  | _ => throw .notInteger

def readTimeout (v : Json) : Except SettingFault Int := do
  let n ← readInteger v
  if n < 1 then throw .tooSmall
  if 30000 < n then throw .tooLarge
  pure n

def readLogLevel (v : Json) : Except SettingFault LogLevel :=
  match v with
  | .str t =>
    match [LogLevel.debug, .info, .warning, .error].find? fun l => l.name = t with
    | some l => pure l
    | none => throw .unknownLevel
  | _ => throw .unknownLevel

/-- The words for false and true, in lower case. -/
def falseWords : List Text := ["0", "off", "f", "false", "n", "no"]

def trueWords : List Text := ["1", "on", "t", "true", "y", "yes"]

def readBoolean : Json → Except SettingFault Bool
  | .bool b => pure b
  | .str t =>
    if falseWords.contains t.lower then pure false
    else if trueWords.contains t.lower then pure true
    else throw .notBooleanText
  | .num n =>
    match wordOf? n with
    | some 0 => pure false
    | some 1 => pure true
    | some _ => throw .notBooleanText
    | none => throw .notBoolean
  | _ => throw .notBoolean

/-- The value of one setting, or its default when it is not given. -/
def readOr (default : α) (read : Json → Except SettingFault α) (name : Text)
    (given : Text → Option Json) : Except SettingIssue α :=
  match given name with
  | none => pure default
  | some v => (read v).mapError fun fault => ⟨name, fault⟩

def issue? : Except SettingIssue α → List SettingIssue
  | .ok _ => []
  | .error e => [e]

/-- The settings given by name, or all their faults. -/
def read (given : Text → Option Json) : Except (List SettingIssue) Settings :=
  let usual : Settings := {}
  let indentation := readOr usual.indentation readIndentation "export_indentation" given
  let framework := readOr usual.framework readText "export_default_framework" given
  let timeout := readOr usual.timeout readTimeout "export_default_timeout" given
  let level := readOr usual.logLevel readLogLevel "log_level" given
  let json := readOr usual.logJson readBoolean "log_json" given
  match indentation, framework, timeout, level, json with
  | .ok i, .ok f, .ok t, .ok l, .ok j => .ok ⟨i, f, t, l, j⟩
  | _, _, _, _, _ =>
    .error (issue? indentation ++ issue? framework ++ issue? timeout ++ issue? level ++ issue? json)

/-- Values given directly come before those of an environment, whose names have no case. Of several
variables that differ in case only, the last counts. -/
def sources (direct environment : List (Text × Json)) (name : Text) : Option Json :=
  match Json.find? name direct with
  | some v => some v
  | none => (environment.reverse.find? fun m => m.1.lower = name).map Prod.snd

def toJson (s : Settings) : Json :=
  .obj [("export_indentation", .str s.indentation),
    ("export_default_framework", .str s.framework),
    ("export_default_timeout", Json.int s.timeout), ("log_level", .str s.logLevel.name),
    ("log_json", .bool s.logJson)]

end Settings

end FlowScript
