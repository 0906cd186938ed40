import FlowScript.Json.Display

/-!
# Source maps

A script ends with a comment that lists the format version and then, for each step, the first line
and the number of lines it produced. Each number is written in groups of five bits, the least
significant first, one symbol of 64 per group; a sixth bit says that another group follows.
-/
namespace FlowScript.SourceMap

inductive Error where
  | notInteger (v : Json)
  | negative
  | tooLarge
  | invalidSymbol (c : CodePoint)
  | truncated
  | missing
  | unsupportedVersion (version : Option Nat)
  | oddEntries

/-- The greatest number that is written. -/
def greatest : Nat := 2147483647

namespace Error

def message : Error → Text
  | notInteger v => ("Only integers are supported, got " : Text) ++ v.display
  | negative => "Only positive integers and zero are supported"
  | tooLarge =>
    ("Only integers between 0 and " : Text) ++ Decimal.natText greatest ++ (" are supported" : Text)
  | invalidSymbol c => ("Invalid source map character: " : Text) ++ Text.display [c]
  | truncated => "Source map ends in the middle of an integer"
  | missing => "Script does not contain a source map"
  | unsupportedVersion version =>
    ("Unsupported source map version: " : Text) ++
      (match version with
        | some n => Decimal.natText n
        | none => "None")
  | oddEntries => "Source map has an odd number of line entries"

end Error

/-- The symbol of six bits: upper-case letters, lower-case letters, digits, plus and slash. -/
def symbol (bits : Nat) : CodePoint :=
  if bits < 26 then .ofNat (65 + bits)
  else if bits < 52 then .ofNat (71 + bits)
  else if bits < 62 then .ofNat (bits - 4)
  else if bits = 62 then '+' else '/'

def bits? (c : CodePoint) : Option Nat :=
  if 65 ≤ c.val ∧ c.val ≤ 90 then some (c.val - 65)
  else if 97 ≤ c.val ∧ c.val ≤ 122 then some (c.val - 71)
  else if 48 ≤ c.val ∧ c.val ≤ 57 then some (c.val + 4)
  else if c.val = 43 then some 62
  else if c.val = 47 then some 63
  else none

/-- The symbols of a number. -/
def encodeNat (n : Nat) : Text :=
  if n < 32 then [symbol n] else symbol (n % 32 + 32) :: encodeNat (n / 32)
termination_by n
decreasing_by omega

def encodeInt : Int → Except Error Text
  | .negSucc _ => throw .negative
  | .ofNat n => if n ≤ greatest then pure (encodeNat n) else throw .tooLarge

/-- Truth values and doubles are no integers, not even integral ones. -/
def encodeJson : Json → Except Error Text
  | .num (.int n) => encodeInt n
  | v => throw (.notInteger v)

def encode (ns : List Int) : Except Error Text := List.flatten <$> ns.mapM encodeInt

/-- The symbols of values that have to be integers; the first that is not written is reported. -/
def encodeValues (vs : List Json) : Except Error Text := List.flatten <$> vs.mapM encodeJson

/-- Reads symbols on from inside a number: `value` is what its groups so far come to, `weight` what
the next group counts, and `inside` says that one is due. -/
def decodeFrom (value weight : Nat) (inside : Bool) : Text → Except Error (List Nat)
  | [] => if inside then throw .truncated else pure []
  | c :: t =>
    match bits? c with
    | none => throw (.invalidSymbol c)
    | some b =>
      if b < 32 then ((value + b * weight) :: ·) <$> decodeFrom 0 1 false t
      else decodeFrom (value + (b - 32) * weight) (weight * 32) true t

def decode (t : Text) : Except Error (List Nat) := decodeFrom 0 1 false t

/-- What opens the comment. -/
def marker : Text := "//# recorderSourceMap="

def version : Nat := 1

/-- The comment line for a list of numbers. -/
def line (ns : List Int) : Except Error Text := (marker ++ ·) <$> encode ns

/-- The symbols after the marker, of a line that is a source map comment behind spaces and tabs. -/
def payload? (l : Text) : Option Text :=
  let rest := l.dropWhile fun c => c.val = 32 || c.val = 9
  if marker.isPrefixOf rest && (rest.drop marker.length).all fun c => (bits? c).isSome then
    some (rest.drop marker.length)
  else none

/-- A list of even length in pairs. -/
def pairs? : List Nat → Option (List (Nat × Nat))
  | [] => some []
  | [_] => none
  | a :: b :: ns => (pairs? ns).map ((a, b) :: ·)

/-- First line and line count of each step, read from the last source map comment of a script. -/
def extract (script : Text) : Except Error (List (Nat × Nat)) := do
  match (script.lines.filterMap payload?).getLast? with
  | none => throw .missing
  | some symbols =>
    match ← decode symbols with
    | [] => throw (.unsupportedVersion none)
    | v :: ns =>
      if v ≠ version then throw (.unsupportedVersion (some v))
      match pairs? ns with
      | some ranges => pure ranges
      | none => throw .oddEntries

theorem bits?_symbol : ∀ b < 64, bits? (symbol b) = some b := by decide

end FlowScript.SourceMap
