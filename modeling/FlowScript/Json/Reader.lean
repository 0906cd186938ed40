import FlowScript.Json.Token

/-!
# Reading JSON text

A stack of open arrays and objects, driven by the tokens. The first token that does not fit is
reported at its offset.
-/
namespace FlowScript.Json

/-- Where JSON text stops being one: a fault, its offset, and the line and column of that offset. -/
structure SyntaxError where
  fault : Fault
  offset : Nat
  line : Nat
  column : Nat
  deriving DecidableEq

def Fault.text : Fault → Text
  | expectedValue => "Expecting value"
  | expectedKey => "Expecting property name enclosed in double quotes"
  | expectedColon => "Expecting ':' delimiter"
  | expectedComma => "Expecting ',' delimiter"
  | unterminatedString => "Unterminated string starting at"
  | controlCharacter => "Invalid control character at"
  | invalidEscape => "Invalid \\escape"
  | invalidUnicodeEscape => "Invalid \\uXXXX escape"
  | extraData => "Extra data"
  | byteOrderMark => "Unexpected UTF-8 BOM (decode using utf-8-sig)"

/-- Lines count from one, and so do the columns after the last line feed. -/
def SyntaxError.at (t : Text) (fault : Fault) (offset : Nat) : SyntaxError :=
  let before := t.take offset
  ⟨fault, offset, before.count CodePoint.lineFeed + 1,
    (before.reverse.takeWhile (· ≠ CodePoint.lineFeed)).length + 1⟩

def SyntaxError.message (e : SyntaxError) : Text :=
  e.fault.text ++ (": line " : Text) ++ Decimal.natText e.line ++ (" column " : Text) ++
    Decimal.natText e.column ++ (" (char " : Text) ++ Decimal.natText e.offset ++ (")" : Text)

/-- An array or object that is still open. -/
inductive Frame where
  | array (items : List Json)
  | object (members : List (Text × Json)) (key : Text)

/-- What the next token has to be. -/
inductive Due where
  /-- A value, or the end of the array just opened. -/
  | value (closable : Bool)
  /-- A key, or the end of the object just opened. -/
  | key (members : List (Text × Json)) (closable : Bool)
  | colon (members : List (Text × Json)) (key : Text)
  /-- Whatever may follow a finished value. -/
  | after (v : Json)

/-- The document that the tokens spell from an intermediate state on. -/
def assemble : Due → List Frame → List (Token × Nat) → Except (Fault × Nat) Json
  | _, _, [] => .error (.expectedValue, 0)
  | .value closable, stack, (token, pos) :: rest =>
    match token with
    | .string t => assemble (.after (.str t)) stack rest
    | .scalar v => assemble (.after v) stack rest
    | .beginArray => assemble (.value true) (.array [] :: stack) rest
    | .beginObject => assemble (.key [] true) stack rest
    | .endArray =>
      match closable, stack with
      | true, .array items :: stack => assemble (.after (.arr items.reverse)) stack rest
      | _, _ => .error (.expectedValue, pos)
    | .malformed fault offset => .error (fault, offset)
    | _ => .error (.expectedValue, pos)
  | .key members closable, stack, (token, pos) :: rest =>
    match token with
    | .string t => assemble (.colon members t) stack rest
    | .endObject =>
      if closable then assemble (.after (.obj members)) stack rest else .error (.expectedKey, pos)
    | .malformed fault offset => .error (fault, offset)
    | _ => .error (.expectedKey, pos)
  | .colon members key, stack, (token, pos) :: rest =>
    match token with
    | .colon => assemble (.value false) (.object members key :: stack) rest
    | _ => .error (.expectedColon, pos)
  | .after v, [], (token, pos) :: _ =>
    match token with
    | .finish => .ok v
    | _ => .error (.extraData, pos)
  | .after v, .array items :: stack, (token, pos) :: rest =>
    match token with
    | .comma => assemble (.value false) (.array (v :: items) :: stack) rest
    | .endArray => assemble (.after (.arr (v :: items).reverse)) stack rest
    | _ => .error (.expectedComma, pos)
  | .after v, .object members key :: stack, (token, pos) :: rest =>
    match token with
    | .comma => assemble (.key (insert members key v) false) stack rest
    | .endObject => assemble (.after (.obj (insert members key v))) stack rest
    | _ => .error (.expectedComma, pos)

/-- The value that a JSON text stands for. -/
def ofText (t : Text) : Except SyntaxError Json :=
  if t.head?.any (·.val = 0xFEFF) then .error (SyntaxError.at t .byteOrderMark 0)
  else match assemble (.value false) [] (tokens t) with
    | .ok v => .ok v
    | .error (fault, offset) => .error (SyntaxError.at t fault offset)

end FlowScript.Json
