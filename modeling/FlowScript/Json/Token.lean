import FlowScript.Decimal.Digits
import FlowScript.Json

/-!
# Tokens of JSON text

A token knows the offset at which it starts. Tokens are recognised one after another from the left;
the first that cannot be part of any document ends the list.
-/
namespace FlowScript.Json

/-- What can be wrong with JSON text. -/
inductive Fault where
  | expectedValue
  | expectedKey
  | expectedColon
  | expectedComma
  | unterminatedString
  | controlCharacter
  | invalidEscape
  | invalidUnicodeEscape
  | extraData
  | byteOrderMark
  deriving DecidableEq

inductive Token where
  | beginArray
  | endArray
  | beginObject
  | endObject
  | colon
  | comma
  | string (t : Text)
  | scalar (v : Json)
  /-- A string literal that cannot be read, with the offset of its fault. -/
  | malformed (fault : Fault) (offset : Nat)
  | unknown
  | finish

/-- A string literal from after its opening quote: the text it stands for, and how many code points
it takes up, the closing quote included. `pos` is the offset of the next code point. -/
def scanString (opening : Nat) : (pos : Nat) → Text → Except (Fault × Nat) (Text × Nat)
  | _, [] => .error (.unterminatedString, opening)
  | pos, c :: t =>
    if c.val = 34 then .ok ([], 1)
    else if c.val = 92 then
      match t with
      | [] => .error (.unterminatedString, opening)
      | e :: t =>
        let plain (v : Nat) := (scanString opening (pos + 2) t).map fun (s, n) =>
          (CodePoint.ofNat v :: s, n + 2)
        match e.val with
        | 34 => plain 34
        | 92 => plain 92
        | 47 => plain 47
        | 98 => plain 8
        | 102 => plain 12
        | 110 => plain 10
        | 114 => plain 13
        | 116 => plain 9
        | 117 =>
          match t with
          | a :: b :: c :: d :: t =>
            if t.isEmpty then .error (.invalidUnicodeEscape, pos + 1)
            else match Decimal.hexQuad? a b c d with
              | none => .error (.invalidUnicodeEscape, pos + 1)
              | some v =>
                let single := (scanString opening (pos + 6) t).map fun (s, n) =>
                  (CodePoint.ofNat v :: s, n + 6)
                if (CodePoint.ofNat v).isHighSurrogate then
                  match t with
                  | x :: y :: a :: b :: c :: d :: t =>
                    if t.isEmpty || x.val != 92 || y.val != 117 then single
                    else match Decimal.hexQuad? a b c d with
                      | none => .error (.invalidUnicodeEscape, pos + 7)
                      | some w =>
                        if (CodePoint.ofNat w).isLowSurrogate then
                          (scanString opening (pos + 12) t).map fun (s, n) =>
                            (CodePoint.ofNat (0x10000 + (v - 0xD800) * 0x400 + (w - 0xDC00)) :: s,
                              n + 12)
                        else single
                  | _ => single
                else single
          | _ => .error (.invalidUnicodeEscape, pos + 1)
        | _ => .error (.invalidEscape, pos)
    else if c.val < 32 then .error (.controlCharacter, pos)
    else (scanString opening (pos + 1) t).map fun (s, n) => (c :: s, n + 1)

/-- The digits at the start of a text, and the rest. -/
def digitRun (t : Text) : Text × Text := t.span CodePoint.isDigit

def readDigits (ds : Text) : Nat := Decimal.ofDigits (ds.map Decimal.digitValue)

/-- The fraction digits at the start of a text; a point without digits is none. -/
def scanFraction : Text → Text × Text
  | c :: t => if c.val = 46 && !(digitRun t).1.isEmpty then digitRun t else ([], c :: t)
  | [] => ([], [])

/-- The power of ten at the start of a text; a letter without digits is none. -/
def scanExponent : Text → Option Int × Text
  | c :: t =>
    if c.val = 101 || c.val = 69 then
      let (negative, digitsAt) : Bool × Text := match t with
        | s :: r => if s.val = 45 then (true, r) else if s.val = 43 then (false, r) else (false, t)
        | [] => (false, t)
      let (ds, rest) := digitRun digitsAt
      if ds.isEmpty then (none, c :: t)
      else (some (if negative then -(readDigits ds : Int) else readDigits ds), rest)
    else (none, c :: t)
  | [] => (none, [])

/-- The number at the start of a text, and what follows it. Without fraction and exponent it is an
integer; a double past the largest one is an infinity. -/
def scanNumber (t : Text) : Option (Json × Text) :=
  let (negative, magnitude) : Bool × Text := match t with
    | c :: r => if c.val = 45 then (true, r) else (false, t)
    | [] => (false, [])
  let (whole, rest) : Text × Text := match magnitude with
    | c :: r => if c.val = 48 then ([c], r) else digitRun magnitude
    | [] => ([], [])
  if whole.isEmpty then none
  else
    let (fraction, rest) := scanFraction rest
    let (exponent, rest) := scanExponent rest
    if fraction.isEmpty && exponent.isNone then
      let n : Int := readDigits whole
      some (int (if negative then -n else n), rest)
    else
      let d := Double.ofDecimal? negative (readDigits (whole ++ fraction))
        (exponent.getD 0 - fraction.length)
      some (match d with
        | some d => .num (.double d)
        | none => .nonFinite (.infinity negative), rest)

/-- The words that stand for a value. -/
def words : List (Text × Json) :=
  [("null", .null), ("true", .bool true), ("false", .bool false), ("NaN", .nonFinite .nan),
    ("Infinity", .nonFinite (.infinity false)), ("-Infinity", .nonFinite (.infinity true))]

/-- The token at the start of a nonempty text, and how many code points it takes up. -/
def firstToken (pos : Nat) (c : CodePoint) (t : Text) : Token × Nat :=
  match c.val with
  | 91 => (.beginArray, 1)
  | 93 => (.endArray, 1)
  | 123 => (.beginObject, 1)
  | 125 => (.endObject, 1)
  | 58 => (.colon, 1)
  | 44 => (.comma, 1)
  | 34 =>
    match scanString pos (pos + 1) t with
    | .ok (s, n) => (.string s, n + 1)
    | .error (fault, offset) => (.malformed fault offset, 1)
  | _ =>
    match words.find? fun w => w.1.isPrefixOf (c :: t) with
    | some (w, v) => (.scalar v, w.length)
    | none =>
      match scanNumber (c :: t) with
      | some (v, rest) => (.scalar v, t.length + 1 - rest.length)
      | none => (.unknown, 1)

def isSpace (c : CodePoint) : Bool := c.val = 32 || c.val = 9 || c.val = 10 || c.val = 13

/-- The tokens of a text with their offsets; `skip` code points belong to the token before. -/
def tokensFrom (skip pos : Nat) : Text → List (Token × Nat)
  | [] => [(.finish, pos)]
  | c :: t =>
    match skip with
    | skip + 1 => tokensFrom skip (pos + 1) t
    | 0 =>
      if isSpace c then tokensFrom 0 (pos + 1) t
      else match firstToken pos c t with
        | (.malformed fault offset, _) => [(.malformed fault offset, pos)]
        | (.unknown, _) => [(.unknown, pos)]
        | (token, length) => (token, pos) :: tokensFrom (length - 1) (pos + 1) t

def tokens (t : Text) : List (Token × Nat) := tokensFrom 0 0 t

end FlowScript.Json
