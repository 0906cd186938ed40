import FlowScript.Decimal.Shortest
import FlowScript.Json

/-!
# JSON on one line

Pure ASCII: everything outside the printable ASCII range is escaped, astral code points as surrogate
pairs. Members keep their order.
-/
namespace FlowScript

/-- A double has at least one decimal place and is written positionally from `10 ^ -4` up to below
`10 ^ 16`; exponents have a sign and at least two digits. -/
def Double.layout : Decimal.Layout := ⟨-4, 15, 2⟩

def Double.text (d : Double) : Text := Double.layout.text d

def Number.text : Number → Text
  | .int n => Decimal.intText n
  | .double d => d.text

namespace Json

/-- A UTF-16 unit in four hexadecimal digits. -/
def unitEscape (n : Nat) : Text := ("\\u" : Text) ++ Decimal.hex 4 n

def escape (c : CodePoint) : Text :=
  match c.val with
  | 34 => "\\\""
  | 92 => "\\\\"
  | 10 => "\\n"
  | 13 => "\\r"
  | 9 => "\\t"
  | 12 => "\\f"
  | 8 => "\\b"
  | n =>
    if 0x20 ≤ n ∧ n ≤ 0x7E then [c]
    else if n < 0x10000 then unitEscape n
    else unitEscape (0xD800 + (n - 0x10000) / 0x400) ++ unitEscape (0xDC00 + (n - 0x10000) % 0x400)

def quote (t : Text) : Text := ("\"" : Text) ++ t.flatMap escape ++ ("\"" : Text)

def NonFinite.word : NonFinite → Text
  | .nan => "NaN"
  | .infinity false => "Infinity"
  | .infinity true => "-Infinity"

mutual

/-- The text of a value, with a blank after each comma and colon. -/
def print : Json → Text
  | null => "null"
  | bool b => if b then "true" else "false"
  | num n => n.text
  | nonFinite x => NonFinite.word x
  | str t => quote t
  | arr xs => ("[" : Text) ++ printItems xs ++ ("]" : Text)
  | obj ms => ("\x7b" : Text) ++ printMembers ms ++ ("\x7d" : Text)

def printItems : List Json → Text
  | [] => []
  | [x] => print x
  | x :: y :: xs => print x ++ (", " : Text) ++ printItems (y :: xs)

def printMembers : List (Text × Json) → Text
  | [] => []
  | [(k, v)] => quote k ++ (": " : Text) ++ print v
  | (k, v) :: m :: ms =>
    quote k ++ (": " : Text) ++ print v ++ (", " : Text) ++ printMembers (m :: ms)

end

end Json

end FlowScript
