import FlowScript.Json.Printer
import FlowScript.Text.Printable

/-!
# Values in diagnostics

How a value is shown to a reader of an error message or a log line: on one line, text in single
quotes unless only double quotes spare an escape, and no unprintable code point.
-/
namespace FlowScript

namespace Text

def displayEscape (q : CodePoint) (c : CodePoint) : Text :=
  if c = q ∨ c.val = 92 then ['\\', c]
  else match c.val with
    | 10 => "\\n"
    | 13 => "\\r"
    | 9 => "\\t"
    | n =>
      if c.isPrintable then [c]
      else if n < 0x100 then ("\\x" : Text) ++ Decimal.hex 2 n
      else if n < 0x10000 then ("\\u" : Text) ++ Decimal.hex 4 n
      else ("\\U" : Text) ++ Decimal.hex 8 n

/-- The text in quotes. -/
def display (t : Text) : Text :=
  let q : CodePoint := if t.any (·.val = 39) && !t.any (·.val = 34) then '"' else '\''
  q :: t.flatMap (displayEscape q) ++ [q]

end Text

namespace Json

def NonFinite.text : NonFinite → Text
  | .nan => "nan"
  | .infinity false => "inf"
  | .infinity true => "-inf"

mutual

def display : Json → Text
  | null => "None"
  | bool b => if b then "True" else "False"
  | num n => n.text
  | nonFinite x => NonFinite.text x
  | str t => t.display
  | arr xs => ("[" : Text) ++ displayItems xs ++ ("]" : Text)
  | obj ms => ("\x7b" : Text) ++ displayMembers ms ++ ("\x7d" : Text)

def displayItems : List Json → Text
  | [] => []
  | [x] => display x
  | x :: y :: xs => display x ++ (", " : Text) ++ displayItems (y :: xs)

def displayMembers : List (Text × Json) → Text
  | [] => []
  | [(k, v)] => k.display ++ (": " : Text) ++ display v
  | (k, v) :: m :: ms =>
    k.display ++ (": " : Text) ++ display v ++ (", " : Text) ++ displayMembers (m :: ms)

end

/-- Text stands for itself; any other value is shown as in a diagnostic. -/
def plain : Json → Text
  | str t => t
  | v => v.display

end Json

end FlowScript
