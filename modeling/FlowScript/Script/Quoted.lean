import FlowScript.Decimal.Digits
import FlowScript.Text.Case

/-!
# Quoted text in scripts

A text as a string literal of a script. The quote is picked so that it never needs an escape, if one
of the three can be. Control characters and lone surrogates are escaped, and so is every angle
bracket that would open a comment or a script element in a page around the script.
-/
namespace FlowScript.Quoted

/-- The quotes a literal may have. -/
inductive Quote where
  | single
  | double
  | backtick
  deriving DecidableEq

def Quote.codePoint : Quote → CodePoint
  | .single => ⟨39, by decide⟩
  | .double => ⟨34, by decide⟩
  | .backtick => ⟨96, by decide⟩

def Quote.occursIn (q : Quote) (t : Text) : Bool := t.any (· = q.codePoint)

/-- What opens a substitution inside backticks. -/
def substitution : Text := "$\x7b"

/-- The first quote that does not occur in the text; backticks must not hold a substitution either.
A text with all three gets single quotes, and its own are escaped. -/
def quoteFor (t : Text) : Quote :=
  if !Quote.single.occursIn t then .single
  else if !Quote.double.occursIn t then .double
  else if !Quote.backtick.occursIn t && !substitution.occursIn t then .backtick
  else .single

/-- Whether an angle bracket in front of this text opens a comment, or opens or closes a script. -/
def opensTag (t : Text) : Bool :=
  ("!--" : Text).isPrefixOf t || ("script" : Text).isPrefixOf t || ("/script" : Text).isPrefixOf t

def hexUpper (width n : Nat) : Text := Text.upper (Decimal.hex width n)

/-- A code point in front of the rest of its text, escaped where it has to be. -/
def escape (q : Quote) (c : CodePoint) (rest : Text) : Text :=
  match c.val with
  | 8 => "\\b"
  | 9 => "\\t"
  | 10 => "\\n"
  | 11 => "\\v"
  | 12 => "\\f"
  | 13 => "\\r"
  | 39 => if q = .single then "\\'" else [c]
  | 60 => if opensTag rest then "\\x3C" else [c]
  | 92 => "\\\\"
  | n =>
    if n < 0x20 ∨ (0x7F ≤ n ∧ n < 0xA0) then ("\\x" : Text) ++ hexUpper 2 n
    else if c.isSurrogate then ("\\u" : Text) ++ hexUpper 4 n
    else [c]

def escapeAll (q : Quote) : Text → Text
  | [] => []
  | c :: t => escape q c t ++ escapeAll q t

/-- The literal of a text. -/
def encode (t : Text) : Text :=
  let q := quoteFor t
  q.codePoint :: escapeAll q t ++ [q.codePoint]

def isNameStart (c : CodePoint) : Bool :=
  (65 ≤ c.val && c.val ≤ 90) || (97 ≤ c.val && c.val ≤ 122) || c.val = 95 || c.val = 36

def isNamePart (c : CodePoint) : Bool := isNameStart c || c.isDigit

/-- Object keys that are written bare: an ASCII identifier, with one line feed after it or none. -/
def isBareKey (t : Text) : Bool :=
  match t with
  | [] => false
  | c :: rest =>
    isNameStart c &&
      (rest.all isNamePart ||
        (rest.getLast? = some CodePoint.lineFeed && rest.dropLast.all isNamePart))

def encodeKey (t : Text) : Text := if isBareKey t then t else encode t

end FlowScript.Quoted
