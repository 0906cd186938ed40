import FlowScript.Text

/-!
# Blank code points

White space in the wide sense: the Unicode white-space property and the four information separators.
Indentation units are tested with it, and lines are trimmed by it.
-/
namespace FlowScript

/-- White space: separators of every kind, and the control characters that act as one. -/
def CodePoint.isBlank (c : CodePoint) : Bool :=
  (9 ≤ c.val && c.val ≤ 13) || (0x1C ≤ c.val && c.val ≤ 0x20) || c.val = 0x85 || c.val = 0xA0 ||
  c.val = 0x1680 || (0x2000 ≤ c.val && c.val ≤ 0x200A) || c.val = 0x2028 || c.val = 0x2029 ||
  c.val = 0x202F || c.val = 0x205F || c.val = 0x3000

namespace Text

/-- The text without the blanks at its end. -/
def trimRight (t : Text) : Text := (t.reverse.dropWhile CodePoint.isBlank).reverse

/-- The text without the blanks at its start. -/
def trimLeft (t : Text) : Text := t.dropWhile CodePoint.isBlank

/-- The text without the blanks at either end. -/
def trim (t : Text) : Text := trimRight (trimLeft t)

/-- Whether every code point is blank; true of the empty text. -/
def isBlank (t : Text) : Bool := t.all CodePoint.isBlank

/-- An indentation unit is blank and not empty. -/
def isIndentation (t : Text) : Bool := !t.isEmpty && t.isBlank

end Text

end FlowScript
