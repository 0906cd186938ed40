import FlowScript.Text

/-!
# Letter case

Names that are compared without regard to case are ASCII, so a case map matters only where it lands
on an ASCII letter. Besides the letters themselves the Kelvin sign lowers to `k`, the dotless i
raises to `I` and the long s to `S`.
-/
namespace FlowScript

namespace CodePoint

/-- The lower-case ASCII letter of a code point, if it has one; otherwise the code point. -/
def lower (c : CodePoint) : CodePoint :=
  if 65 ≤ c.val ∧ c.val ≤ 90 then ofNat (c.val + 32)
  else if c.val = 0x212A then 'k' else c

/-- The upper-case ASCII letter of a code point, if it has one; otherwise the code point. -/
def upper (c : CodePoint) : CodePoint :=
  if 97 ≤ c.val ∧ c.val ≤ 122 then ofNat (c.val - 32)
  else if c.val = 0x131 then 'I' else if c.val = 0x17F then 'S' else c

end CodePoint

namespace Text

def lower (t : Text) : Text := t.map CodePoint.lower

def upper (t : Text) : Text := t.map CodePoint.upper

end Text

end FlowScript
