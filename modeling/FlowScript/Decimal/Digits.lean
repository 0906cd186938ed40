import FlowScript.Text

/-!
# Digits

Positional notation of natural numbers and integers, and its reading.
-/
namespace FlowScript.Decimal

/-- The decimal digits of a number, most significant first; zero has one digit. -/
def digits (n : Nat) : List Nat :=
  if n < 10 then [n] else digits (n / 10) ++ [n % 10]
termination_by n
decreasing_by omega

/-- The number that a list of decimal digits denotes. -/
def ofDigits (ds : List Nat) : Nat := ds.foldl (fun n d => 10 * n + d) 0

/-- The character of a digit below 16, in lower case. -/
def digitChar (d : Nat) : CodePoint :=
  if d < 10 then CodePoint.ofNat (48 + d) else CodePoint.ofNat (87 + d)

/-- The value of a decimal digit. -/
def digitValue (c : CodePoint) : Nat := c.val - 48

def natText (n : Nat) : Text := (digits n).map digitChar

def intText : Int → Text
  | .ofNat n => natText n
  | .negSucc n => ('-' : CodePoint) :: natText (n + 1)

/-- The last `width` hexadecimal digits of a number, in lower case. -/
def hex : (width : Nat) → Nat → Text
  | 0, _ => []
  | width + 1, n => hex width (n / 16) ++ [digitChar (n % 16)]

/-- The value of a hexadecimal digit in either case. -/
def hexValue? (c : CodePoint) : Option Nat :=
  if c.isDigit then some (c.val - 48)
  else if 97 ≤ c.val ∧ c.val ≤ 102 then some (c.val - 87)
  else if 65 ≤ c.val ∧ c.val ≤ 70 then some (c.val - 55)
  else none

/-- The number of four hexadecimal digits. -/
def hexQuad? (a b c d : CodePoint) : Option Nat := do
  let a ← hexValue? a
  let b ← hexValue? b
  let c ← hexValue? c
  let d ← hexValue? d
  pure (4096 * a + 256 * b + 16 * c + d)

theorem ofDigits_append (a : List Nat) (d : Nat) : ofDigits (a ++ [d]) = 10 * ofDigits a + d := by
  simp [ofDigits]

theorem ofDigits_digits (n : Nat) : ofDigits (digits n) = n := by
  fun_induction digits n with
  | case1 n h => simp [ofDigits]
  | case2 n h ih => rw [ofDigits_append, ih]; omega

theorem hexValue?_digitChar : ∀ d < 16, hexValue? (digitChar d) = some d := by decide

@[simp] theorem length_hex (width n : Nat) : (hex width n).length = width := by
  induction width generalizing n with
  | zero => rfl
  | succ width ih => simp [hex, ih]

end FlowScript.Decimal
