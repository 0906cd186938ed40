import FlowScript.Text

/-!
# Doubles

Finite binary64 numbers in their one canonical form, their exact rational values, and the nearest
double to a fraction or to a decimal.
-/
namespace FlowScript

/-- A finite binary64 number `± mantissa * 2 ^ exponent`; the two zeros are told apart. -/
structure Double where
  negative : Bool
  mantissa : Nat
  exponent : Int
  canonical : mantissa < 0x20000000000000 ∧ -1074 ≤ exponent ∧ exponent ≤ 971 ∧
    (0x10000000000000 ≤ mantissa ∨ exponent = -1074)
  deriving DecidableEq

namespace Double

def zero (negative : Bool) : Double := ⟨negative, 0, -1074, by decide⟩

/-- The double with these parts, when they are in canonical form. -/
def ofParts? (negative : Bool) (mantissa : Nat) (exponent : Int) : Option Double :=
  if h : mantissa < 0x20000000000000 ∧ -1074 ≤ exponent ∧ exponent ≤ 971 ∧
      (0x10000000000000 ≤ mantissa ∨ exponent = -1074)
  then some ⟨negative, mantissa, exponent, h⟩ else none

/-- The mantissa with its sign. -/
def significand (d : Double) : Int := if d.negative then -(d.mantissa : Int) else d.mantissa

/-- The number a double stands for. -/
def value (d : Double) : Rat :=
  match d.exponent with
  | .ofNat k => mkRat (d.significand * Nat.pow 2 k) 1
  | .negSucc k => mkRat d.significand (Nat.pow 2 (k + 1))

/-- The quotient rounded to the nearest integer, a half to the even neighbour. -/
def roundQuotient (num den : Nat) : Nat :=
  if 2 * (num % den) < den ∨ (2 * (num % den) = den ∧ num / den % 2 = 0) then num / den
  else num / den + 1

/-- The fraction `num / den` divided by `2 ^ exponent`. -/
def scaled (num den : Nat) : (exponent : Int) → Nat × Nat
  | .ofNat k => (num, den * Nat.pow 2 k)
  | .negSucc k => (num * Nat.pow 2 (k + 1), den)

/-- The exponent of the double nearest to a positive fraction, before rounding carries over. -/
def exponentFor (num den : Nat) : Int :=
  let least : Int := (num.log2 : Int) - den.log2 - 53
  let (n, d) := scaled num den least
  let e := if n / d < 0x20000000000000 then least else least + 1
  if e < -1074 then -1074 else e

/-- The double nearest to `num / den`, ties to the even mantissa; none past the largest double. -/
def ofFraction? (negative : Bool) (num den : Nat) : Option Double :=
  if num = 0 then some (zero negative)
  else
    let e := exponentFor num den
    let (n, d) := scaled num den e
    let m := roundQuotient n d
    if m = 0x20000000000000 then ofParts? negative 0x10000000000000 (e + 1)
    else ofParts? negative m e

/-- The double nearest to `digits * 10 ^ exponent`; none past the largest double. The magnitude is
first bounded from both sides, so that an extreme exponent is settled without its power of ten. -/
def ofDecimal? (negative : Bool) (digits : Nat) (exponent : Int) : Option Double :=
  if digits = 0 then some (zero negative)
  else
    let places : Int := (digits.log2 : Int) * 3 / 10 + exponent
    if 312 < places then none
    else if places + digits.log2 < -400 then some (zero negative)
    else match exponent with
      | .ofNat k => ofFraction? negative (digits * Nat.pow 10 k) 1
      | .negSucc k => ofFraction? negative digits (Nat.pow 10 (k + 1))

/-- Integers of this magnitude or more round past the largest double. -/
def overflowBound : Nat := Nat.pow 2 1024 - Nat.pow 2 970

end Double

end FlowScript
