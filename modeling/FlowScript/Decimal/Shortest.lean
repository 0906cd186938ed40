import FlowScript.Decimal.Digits
import FlowScript.Decimal.Double

/-!
# Shortest decimals

The fewest digits that read back as a given double and, of those, the nearest to it. For each count
of digits only the two neighbours of the value on that decimal grid are tried: if any point of the
grid reads back, one of them does.
-/
namespace FlowScript.Decimal

/-- The decimal `0.d₁d₂… * 10 ^ point` without trailing zeros. -/
structure Scientific where
  digits : List Nat
  point : Int
  deriving DecidableEq

namespace Scientific

def stripZeros (ds : List Nat) : List Nat := (ds.reverse.dropWhile (· = 0)).reverse

/-- The decimal `n * 10 ^ exponent`. -/
def ofNat (n : Nat) (exponent : Int) : Scientific :=
  let ds := Decimal.digits n
  ⟨stripZeros ds, ds.length + exponent⟩

end Scientific

/-- The values that read back as one double, in quarter units of its last place. -/
structure Interval where
  low : Nat
  mid : Nat
  high : Nat
  closed : Bool

/-- The numbers that round to `mantissa * 2 ^ exponent`. Below a power of two the spacing halves;
ends belong to the interval when the mantissa is even. -/
def Interval.of (mantissa : Nat) (exponent : Int) : Interval :=
  let below := if mantissa = 0x10000000000000 ∧ -1074 < exponent then 1 else 2
  ⟨4 * mantissa - below, 4 * mantissa, 4 * mantissa + 2, mantissa % 2 = 0⟩

/-- Whether the point `c * unit` lies in the interval measured in `quarter`s. -/
def Interval.holds (i : Interval) (quarter unit c : Nat) : Bool :=
  if i.closed then i.low * quarter ≤ c * unit && c * unit ≤ i.high * quarter
  else i.low * quarter < c * unit && c * unit < i.high * quarter

/-- The point of the grid of `unit`s that lies in the interval nearest to its middle, if one does; a
tie goes to the even point. -/
def Interval.nearest? (i : Interval) (quarter unit : Nat) : Option Nat :=
  let c := i.mid * quarter / unit
  let up := (c + 1) * unit - i.mid * quarter
  let down := i.mid * quarter - c * unit
  match i.holds quarter unit c, i.holds quarter unit (c + 1) with
  | true, true => some (if down < up ∨ (down = up ∧ c % 2 = 0) then c else c + 1)
  | true, false => some c
  | false, true => some (c + 1)
  | false, false => none

/-- Nonnegative and nonpositive parts of a power: `b ^ e = a / c` gives `(a, c)`. -/
def powerParts (b : Nat) : Int → Nat × Nat
  | .ofNat k => (Nat.pow b k, 1)
  | .negSucc k => (1, Nat.pow b (k + 1))

/-- The exponent `t` with `10 ^ t ≤ num / den < 10 ^ (t + 1)`. -/
def magnitude (num den : Nat) : Int :=
  let t : Int := (digits num).length - (digits den).length
  let (a, c) := powerParts 10 t
  if den * a ≤ num * c then t else t - 1

/-- The shortest decimal that reads back as `mantissa * 2 ^ exponent`; seventeen digits suffice. -/
def shortest (mantissa : Nat) (exponent : Int) : Scientific :=
  let i := Interval.of mantissa exponent
  let (a, c) := powerParts 2 (exponent - 2)
  let t := magnitude (i.mid * a) c
  let onGrid (n : Nat) : Option Scientific :=
    let k := t - n
    let (p, q) := powerParts 10 k
    (i.nearest? (a * q) (p * c)).map fun m => Scientific.ofNat m k
  ((List.range 17).findSome? onGrid).getD ⟨[], 0⟩

/-- How a decimal is laid out. -/
structure Layout where
  /-- The least and the greatest power of ten of the first digit that is written positionally. -/
  leastPositional : Int
  greatestPositional : Int
  /-- The least number of digits in a written exponent. -/
  exponentDigits : Nat

/-- Zeros in front of a list of digits up to a width. -/
def padZeros (width : Nat) (t : Text) : Text :=
  List.replicate (width - t.length) ('0' : CodePoint) ++ t

/-- Positional notation with at least one digit on either side of the point. -/
def positional (s : Scientific) : Text :=
  let ds := s.digits.map digitChar
  match s.point with
  | .negSucc k => ("0." : Text) ++ List.replicate (k + 1) ('0' : CodePoint) ++ ds
  | .ofNat 0 => ("0." : Text) ++ ds
  | .ofNat p =>
    if p < ds.length then ds.take p ++ ("." : Text) ++ ds.drop p
    else ds ++ List.replicate (p - ds.length) ('0' : CodePoint) ++ (".0" : Text)

/-- One digit before the point, and a power of ten. -/
def exponential (l : Layout) (s : Scientific) : Text :=
  let x := s.point - 1
  let power : Text := (if x < 0 then "e-" else "e+") ++ padZeros l.exponentDigits (natText x.natAbs)
  match s.digits.map digitChar with
  | [] => []
  | [d] => d :: power
  | d :: ds => d :: ("." : Text) ++ ds ++ power

/-- A double in its shortest decimal; zero has a sign too. -/
def Layout.text (l : Layout) (d : Double) : Text :=
  let sign : Text := if d.negative then "-" else ""
  if d.mantissa = 0 then sign ++ ("0.0" : Text)
  else
    let s := shortest d.mantissa d.exponent
    let power := s.point - 1
    sign ++ if l.leastPositional ≤ power ∧ power ≤ l.greatestPositional then positional s
      else exponential l s

end FlowScript.Decimal
