import FlowScript.Json

/-!
# Loose equality of values

Numbers are equal by value whatever their kind, a truth value equals the number 1 or 0, and objects
are equal when they have the same keys with equal values, in any order.
-/
namespace FlowScript.Json

/-- The number that a number or truth value counts as. -/
def quantity? : Json → Option Rat
  | bool b => some (mkRat (if b then 1 else 0) 1)
  | num n => some n.value
  | _ => none

mutual

def equiv : Json → Json → Bool
  | null, null => true
  | nonFinite x, nonFinite y => x = y
  | str s, str t => s = t
  | arr xs, arr ys => equivItems xs ys
  | obj ms, obj ns => ms.length = ns.length && subsumes ms ns
  | a, b =>
    match a.quantity?, b.quantity? with
    | some x, some y => x = y
    | _, _ => false

def equivItems : List Json → List Json → Bool
  | [], [] => true
  | x :: xs, y :: ys => equiv x y && equivItems xs ys
  | _, _ => false

/-- Every member on the left has an equal one of its key on the right. -/
def subsumes : List (Text × Json) → List (Text × Json) → Bool
  | [], _ => true
  | (k, v) :: ms, ns =>
    (match find? k ns with
      | some w => equiv v w
      | none => false) && subsumes ms ns

end

end FlowScript.Json
