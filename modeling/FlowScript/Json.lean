import FlowScript.Decimal.Double

/-!
# JSON values

Integers are unbounded and told apart from doubles; the three doubles that are no number have a case
of their own, so a `Number` is always finite. Objects keep the order of their members.
-/
namespace FlowScript

/-- A finite number: an integer of any size, or a double. -/
inductive Number where
  | int (n : Int)
  | double (d : Double)
  deriving DecidableEq

namespace Number

/-- The rational a number stands for; numbers of either kind are compared by it. -/
def value : Number → Rat
  | int n => mkRat n 1
  | double d => d.value

instance : OfNat Number n := ⟨.int n⟩

/-- The integer a number equals, if it equals one. -/
def toInt? (n : Number) : Option Int := if n.value.den = 1 then some n.value.num else none

/-- The natural number a number equals, if it equals one. -/
def toNat? (n : Number) : Option Nat :=
  match n.toInt? with
  | some (.ofNat k) => some k
  | _ => none

def isZero (n : Number) : Bool := n.value = mkRat 0 1

end Number

/-- The doubles that are no number. -/
inductive NonFinite where
  | nan
  | infinity (negative : Bool)
  deriving DecidableEq

inductive Json where
  | null
  | bool (b : Bool)
  | num (n : Number)
  | nonFinite (x : NonFinite)
  | str (t : Text)
  | arr (items : List Json)
  | obj (members : List (Text × Json))
  deriving BEq, Inhabited

namespace Json

/-- The first member with this key. -/
def find? (key : Text) : List (Text × Json) → Option Json
  | [] => none
  | (k, v) :: ms => if k = key then some v else find? key ms

/-- A repeated key keeps its first position and takes the last value. -/
def insert (ms : List (Text × Json)) (key : Text) (v : Json) : List (Text × Json) :=
  match ms with
  | [] => [(key, v)]
  | (k, w) :: rest => if k = key then (k, v) :: rest else (k, w) :: insert rest key v

theorem find?_insert (ms : List (Text × Json)) (key name : Text) (v : Json) :
    find? name (insert ms key v) = if name = key then some v else find? name ms := by
  induction ms with
  | nil => grind [insert, find?]
  | cons m ms ih => grind [insert, find?]

/-- The members of `ms` overridden by those of `later`. -/
def merge (ms later : List (Text × Json)) : List (Text × Json) :=
  later.foldl (fun acc m => insert acc m.1 m.2) ms

def int (n : Int) : Json := .num (.int n)

/-- The text when there is one, else null. -/
def ofText? (t : Option Text) : Json := (t.map Json.str).getD .null

/-- Null, false, zero and everything empty count as nothing. -/
def isFalsy : Json → Bool
  | null => true
  | bool b => !b
  | num n => n.isZero
  | nonFinite _ => false
  | str t => t.isEmpty
  | arr xs => xs.isEmpty
  | obj ms => ms.isEmpty

end Json

end FlowScript
