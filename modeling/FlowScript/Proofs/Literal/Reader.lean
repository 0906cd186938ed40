import FlowScript.Script.Quoted

/-!
# Reading literals

How a script engine reads a string literal, or a template literal without substitutions: the
productions of the ECMAScript grammar (2019 and later, strict code) as an automaton over code
points. It gives the UTF-16 units of the value and what follows the literal.
-/
namespace FlowScript

/-- The UTF-16 units of a code point. A surrogate is a unit of its own. -/
def CodePoint.units (c : CodePoint) : List Nat :=
  if c.val < 0x10000 then [c.val]
  else [0xD800 + (c.val - 0x10000) / 0x400, 0xDC00 + (c.val - 0x10000) % 0x400]

def Text.units (t : Text) : List Nat := t.flatMap CodePoint.units

def CodePoint.backslash : CodePoint := ⟨92, by decide⟩

namespace Literal
open Quoted (Quote)

/-- What the next code point of a literal is part of. -/
inductive State where
  | plain
  /-- It stands behind a backslash. -/
  | escape
  /-- It opens a brace, or is the first of four hexadecimal digits. -/
  | unicode
  /-- It is a hexadecimal digit, and so many are due after it. -/
  | digits (left value : Nat)
  /-- It is a hexadecimal digit or, behind at least one, closes the brace. -/
  | braced (value : Nat) (inside : Bool)
  deriving DecidableEq

/-- A digit of an escape; the last one completes a unit. -/
def digitStep (c : CodePoint) (value : Nat) : (left : Nat) → Option (List Nat × State)
  | 0 => (Decimal.hexValue? c).map fun d => ([16 * value + d], .plain)
  | left + 1 => (Decimal.hexValue? c).map fun d => ([], .digits left (16 * value + d))

/-- A code point outside escapes. A string literal does not go past its line; a template literal
does, every line end counting as a line feed, but no dollar sign in it opens a brace. -/
def plainStep (q : Quote) (c : CodePoint) (next : Option CodePoint) : Option (List Nat × State) :=
  if c.val = 92 then some ([], .escape)
  else if q = .backtick then
    if c.val = 36 ∧ next.any (·.val = 123) then none
    else if c.val = 13 then some (if next = some .lineFeed then [] else [10], .plain)
    else some (c.units, .plain)
  else if c.val = 10 ∨ c.val = 13 then none
  else some (c.units, .plain)

/-- A code point behind a backslash. An escaped line end stands for nothing, no digit but a single
zero can be escaped, and a code point without a meaning of its own stands for itself. -/
def escapeStep (c : CodePoint) (next : Option CodePoint) : Option (List Nat × State) :=
  match c.val with
  | 10 => some ([], .plain)
  | 13 => some ([], if next = some .lineFeed then .escape else .plain)
  | 48 => if next.any CodePoint.isDigit then none else some ([0], .plain)
  | 98 => some ([8], .plain)
  | 102 => some ([12], .plain)
  | 110 => some ([10], .plain)
  | 114 => some ([13], .plain)
  | 116 => some ([9], .plain)
  | 117 => some ([], .unicode)
  | 118 => some ([11], .plain)
  | 120 => some ([], .digits 1 0)
  | 0x2028 => some ([], .plain)
  | 0x2029 => some ([], .plain)
  | _ => if c.isDigit then none else some (c.units, .plain)

/-- The units that a code point completes, and the state after it. -/
def step (q : Quote) (c : CodePoint) (next : Option CodePoint) : State → Option (List Nat × State)
  | .plain => plainStep q c next
  | .escape => escapeStep c next
  | .unicode => if c.val = 123 then some ([], .braced 0 false) else digitStep c 0 3
  | .digits left value => digitStep c value left
  | .braced value inside =>
    match Decimal.hexValue? c with
    | some d => if 16 * value + d < 0x110000 then some ([], .braced (16 * value + d) true) else none
    | none => if c.val = 125 ∧ inside then some ((CodePoint.ofNat value).units, .plain) else none

/-- A reading that found these units before. -/
def prepend (units : List Nat) (r : Option (List Nat × Text)) : Option (List Nat × Text) :=
  r.map fun (rest, t) => (units ++ rest, t)

/-- The rest of a literal, from a state behind its opening quote on. -/
def readFrom (q : Quote) : State → Text → Option (List Nat × Text)
  | _, [] => none
  | state, c :: t =>
    if state = .plain ∧ c = q.codePoint then some ([], t)
    else
      match step q c t.head? state with
      | some (units, state) => prepend units (readFrom q state t)
      | none => none

/-- The literal at the start of a text: the units of its value, and what follows it. -/
def read : Text → Option (List Nat × Text)
  | [] => none
  | c :: t =>
    if c = Quote.single.codePoint then readFrom .single .plain t
    else if c = Quote.double.codePoint then readFrom .double .plain t
    else if c = Quote.backtick.codePoint then readFrom .backtick .plain t
    else none

@[simp] theorem prepend_nil (r : Option (List Nat × Text)) : prepend [] r = r := by
  cases r <;> rfl

theorem read_quote (q : Quote) (t : Text) : read (q.codePoint :: t) = readFrom q .plain t := by
  cases q <;> rfl

theorem readFrom_quote (q : Quote) (t : Text) :
    readFrom q .plain (q.codePoint :: t) = some ([], t) := by
  rw [readFrom, if_pos ⟨rfl, rfl⟩]

theorem readFrom_of_step {q : Quote} {c : CodePoint} {t : Text} {state next : State}
    {units : List Nat} (hq : ¬ (state = .plain ∧ c = q.codePoint))
    (h : step q c t.head? state = some (units, next)) :
    readFrom q state (c :: t) = prepend units (readFrom q next t) := by
  rw [readFrom, if_neg hq, h]

/-- Inside an escape a quote is a code point like any other. -/
theorem readFrom_of_inner {q : Quote} {c : CodePoint} {t : Text} {state next : State}
    {units : List Nat} (h : step q c t.head? state = some (units, next)) (hstate : state ≠ .plain) :
    readFrom q state (c :: t) = prepend units (readFrom q next t) :=
  readFrom_of_step (fun hq => hstate hq.1) h

-- A line continuation and every kind of escape, up to the quote that closes the literal.
example : read "'a\\\n\\x41\\u0042\\u\x7b43\x7d\\'' + x" =
    some ([97, 65, 66, 67, 39], (" + x" : Text)) := by decide

end Literal

end FlowScript
