import FlowScript.Proofs.Json.Numeral
import FlowScript.Proofs.Literal.Reader

/-!
# Reading values

How a script engine reads a value that is written out: null, the truth values, numerals, string and
template literals, and arrays and objects of values. Numerals are those of the notation that JSON
shares with scripts; an integral one stands for its mathematical value, any other for the nearest
double. A key of an object is an ASCII name or a string literal, never a template literal.
-/
namespace FlowScript

/-- What a script sees of a value: numbers of either kind, and the UTF-16 units of texts. -/
inductive Value where
  | null
  | bool (b : Bool)
  | number (q : Rat)
  | text (units : List Nat)
  | array (items : List Value)
  | object (members : List (List Nat × Value))

/-- White space and line ends, which may stand between the tokens of a script. -/
def CodePoint.isGap (c : CodePoint) : Bool :=
  (9 ≤ c.val && c.val ≤ 13) || c.val = 32 || c.val = 0xA0 || c.val = 0x1680 ||
  (0x2000 ≤ c.val && c.val ≤ 0x200A) || c.val = 0x2028 || c.val = 0x2029 || c.val = 0x202F ||
  c.val = 0x205F || c.val = 0x3000 || c.val = 0xFEFF

namespace Literal
open Quoted (Quote isNameStart isNamePart)

variable {α : Type}

/-- A text from its first token on. -/
def skipGap (t : Text) : Text := t.dropWhile CodePoint.isGap

/-- The names that are values. -/
def words : List (Text × Value) :=
  [("null", .null), ("true", .bool true), ("false", .bool false)]

def readWord (t : Text) : Option (Value × Text) :=
  let (name, rest) := t.span isNamePart
  (words.find? fun w => w.1 = name).map fun w => (w.2, rest)

/-- A numeral extends as far as its parts do, and all of it has to make up the number. -/
def readNumeral (t : Text) : Option (Value × Text) :=
  let (numeral, rest) := t.span CodePoint.isNumeralPart
  match Json.scanNumber numeral with
  | some (.num n, []) => some (.number n.value, rest)
  | _ => none

/-- The value at the start of a text, if it is neither an array nor an object. -/
def readScalar (c : CodePoint) (t : Text) : Option (Value × Text) :=
  if isNameStart c then readWord (c :: t)
  else if c.isNumeralPart then readNumeral (c :: t)
  else (read (c :: t)).map fun (units, rest) => (.text units, rest)

/-- Elements up to the bracket that closes them. Each but the last has a comma behind it; the last
may have one. -/
def readElements (close : CodePoint) (element : Text → Option (α × Text)) :
    (fuel : Nat) → Text → Option (List α × Text)
  | 0, _ => none
  | fuel + 1, t =>
    match skipGap t with
    | [] => none
    | c :: t =>
      if c = close then some ([], t)
      else do
        let (x, t) ← element (c :: t)
        match skipGap t with
        | [] => none
        | c :: t =>
          if c = close then some ([x], t)
          else if c.val = 44 then
            (readElements close element fuel t).map fun (xs, t) => (x :: xs, t)
          else none

/-- The key at the start of a text, by its UTF-16 units. -/
def readKey : Text → Option (List Nat × Text)
  | [] => none
  | c :: t =>
    if isNameStart c then
      let (name, rest) := (c :: t).span isNamePart
      some (Text.units name, rest)
    else if c = Quote.backtick.codePoint then none
    else read (c :: t)

/-- A key, a colon and a value. -/
def readMember (value : Text → Option (α × Text)) (t : Text) :
    Option ((List Nat × α) × Text) := do
  let (key, t) ← readKey t
  match skipGap t with
  | [] => none
  | c :: t =>
    if c.val = 58 then (value (skipGap t)).map fun (v, t) => ((key, v), t)
    else none

/-- The value at the start of a text. The fuel bounds how deep it is nested. -/
def readValue : (fuel : Nat) → Text → Option (Value × Text)
  | _, [] => none
  | 0, _ => none
  | fuel + 1, c :: t =>
    if c.val = 91 then
      (readElements ']' (readValue fuel) t.length t).map fun (xs, t) => (.array xs, t)
    else if c.val = 123 then
      (readElements '\x7d' (readMember (readValue fuel)) t.length t).map
        fun (ms, t) => (.object ms, t)
    else readScalar c t

theorem isGap_of_lt {c : CodePoint} (h : 32 < c.val ∧ c.val < 127) : c.isGap = false := by
  simp only [CodePoint.isGap, Bool.or_eq_false_iff, Bool.and_eq_false_iff, decide_eq_false_iff_not]
  omega

theorem skipGap_append {pad : Text} (hpad : ∀ c ∈ pad, c.isGap = true) (t : Text) :
    skipGap (pad ++ t) = skipGap t := List.dropWhile_append_of_pos hpad

theorem skipGap_cons {c : CodePoint} {t : Text} (hc : c.isGap = false) :
    skipGap (c :: t) = c :: t := List.dropWhile_cons_of_neg (by simp [hc])

/-- White space in front of elements is passed over. -/
theorem readElements_append {close : CodePoint} {element : Text → Option (α × Text)} {pad : Text}
    (hpad : ∀ c ∈ pad, c.isGap = true) (fuel : Nat) (t : Text) :
    readElements close element fuel (pad ++ t) = readElements close element fuel t := by
  cases fuel with
  | zero => rfl
  | succ fuel => rw [readElements, readElements, skipGap_append hpad]

theorem readElements_close {close : CodePoint} {element : Text → Option (α × Text)} {t rest : Text}
    (ht : skipGap t = close :: rest) (fuel : Nat) :
    readElements close element (fuel + 1) t = some ([], rest) := by
  rw [readElements, ht]
  exact if_pos rfl

theorem readValue_scalar {c : CodePoint} (hc : c.val ≠ 91 ∧ c.val ≠ 123) {n : Nat} (hn : 0 < n)
    (t : Text) : readValue n (c :: t) = readScalar c t := by
  obtain ⟨n, rfl⟩ := Nat.exists_eq_succ_of_ne_zero (Nat.ne_of_gt hn)
  rw [readValue, if_neg hc.1, if_neg hc.2]

end Literal

open Literal in
/-- The value that a text consists of. A value takes up more code points than it has levels. -/
def Value.read (t : Text) : Option Value :=
  match readValue t.length (skipGap t) with
  | some (v, rest) => if (skipGap rest).isEmpty then some v else none
  | none => none

-- The last comma is optional. A number has no leading zero, and a template literal is no key.
example : (Value.read "[1, `a`, \x7bb: 'c',\x7d,]").isSome ∧ (Value.read "[01]").isNone ∧
    (Value.read "\x7b`a`: 1\x7d").isNone := by decide

end FlowScript
