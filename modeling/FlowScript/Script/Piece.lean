import FlowScript.Json.Display
import FlowScript.Script.Quoted

/-!
# Pieces of script text

A line of a script is made of pieces that tell fixed code apart from recorded text and numbers. What
a piece comes to depends on the indentation unit and on the number of lines written so far, and on
nothing else.
-/
namespace FlowScript

/-- A numeral of a script: no point when the number is integral, whatever its kind. -/
def Number.numeral (n : Number) : Text :=
  match n.toInt? with
  | some k => Decimal.intText k
  | none => n.text

namespace Json

/-- A value printed where a numeral is due. The doubles that are no number have none. -/
def numeral : Json → Except NonFinite Text
  | num n => pure n.numeral
  | bool b => pure (if b then "true" else "false")
  | nonFinite x => throw x
  | v => pure v.plain

end Json

inductive Piece where
  /-- Fixed code. -/
  | code (s : String)
  /-- Text taken over as it is. -/
  | raw (t : Text)
  /-- A text as a string literal. -/
  | quoted (t : Text)
  /-- A text as a key of an object literal. -/
  | key (t : Text)
  | number (n : Number)
  /-- A configured value in the place of a number. -/
  | scalar (v : Json)
  /-- So many indentation units. -/
  | indent (levels : Nat)
  | lineBreak
  /-- The number of lines written so far. -/
  | size

namespace Piece

/-- A piece with the surroundings it is written in. -/
def text (unit : Text) (size : Nat) : Piece → Except NonFinite Text
  | code s => pure s
  | raw t => pure t
  | quoted t => pure (Quoted.encode t)
  | key t => pure (Quoted.encodeKey t)
  | number n => pure n.numeral
  | scalar v => v.numeral
  | indent levels => pure (unit.repeated levels)
  | lineBreak => pure [CodePoint.lineFeed]
  | .size => pure (Decimal.natText size)

/-- Pieces one after another; the first that has no text decides. -/
def textAll (unit : Text) (size : Nat) : List Piece → Except NonFinite Text
  | [] => pure []
  | p :: ps => do
    let t ← p.text unit size
    pure (t ++ (← textAll unit size ps))

theorem textAll_cons_eq_ok_iff {unit : Text} {size : Nat} {p : Piece} {ps : List Piece} {t : Text} :
    textAll unit size (p :: ps) = .ok t ↔
      ∃ first rest, p.text unit size = .ok first ∧ textAll unit size ps = .ok rest ∧
        t = first ++ rest := by
  rw [textAll]
  cases p.text unit size with
  | error x => exact ⟨nofun, fun ⟨_, _, h, _⟩ => nomatch h⟩
  | ok first =>
    cases textAll unit size ps with
    | error x => exact ⟨nofun, fun ⟨_, _, _, h, _⟩ => nomatch h⟩
    | ok rest =>
      refine ⟨fun h => ⟨first, rest, rfl, rfl, (Except.ok.inj h).symm⟩, ?_⟩
      rintro ⟨_, _, ⟨⟩, ⟨⟩, rfl⟩
      rfl

mutual

/-- A value as a literal: each element or member of an array or object on its own line, one level
deeper than the brackets around it. -/
def literal (level : Nat) : Json → List Piece
  | .null => [code "null"]
  | .bool b => [code (if b then "true" else "false")]
  | .num n => [number n]
  | .nonFinite x => [scalar (.nonFinite x)]
  | .str t => [quoted t]
  | .arr xs => code "[" :: lineBreak :: literalItems level xs ++ [indent level, code "]"]
  | .obj ms => code "\x7b" :: lineBreak :: literalMembers level ms ++ [indent level, code "\x7d"]

def literalItems (level : Nat) : List Json → List Piece
  | [] => []
  | [x] => indent (level + 1) :: literal (level + 1) x ++ [lineBreak]
  | x :: y :: xs =>
    indent (level + 1) :: literal (level + 1) x ++ code "," :: lineBreak ::
      literalItems level (y :: xs)

def literalMembers (level : Nat) : List (Text × Json) → List Piece
  | [] => []
  | [(k, v)] =>
    indent (level + 1) :: key k :: code ": " :: literal (level + 1) v ++ [lineBreak]
  | (k, v) :: m :: ms =>
    indent (level + 1) :: key k :: code ": " :: literal (level + 1) v ++ code "," :: lineBreak ::
      literalMembers level (m :: ms)

end

/-- The pieces of a value that stands in a line. -/
def value (v : Json) : List Piece := literal 0 v

end Piece

end FlowScript
