import FlowScript.Proofs.Script.Settled
import FlowScript.Script.Scope

/-!
# Tidy lines

Two things that the shipped templates keep to wherever they write a line. An indentation stands at
the start of a line of text, so it is a matter of layout. And an angle bracket in fixed code is an
operator, so code opens no tag in a page around the script.
-/
namespace FlowScript

namespace Piece

/-- Every `<` stands in front of a blank or an equals sign. -/
@[simp] def isTame : List Char → Bool
  | [] => true
  | c :: l => (c ≠ '<' || l.head?.any fun d => d = ' ' || d = '=') && isTame l

/-- Pieces whose code is tame and whose indentations stand at the start of a line. What stands before
the first piece is only the start of a line, too, if `fresh` holds. -/
def IsTidy : (fresh : Bool) → List Piece → Prop
  | _, [] => True
  | _, code s :: ps => isTame s.toList = true ∧ IsTidy false ps
  | fresh, indent _ :: ps => fresh = true ∧ IsTidy fresh ps
  | _, lineBreak :: ps => IsTidy true ps
  | _, _ :: ps => IsTidy false ps

/-- Every entry may stand anywhere in a line. -/
def EntriesTidy (entries : List (List Piece)) : Prop := ∀ e ∈ entries, IsTidy false e

section
variable {fresh : Bool} {first second pieces : List Piece} {entries rest : List (List Piece)}

@[simp] theorem isTidy_nil : IsTidy fresh [] := trivial

/-- A string literal is judged by its characters. -/
@[simp] theorem isTidy_code {l : List Char} :
    IsTidy fresh (code (no_index (String.ofList l)) :: pieces) ↔
      isTame l = true ∧ IsTidy false pieces := by
  rw [IsTidy, String.toList_ofList]

@[simp] theorem isTidy_quoted {t : Text} :
    IsTidy fresh (quoted t :: pieces) ↔ IsTidy false pieces := Iff.rfl

@[simp] theorem isTidy_key {t : Text} :
    IsTidy fresh (key t :: pieces) ↔ IsTidy false pieces := Iff.rfl

@[simp] theorem isTidy_number {n : Number} :
    IsTidy fresh (number n :: pieces) ↔ IsTidy false pieces := Iff.rfl

@[simp] theorem isTidy_scalar {v : Json} :
    IsTidy fresh (scalar v :: pieces) ↔ IsTidy false pieces := Iff.rfl

@[simp] theorem isTidy_indent {levels : Nat} :
    IsTidy fresh (indent levels :: pieces) ↔ fresh = true ∧ IsTidy fresh pieces := Iff.rfl

@[simp] theorem isTidy_lineBreak : IsTidy fresh (lineBreak :: pieces) ↔ IsTidy true pieces := Iff.rfl

/-- What may stand anywhere may stand at the start of a line. -/
theorem IsTidy.of_false (h : IsTidy false pieces) : IsTidy fresh pieces := by
  cases pieces with
  | nil => trivial
  | cons p pieces =>
    cases p with
    | indent levels => exact nomatch h.1
    | _ => exact h

@[simp] theorem isTidy_append (hfirst : IsTidy fresh first) (hsecond : IsTidy false second) :
    IsTidy fresh (first ++ second) := by
  induction first generalizing fresh with
  | nil => exact hsecond.of_false
  | cons p first ih =>
    cases p with
    | code s => exact ⟨hfirst.1, ih hfirst.2⟩
    | indent levels => exact ⟨hfirst.1, ih hfirst.2⟩
    | _ => exact ih hfirst

@[simp] theorem entriesTidy_nil : EntriesTidy [] := List.forall_mem_nil _

@[simp] theorem entriesTidy_cons :
    EntriesTidy (first :: entries) ↔ IsTidy false first ∧ EntriesTidy entries :=
  List.forall_mem_cons

@[simp] theorem entriesTidy_append :
    EntriesTidy (entries ++ rest) ↔ EntriesTidy entries ∧ EntriesTidy rest :=
  List.forall_mem_append

end

mutual

/-- Behind a literal the line goes on, -/
theorem isTidy_literal_append (level : Nat) {fresh : Bool} {rest : List Piece}
    (h : IsTidy false rest) : (v : Json) → IsTidy fresh (literal level v ++ rest)
  | .null => by simpa [literal] using h
  | .bool b => by cases b <;> simpa [literal] using h
  | .num _ => h
  | .nonFinite _ => h
  | .str _ => h
  | .arr xs => by
    have hclosing : IsTidy true (indent level :: code "]" :: rest) := by simpa using h
    have hitems := isTidy_literalItems_append level hclosing xs
    simpa [literal] using hitems
  | .obj ms => by
    have hclosing : IsTidy true (indent level :: code "\x7d" :: rest) := by simpa using h
    have hmembers := isTidy_literalMembers_append level hclosing ms
    simpa [literal] using hmembers

/-- and behind items or members a new one has begun. -/
theorem isTidy_literalItems_append (level : Nat) {rest : List Piece} (h : IsTidy true rest) :
    (xs : List Json) → IsTidy true (literalItems level xs ++ rest)
  | [] => h
  | [x] => by
    have hbreak : IsTidy false (lineBreak :: rest) := h
    simpa [literalItems] using isTidy_literal_append (level + 1) hbreak x
  | x :: y :: xs => by
    have hrest := isTidy_literalItems_append level h (y :: xs)
    have hcomma : IsTidy false (code "," :: lineBreak :: (literalItems level (y :: xs) ++ rest)) := by
      simpa using hrest
    simpa [literalItems] using isTidy_literal_append (level + 1) hcomma x

theorem isTidy_literalMembers_append (level : Nat) {rest : List Piece} (h : IsTidy true rest) :
    (ms : List (Text × Json)) → IsTidy true (literalMembers level ms ++ rest)
  | [] => h
  | [(k, v)] => by
    have hbreak : IsTidy false (lineBreak :: rest) := h
    simpa [literalMembers] using isTidy_literal_append (level + 1) hbreak v
  | (k, v) :: m :: ms => by
    have hrest := isTidy_literalMembers_append level h (m :: ms)
    have hcomma : IsTidy false
        (code "," :: lineBreak :: (literalMembers level (m :: ms) ++ rest)) := by
      simpa using hrest
    simpa [literalMembers] using isTidy_literal_append (level + 1) hcomma v

end

@[simp] theorem isTidy_value (v : Json) : IsTidy false (value v) := by
  simpa [value] using isTidy_literal_append 0 isTidy_nil v

end Piece

namespace Act

/-- An act whose line is tidy, if it writes one. -/
def IsTidy : Act → Prop
  | line pieces => Piece.IsTidy true pieces
  | _ => True

/-- Every act is tidy. -/
def AllTidy (acts : List Act) : Prop := ∀ a ∈ acts, a.IsTidy

section
variable {first second : List Act}

@[simp] theorem isTidy_line {pieces : List Piece} :
    (line pieces).IsTidy ↔ Piece.IsTidy true pieces := Iff.rfl

@[simp] theorem isTidy_code {s : String} : (code s).IsTidy ↔ Piece.IsTidy true [.code s] := Iff.rfl

@[simp] theorem isTidy_startBlock : startBlock.IsTidy := trivial

@[simp] theorem isTidy_endBlock : endBlock.IsTidy := trivial

@[simp] theorem isTidy_notify (n : Notice) : (notify n).IsTidy := trivial

@[simp] theorem allTidy_nil : AllTidy [] := List.forall_mem_nil _

@[simp] theorem allTidy_cons {a : Act} : AllTidy (a :: first) ↔ a.IsTidy ∧ AllTidy first :=
  List.forall_mem_cons

@[simp] theorem allTidy_append :
    AllTidy (first ++ second) ↔ AllTidy first ∧ AllTidy second := List.forall_mem_append

@[simp] theorem allTidy_map {α : Type} {g : α → Act} {xs : List α} :
    AllTidy (xs.map g) ↔ ∀ x ∈ xs, (g x).IsTidy := List.forall_mem_map

end

end Act

theorem Step.tidy_frameActs (path : List Nat) : Act.AllTidy (frameActs path) := by
  simp [frameActs]

end FlowScript
