import FlowScript.Proofs.Script.Run

/-!
# Closed acts

Acts that close the blocks they open write the same lines at every depth, but for the indentation:
trimming looks at the end of a line only, and the units of a depth stand in front of those that a
block inside adds. Closing more than was opened would break this, since nothing is less deep than
nothing.
-/
namespace FlowScript

/-- A line so many units deeper; an empty line stays empty. -/
def Text.indented (unit : Text) (levels : Nat) (line : Text) : Text :=
  if line.isEmpty then [] else unit.repeated levels ++ line

theorem Text.repeated_add (t : Text) (m n : Nat) :
    t.repeated (m + n) = t.repeated m ++ t.repeated n := by
  rw [repeated, ← List.replicate_append_replicate, List.flatten_append, repeated, repeated]

theorem Writer.layout_add (unit part : Text) {depth : Int} (h : 0 ≤ depth) (levels : Nat) :
    layout unit (depth + levels) part = Text.indented unit levels (layout unit depth part) := by
  have hdepth : (depth + levels).toNat = levels + depth.toNat := by omega
  by_cases hpart : part.trimRight.isEmpty = true
  · simp [layout, hpart, Text.indented]
  · have hne : part.trimRight ≠ [] := by simpa using hpart
    simp [layout, hne, Text.indented, hdepth, Text.repeated_add]

namespace Act

/-- An act that neither opens nor closes a block nor tells how many lines stand before it. -/
def IsPlain : Act → Prop
  | line pieces => Piece.size ∉ pieces
  | startBlock | endBlock => False
  | _ => True

theorem IsPlain.shift_eq {a : Act} (h : a.IsPlain) : a.shift = 0 := by
  cases a with
  | startBlock => exact h.elim
  | endBlock => exact h.elim
  | _ => rfl

end Act

/-- A piece has the same text whatever stands before it. -/
theorem Piece.text_of_ne_size {p : Piece} (h : p ≠ .size) (unit : Text) (size size' : Nat) :
    p.text unit size = p.text unit size' := by
  cases p with
  | size => exact absurd rfl h
  | _ => rfl

theorem Piece.textAll_of_notMem {pieces : List Piece} (h : Piece.size ∉ pieces) (unit : Text)
    (size size' : Nat) : textAll unit size pieces = textAll unit size' pieces := by
  induction pieces with
  | nil => rfl
  | cons p pieces ih =>
    have hp : p ≠ .size := fun hp => h (hp ▸ List.mem_cons_self)
    rw [textAll, textAll, text_of_ne_size hp unit size size',
      ih fun hpieces => h (List.mem_cons_of_mem p hpieces)]

namespace Act

theorem IsPlain.linesAt_add {a : Act} (h : a.IsPlain) (unit : Text) {depth : Int} (hdepth : 0 ≤ depth)
    (levels size size' : Nat) : a.linesAt unit (depth + levels) size =
      (a.linesAt unit depth size').map (Text.indented unit levels) := by
  cases a with
  | line pieces =>
    rw [linesAt, linesAt, Piece.textAll_of_notMem h unit size size']
    cases Piece.textAll unit size' pieces with
    | ok t => simp [Writer.layout_add unit _ hdepth, Function.comp_def]
    | error x => rfl
  | _ => rfl

/-- Acts that close the blocks they open, and nothing else. -/
inductive Closed : List Act → Prop
  | nil : Closed []
  | plain {a : Act} (h : a.IsPlain) : Closed [a]
  | append {first second : List Act} (hfirst : Closed first) (hsecond : Closed second) :
    Closed (first ++ second)
  | block {body : List Act} (h : Closed body) : Closed (startBlock :: body ++ [endBlock])

theorem closed_of_isPlain {acts : List Act} (h : ∀ a ∈ acts, a.IsPlain) : Closed acts := by
  induction acts with
  | nil => exact .nil
  | cons a acts ih =>
    rw [List.forall_mem_cons] at h
    exact .append (.plain h.1) (ih h.2)

theorem closed_flatMap {α : Type} {g : α → List Act} (h : ∀ x, Closed (g x)) (xs : List α) :
    Closed (xs.flatMap g) := by
  induction xs with
  | nil => exact .nil
  | cons x xs ih => exact (h x).append ih

theorem Closed.shiftAll_eq {acts : List Act} (h : Closed acts) : shiftAll acts = 0 := by
  induction h with
  | nil => rfl
  | plain h => simp [shiftAll, h.shift_eq]
  | append _ _ ihfirst ihsecond => rw [shiftAll_append, ihfirst, ihsecond, Int.add_zero]
  | block _ ih => simp [shiftAll, shiftAll_append, ih, shift]

/-- Closed acts write the same lines at a greater depth, indented by the difference. -/
theorem Closed.written_add {acts : List Act} (h : Closed acts) (unit : Text) {depth : Int}
    (hdepth : 0 ≤ depth) (levels size size' : Nat) : written unit (depth + levels) size acts =
      (written unit depth size' acts).map (Text.indented unit levels) := by
  induction h generalizing depth size size' with
  | nil => rfl
  | plain h => simp [written, h.linesAt_add unit hdepth levels size size']
  | append hfirst _ ihfirst ihsecond =>
    rw [written_append, written_append, List.map_append, ihfirst hdepth size size',
      hfirst.shiftAll_eq, Int.add_zero, Int.add_zero, ihsecond hdepth]
  | block _ ih =>
    have hinner : depth + levels + 1 = depth + 1 + levels := by omega
    simp [written, written_append, linesAt, shift, hinner, ih (by omega : 0 ≤ depth + 1) size size']

end Act

end FlowScript
