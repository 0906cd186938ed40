import FlowScript.Proofs.Script.ScannedActs
import FlowScript.Script.Scope

/-!
# Neutral pieces and acts

Pieces are neutral if they close all brackets they open and close no other, wherever they stand in
code; so are acts. A value is neutral, whatever it holds, and neutral pieces may take the place of a
literal in any line.
-/
namespace FlowScript
open Scan

namespace Piece

/-- A string literal is scanned by its characters. -/
theorem scan_code (st : State) (l : List Char) :
    (code (no_index (String.ofList l))).scan st = quietRunChars st l := quietRun_ofString st l

theorem quietRun_of_isPlain {t : Text} (h : ∀ c ∈ t, IsPlain c ∧ c.val ≠ 10)
    (due : List CodePoint) : quietRun ⟨.code, due⟩ t = some ⟨.code, due⟩ := by
  induction t with
  | nil => rfl
  | cons c t ih =>
    rw [List.forall_mem_cons] at h
    have hstep : step ⟨.code, due⟩ c = _ := codeStep_of_isPlain h.1.1 due
    rw [quietRun, hstep, Option.bind_some, if_neg (by simp [h.1.2])]
    exact ih h.2

/-- Pieces that close all brackets they open, and no other. -/
def IsNeutral (pieces : List Piece) : Prop :=
  ∀ due, scanAll ⟨.code, due⟩ pieces = some ⟨.code, due⟩

theorem isNeutral_nil : IsNeutral [] := fun _ => rfl

theorem IsNeutral.append {first second : List Piece} (h : IsNeutral first) (h' : IsNeutral second) :
    IsNeutral (first ++ second) := fun due => scanAll_trans (h due) (h' due)

theorem IsNeutral.cons {p : Piece} {pieces : List Piece} (hp : IsNeutral [p])
    (h : IsNeutral pieces) : IsNeutral (p :: pieces) := hp.append h

theorem isNeutral_indent (levels : Nat) : IsNeutral [indent levels] := fun _ => rfl

theorem isNeutral_lineBreak : IsNeutral [lineBreak] := fun _ => rfl

theorem isNeutral_key (t : Text) : IsNeutral [key t] := fun _ => rfl

/-- Code without quotes, brackets and slashes. -/
theorem isNeutral_of_isPlain {l : List Char}
    (h : ∀ c ∈ l.map CodePoint.ofChar, IsPlain c ∧ c.val ≠ 10) :
    IsNeutral [code (no_index (String.ofList l))] := by
  intro due
  rw [scanAll, scan_code, quietRunChars, quietRun_of_isPlain h]
  rfl

/-- Neutral pieces may stand wherever a literal may. -/
theorem scanAll_of_hole {between : List Piece} (h : IsNeutral between) (before : List Piece)
    {after : List Piece} {st st' : State}
    (hhole : scanAll st (before ++ quoted [] :: after) = some st') :
    scanAll st (before ++ (between ++ after)) = some st' := by
  rw [scanAll_append] at hhole
  obtain ⟨⟨mode, due⟩, hbefore, hafter⟩ := Option.bind_eq_some_iff.mp hhole
  obtain ⟨last, hquoted, hafter⟩ := Option.bind_eq_some_iff.mp hafter
  simp only [scan] at hquoted
  split at hquoted
  · next hmode =>
    cases hquoted
    cases hmode
    exact scanAll_trans hbefore (scanAll_trans (h due) hafter)
  · exact nomatch hquoted

theorem IsNeutral.of_hole {between : List Piece} (h : IsNeutral between) (before : List Piece)
    {after : List Piece} (hhole : IsNeutral (before ++ quoted [] :: after)) :
    IsNeutral (before ++ (between ++ after)) := fun due => scanAll_of_hole h before (hhole due)

section
variable {pieces : List Piece} (hpieces : IsNeutral pieces) (level : Nat)
include hpieces

theorem isNeutral_brackets :
    IsNeutral (code "[" :: lineBreak :: pieces ++ [indent level, code "]"]) := by
  refine IsNeutral.of_hole hpieces [_, _] fun due => ?_
  simp only [List.cons_append, List.nil_append, scanAll, scan_code]
  rfl

theorem isNeutral_braces :
    IsNeutral (code "\x7b" :: lineBreak :: pieces ++ [indent level, code "\x7d"]) := by
  refine IsNeutral.of_hole hpieces [_, _] fun due => ?_
  simp only [List.cons_append, List.nil_append, scanAll, scan_code]
  rfl

/-- An element or a member of a literal, less its key. -/
theorem isNeutral_entry : IsNeutral (indent level :: pieces) := (isNeutral_indent level).cons hpieces

theorem isNeutral_last : IsNeutral (pieces ++ [lineBreak]) := hpieces.append isNeutral_lineBreak

theorem isNeutral_next {rest : List Piece} (hrest : IsNeutral rest) :
    IsNeutral (pieces ++ code "," :: lineBreak :: rest) :=
  hpieces.append ((isNeutral_of_isPlain (by decide)).cons (isNeutral_lineBreak.cons hrest))

theorem isNeutral_member (k : Text) : IsNeutral (key k :: code ": " :: pieces) :=
  (isNeutral_key k).cons ((isNeutral_of_isPlain (by decide)).cons hpieces)

end

mutual

theorem isNeutral_literal (level : Nat) : (v : Json) → IsNeutral (literal level v)
  | .null => isNeutral_of_isPlain (by decide)
  | .bool true => isNeutral_of_isPlain (by decide)
  | .bool false => isNeutral_of_isPlain (by decide)
  | .num _ => fun _ => rfl
  | .nonFinite _ => fun _ => rfl
  | .str _ => fun _ => rfl
  | .arr xs => isNeutral_brackets (isNeutral_literalItems level xs) level
  | .obj ms => isNeutral_braces (isNeutral_literalMembers level ms) level

theorem isNeutral_literalItems (level : Nat) : (xs : List Json) → IsNeutral (literalItems level xs)
  | [] => isNeutral_nil
  | [x] => isNeutral_last (isNeutral_entry (isNeutral_literal (level + 1) x) _)
  | x :: y :: xs =>
    isNeutral_next (isNeutral_entry (isNeutral_literal (level + 1) x) _)
      (isNeutral_literalItems level (y :: xs))

theorem isNeutral_literalMembers (level : Nat) :
    (ms : List (Text × Json)) → IsNeutral (literalMembers level ms)
  | [] => isNeutral_nil
  | [(k, v)] =>
    isNeutral_last (isNeutral_entry (isNeutral_member (isNeutral_literal (level + 1) v) k) _)
  | (k, v) :: m :: ms =>
    isNeutral_next (isNeutral_entry (isNeutral_member (isNeutral_literal (level + 1) v) k) _)
      (isNeutral_literalMembers level (m :: ms))

end

/-- A value is one literal, or closes what it opens. -/
theorem isNeutral_value (v : Json) : IsNeutral (value v) := isNeutral_literal 0 v

/-- Every entry of a list closes what it opens. -/
def EntriesNeutral (entries : List (List Piece)) : Prop := ∀ e ∈ entries, IsNeutral e

section
variable {e : List Piece} {entries rest : List (List Piece)}

@[simp] theorem entriesNeutral_nil : EntriesNeutral [] := List.forall_mem_nil _

@[simp] theorem entriesNeutral_cons :
    EntriesNeutral (e :: entries) ↔ IsNeutral e ∧ EntriesNeutral entries := List.forall_mem_cons

@[simp] theorem entriesNeutral_append :
    EntriesNeutral (entries ++ rest) ↔ EntriesNeutral entries ∧ EntriesNeutral rest :=
  List.forall_mem_append

end

end Piece

namespace Act

/-- Acts whose lines together close all brackets they open, and no other. -/
def IsNeutral (acts : List Act) : Prop := ∀ due, scanAll due acts = some due

theorem isNeutral_nil : IsNeutral [] := fun _ => rfl

theorem IsNeutral.append {first second : List Act} (h : IsNeutral first) (h' : IsNeutral second) :
    IsNeutral (first ++ second) := fun due => scanAll_trans (h due) (h' due)

theorem IsNeutral.cons {a : Act} {acts : List Act} (ha : IsNeutral [a]) (h : IsNeutral acts) :
    IsNeutral (a :: acts) := ha.append h

theorem isNeutral_map {α : Type} {g : α → Act} {xs : List α} (h : ∀ x ∈ xs, IsNeutral [g x]) :
    IsNeutral (xs.map g) := by
  induction xs with
  | nil => exact isNeutral_nil
  | cons x xs ih =>
    rw [List.forall_mem_cons] at h
    exact h.1.cons (ih h.2)

theorem isNeutral_flatMap {α : Type} {g : α → List Act} {xs : List α}
    (h : ∀ x ∈ xs, IsNeutral (g x)) : IsNeutral (xs.flatMap g) := by
  induction xs with
  | nil => exact isNeutral_nil
  | cons x xs ih =>
    rw [List.forall_mem_cons] at h
    exact h.1.append (ih h.2)

theorem isNeutral_line {pieces : List Piece} (h : Piece.IsNeutral pieces) :
    IsNeutral [line pieces] := by
  intro due
  rw [scanAll, scan, h due]
  rfl

theorem isNeutral_notify (n : Notice) : IsNeutral [notify n] := fun _ => rfl

/-- Acts between a line that opens brackets and one that closes them. -/
theorem scanAll_between {opening body closing : List Act} {due mid due' : List CodePoint}
    (h : scanAll due opening = some mid) (hbody : IsNeutral body)
    (h' : scanAll mid closing = some due') : scanAll due (opening ++ body ++ closing) = some due' :=
  scanAll_trans (scanAll_trans h (hbody mid)) h'

end Act

theorem Step.isNeutral_frameActs (path : List Nat) : Act.IsNeutral (frameActs path) := by
  refine .cons (fun due => ?first) (Act.isNeutral_map fun i _ due => ?next)
  case first =>
    simp only [Act.code, Act.scanAll, Act.scan, Piece.scanAll, Piece.scan_code]
    rfl
  case next =>
    simp only [Act.scanAll, Act.scan, Piece.scanAll, Piece.scan_code]
    rfl

end FlowScript
