import FlowScript.Proofs.Text.Lines
import FlowScript.Script.Template

/-!
# What acts write

Acts that complete leave a session behind that can be told without running them: the depth moves by
the blocks opened and closed, and the lines written follow from the indentation unit, the depth and
the number of lines at the start alone.
-/
namespace FlowScript

/-- A piece that has a text wherever it stands. -/
def Piece.HasText (p : Piece) : Prop := ∀ unit size, ∃ t, p.text unit size = .ok t

theorem Piece.textAll_of_hasText {pieces : List Piece} (h : ∀ p ∈ pieces, p.HasText) (unit : Text)
    (size : Nat) : ∃ t, textAll unit size pieces = .ok t := by
  induction pieces with
  | nil => exact ⟨[], rfl⟩
  | cons p pieces ih =>
    obtain ⟨t, ht⟩ := h p List.mem_cons_self unit size
    obtain ⟨rest, hrest⟩ := ih fun q hq => h q (List.mem_cons_of_mem p hq)
    refine ⟨t ++ rest, ?_⟩
    rw [textAll, ht, hrest]
    rfl

namespace Act

/-- An act that cannot fail. -/
def Completes : Act → Prop
  | line pieces => ∀ p ∈ pieces, p.HasText
  | fail _ => False
  | _ => True

/-- The lines that one act writes at a depth, after so many others. -/
def linesAt (unit : Text) (depth : Int) (size : Nat) : Act → List Text
  | line pieces =>
    match Piece.textAll unit size pieces with
    | .ok t => t.lines.map (Writer.layout unit depth)
    | .error _ => []
  | _ => []

/-- How much deeper an act makes the lines after it. -/
def shift : Act → Int
  | startBlock => 1
  | endBlock => -1
  | _ => 0

def notice? : Act → Option Notice
  | notify n => some n
  | _ => none

/-- The lines that acts write, from a depth and a number of lines on. -/
def written (unit : Text) : (depth : Int) → (size : Nat) → List Act → List Text
  | _, _, [] => []
  | depth, size, a :: acts =>
    a.linesAt unit depth size ++
      written unit (depth + a.shift) (size + (a.linesAt unit depth size).length) acts

/-- How much deeper acts leave a writer. -/
def shiftAll : List Act → Int
  | [] => 0
  | a :: acts => a.shift + shiftAll acts

theorem shiftAll_append (first second : List Act) :
    shiftAll (first ++ second) = shiftAll first + shiftAll second := by
  induction first with
  | nil => simp [shiftAll]
  | cons a first ih => rw [List.cons_append, shiftAll, shiftAll, ih, Int.add_assoc]

theorem written_append (unit : Text) (depth : Int) (size : Nat) (first second : List Act) :
    written unit depth size (first ++ second) = written unit depth size first ++
      written unit (depth + shiftAll first)
        (size + (written unit depth size first).length) second := by
  induction first generalizing depth size with
  | nil => simp [written, shiftAll]
  | cons a first ih =>
    simp only [List.cons_append, written, ih, List.append_assoc, shiftAll, List.length_append,
      Int.add_assoc, Nat.add_assoc]

/-- Every line that acts write is a part of the text of one of them, laid out. -/
theorem exists_layout_of_mem_written {unit l : Text} {depth : Int} {size : Nat} {acts : List Act}
    (h : l ∈ written unit depth size acts) : ∃ pieces size t depth part, line pieces ∈ acts ∧
      Piece.textAll unit size pieces = .ok t ∧ part ∈ t.lines ∧
      l = Writer.layout unit depth part := by
  induction acts generalizing depth size with
  | nil => exact absurd h List.not_mem_nil
  | cons a acts ih =>
    rcases List.mem_append.mp h with h | h
    · cases a with
      | line pieces =>
        rw [linesAt] at h
        split at h
        · next t ht =>
          obtain ⟨part, hpart, rfl⟩ := List.mem_map.mp h
          exact ⟨pieces, size, t, depth, part, List.mem_cons_self, ht, hpart, rfl⟩
        · exact absurd h List.not_mem_nil
      | _ => exact absurd h List.not_mem_nil
    · obtain ⟨pieces, size, t, depth, part, hmem, hrest⟩ := ih h
      exact ⟨pieces, size, t, depth, part, List.mem_cons_of_mem a hmem, hrest⟩

theorem isLine_of_mem_written {unit l : Text} {depth : Int} {size : Nat} {acts : List Act}
    (hu : unit.IsLine) (h : l ∈ written unit depth size acts) : l.IsLine := by
  obtain ⟨_, _, _, depth, part, -, -, hpart, rfl⟩ := exists_layout_of_mem_written h
  exact Writer.isLine_layout depth hu (Text.isLine_of_mem_lines hpart)

/-- Every part of the text of an act is written, laid out. -/
theorem exists_written_of_mem {pieces : List Piece} {acts : List Act} (h : line pieces ∈ acts)
    (hpieces : (line pieces).Completes) (unit : Text) (depth : Int) (size : Nat) :
    ∃ size' t depth', Piece.textAll unit size' pieces = .ok t ∧
      ∀ part ∈ t.lines, Writer.layout unit depth' part ∈ written unit depth size acts := by
  induction acts generalizing depth size with
  | nil => exact absurd h List.not_mem_nil
  | cons a acts ih =>
    rcases List.mem_cons.mp h with rfl | h
    · obtain ⟨t, ht⟩ := Piece.textAll_of_hasText hpieces unit size
      refine ⟨size, t, depth, ht, fun part hpart => List.mem_append_left _ ?_⟩
      simp only [linesAt, ht]
      exact List.mem_map_of_mem hpart
    · obtain ⟨size', t, depth', ht, hlines⟩ := ih h _ _
      exact ⟨size', t, depth', ht, fun part hpart => List.mem_append_right _ (hlines part hpart)⟩

end Act

namespace Writer

/-- The lines that acts write from this writer on. -/
def written (w : Writer) (acts : List Act) : List Text := Act.written w.unit w.depth w.size acts

/-- The writer that acts leave behind. -/
def after (w : Writer) (acts : List Act) : Writer :=
  ⟨w.unit, w.depth + Act.shiftAll acts, w.lines ++ w.written acts⟩

theorem size_after (w : Writer) (acts : List Act) :
    (w.after acts).size = w.size + (w.written acts).length := List.length_append

@[simp] theorem after_nil (w : Writer) : w.after [] = w := by
  simp [after, written, Act.written, Act.shiftAll]

theorem written_append (w : Writer) (first second : List Act) :
    w.written (first ++ second) = w.written first ++ (w.after first).written second := by
  rw [written, written, written, Act.written_append, size_after]
  rfl

theorem after_append (w : Writer) (first second : List Act) :
    w.after (first ++ second) = (w.after first).after second := by
  rw [after, written_append, ← List.append_assoc, Act.shiftAll_append, ← Int.add_assoc]
  rfl

/-- Acts keep a writer line-wise, so every line stays where its number says. -/
theorem IsLineWise.after {w : Writer} (h : w.IsLineWise) (acts : List Act) :
    (w.after acts).IsLineWise := by
  refine ⟨h.unit, fun l hl => ?_⟩
  rcases List.mem_append.mp hl with hl | hl
  · exact h.lines l hl
  · exact Act.isLine_of_mem_written h.unit hl

end Writer

/-- The session that acts leave behind. -/
def Session.after (s : Session) (acts : List Act) : Session :=
  ⟨s.writer.after acts, s.notices ++ acts.filterMap Act.notice?⟩

@[simp] theorem Session.after_nil (s : Session) : s.after [] = s := by simp [after]

theorem Session.after_append (s : Session) (first second : List Act) :
    s.after (first ++ second) = (s.after first).after second := by
  rw [after, Writer.after_append, List.filterMap_append, ← List.append_assoc]
  rfl

/-- A computation goes on from what its first part returned and left behind. -/
theorem Rendering.bind_of_ok {α β : Type} {x : Rendering α} {f : α → Rendering β} {a : α}
    {s s' : Session} (h : x s = .ok a s') : (x >>= f) s = f a s' := by
  simp only [bind, EStateM.bind, h]

/-- A computation returns if what it returns, with what it leaves behind, passes a check. -/
theorem Rendering.exists_ok_of_check {α : Type} {x : Rendering α} {s : Session}
    {p : α → Session → Bool} (h : (match x s with
      | .ok a s' => p a s'
      | .error _ _ => false) = true) : ∃ a s', x s = .ok a s' ∧ p a s' = true := by
  cases hx : x s with
  | ok a s' =>
    rw [hx] at h
    exact ⟨a, s', rfl, h⟩
  | error e s' =>
    rw [hx] at h
    exact nomatch h

namespace Act

theorem run_of_completes {a : Act} (h : a.Completes) (s : Session) :
    a.run s = .ok () (s.after [a]) := by
  cases a with
  | line pieces =>
    obtain ⟨t, ht⟩ := Piece.textAll_of_hasText h s.writer.unit s.writer.size
    simp only [run, ht, Session.after, Writer.after, Writer.written, written, linesAt, shiftAll]
    simp [Writer.append, shift, notice?]
  | startBlock => simp [run, Session.after, Writer.after, Writer.written, written, linesAt,
      shiftAll, shift, notice?, Writer.startBlock]
  | endBlock => simp [run, Session.after, Writer.after, Writer.written, written, linesAt,
      shiftAll, shift, notice?, Writer.endBlock, Int.sub_eq_add_neg]
  | notify n => simp [run, Session.after, Writer.after, Writer.written, written, linesAt,
      shiftAll, shift, notice?]
  | fail f => exact h.elim

/-- Running acts that complete. -/
theorem runAll_of_completes {acts : List Act} (h : ∀ a ∈ acts, a.Completes) (s : Session) :
    runAll acts s = .ok () (s.after acts) := by
  induction acts generalizing s with
  | nil => simp [runAll, pure, EStateM.pure, Session.after]
  | cons a acts ih =>
    rw [runAll, Rendering.bind_of_ok (run_of_completes (h a List.mem_cons_self) s),
      ih fun b hb => h b (List.mem_cons_of_mem a hb), ← Session.after_append]
    rfl

end Act

end FlowScript
