import FlowScript.Proofs.Script.LineCounts

/-!
# Calls of a writer

What any calls make of a writer can be told from the calls alone: how many lines it holds, and for
each part of an appended text the line it stands on and how it is laid out there. Closing more blocks
than were opened is a debt, which the blocks opened later pay back first.
-/
namespace FlowScript

theorem Text.isEmpty_trimRight (t : Text) : t.trimRight.isEmpty = t.isBlank := by
  rw [Bool.eq_iff_iff, List.isEmpty_iff, trimRight, List.reverse_eq_nil_iff,
    List.dropWhile_eq_nil_iff, isBlank, List.all_eq_true]
  simp only [List.mem_reverse]

namespace Writer

/-- A call of a writer that changes it. -/
inductive Call where
  | append (t : Text)
  | startBlock
  | endBlock
  deriving DecidableEq

/-- The writer behind a call. -/
def call (w : Writer) : Call → Writer
  | .append t => w.append t
  | .startBlock => w.startBlock
  | .endBlock => w.endBlock

/-- The writer behind calls, made one after another. -/
def callAll (w : Writer) (calls : List Call) : Writer := calls.foldl call w

/-- How many lines a call appends, one for a text and one more for each line feed in it. -/
def Call.lineCount : Call → Nat
  | .append t => 1 + t.count CodePoint.lineFeed
  | _ => 0

/-- How many lines calls append. -/
def lineCount (calls : List Call) : Nat := (calls.map Call.lineCount).sum

/-- How many blocks calls leave open, less those they closed too many. -/
def openBlocks (calls : List Call) : Nat := calls.count .startBlock - calls.count .endBlock

/-- A part of a text as it is written behind calls. -/
def laidOut (unit : Text) (calls : List Call) (part : Text) : Text :=
  if part.isBlank then [] else unit.repeated (openBlocks calls) ++ part.trimRight

section Calls

variable (w : Writer) (calls later : List Call)

@[simp] theorem callAll_nil : w.callAll [] = w := rfl

@[simp] theorem callAll_cons (c : Call) : w.callAll (c :: calls) = (w.call c).callAll calls := rfl

theorem callAll_append : w.callAll (calls ++ later) = (w.callAll calls).callAll later :=
  List.foldl_append

theorem unit_callAll : (w.callAll calls).unit = w.unit := by
  induction calls generalizing w with
  | nil => rfl
  | cons c calls ih =>
    rw [callAll_cons, ih]
    cases c <;> rfl

theorem depth_callAll : (w.callAll calls).depth =
    w.depth + calls.count .startBlock - calls.count .endBlock := by
  induction calls generalizing w with
  | nil => simp
  | cons c calls ih =>
    rw [callAll_cons, ih, List.count_cons, List.count_cons]
    cases c with
    | append t => simp [call]
    | startBlock =>
      simp only [call, startBlock, beq_self_eq_true, ite_true, reduceCtorEq, beq_iff_eq, ite_false]
      omega
    | endBlock =>
      simp only [call, endBlock, beq_self_eq_true, ite_true, reduceCtorEq, beq_iff_eq, ite_false]
      omega

theorem size_call (c : Call) : (w.call c).size = w.size + c.lineCount := by
  cases c with
  | append t =>
    rw [call, size_append, Text.length_lines, Call.lineCount, Nat.add_comm 1]
  | startBlock => rfl
  | endBlock => rfl

theorem size_callAll : (w.callAll calls).size = w.size + lineCount calls := by
  induction calls generalizing w with
  | nil => rfl
  | cons c calls ih =>
    rw [callAll_cons, ih, size_call, lineCount, lineCount, List.map_cons, List.sum_cons,
      Nat.add_assoc]

/-- No call changes a line that is there. -/
theorem lines_prefix_callAll : w.lines <+: (w.callAll calls).lines := by
  induction calls generalizing w with
  | nil => exact List.prefix_rfl
  | cons c calls ih =>
    have hfirst : w.lines <+: (w.call c).lines := by
      cases c with
      | append t => exact List.prefix_append _ _
      | startBlock => exact List.prefix_rfl
      | endBlock => exact List.prefix_rfl
    exact hfirst.trans (ih (w.call c))

end Calls

section Fresh

variable (unit : Text) (calls : List Call)

/-- A text that is appended behind calls. -/
theorem lines_append_callAll (t : Text) : (((empty unit).callAll calls).append t).lines =
    ((empty unit).callAll calls).lines ++ t.lines.map (laidOut unit calls) := by
  have hdepth : (((empty unit).callAll calls).depth).toNat = openBlocks calls := by
    rw [depth_callAll, openBlocks]
    change (0 + (calls.count Call.startBlock : Int) - calls.count Call.endBlock).toNat = _
    omega
  rw [append_lines, unit_callAll]
  congr 2
  funext part
  rw [layout, Text.isEmpty_trimRight, hdepth, laidOut]
  rfl

theorem isLineWise_callAll (hunit : unit.IsLine) : ((empty unit).callAll calls).IsLineWise := by
  have hreached : Reached unit ((empty unit).callAll calls) := by
    induction calls using List.reverseRecOn with
    | nil => exact .empty
    | append_singleton calls c ih =>
      rw [callAll_append]
      cases c with
      | append t => exact ih.append t
      | startBlock => exact ih.startBlock
      | endBlock => exact ih.endBlock
  exact hreached.isLineWise hunit

variable {unit calls}

/-- Where the lines of an appended text stand, whatever is called later. -/
theorem lines_of_append {before after : List Call} {t : Text}
    (h : calls = before ++ .append t :: after) :
    (((empty unit).callAll calls).lines.drop (lineCount before)).take
      (1 + t.count CodePoint.lineFeed) = t.lines.map (laidOut unit before) := by
  have hlater := lines_prefix_callAll (((empty unit).callAll before).append t) after
  obtain ⟨later, hlater⟩ := hlater
  have hsize : ((empty unit).callAll before).lines.length = lineCount before := by
    have hsize := size_callAll (empty unit) before
    rw [size] at hsize
    rw [hsize]
    exact Nat.zero_add _
  have hlines : ((empty unit).callAll calls).lines =
      ((empty unit).callAll before).lines ++ (t.lines.map (laidOut unit before) ++ later) := by
    rw [h, callAll_append, callAll_cons, call, ← hlater, lines_append_callAll, List.append_assoc]
  have hcount : (t.lines.map (laidOut unit before)).length = 1 + t.count CodePoint.lineFeed := by
    rw [List.length_map, Text.length_lines, Nat.add_comm]
  rw [hlines, ← hsize, List.drop_left, ← hcount, List.take_left]

/-- Two texts with a line feed between them are appended like one after the other. -/
theorem append_lineFeed (w : Writer) (s t : Text) :
    w.append (s ++ CodePoint.lineFeed :: t) = (w.append s).append t := by
  rw [append, append, append, Text.lines_append_lineFeed, List.map_append, List.append_assoc]

theorem IsLineWise.count_text {w : Writer} (h : w.IsLineWise) :
    w.text.count CodePoint.lineFeed = max 1 w.size ∧
    w.text.lines = (if w.lines = [] then [[]] else w.lines) ++ [[]] := by
  by_cases hne : w.lines = []
  · have htext : w.text = [CodePoint.lineFeed] := by
      rw [text, hne]
      rfl
    rw [htext, size, hne]
    exact ⟨rfl, rfl⟩
  · have hlines := h.text_lines hne
    have hcount := Text.length_lines w.text
    have hpos : 0 < w.lines.length := List.length_pos_iff.mpr hne
    rw [hlines, List.length_append, List.length_singleton] at hcount
    refine ⟨?_, by rw [hlines, if_neg hne]⟩
    rw [size]
    omega

end Fresh

/-- A writer after any calls. It holds a line for each part of the texts appended, in their order:
nothing of a blank part, else the part less the blanks at its end, behind as many units as blocks
were open. A line feed in a text is as good as another call. The text of a writer whose unit holds
none is made of these lines, each with a line feed behind it, and is never empty. -/
theorem callAll_law (unit : Text) (calls : List Call) :
    ((empty unit).callAll calls).size = (calls.map Call.lineCount).sum ∧
    (∀ before t after, calls = before ++ .append t :: after →
      (((empty unit).callAll calls).lines.drop (lineCount before)).take
        (1 + t.count CodePoint.lineFeed) =
          t.lines.map fun part => if part.isBlank then [] else
            unit.repeated (before.count .startBlock - before.count .endBlock) ++ part.trimRight) ∧
    (∀ before s t after, calls = before ++ .append (s ++ CodePoint.lineFeed :: t) :: after →
      (empty unit).callAll calls =
        (empty unit).callAll (before ++ .append s :: .append t :: after)) ∧
    (unit.IsLine →
      ((empty unit).callAll calls).text.count CodePoint.lineFeed =
        max 1 ((empty unit).callAll calls).size ∧
      ((empty unit).callAll calls).text.getLast? = some CodePoint.lineFeed ∧
      ((empty unit).callAll calls).text.lines =
        (if ((empty unit).callAll calls).lines = [] then [[]]
          else ((empty unit).callAll calls).lines) ++ [[]]) := by
  refine ⟨?size, fun before t after h => lines_of_append h, fun before s t after h => ?split,
    fun hunit => ?text⟩
  case size =>
    rw [size_callAll]
    exact Nat.zero_add _
  case split =>
    rw [h, callAll_append, callAll_append, callAll_cons, callAll_cons, callAll_cons]
    simp only [call, append_lineFeed]
  case text =>
    obtain ⟨hcount, hlines⟩ := (isLineWise_callAll unit calls hunit).count_text
    exact ⟨hcount, by simp [text], hlines⟩

/-- Two blocks are closed before any is opened: the first two that are opened pay for them. -/
theorem callAll_law_debt :
    let calls : List Call := [.endBlock, .endBlock, .startBlock, .append "a \n ", .startBlock,
      .startBlock, .append " b"]
    ((empty "  ").callAll calls).lines = ["a", "", "   b"] ∧
    ((empty "  ").callAll calls).text.count CodePoint.lineFeed = 3 ∧
    ((empty "  ").callAll calls).text.lines = ["a", "", "   b", ""] := by
  intro calls
  have hunit : Text.IsLine "  " := by
    unfold Text.IsLine
    decide
  obtain ⟨hsize, -, -, htext⟩ := callAll_law "  " calls
  obtain ⟨hcount, -, hlines⟩ := htext hunit
  have hcalls : ((empty "  ").callAll calls).lines = ["a", "", "   b"] := by decide
  refine ⟨hcalls, ?_, ?_⟩
  · rw [hcount, hsize]
    decide
  · rw [hlines, hcalls]
    decide

end Writer

end FlowScript
