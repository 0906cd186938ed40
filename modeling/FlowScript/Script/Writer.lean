import FlowScript.Text.Blank

/-!
# Writers

The lines of a script so far, and how deep the next one is indented. Blocks need not balance:
closing more than were opened leaves a debt that later openings pay back, and meanwhile nothing is
indented.
-/
namespace FlowScript

structure Writer where
  unit : Text
  depth : Int
  lines : List Text

namespace Writer

def empty (unit : Text) : Writer := ⟨unit, 0, []⟩

/-- A line as it is written: trimmed on the right, and indented unless nothing is left. -/
def layout (unit : Text) (depth : Int) (part : Text) : Text :=
  if part.trimRight.isEmpty then [] else unit.repeated depth.toNat ++ part.trimRight

/-- Appends the lines of a text. -/
def append (w : Writer) (t : Text) : Writer :=
  { w with lines := w.lines ++ t.lines.map (layout w.unit w.depth) }

def startBlock (w : Writer) : Writer := { w with depth := w.depth + 1 }

def endBlock (w : Writer) : Writer := { w with depth := w.depth - 1 }

/-- How many lines have been written. -/
def size (w : Writer) : Nat := w.lines.length

/-- The script so far; it ends with a line feed even when it is empty. -/
def text (w : Writer) : Text := Text.join [CodePoint.lineFeed] w.lines ++ [CodePoint.lineFeed]

@[simp] theorem append_unit (w : Writer) (t : Text) : (w.append t).unit = w.unit := rfl

@[simp] theorem append_depth (w : Writer) (t : Text) : (w.append t).depth = w.depth := rfl

@[simp] theorem append_lines (w : Writer) (t : Text) :
    (w.append t).lines = w.lines ++ t.lines.map (layout w.unit w.depth) := rfl

theorem size_append (w : Writer) (t : Text) : (w.append t).size = w.size + t.lines.length := by
  simp [size]

end Writer

end FlowScript
