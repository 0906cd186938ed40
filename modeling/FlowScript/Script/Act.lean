import FlowScript.Script.Failure
import FlowScript.Script.Notice
import FlowScript.Script.Piece
import FlowScript.Script.Writer

/-!
# Acts on a writer

What the hooks of a template do, one act after another. A failing act ends the run and leaves behind
what was written up to it.
-/
namespace FlowScript

inductive Act where
  | line (pieces : List Piece)
  | startBlock
  | endBlock
  | notify (n : Notice)
  | fail (f : Failure)

/-- A writer, and the notices given while it was written to. -/
structure Session where
  writer : Writer
  notices : List Notice

def Session.start (unit : Text) : Session := ⟨Writer.empty unit, []⟩

/-- A computation that changes a session, and keeps what it changed when it fails. -/
abbrev Rendering := EStateM Failure Session

namespace Act

/-- A line of fixed code. -/
def code (s : String) : Act := line [.code s]

def run : Act → Rendering Unit
  | line pieces => fun s =>
    match Piece.textAll s.writer.unit s.writer.size pieces with
    | .ok t => .ok () { s with writer := s.writer.append t }
    | .error x => .error (.nonFinite x) s
  | startBlock => fun s => .ok () { s with writer := s.writer.startBlock }
  | endBlock => fun s => .ok () { s with writer := s.writer.endBlock }
  | notify n => fun s => .ok () { s with notices := s.notices ++ [n] }
  | fail f => fun s => .error f s

def runAll : List Act → Rendering Unit
  | [] => pure ()
  | a :: as => do
    a.run
    runAll as

end Act

end FlowScript
