import FlowScript.Proofs.Script.Comments
import FlowScript.Proofs.Script.Failures

/-!
# Source maps taken out of scripts

The comment that ends a script is the last one in it, whatever the lines before look like. So when
the blocks of a template balance, the ranges that are read from the script are those of the steps.
-/
namespace FlowScript

namespace SourceMap

/-- A script that ends with a comment has the ranges of this comment. -/
theorem extract_of_lines {script : Text} {ls : List Text} {ranges : List (Nat × Nat)}
    (h : script.lines = ls ++ [marker ++ (Template.numbers ranges).flatMap encodeNat, []]) :
    extract script = .ok ranges := by
  have hempty : payload? [] = none := by decide
  refine extract_eq_ok_iff_payload.mpr ⟨_, ?_, decode_flatMap_encodeNat (Template.numbers ranges)⟩
  simp [h, List.filterMap_append, payload?_comment, hempty]

end SourceMap

namespace Template

variable {t : Template} {r : Recording} {s s' : Session} {script : Text}

/-- The comment is appended to what the acts write, and it is one line. -/
theorem writer_of_renderRecording (h : t.renderRecording r s = .ok script s') :
    s'.writer = (s.writer.after (t.recordingActs r)).append
      (SourceMap.marker ++ (numbers (t.ranges r s.writer)).flatMap SourceMap.encodeNat) ∧
    script = s'.writer.text := by
  obtain ⟨comment, hline, hwriter, hscript⟩ := exists_comment_of_renderRecording h
  rw [sourceMapNumbers_eq_map] at hline
  rw [(SourceMap.line_natCast_eq_ok_iff.mp hline).2] at hwriter
  exact ⟨hwriter, hscript⟩

theorem writer_lines_of_renderRecording (h : t.renderRecording r s = .ok script s') :
    s'.writer.lines = (s.writer.after (t.recordingActs r)).lines ++
      [s.writer.unit.repeated (s.writer.after (t.recordingActs r)).depth.toNat ++
        (SourceMap.marker ++ (numbers (t.ranges r s.writer)).flatMap SourceMap.encodeNat)] := by
  rw [(writer_of_renderRecording h).1, Writer.append_lines,
    Text.lines_of_isLine (SourceMap.isLine_comment _), List.map_singleton, SourceMap.layout_comment]
  rfl

/-- A rendered script is what the acts write, and the comment. -/
theorem lines_of_renderRecording (hlines : s.writer.IsLineWise)
    (h : t.renderRecording r s = .ok script s') :
    script.lines = (s.writer.after (t.recordingActs r)).lines ++
      [s.writer.unit.repeated (s.writer.after (t.recordingActs r)).depth.toNat ++
        (SourceMap.marker ++ (numbers (t.ranges r s.writer)).flatMap SourceMap.encodeNat), []] := by
  obtain ⟨hwriter, rfl⟩ := writer_of_renderRecording h
  have hwise : s'.writer.IsLineWise := hwriter ▸ (hlines.after _).append _
  have hwritten := writer_lines_of_renderRecording h
  rw [hwise.text_lines (by simp [hwritten]), hwritten, List.append_assoc]
  rfl

/-- Each range cuts the block of its step out of the script. -/
theorem ranges_locate (hlines : s.writer.IsLineWise)
    (h : t.renderRecording r s = .ok script s') :
    List.Forall₂ (fun range block => range.2 = block.length ∧
        (script.lines.drop range.1).take range.2 = block)
      (t.ranges r s.writer) (t.blocks r s.writer) := by
  obtain ⟨epilogue, hfinish⟩ := t.exists_epilogue r s.writer
  rw [lines_of_renderRecording hlines h, hfinish, List.append_assoc _ epilogue]
  exact SourceMap.rangesFrom_locate _ _ _

/-- The ranges that are read from a script are those of its blocks, when it ends undented. The unit
may be any: the comment stands behind the last line feed but one. -/
theorem extract_of_renderRecording (h : t.renderRecording r s = .ok script s')
    (hdepth : (s.writer.after (t.recordingActs r)).depth = 0) :
    SourceMap.extract script = .ok (t.ranges r s.writer) := by
  have hlines := writer_lines_of_renderRecording h
  rw [hdepth] at hlines
  obtain ⟨before, hbefore⟩ := Text.exists_lines_join_concat
    (s.writer.after (t.recordingActs r)).lines
    (SourceMap.isLine_comment (numbers (t.ranges r s.writer)))
  rw [(writer_of_renderRecording h).2, Writer.text, hlines]
  exact SourceMap.extract_of_lines hbefore

end Template

end FlowScript
