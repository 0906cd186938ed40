import FlowScript.Proofs.Script.Run
import FlowScript.Proofs.Script.Symbols

/-!
# Where a step stands in a script

The source map of a script is taken from line counts on the way. Read back from the finished text,
it gives for every step the very lines that its hooks wrote.
-/
namespace FlowScript.Template

/-- All acts that a recording makes a template run, hook after hook. -/
def recordingActs (t : Template) (r : Recording) : List Act :=
  flowActs t.beforeAllSteps r ++ r.steps.flatMap (fun step => t.stepActs step (some r)) ++
    flowActs t.afterAllSteps r

/-- The lines of each step, the first of which is written from writer `w` on. -/
def stepBlocks (t : Template) (r : Recording) : (w : Writer) → List Step → List (List Text)
  | _, [] => []
  | w, step :: steps =>
    w.written (t.stepActs step (some r)) ::
      stepBlocks t r (w.after (t.stepActs step (some r))) steps

theorem length_stepBlocks (t : Template) (r : Recording) (w : Writer) (steps : List Step) :
    (t.stepBlocks r w steps).length = steps.length := by
  induction steps generalizing w with
  | nil => rfl
  | cons step steps ih => rw [stepBlocks, List.length_cons, List.length_cons, ih]

/-- The blocks of the steps are all that the hooks of the steps write. -/
theorem flatten_stepBlocks (t : Template) (r : Recording) (w : Writer) (steps : List Step) :
    (t.stepBlocks r w steps).flatten =
      w.written (steps.flatMap fun step => t.stepActs step (some r)) := by
  induction steps generalizing w with
  | nil => rfl
  | cons step steps ih =>
    rw [stepBlocks, List.flatten_cons, List.flatMap_cons, Writer.written_append, ih]

theorem renderRange_of_completes {t : Template} {r : Recording} {step : Step}
    (h : ∀ a ∈ t.stepActs step (some r), a.Completes) (s : Session) :
    t.renderRange step r s =
      .ok (s.writer.size, (s.writer.written (t.stepActs step (some r))).length)
        (s.after (t.stepActs step (some r))) := by
  have hcount : (s.after (t.stepActs step (some r))).writer.size - s.writer.size =
      (s.writer.written (t.stepActs step (some r))).length := by
    rw [Session.after, Writer.size_after, Nat.add_sub_cancel_left]
  have hget (s : Session) : (get : Rendering Session) s = .ok s s := rfl
  rw [renderRange, Rendering.bind_of_ok (hget s),
    Rendering.bind_of_ok (Act.runAll_of_completes h s), Rendering.bind_of_ok (hget _), hcount]
  rfl

/-- The counts taken on the way are the ranges of the blocks. -/
theorem renderRanges_of_completes {t : Template} {r : Recording} {steps : List Step}
    (h : ∀ step ∈ steps, ∀ a ∈ t.stepActs step (some r), a.Completes) (s : Session) :
    t.renderRanges r steps s =
      .ok (SourceMap.rangesFrom s.writer.size (t.stepBlocks r s.writer steps))
        (s.after (steps.flatMap fun step => t.stepActs step (some r))) := by
  induction steps generalizing s with
  | nil => simp [renderRanges, pure, EStateM.pure, stepBlocks, SourceMap.rangesFrom, Session.after]
  | cons step steps ih =>
    rw [renderRanges, Rendering.bind_of_ok (renderRange_of_completes (h step List.mem_cons_self) s),
      Rendering.bind_of_ok (ih (fun s hs => h s (List.mem_cons_of_mem step hs)) _),
      ← Session.after_append, stepBlocks, SourceMap.rangesFrom, ← Writer.size_after]
    rfl

/-- The blocks of all steps of a recording, in a script that starts in writer `w`. -/
def blocks (t : Template) (r : Recording) (w : Writer) : List (List Text) :=
  t.stepBlocks r (w.after (flowActs t.beforeAllSteps r)) r.steps

/-- The ranges of these blocks. -/
def ranges (t : Template) (r : Recording) (w : Writer) : List (Nat × Nat) :=
  SourceMap.rangesFrom (w.after (flowActs t.beforeAllSteps r)).size (t.blocks r w)

theorem length_ranges (t : Template) (r : Recording) (w : Writer) :
    (t.ranges r w).length = r.steps.length := by
  rw [ranges, SourceMap.length_rangesFrom, blocks, length_stepBlocks]

/-- The lines before the comment, cut where the first step begins and where the last one ends. -/
theorem exists_epilogue (t : Template) (r : Recording) (w : Writer) :
    ∃ epilogue, (w.after (t.recordingActs r)).lines =
      (w.after (flowActs t.beforeAllSteps r)).lines ++ (t.blocks r w).flatten ++ epilogue := by
  rw [blocks, flatten_stepBlocks, recordingActs, Writer.after_append, Writer.after_append]
  exact ⟨_, rfl⟩

/-- The numbers of a source map. -/
def numbers (ranges : List (Nat × Nat)) : List Nat :=
  1 :: ranges.flatMap fun range => [range.1, range.2]

theorem sourceMapNumbers_eq_map (ranges : List (Nat × Nat)) :
    sourceMapNumbers ranges = (numbers ranges).map Nat.cast := by
  rw [sourceMapNumbers, numbers, List.map_cons, List.map_flatMap]
  rfl

/-- In a script of fewer than two to the 31 lines every number of the source map can be written. -/
theorem numbers_le_greatest {t : Template} {r : Recording} {w : Writer}
    (hsize : (w.after (t.recordingActs r)).size < 2 ^ 31) :
    ∀ n ∈ numbers (t.ranges r w), n ≤ SourceMap.greatest := by
  obtain ⟨epilogue, hlines⟩ := t.exists_epilogue r w
  have hlen := congrArg List.length hlines
  rw [List.length_append, List.length_append] at hlen
  change (w.after (t.recordingActs r)).lines.length < 2147483648 at hsize
  change ∀ n ∈ numbers (t.ranges r w), n ≤ 2147483647
  intro n hn
  rcases List.mem_cons.mp hn with rfl | hn
  · omega
  · obtain ⟨range, hrange, hn⟩ := List.mem_flatMap.mp hn
    have hle := SourceMap.le_of_mem_rangesFrom hrange
    rw [Writer.size] at hle
    have hpart : n = range.1 ∨ n = range.2 := by simpa using hn
    omega

theorem completes_recordingActs {t : Template} {r : Recording}
    (h : ∀ a ∈ t.recordingActs r, a.Completes) :
    (∀ a ∈ flowActs t.beforeAllSteps r, a.Completes) ∧
    (∀ step ∈ r.steps, ∀ a ∈ t.stepActs step (some r), a.Completes) ∧
    (∀ a ∈ flowActs t.afterAllSteps r, a.Completes) := by
  simp only [recordingActs, List.forall_mem_append, List.forall_mem_flatMap] at h
  exact ⟨h.1.1, h.1.2, h.2⟩

theorem appendSourceMap_of_ok {ranges : List (Nat × Nat)} {comment : Text}
    (h : SourceMap.line (sourceMapNumbers ranges) = .ok comment) (s : Session) :
    appendSourceMap ranges s = .ok () { s with writer := s.writer.append comment } := by
  simp only [appendSourceMap, h]

/-- When all hooks complete, the script is what they write and the comment on the ranges. -/
theorem renderRecording_eq {t : Template} {r : Recording} {s : Session} {comment : Text}
    (hacts : ∀ a ∈ t.recordingActs r, a.Completes)
    (hline : SourceMap.line (sourceMapNumbers (t.ranges r s.writer)) = .ok comment) :
    t.renderRecording r s = .ok ((s.writer.after (t.recordingActs r)).append comment).text
      { s.after (t.recordingActs r) with
        writer := (s.writer.after (t.recordingActs r)).append comment } := by
  obtain ⟨hbefore, hsteps, hafter⟩ := completes_recordingActs hacts
  have hranges : t.renderRanges r r.steps (s.after (flowActs t.beforeAllSteps r)) =
      .ok (t.ranges r s.writer) _ := renderRanges_of_completes hsteps _
  rw [renderRecording, Rendering.bind_of_ok (Act.runAll_of_completes hbefore s),
    Rendering.bind_of_ok hranges, Rendering.bind_of_ok (Act.runAll_of_completes hafter _),
    Rendering.bind_of_ok (appendSourceMap_of_ok hline _), ← Session.after_append,
    ← Session.after_append, ← List.append_assoc]
  rfl

theorem renderRecording_of_completes {t : Template} {r : Recording} {s : Session} {comment : Text}
    (hacts : ∀ a ∈ t.recordingActs r, a.Completes)
    (hline : SourceMap.line (sourceMapNumbers (t.ranges r s.writer)) = .ok comment) :
    ∃ s', t.renderRecording r s =
      .ok ((s.writer.after (t.recordingActs r)).append comment).text s' :=
  ⟨_, renderRecording_eq hacts hline⟩

/-- The source map of a script finds, for every step in order, the lines that its hooks wrote: in
any writer whose lines are lines, at any depth, and for hooks that are any acts that complete. -/
theorem renderRecording_sourceMap (t : Template) (r : Recording) (s : Session)
    (hlines : s.writer.IsLineWise) (hacts : ∀ a ∈ t.recordingActs r, a.Completes)
    (hsize : (s.writer.after (t.recordingActs r)).size < 2 ^ 31) :
    ∃ script s' payload ranges,
      t.renderRecording r s = .ok script s' ∧
      script.lines = (s.writer.after (t.recordingActs r)).lines ++
        [s.writer.unit.repeated (s.writer.after (t.recordingActs r)).depth.toNat ++
          (SourceMap.marker ++ payload), []] ∧
      SourceMap.decode payload = .ok (1 :: ranges.flatMap fun range => [range.1, range.2]) ∧
      ranges.length = r.steps.length ∧
      SourceMap.Consecutive
        (s.writer.size + (s.writer.written (flowActs t.beforeAllSteps r)).length) ranges ∧
      List.Forall₂ (fun range block => range.2 = block.length ∧
          (script.lines.drop range.1).take range.2 = block) ranges (t.blocks r s.writer) := by
  let finish := s.writer.after (t.recordingActs r)
  let payload := (numbers (t.ranges r s.writer)).flatMap SourceMap.encodeNat
  have hline : SourceMap.line (sourceMapNumbers (t.ranges r s.writer)) =
      .ok (SourceMap.marker ++ payload) := by
    rw [sourceMapNumbers_eq_map]
    exact SourceMap.line_natCast (numbers_le_greatest hsize)
  obtain ⟨s', hrun⟩ := renderRecording_of_completes hacts hline
  have hscript : (finish.append (SourceMap.marker ++ payload)).text.lines = finish.lines ++
      [s.writer.unit.repeated finish.depth.toNat ++ (SourceMap.marker ++ payload), []] := by
    rw [((hlines.after _).append _).text_lines, Writer.append_lines,
      Text.lines_of_isLine (SourceMap.isLine_comment _), List.map_singleton,
      SourceMap.layout_comment, List.append_assoc]
    · rfl
    · simp [Text.lines]
  refine ⟨_, s', payload, t.ranges r s.writer, hrun, hscript,
    SourceMap.decode_flatMap_encodeNat _, t.length_ranges r s.writer, ?_, ?_⟩
  · rw [← Writer.size_after]
    exact SourceMap.consecutive_rangesFrom _ _
  · obtain ⟨epilogue, hfinish⟩ := t.exists_epilogue r s.writer
    rw [hscript, show finish.lines = _ from hfinish, List.append_assoc _ epilogue]
    exact SourceMap.rangesFrom_locate _ _ _

/-- A template whose blocks do not balance: every key is written less deep than the one before. -/
def unbalanced : Template where
  beforeAllSteps := some fun _ => [.startBlock, .code "begin"]
  stringifyStep := some fun step _ =>
    match step with
    | .keyDown _ key => [.endBlock, .line [.raw key], .endBlock]
    | _ => []

/-- A step that writes nothing and one that writes two lines, behind a line that was there. -/
theorem renderRecording_sourceMap_unbalanced :
    ∃ script s' ranges,
      unbalanced.renderRecording
          ⟨"keys", [.close ⟨none, none, none⟩, .keyDown ⟨none, none, none⟩ "a\nb"], none, none⟩
          ⟨⟨"  ", -1, ["header"]⟩, []⟩ = .ok script s' ∧
      SourceMap.Consecutive 2 ranges ∧
      List.Forall₂ (fun range block => range.2 = block.length ∧
          (script.lines.drop range.1).take range.2 = block) ranges [[], ["a", "b"]] := by
  have hunit : Text.IsLine "  " := by
    unfold Text.IsLine
    decide
  have hreached : Writer.Reached "  " ⟨"  ", -1, ["header"]⟩ := .endBlock (.append .empty "header")
  obtain ⟨script, s', -, ranges, hrun, -, -, -, hconsecutive, hblocks⟩ :=
    renderRecording_sourceMap unbalanced
      ⟨"keys", [.close ⟨none, none, none⟩, .keyDown ⟨none, none, none⟩ "a\nb"], none, none⟩
      ⟨⟨"  ", -1, ["header"]⟩, []⟩ (hreached.isLineWise hunit)
      (by simp [recordingActs, unbalanced, flowActs, stepActs, optionalActs, requiredActs,
        Act.Completes, Act.code, Piece.HasText, Piece.text, pure, Except.pure])
      (by decide)
  exact ⟨script, s', ranges, hrun, hconsecutive, hblocks⟩

end FlowScript.Template
