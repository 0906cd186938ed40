import FlowScript.Proofs.Export.EntryPoints

/-!
# Lines counted and lines there are

The writer counts the lines that are appended to it, and a source map is made of its counts. They are
the lines of the text as long as none of them holds a line feed. A unit of indentation that holds
one, which is blank and so is accepted, ends up in a line of every script, and then the counts fall
behind.
-/
namespace FlowScript

theorem Text.count_lineFeed_join {ls : List Text} (hne : ls ≠ []) :
    (join [CodePoint.lineFeed] ls ++ [CodePoint.lineFeed]).count CodePoint.lineFeed =
      ls.length + ls.flatten.count CodePoint.lineFeed := by
  induction ls with
  | nil => exact absurd rfl hne
  | cons l ls ih =>
    rw [join, List.flatten_cons, List.count_append, List.length_cons]
    by_cases hls : ls = []
    · simp [hls, Nat.add_comm]
    · have hrest := ih hls
      rw [join, List.count_append] at hrest
      rw [List.intercalate_cons_of_ne_nil hls, List.count_append, List.count_append,
        List.count_append, List.count_singleton_self]
      rw [List.count_singleton_self] at hrest
      omega

namespace Writer

/-- A writer counts the lines of its text exactly if it holds lines only. -/
theorem count_text_eq_size_iff {w : Writer} (hne : w.lines ≠ []) :
    w.text.count CodePoint.lineFeed = w.size ↔ ∀ l ∈ w.lines, l.IsLine := by
  have hzero : w.lines.flatten.count CodePoint.lineFeed = 0 ↔ ∀ l ∈ w.lines, l.IsLine := by
    simp [List.count_eq_zero, Text.IsLine]
  rw [text, Text.count_lineFeed_join hne, size, ← hzero]
  omega

theorem written_code (w : Writer) {s : String} (hline : Text.IsLine s)
    (hblank : (s : Text).trimRight ≠ []) (hdepth : 0 < w.depth) :
    ∃ line, w.written [.code s] = [line] ∧ ∀ c ∈ w.unit, c ∈ line := by
  obtain ⟨n, hn⟩ : ∃ n, w.depth.toNat = n + 1 := ⟨w.depth.toNat - 1, by omega⟩
  refine ⟨layout w.unit w.depth s, ?_, fun c hc => ?_⟩
  · simp [written, Act.written, Act.code, Act.linesAt, Piece.textAll, Piece.text, pure, Except.pure,
      bind, Except.bind, Text.lines_of_isLine hline]
  · rw [layout, if_neg (by simpa using hblank), hn, List.mem_append]
    refine .inl (List.mem_flatten.mpr ⟨w.unit, ?_, hc⟩)
    rw [List.replicate_succ]
    exact List.mem_cons_self

end Writer

namespace Template
open Act

variable {t alone : Template} {r : Recording} {depth : Nat} {unit script : Text} {s' : Session}

/-- Behind the steps, the first lines of the epilogue stand as deep as the steps do. -/
theorem IsModular.mem_lines (h : IsModular t alone r depth) (before : List Act) (s : String)
    {after : List Act} (hafter : flowActs t.afterAllSteps r = before ++ .code s :: after)
    (hline : Text.IsLine s) (hblank : (s : Text).trimRight ≠ [])
    (hdepth : 0 < depth + shiftAll before)
    (hrun : t.renderRecording r (.start unit) = .ok script s') :
    ∃ line ∈ s'.writer.lines, ∀ c ∈ unit, c ∈ line := by
  let first := (Writer.empty unit).after (flowActs t.beforeAllSteps r ++
    (r.steps.flatMap fun step => t.stepActs step (some r)) ++ before)
  have hfirst : 0 < first.depth := by
    have hsteps := (closed_flatMap h.closed r.steps).shiftAll_eq
    simp only [first, Writer.after, Writer.empty, shiftAll_append, h.prologue, hsteps]
    omega
  obtain ⟨line, hwritten, hunit⟩ := first.written_code hline hblank hfirst
  have hmem : line ∈ ((Writer.empty unit).after (t.recordingActs r)).lines := by
    rw [recordingActs, hafter, ← List.append_assoc, List.append_cons, Writer.after_append,
      Writer.after_append]
    simp only [Writer.after, List.mem_append]
    exact .inl (.inr (hwritten ▸ List.mem_singleton_self line))
  exact ⟨line, writer_lines_of_renderRecording hrun ▸ List.mem_append_left _ hmem, hunit⟩

end Template

namespace Framework

variable {f : Framework} {c : TemplateConfig} {r : Recording} {unit script : Text} {s' : Session}

/-- Every script has a line that is indented. -/
theorem exists_indented_line (h : (f.template c).renderRecording r (.start unit) = .ok script s') :
    ∃ line ∈ s'.writer.lines, ∀ c ∈ unit, c ∈ line := by
  have hmodular := f.isModular c r
  cases f with
  | puppeteer =>
    exact hmodular.mem_lines [.line []] "await browser.close();" rfl
      (by unfold Text.IsLine; decide) (by decide) (by decide) h
  | playwrightTest =>
    exact hmodular.mem_lines [.endBlock] "\x7d);" rfl
      (by unfold Text.IsLine; decide) (by decide) (by decide) h

/-- The lines of a script are those that were counted, unless the unit holds a line feed. -/
theorem count_script_eq_size_iff
    (h : (f.template c).renderRecording r (.start unit) = .ok script s') :
    script.count CodePoint.lineFeed = s'.writer.size ↔ unit.IsLine := by
  obtain ⟨hwriter, rfl⟩ := Template.writer_of_renderRecording h
  obtain ⟨line, hline, hmem⟩ := exists_indented_line h
  rw [Writer.count_text_eq_size_iff (List.ne_nil_of_mem hline)]
  constructor
  · intro hlines hunit
    exact hlines line hline (hmem _ hunit)
  · intro hunit
    rw [hwriter]
    exact (((Writer.isLineWise_empty hunit).after _).append _).lines

end Framework

namespace Export

/-- An exported script has as many lines as its writer counted exactly if the unit of indentation
holds no line feed. Then every pair of the source map delimits the lines of its step in the text. -/
theorem sourceMap_delimits {settings : Settings} {given : Option ExportConfig}
    {source : RecordingSource} (h : (recording settings given source).result.success = true) :
    let config := resolve settings given
    let unit := settings.unit config.indentation
    let result := (recording settings given source).result
    ∃ f r s' ranges, config.framework = .known f ∧ source.load = .ok r ∧
      (f.template (templateConfig settings config)).renderRecording r (.start unit) =
        .ok result.code s' ∧
      result.metadata = recordingFields r ++ [sourceMapField ranges] ∧
      (result.code.count CodePoint.lineFeed = s'.writer.size ↔ unit.IsLine) ∧
      (unit.IsLine → List.Forall₂ (fun range block => range.2 = block.length ∧
          (result.code.lines.drop range.1).take range.2 = block) ranges
        ((f.template (templateConfig settings config)).blocks r (.empty unit))) := by
  intro config unit result
  obtain ⟨f, r, code, s', hf, hload, hrun, hresult⟩ := exists_script_of_success settings h
  have hcode : result.code = code := congrArg ExportResult.code hresult
  have hmetadata : result.metadata = _ := congrArg ExportResult.metadata hresult
  rw [hcode]
  exact ⟨f, r, s', _, hf, hload, hrun, hmetadata, Framework.count_script_eq_size_iff hrun,
    fun hunit => Template.ranges_locate (Writer.isLineWise_empty hunit) hrun⟩

/-- A recording of one step, as a document. -/
def closing : Json := .obj [("title", .str "t"), ("steps", .arr [.obj [("type", .str "close")]])]

theorem sourceMap_delimits_tab :
    let result := (recording {} (some { indentation := some "\t" }) (.document closing)).result
    result.success = true ∧ ∃ r s' ranges,
      (RecordingSource.document closing).load = .ok r ∧
      (Framework.playwrightTest.template {}).renderRecording r (.start "\t") =
        .ok result.code s' ∧
      result.metadata = recordingFields r ++ [sourceMapField ranges] ∧
      result.code.count CodePoint.lineFeed = s'.writer.size ∧
      List.Forall₂ (fun range block => range.2 = block.length ∧
          (result.code.lines.drop range.1).take range.2 = block) ranges
        ((Framework.playwrightTest.template {}).blocks r (.empty "\t")) := by
  have hunit : Text.IsLine "\t" := by
    unfold Text.IsLine
    decide
  have hsuccess : (recording {} (some { indentation := some "\t" })
      (.document closing)).result.success = true := by decide +kernel
  obtain ⟨f, r, s', ranges, hf, hload, hrun, hmetadata, hcount, hblocks⟩ :=
    sourceMap_delimits hsuccess
  cases hf
  exact ⟨hsuccess, r, s', ranges, hload, hrun, hmetadata, hcount.mpr hunit, hblocks hunit⟩

/-- A line feed is blank, so it is accepted. The writer counts eight lines of the twelve there are,
and where the step should stand, the source map points at the line that opens the test. -/
theorem not_delimits_lineFeed :
    let config : ExportConfig := { indentation := some "\n" }
    let r : Recording := ⟨"t", [.close ⟨none, none, none⟩], none, none⟩
    config.validate = [] ∧ ∃ code s',
      (Framework.playwrightTest.template {}).renderRecording r (.start "\n") = .ok code s' ∧
      (recording {} (some config) (.document closing)).result =
        .ofScript .playwrightTest code (recordingFields r ++ [sourceMapField [(4, 1)]]) ∧
      s'.writer.size = 8 ∧ code.count CodePoint.lineFeed = 12 ∧
      (code.lines.drop 4).take 1 =
        ["test('tests t', async (\x7b page, context \x7d) => \x7b"] ∧
      (code.lines.drop 5).take 3 = ["", "", "await page.close();"] := by
  intro config r
  have hload : (RecordingSource.document closing).load = .ok r := by
    unfold closing
    cbv
  have hranges : (Framework.playwrightTest.template {}).ranges r (.empty "\n") = [(4, 1)] := by
    decide
  obtain ⟨code, s', hrun, hlines⟩ := Rendering.exists_ok_of_check
    (x := (Framework.playwrightTest.template {}).renderRecording r) (s := .start "\n")
    (p := fun code s' => decide (s'.writer.size = 8 ∧ code.count CodePoint.lineFeed = 12 ∧
      (code.lines.drop 4).take 1 =
        ["test('tests t', async (\x7b page, context \x7d) => \x7b"] ∧
      (code.lines.drop 5).take 3 = ["", "", "await page.close();"])) (by decide +kernel)
  have hscript : Framework.playwrightTest.script {} "\n" (.document closing) = .ok (r, code) :=
    Framework.script_eq_ok_iff.mpr ⟨hload, s', hrun⟩
  have hresult : (recording {} (some config) (.document closing)).result =
      scriptResult .playwrightTest r code := by
    rw [recording_of_valid (f := .playwrightTest) {} rfl rfl]
    exact result_run_of_script {} hscript
  rw [scriptResult_of_renderRecording hrun, hranges] at hresult
  exact ⟨rfl, code, s', hrun, hresult, of_decide_eq_true hlines⟩

end Export

end FlowScript
