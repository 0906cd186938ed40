import FlowScript.Proofs.Export.ClosedScripts

/-!
# Source maps that cannot be forged

A line that starts and ends in code is no source map, and every line of a script is one but for a
banner and the last. So a recording may hold what it likes, the comment itself or line feeds before
it: the comment at the end is the only one that is read.
-/
namespace FlowScript

namespace SourceMap

theorem first_le_of_mem_rangesFrom {first : Nat} {blocks : List (List Text)} {range : Nat × Nat}
    (h : range ∈ rangesFrom first blocks) : first ≤ range.1 := by
  induction blocks generalizing first with
  | nil => exact absurd h List.not_mem_nil
  | cons block blocks ih =>
    rcases List.mem_cons.mp h with rfl | h
    · exact Nat.le_refl first
    · have := ih h
      omega

end SourceMap

namespace Template

variable {t : Template} {r : Recording} {unit : Text} {banner : Banner} {due : List CodePoint}

/-- A script has no source map but its own. -/
theorem PartsAlike.filterMap_payload? (h : t.PartsAlike r r unit banner due) :
    (t.scriptLines r unit).filterMap SourceMap.payload? =
      [(numbers (t.ranges r (.empty unit))).flatMap SourceMap.encodeNat] := by
  obtain ⟨ls, _, hprologue, -, _, hopening, -⟩ := h.prologue
  obtain ⟨_, hblocks, -⟩ := Scan.AlikeLines.flatten (h.blocks due)
  obtain ⟨_, hepilogue, -⟩ := h.epilogue
  have hcomment := SourceMap.payload?_comment (numbers (t.ranges r (.empty unit)))
  rw [scriptLines, hprologue]
  simp only [List.filterMap_append, banner.unmarked, hopening.payload?_eq_none,
    hblocks.payload?_eq_none, hepilogue.payload?_eq_none, List.nil_append]
  rw [List.filterMap_cons_some hcomment, List.filterMap_nil]

theorem exists_of_mem_stepBlocks {steps : List Step} {w : Writer} {block : List Text}
    (h : block ∈ t.stepBlocks r w steps) :
    ∃ step ∈ steps, ∃ w : Writer, block = w.written (t.stepActs step (some r)) := by
  induction steps generalizing w with
  | nil => exact absurd h List.not_mem_nil
  | cons step steps ih =>
    rcases List.mem_cons.mp h with rfl | h
    · exact ⟨step, List.mem_cons_self, w, rfl⟩
    · obtain ⟨step', hstep', hblock⟩ := ih h
      exact ⟨step', List.mem_cons_of_mem step hstep', hblock⟩

end Template

/-- The brackets of a step and the declaration of its page. -/
theorem Puppeteer.three_le_countP_stepActs (s : Step) : 3 ≤ (stepActs s).countP Act.isLine := by
  have htarget : 1 ≤ (targetActs s.target).countP Act.isLine := by
    rw [targetActs]
    split
    · exact Nat.le_refl 1
    · exact Nat.le_of_ble_eq_true rfl
  have hopening : [Act.code "\x7b", .startBlock].countP Act.isLine = 1 := rfl
  have hclosing : [Act.endBlock, .code "\x7d"].countP Act.isLine = 1 := rfl
  simp only [stepActs, contextActs, List.countP_append]
  omega

namespace Framework

/-- The source map that is read from a script is the last line, which is not indented, and no other
line can be taken for one. It has a range for every step, one behind the other, all of them between
prologue and epilogue; a step of a Puppeteer script has three lines at least. -/
theorem extract_unforged (f : Framework) (c : TemplateConfig) (r : Recording) {unit script : Text}
    {s' : Session} (hdefault : c.defaultTimeout.IsAtomic) (hblank : unit.isBlank = true)
    (hunit : unit.IsLine) (h : (f.template c).renderRecording r (.start unit) = .ok script s') :
    ∃ body payload ranges,
      script.lines = (f.template c).prologueLines r unit ++ body ++
        (f.template c).epilogueLines r unit ++ [SourceMap.marker ++ payload, []] ∧
      script.lines.filterMap SourceMap.payload? = [payload] ∧
      SourceMap.extract script = .ok ranges ∧
      ranges.length = r.steps.length ∧
      SourceMap.Consecutive ((f.template c).prologueLines r unit).length ranges ∧
      (∀ range ∈ ranges, ((f.template c).prologueLines r unit).length ≤ range.1 ∧
        range.1 + range.2 ≤ ((f.template c).prologueLines r unit ++ body).length) ∧
      (f = puppeteer → ∀ range ∈ ranges, 3 ≤ range.2) := by
  have hbracketed := f.isBracketed hdefault r
  have hacts := Template.completes_of_renderRecording h
  have hparts := (Template.IsAlike.refl _ r).parts hbracketed hbracketed hblank hacts hacts
  have hlines := lines_script hunit h
  have hranges := (f.template c).ranges_eq r unit
  let body := ((f.template c).blocks r (.empty unit)).flatten
  let payload := (Template.numbers ((f.template c).ranges r (.empty unit))).flatMap
    SourceMap.encodeNat
  refine ⟨body, payload, _, ?lines, ?unique, extract_script h, Template.length_ranges _ r _,
    ?consecutive, ?between, ?counts⟩
  case lines =>
    rw [hlines, Template.scriptLines, List.append_assoc _ [_] [[]]]
    rfl
  case unique =>
    have hempty : SourceMap.payload? [] = none := by decide
    rw [hlines, List.filterMap_append, hparts.filterMap_payload?,
      List.filterMap_cons_none hempty]
    rfl
  case consecutive =>
    rw [hranges]
    exact SourceMap.consecutive_rangesFrom _ _
  case between =>
    intro range hrange
    rw [hranges] at hrange
    rw [List.length_append]
    exact ⟨SourceMap.first_le_of_mem_rangesFrom hrange, SourceMap.le_of_mem_rangesFrom hrange⟩
  case counts =>
    rintro rfl range hrange
    have hlocate := Template.ranges_locate (Writer.isLineWise_empty hunit) h
    obtain ⟨block, hblock, hlength, -⟩ := exists_of_forall₂ hlocate hrange
    obtain ⟨step, hstep, w, rfl⟩ := Template.exists_of_mem_stepBlocks hblock
    have hcompletes := (Template.completes_recordingActs hacts).2.1 step hstep
    have hcount : _ ≤ (w.written _).length :=
      Act.countP_le_length_written hcompletes w.depth w.size
    rw [hlength]
    refine Nat.le_trans ?_ hcount
    simpa [template, Template.stepActs, Template.optionalActs, Template.requiredActs,
      Puppeteer.template] using Puppeteer.three_le_countP_stepActs step

/-- The title, the address and the payload hold a source map between line feeds. -/
theorem extract_unforged_lineFeeds :
    let forged : Text := "\n//# recorderSourceMap=BAA\n"
    let r : Recording := ⟨forged, [.navigate ⟨none, none, none⟩ forged,
      waitForProperties (.obj [(forged, .str forged)])], none, none⟩
    ∀ f : Framework, ∃ script s' body payload ranges,
      (f.template {}).renderRecording r (.start "  ") = .ok script s' ∧
      script.lines = (f.template {}).prologueLines r "  " ++ body ++
        (f.template {}).epilogueLines r "  " ++ [SourceMap.marker ++ payload, []] ∧
      script.lines.filterMap SourceMap.payload? = [payload] ∧
      SourceMap.extract script = .ok ranges ∧ ranges.length = 2 ∧
      (f = puppeteer → ∀ range ∈ ranges, 3 ≤ range.2) := by
  intro forged r f
  have hunit : Text.IsLine "  " := by
    unfold Text.IsLine
    decide
  obtain ⟨script, s', hrun⟩ := f.exists_script (c := {}) r trivial (by nofun) hunit rfl
    (by cases f <;> decide +kernel)
  obtain ⟨body, payload, ranges, hlines, hunique, hextract, hlength, -, -, hcount⟩ :=
    f.extract_unforged {} r trivial (by decide) hunit hrun
  exact ⟨script, s', body, payload, ranges, hrun, hlines, hunique, hextract, hlength, hcount⟩

end Framework

end FlowScript
