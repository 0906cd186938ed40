import FlowScript.Proofs.Export.EntryPoints
import FlowScript.Proofs.Export.Skips

/-!
# What the log of an export says

An export logs that it has started, what its template has to tell, and how it ended. It is closed as
completed before the source map is read back from the script; as that never fails, the last event
and the result always agree.
-/
namespace FlowScript

/-- The name that the template of a framework logs under. -/
def Framework.templateName : Framework → Text
  | puppeteer => "puppeteer_template"
  | playwrightTest => "playwright_test_template"

namespace LogEvent

def IsOfTemplate (event : LogEvent) (f : Framework) : Prop :=
  event.field? "component" = some (.str f.templateName)

/-- An event of an export itself, with this message. -/
structure IsOfExport (event : LogEvent) (f : Framework) (severity : Severity) (message : Text) :
    Prop where
  severity : event.severity = severity
  message : event.message = message
  component : event.field? "component" = some (.str "export_engine")
  operation : event.field? "operation" = some (.str "export")
  framework : event.field? "framework" = some (.str f.name)

structure IsCompletion (event : LogEvent) (f : Framework) (r : Recording) : Prop extends
    event.IsOfExport f .info "export completed" where
  success : event.field? "success" = some (.bool true)
  title : event.field? "title" = some (.str r.title)
  stepsCount : event.field? "steps_count" = some (Json.int r.steps.length)

structure IsFailure (event : LogEvent) (f : Framework) (error : Text) : Prop extends
    event.IsOfExport f .error "export failed" where
  success : event.field? "success" = some (.bool false)
  error : event.field? "error" = some (.str error)

theorem IsCompletion.not_isFailure {event : LogEvent} {f : Framework} {r : Recording}
    {error : Text} (h : event.IsCompletion f r) : ¬ event.IsFailure f error := by
  intro hfailure
  have hmessage : ("export completed" : Text) = "export failed" :=
    h.message.symm.trans hfailure.message
  exact absurd hmessage (by decide)

end LogEvent

section Templates
open Act

namespace Puppeteer

theorem notices_elementActs (s : Step) (a : Alternatives) : notices (elementActs s a) = [] := rfl

theorem notices_clickActs (p : Press) (extra : List (List Piece)) :
    notices (clickActs p extra) = [] := by
  cases h : p.button <;> simp [clickActs, h]

theorem notices_contextActs (s : Step) : notices (contextActs s) = [] := by
  by_cases htarget : s.target = Step.mainTarget <;> by_cases hframe : s.inFrame = true <;>
    simp [contextActs, targetActs, htarget, hframe, Step.frameActs]

theorem notices_promiseActs (s : Step) : notices (promiseActs s) = [] := by
  rw [promiseActs]
  split
  · rfl
  · exact notices_map_line _ _

/-- A step gives a notice only if it is left out. -/
theorem notices_actionActs (s : Step) :
    ∀ n ∈ notices (actionActs s), ∃ name, n = .customStepOmitted name := by
  cases s with
  | customStep _ name _ => simp [actionActs]
  | click e p | doubleClick e p => simp [actionActs, notices_elementActs, notices_clickActs]
  | scroll _ _ _ selectors =>
    cases selectors <;> simp [actionActs, scrollActs, notices_elementActs]
  | _ => simp [actionActs, notices_elementActs, changeActs, networkActs]

theorem notices_stepActs (s : Step) : notices (stepActs s) = notices (actionActs s) := by
  have htimeout : notices (timeoutActs s) = [] := by
    cases h : s.timeout <;> simp [timeoutActs, h]
  have hawait : notices (awaitActs s) = [] := by
    rw [awaitActs]
    split <;> rfl
  simp [stepActs, htimeout, hawait, notices_contextActs, notices_promiseActs]

theorem notices_recordingActs (c : TemplateConfig) (r : Recording) :
    notices ((template c).recordingActs r) =
      r.steps.flatMap fun step => notices (actionActs step) := by
  have hprologue : notices (prologue c r) = [] := rfl
  have hlines : notices (Support.lines.map line) = [] := notices_map_line _ id
  have hepilogue : notices epilogue = [] := by simp [epilogue, hlines]
  have hsteps : (template c).stepNotices r = fun step => notices (actionActs step) :=
    funext fun step => by rw [Template.stepNotices, template_stepActs, notices_stepActs]
  rw [Template.notices_recordingActs, hsteps]
  change notices (prologue c r) ++ _ ++ notices epilogue = _
  rw [hprologue, hepilogue, List.nil_append, List.append_nil]

end Puppeteer

/-- A step is left out, or it has a statement that may ignore its button. -/
theorem Playwright.mem_stepNotices {c : TemplateConfig} {r : Recording} {step : Step} {n : Notice}
    (h : n ∈ (template c).stepNotices r step) :
    (∃ selector reason, n = .skipped step.type selector reason) ∨ ∃ b, n = .buttonIgnored b := by
  rw [Template.stepNotices, template_stepActs] at h
  cases hstatement : statement step (c.attributeFor (some r)) with
  | error reason =>
    rw [stepActs, hstatement] at h
    exact .inl ⟨_, reason, List.mem_singleton.mp h⟩
  | ok st =>
    rw [notices_stepActs hstatement] at h
    exact .inr (notices_statement hstatement n h)

namespace Framework

variable {f : Framework} {c : TemplateConfig} {r : Recording} {unit : Text} {s' : Session}

theorem isOfTemplate_of_mem {n : Notice} (h : n ∈ notices ((f.template c).recordingActs r)) :
    n.toEvent.IsOfTemplate f := by
  cases f with
  | puppeteer =>
    rw [template, Puppeteer.notices_recordingActs, List.mem_flatMap] at h
    obtain ⟨step, -, h⟩ := h
    obtain ⟨name, rfl⟩ := Puppeteer.notices_actionActs step n h
    rfl
  | playwrightTest =>
    rw [template, Playwright.notices_recordingActs, List.mem_flatMap] at h
    obtain ⟨step, -, h⟩ := h
    rcases Playwright.mem_stepNotices h with ⟨_, _, rfl⟩ | ⟨b, rfl⟩ <;> rfl

/-- Whether it ends in a script or not, a rendering logs events of its template only. -/
theorem isOfTemplate_of_noticeEvents
    (h : ∃ done, done <+: (f.template c).recordingActs r ∧ s'.notices = notices done) :
    ∀ event ∈ Export.noticeEvents s', event.IsOfTemplate f := by
  obtain ⟨done, hdone, hnotices⟩ := h
  rw [Export.noticeEvents, hnotices]
  refine List.forall_mem_map.mpr fun n hn => isOfTemplate_of_mem (c := c) (r := r) ?_
  exact (hdone.filterMap _).subset hn

end Framework

end Templates

theorem ExportConfig.exists_framework {config : ExportConfig} (h : config.validate = []) :
    ∃ f, config.framework = .known f := by
  rw [validate, List.append_eq_nil_iff, frameworkFaults] at h
  cases hf : config.framework with
  | known f => exact ⟨f, rfl⟩
  | unknown v =>
    rw [hf] at h
    exact nomatch h.1

namespace Export

variable {f : Framework}

theorem isCompletion_completed (f : Framework) (r : Recording) :
    ((operation f).completed (recordingFields r)).IsCompletion f r where
  severity := rfl
  message := rfl
  component := rfl
  operation := rfl
  framework := rfl
  success := rfl
  title := rfl
  stepsCount := rfl

theorem isFailure_failed (f : Framework) (error : Text) :
    ((operation f).failed [] error).IsFailure f error where
  severity := rfl
  message := rfl
  component := rfl
  operation := rfl
  framework := rfl
  success := rfl
  error := rfl

theorem isOfExport_started (f : Framework) :
    (operation f).started.IsOfExport f .info "export started" where
  severity := rfl
  message := rfl
  component := rfl
  operation := rfl
  framework := rfl

/-- The events of an export: that it has started, then what its template tells, and last how it
ended, which is how the result says it did. -/
structure IsLogged (f : Framework) (source : RecordingSource) (outcome : Outcome)
    (told : List LogEvent) (closing : LogEvent) : Prop where
  events : ∃ opening : LogEvent, opening.IsOfExport f .info "export started" ∧
    outcome.events = opening :: told ++ [closing]
  told : ∀ event ∈ told, event.IsOfTemplate f
  completed : outcome.result.success = true ↔
    ∃ r, source.load = .ok r ∧ closing.IsCompletion f r
  failed : outcome.result.success = false ↔
    ∃ error, outcome.result.error = some error ∧ closing.IsFailure f error

theorem isLogged_failed {source : RecordingSource} {told : List LogEvent}
    (htold : ∀ event ∈ told, event.IsOfTemplate f) (e : Failure) :
    IsLogged f source ⟨.ofFailure (some f) e,
      (operation f).started :: told ++ [(operation f).failed [] e.message]⟩ told
      ((operation f).failed [] e.message) where
  events := ⟨_, isOfExport_started f, rfl⟩
  told := htold
  completed := by
    constructor
    · intro h
      exact nomatch h
    · rintro ⟨r, -, h⟩
      exact absurd (isFailure_failed f e.message) h.not_isFailure
  failed := by
    constructor
    · intro _
      exact ⟨_, rfl, isFailure_failed f e.message⟩
    · intro _
      rfl

theorem isLogged_completed {source : RecordingSource} {told : List LogEvent} {r : Recording}
    (hload : source.load = .ok r) (htold : ∀ event ∈ told, event.IsOfTemplate f) (code : Text)
    (metadata : List (Text × Json)) :
    IsLogged f source ⟨.ofScript f code metadata,
      (operation f).started :: told ++ [(operation f).completed (recordingFields r)]⟩ told
      ((operation f).completed (recordingFields r)) where
  events := ⟨_, isOfExport_started f, rfl⟩
  told := htold
  completed := by
    constructor
    · intro _
      exact ⟨r, hload, isCompletion_completed f r⟩
    · intro _
      rfl
  failed := by
    constructor
    · intro h
      exact nomatch h
    · rintro ⟨_, h, -⟩
      exact nomatch h

/-- Every export to a framework is logged as it ends. -/
theorem isLogged_run (settings : Settings) (config : ExportConfig) (f : Framework)
    (source : RecordingSource) :
    ∃ told closing, IsLogged f source (run settings config f source) told closing := by
  rw [run]
  cases hload : source.load with
  | error e => exact ⟨[], _, isLogged_failed (fun _ h => absurd h List.not_mem_nil) e⟩
  | ok r =>
    dsimp only
    split
    · next e s' hrun =>
      exact ⟨_, _, isLogged_failed
        (Framework.isOfTemplate_of_noticeEvents (Template.notices_of_renderRecording_error hrun)) e⟩
    · next code s' hrun =>
      rw [scriptResult_of_renderRecording hrun]
      exact ⟨_, _, isLogged_completed hload (Framework.isOfTemplate_of_noticeEvents
        ⟨_, List.prefix_rfl, Template.notices_of_renderRecording hrun⟩) _ _⟩

/-- If the configuration resolves, the events of an export are closed by one that is true of the
result, whatever form the recording is handed over in. If not, there are no events. -/
theorem recording_logged (settings : Settings) (given : Option ExportConfig)
    (source : RecordingSource) :
    let config := resolve settings given
    let outcome := recording settings given source
    (config.validate = [] → ∃ f told closing, config.framework = .known f ∧
      IsLogged f source outcome told closing) ∧
    (config.validate ≠ [] → outcome.events = [] ∧ outcome.result.success = false) := by
  intro config outcome
  constructor
  · intro hvalid
    obtain ⟨f, hf⟩ := config.exists_framework hvalid
    obtain ⟨told, closing, hlogged⟩ := isLogged_run settings config f source
    rw [← recording_of_valid settings hvalid hf source] at hlogged
    exact ⟨f, told, closing, hf, hlogged⟩
  · intro hfaults
    have hrefused : outcome = refusal config.validate := by
      unfold outcome recording
      dsimp only
      split
      · next hvalid _ => exact absurd hvalid hfaults
      · rfl
    rw [hrefused]
    exact ⟨rfl, rfl⟩

/-- A text that breaks off is logged as failed. With an indentation that is not blank nothing is
logged at all. -/
theorem recording_logged_unreadable :
    let source := RecordingSource.text "\x7b\"title\": \"t"
    let outcome := recording {} (some {}) source
    let refused := recording {} (some { indentation := some "--" }) source
    (∃ told closing error, IsLogged .playwrightTest source outcome told closing ∧
      outcome.result.error = some error ∧ closing.IsFailure .playwrightTest error) ∧
    refused.events = [] ∧ refused.result.success = false := by
  intro source
  have hread : Json.ofText "\x7b\"title\": \"t" = .error ⟨.unterminatedString, 10, 1, 11⟩ := by cbv
  have hload : source.load = .error (.unreadable ⟨.unterminatedString, 10, 1, 11⟩) := by
    rw [RecordingSource.load, RecordingSource.readText, hread]
    rfl
  -- Nothing else of the text is needed, and it is not to be read again where types are compared.
  clear_value source
  intro outcome refused
  obtain ⟨f, told, closing, ⟨⟩, hlogged⟩ := (recording_logged {} (some {}) source).1 rfl
  have hfailed : outcome.result.success = false := by
    rw [Bool.eq_false_iff]
    intro hsuccess
    obtain ⟨r, hr, -⟩ := hlogged.completed.mp hsuccess
    cases hload.symm.trans hr
  obtain ⟨error, herror, hclosing⟩ := hlogged.failed.mp hfailed
  have hblank : Text.isIndentation "--" = false := by decide
  have hfaults : (resolve {} (some { indentation := some "--" })).validate ≠ [] := by
    simp [resolve, ExportConfig.validate, ExportConfig.indentationFaults, hblank]
  exact ⟨⟨told, closing, error, hlogged, herror, hclosing⟩,
    (recording_logged {} (some { indentation := some "--" }) source).2 hfaults⟩

end Export

end FlowScript
