import FlowScript.Plugin
import FlowScript.Proofs.Export.ClosedScripts
import FlowScript.Proofs.Recording.Checks

/-!
# Plugins and exports agree

A plugin lets a failure out and an export reports it, but both come by the same script. So the one
has a script where the other has its code, and what the one raises the other reports. Reading the
source map back, which only an export does, never fails.
-/
namespace FlowScript

/-- A document is handed over as it is, as a text of it, or as the recording it describes. -/
inductive RecordingSource.Holds (v : Json) : RecordingSource → Prop
  | document : Holds v (.document v)
  | text {t : Text} (h : Json.ofText t = .ok v) : Holds v (.text t)
  | parsed {r : Recording} (h : Recording.ofJson v = .ok r) : Holds v (.parsed r)

theorem RecordingSource.Holds.isNothing_eq {v : Json} {source : RecordingSource}
    (h : source.Holds v) (hv : v.isFalsy = false) : Plugin.isNothing source = false := by
  cases h with
  | document => exact hv
  | @text t ht =>
    cases t with
    | nil => exact nomatch ht
    | cons c t => rfl
  | parsed _ => rfl

theorem mapError_eq_error_iff {ε ε' α : Type} {x : Except ε α} {g : ε → ε'} {e : ε'} :
    x.mapError g = .error e ↔ ∃ d, x = .error d ∧ g d = e := by
  cases x <;> simp [Except.mapError]

/-- A failure that says what went wrong. -/
def Failure.IsTold (e : Failure) : Prop := e.message? = some e.message

theorem RecordingSource.isTold_of_load {source : RecordingSource} {e : Failure}
    (h : source.load = .error e) : e.IsTold := by
  have hread (v : Json) (h : (Recording.ofJson v).mapError Failure.defective = .error e) :
      e.IsTold := by
    obtain ⟨d, -, rfl⟩ := mapError_eq_error_iff.mp h
    rfl
  have htext (t : Text) (h : readText t = .error e) : e.IsTold := by
    rcases bind_eq_error_iff.mp h with h | ⟨v, -, h⟩
    · obtain ⟨d, -, rfl⟩ := mapError_eq_error_iff.mp h
      rfl
    · exact hread v h
  cases source with
  | document v =>
    cases v with
    | str t => exact htext t h
    | null => exact hread .null h
    | bool b => exact hread (.bool b) h
    | num d => exact hread (.num d) h
    | nonFinite x => exact hread (.nonFinite x) h
    | arr vs => exact hread (.arr vs) h
    | obj ms => exact hread (.obj ms) h
  | text t => exact htext t h
  | parsed r => exact nomatch h

namespace Framework

variable {f : Framework} {c : TemplateConfig} {e : Failure} {s s' : Session}

/-- Only doubles that are no number make the acts of the shipped templates fail. -/
theorem isTold_of_renderRecording (hdefault : ∀ x, c.defaultTimeout ≠ .nonFinite x) {r : Recording}
    (h : (f.template c).renderRecording r s = .error e s') : e.IsTold := by
  rcases Template.renderRecording_error_cases h with ⟨h, -⟩ | ⟨e, rfl, -⟩
  · cases f with
    | puppeteer =>
      rw [template, Puppeteer.failure?_recordingActs hdefault, Option.map_eq_some_iff] at h
      obtain ⟨x, -, rfl⟩ := h
      rfl
    | playwrightTest =>
      rw [template, Playwright.failure?_recordingActs] at h
      cases h
  · rfl

theorem isTold_of_renderStep {step : Step} (h : (f.template c).renderStep step s = .error e s') :
    e.IsTold := by
  have hstep := Template.renderStep_error h
  cases f with
  | puppeteer =>
    rw [template, Puppeteer.template_stepActs, Act.failure?, Puppeteer.failures_stepActs,
      List.head?_map, Option.map_eq_some_iff] at hstep
    obtain ⟨x, -, rfl⟩ := hstep
    rfl
  | playwrightTest =>
    rw [template, Playwright.template_stepActs, Act.failure?, Playwright.failures_stepActs] at hstep
    cases hstep

end Framework

/-- A result reports an answer: its code is the script, or it names the failure with its message.
The answer is one of the two. -/
structure ExportResult.Reports {α : Type} (script : Text → α) (answer : Except Failure α)
    (result : ExportResult) : Prop where
  total : (∃ code, answer = .ok (script code)) ∨ ∃ e : Failure, answer = .error e ∧ e.IsTold
  code (code : Text) : answer = .ok (script code) ↔ result.success = true ∧ result.code = code
  failure (name message : Text) :
    (∃ e : Failure, answer = .error e ∧ e.name = name ∧ e.message? = some message) ↔
      result.success = false ∧ result.code = [] ∧ result.error = some message ∧
        result.errorType = some name

namespace ExportResult

variable {α : Type} {script : Text → α}

theorem reports_ofScript (hscript : Function.Injective script) (f : Framework) (code : Text)
    (metadata : List (Text × Json)) :
    (ofScript f code metadata).Reports script (.ok (script code)) where
  total := .inl ⟨code, rfl⟩
  code other := by
    constructor
    · intro h
      exact ⟨rfl, hscript (Except.ok.inj h)⟩
    · rintro ⟨-, rfl⟩
      rfl
  failure name message := by
    constructor
    · rintro ⟨_, h, -⟩
      exact nomatch h
    · rintro ⟨h, -⟩
      exact nomatch h

theorem reports_ofFailure {e : Failure} (he : e.IsTold) (framework : Option Framework) :
    (ofFailure framework e).Reports script (.error e) where
  total := .inr ⟨e, rfl, he⟩
  code code := by
    constructor
    · intro h
      exact nomatch h
    · rintro ⟨h, -⟩
      exact nomatch h
  failure name message := by
    constructor
    · rintro ⟨_, ⟨⟩, rfl, hmessage⟩
      exact ⟨rfl, rfl, he.symm.trans hmessage, rfl⟩
    · rintro ⟨-, -, hmessage, hname⟩
      exact ⟨e, rfl, Option.some.inj hname, he.trans hmessage⟩

end ExportResult

/-- What a run comes to, without the session it leaves behind. -/
def Rendering.answer {α : Type} : EStateM.Result Failure Session α → Except Failure α
  | .ok a _ => .ok a
  | .error e _ => .error e

theorem Rendering.answer_eq_ok_iff {α : Type} {x : EStateM.Result Failure Session α} {a : α} :
    answer x = .ok a ↔ ∃ s, x = .ok a s := by
  cases x <;> simp [answer]

theorem Rendering.answer_eq_error_iff {α : Type} {x : EStateM.Result Failure Session α}
    {e : Failure} : answer x = .error e ↔ ∃ s, x = .error e s := by
  cases x <;> simp [answer]

namespace Framework

variable (f : Framework) (c : TemplateConfig) (unit : Text)

/-- The recording of a source with its script, as both plugins and exports come by it. -/
def script (source : RecordingSource) : Except Failure (Recording × Text) := do
  let r ← source.load
  let code ← Rendering.answer ((f.template c).renderRecording r (.start unit))
  pure (r, code)

/-- The step of a document with its code. -/
def stepScript (v : Json) : Except Failure (Step × Text) := do
  let step ← (Step.ofJson none v).mapError Failure.defective
  let code ← Rendering.answer ((f.template c).renderStep step (.start unit))
  pure (step, code)

variable {f c unit} {e : Failure}

theorem script_eq_ok_iff {source : RecordingSource} {r : Recording} {code : Text} :
    f.script c unit source = .ok (r, code) ↔ source.load = .ok r ∧
      ∃ s, (f.template c).renderRecording r (.start unit) = .ok code s := by
  simp only [script, bind_eq_ok_iff, Rendering.answer_eq_ok_iff, pure_eq_ok_iff, Prod.mk.injEq]
  constructor
  · rintro ⟨_, hload, _, hrun, rfl, rfl⟩
    exact ⟨hload, hrun⟩
  · rintro ⟨hload, hrun⟩
    exact ⟨r, hload, code, hrun, rfl, rfl⟩

theorem isTold_of_script (hdefault : ∀ x, c.defaultTimeout ≠ .nonFinite x)
    {source : RecordingSource} (h : f.script c unit source = .error e) : e.IsTold := by
  simp only [script, bind_eq_error_iff, Rendering.answer_eq_error_iff, pure_ne_error, and_false,
    exists_false, or_false] at h
  rcases h with h | ⟨r, -, s, h⟩
  · exact RecordingSource.isTold_of_load h
  · exact isTold_of_renderRecording hdefault h

theorem isTold_of_stepScript {v : Json} (h : f.stepScript c unit v = .error e) : e.IsTold := by
  simp only [stepScript, bind_eq_error_iff, Rendering.answer_eq_error_iff, pure_ne_error, and_false,
    exists_false, or_false, mapError_eq_error_iff] at h
  rcases h with ⟨d, -, rfl⟩ | ⟨step, -, s, h⟩
  · rfl
  · exact isTold_of_renderStep h

end Framework

namespace Plugin

/-- The configuration of an export that asks for what a plugin writes. -/
def config (p : Plugin) : ExportConfig :=
  { framework := .known p.framework, indentation := p.indentation }

variable (p : Plugin) (settings : Settings)

theorem answer_stringify {source : RecordingSource} (hsome : isNothing source = false) :
    (p.stringify settings source).answer =
      (p.framework.script {} (settings.unit p.indentation) source).map fun script =>
        some script.2 := by
  rw [stringify, hsome, Framework.script]
  cases source.load with
  | error e => rfl
  | ok r =>
    simp only [Bool.false_eq_true, if_false, template, bind, Except.bind]
    cases (p.framework.template {}).renderRecording r (.start (settings.unit p.indentation)) <;> rfl

theorem answer_stringifyStep (ms : List (Text × Json)) :
    (p.stringifyStep settings (.document (.obj ms))).answer =
      (p.framework.stepScript {} (settings.unit p.indentation) (.obj ms)).map Prod.snd := by
  rw [stringifyStep, Framework.stepScript, StepSource.load]
  cases (Step.ofJson none (.obj ms)).mapError Failure.defective with
  | error e => rfl
  | ok step =>
    simp only [template, bind, Except.bind]
    cases (p.framework.template {}).renderStep step (.start (settings.unit p.indentation)) <;> rfl

end Plugin

namespace Export

variable {config : ExportConfig} {f : Framework} (settings : Settings)

/-- A valid configuration for a framework there is. -/
theorem recording_of_valid (hvalid : config.validate = []) (hf : config.framework = .known f)
    (source : RecordingSource) :
    recording settings (some config) source = run settings config f source := by
  simp only [recording, resolve, Option.getD_some, hvalid, hf]

theorem step_of_valid (hvalid : config.validate = []) (hf : config.framework = .known f)
    (v : Json) : step settings (some config) v = runStep settings config f v := by
  simp only [step, resolve, Option.getD_some, hvalid, hf]

theorem result_run (source : RecordingSource) :
    (run settings config f source).result =
      match f.script (templateConfig settings config) (settings.unit config.indentation) source with
      | .ok (r, code) => scriptResult f r code
      | .error e => .ofFailure (some f) e := by
  rw [run, Framework.script]
  cases source.load with
  | error e => rfl
  | ok r =>
    simp only [bind, Except.bind]
    cases (f.template (templateConfig settings config)).renderRecording r
      (.start (settings.unit config.indentation)) <;> rfl

theorem result_run_of_script {source : RecordingSource} {r : Recording} {code : Text}
    (h : f.script (templateConfig settings config) (settings.unit config.indentation) source =
      .ok (r, code)) : (run settings config f source).result = scriptResult f r code := by
  rw [result_run, h]

theorem result_runStep (v : Json) :
    (runStep settings config f v).result =
      match f.stepScript (templateConfig settings config) (settings.unit config.indentation) v with
      | .ok (s, code) => .ofScript f code [("step_type", .str s.type.name)]
      | .error e => .ofFailure (some f) e := by
  rw [runStep, Framework.stepScript]
  cases Step.ofJson none v with
  | error d => rfl
  | ok s =>
    simp only [bind, Except.bind, Except.mapError]
    cases (f.template (templateConfig settings config)).renderStep s
      (.start (settings.unit config.indentation)) <;> rfl

/-- The source map of a finished script is read back, a range for every step. -/
theorem scriptResult_of_renderRecording {c : TemplateConfig} {r : Recording} {unit code : Text}
    {s' : Session} (h : (f.template c).renderRecording r (.start unit) = .ok code s') :
    scriptResult f r code = .ofScript f code
      (recordingFields r ++ [sourceMapField ((f.template c).ranges r (.empty unit))]) := by
  rw [scriptResult, Framework.extract_script h]

/-- An export succeeds with the script of a recording only. -/
theorem exists_script_of_success {given : Option ExportConfig} {source : RecordingSource}
    (h : (recording settings given source).result.success = true) :
    ∃ f r code s', (resolve settings given).framework = .known f ∧ source.load = .ok r ∧
      (f.template (templateConfig settings (resolve settings given))).renderRecording r
        (.start (settings.unit (resolve settings given).indentation)) = .ok code s' ∧
      (recording settings given source).result = .ofScript f code (recordingFields r ++
        [sourceMapField ((f.template (templateConfig settings (resolve settings given))).ranges r
          (.empty (settings.unit (resolve settings given).indentation)))]) := by
  rw [recording] at h ⊢
  split at h
  · next f _ hf =>
    simp only [hf, result_run] at h ⊢
    cases hscript : f.script (templateConfig settings (resolve settings given))
        (settings.unit (resolve settings given).indentation) source with
    | error e =>
      rw [hscript] at h
      exact nomatch h
    | ok script =>
      obtain ⟨hload, s', hrun⟩ := Framework.script_eq_ok_iff.mp hscript
      exact ⟨f, script.1, script.2, s', rfl, hload, hrun, scriptResult_of_renderRecording hrun⟩
  · exact nomatch h

end Export

namespace Plugin

variable {p : Plugin} {settings : Settings}

theorem templateConfig_config (h : settings.timeout = ({} : Settings).timeout) :
    Export.templateConfig settings p.config = {} := by
  rw [Export.templateConfig, h]
  rfl

theorem result_recording (hvalid : p.config.validate = [])
    (htimeout : settings.timeout = ({} : Settings).timeout) (source : RecordingSource) :
    (Export.recording settings (some p.config) source).result =
      match p.framework.script {} (settings.unit p.indentation) source with
      | .ok (r, code) => Export.scriptResult p.framework r code
      | .error e => .ofFailure (some p.framework) e := by
  rw [Export.recording_of_valid settings hvalid rfl source, Export.result_run,
    templateConfig_config htimeout]
  rfl

theorem result_step (hvalid : p.config.validate = [])
    (htimeout : settings.timeout = ({} : Settings).timeout) (v : Json) :
    (Export.step settings (some p.config) v).result =
      match p.framework.stepScript {} (settings.unit p.indentation) v with
      | .ok (s, code) => .ofScript p.framework code [("step_type", .str s.type.name)]
      | .error e => .ofFailure (some p.framework) e := by
  rw [Export.step_of_valid settings hvalid rfl v, Export.result_runStep,
    templateConfig_config htimeout]
  rfl

/-- A plugin and an export for the same framework, with the same unit and the timeout that neither
was told, agree on every recording, in whatever form it is handed over, and on every step. -/
theorem reports_export (p : Plugin) (settings : Settings) (hvalid : p.config.validate = [])
    (htimeout : settings.timeout = ({} : Settings).timeout) :
    (∀ (v : Json) (source : RecordingSource), v.isFalsy = false → source.Holds v →
      let result := (Export.recording settings (some p.config) source).result
      result.Reports some (p.stringify settings source).answer ∧
      (result.success = true → ∃ r ranges, source.load = .ok r ∧
        ranges.length = r.steps.length ∧
        result.metadata = Export.recordingFields r ++ [Export.sourceMapField ranges])) ∧
    ∀ ms, (Export.step settings (some p.config) (.obj ms)).result.Reports id
      (p.stringifyStep settings (.document (.obj ms))).answer := by
  constructor
  · intro v source hv hsource
    simp only [result_recording hvalid htimeout,
      answer_stringify p settings (hsource.isNothing_eq hv)]
    cases h : p.framework.script {} (settings.unit p.indentation) source with
    | error e =>
      have htold := Framework.isTold_of_script (by nofun) h
      exact ⟨ExportResult.reports_ofFailure htold _, fun h => nomatch h⟩
    | ok script =>
      obtain ⟨hload, s', hrun⟩ := Framework.script_eq_ok_iff.mp h
      simp only [Export.scriptResult_of_renderRecording hrun]
      exact ⟨ExportResult.reports_ofScript (Option.some_injective _) _ _ _,
        fun _ => ⟨script.1, _, hload, Template.length_ranges _ _ _, rfl⟩⟩
  · intro ms
    rw [result_step hvalid htimeout, answer_stringifyStep]
    cases h : p.framework.stepScript {} (settings.unit p.indentation) (.obj ms) with
    | error e => exact ExportResult.reports_ofFailure (Framework.isTold_of_stepScript h) _
    | ok script => exact ExportResult.reports_ofScript Function.injective_id _ _ _

/-- A recording of one step with an indentation of tabs, as a text and as a document. -/
theorem reports_export_close :
    let p : Plugin := ⟨.puppeteer, some "\t"⟩
    let text : Text := "\x7b\"title\": \"t\", \"steps\": [\x7b\"type\": \"close\"\x7d]\x7d"
    let v : Json := .obj [("title", .str "t"), ("steps", .arr [.obj [("type", .str "close")]])]
    Json.ofText text = .ok v ∧
    ∀ source ∈ [RecordingSource.text text, .document v],
      (Export.recording {} (some p.config) source).result.Reports some
        (p.stringify {} source).answer := by
  intro p text v
  have htext : Json.ofText text = .ok v := by
    unfold text v
    cbv
  refine ⟨htext, fun source hsource => ?_⟩
  have hholds : source.Holds v := by
    rcases List.mem_pair.mp hsource with rfl | rfl
    · exact .text htext
    · exact .document
  exact ((reports_export p {} rfl rfl).1 v source rfl hholds).1

end Plugin

end FlowScript
