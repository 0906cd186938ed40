import FlowScript.Proofs.Playwright.Steps
import FlowScript.Proofs.Puppeteer.Steps

/-!
# Which recordings become scripts

All do in Playwright Test. A Puppeteer script hands the payload of a wait over to the browser, and
a double in it that is no number has no numeral: the first of those ends the rendering.
-/
namespace FlowScript

theorem Puppeteer.failure?_recordingActs {c : TemplateConfig}
    (h : ∀ x, c.defaultTimeout ≠ .nonFinite x) (r : Recording) :
    Act.failure? ((template c).recordingActs r) =
      (r.steps.flatMap Step.nonFinites).head?.map .nonFinite := by
  have hsteps : (r.steps.flatMap fun step => (template c).stepActs step (some r)).flatMap
      Act.failures = (r.steps.flatMap Step.nonFinites).map .nonFinite := by
    simp [List.flatMap_assoc, List.map_flatMap, failures_stepActs]
  have hall : ((template c).recordingActs r).flatMap Act.failures =
      (r.steps.flatMap Step.nonFinites).map .nonFinite := by
    simp only [Template.recordingActs, List.flatMap_append, hsteps]
    simp [Template.flowActs, template, failures_prologue r h, failures_epilogue]
  rw [Act.failure?, hall, List.head?_map]

theorem Playwright.failure?_recordingActs (c : TemplateConfig) (r : Recording) :
    Act.failure? ((template c).recordingActs r) = none := by
  have hsteps : (r.steps.flatMap fun step => (template c).stepActs step (some r)).flatMap
      Act.failures = [] := by
    simp only [List.flatMap_assoc, template_stepActs, failures_stepActs]
    simp
  have hall : ((template c).recordingActs r).flatMap Act.failures = [] := by
    simp only [Template.recordingActs, List.flatMap_append, hsteps]
    simp [Template.flowActs, template, failures_prologue, failures_epilogue]
  rw [Act.failure?, hall]
  rfl

/-- A recording of bounded size ends in a script, or in the failure that its acts come to first. -/
theorem Template.renderRecording_of_bounded {t : Template} {r : Recording} {s : Session}
    (hsize : Act.failure? (t.recordingActs r) = none →
      (s.writer.after (t.recordingActs r)).size < 2 ^ 31) :
    match Act.failure? (t.recordingActs r) with
    | none => ∃ script s', t.renderRecording r s = .ok script s'
    | some f => ∃ s', t.renderRecording r s = .error f s' := by
  split
  · next h => exact exists_renderRecording h (hsize h)
  · next f h => exact ⟨_, renderRecording_of_failure h s⟩

theorem Step.exists_nonFinites_iff {steps : List Step} :
    (∃ x, (steps.flatMap nonFinites).head? = some x) ↔
      ∃ e w, waitForElement e w ∈ steps ∧ w.properties.nonFinites ≠ [] := by
  simp only [← Option.ne_none_iff_exists', Ne, List.head?_eq_none_iff, List.flatMap_eq_nil_iff,
    not_forall]
  constructor
  · rintro ⟨step, hstep, hne⟩
    cases step with
    | waitForElement e w => exact ⟨e, w, hstep, hne⟩
    | _ => exact absurd rfl hne
  · rintro ⟨e, w, hstep, hne⟩
    exact ⟨_, hstep, hne⟩

/-- While scripts stay below two to the 31 lines, every recording renders for Playwright Test. For
Puppeteer a recording fails exactly if the properties that some step waits for hold a double that is
no number, and then with the first one. -/
theorem Framework.renderRecording_outcome (c : TemplateConfig) (r : Recording) (unit : Text)
    (hdefault : ∀ x, c.defaultTimeout ≠ .nonFinite x)
    (hsize : ∀ f : Framework, Act.failure? ((f.template c).recordingActs r) = none →
      ((Writer.empty unit).after ((f.template c).recordingActs r)).size < 2 ^ 31) :
    (∃ script s', (playwrightTest.template c).renderRecording r (.start unit) = .ok script s') ∧
    ((∃ f s', (puppeteer.template c).renderRecording r (.start unit) = .error f s') ↔
      ∃ e w, .waitForElement e w ∈ r.steps ∧ w.properties.nonFinites ≠ []) ∧
    ∀ x, (r.steps.flatMap Step.nonFinites).head? = some x →
      ∃ f s', (puppeteer.template c).renderRecording r (.start unit) = .error f s' ∧
        f.name = ("ValueError" : Text) ∧
        f.message = ("Cannot format non-finite number: " : Text) ++ Json.NonFinite.text x := by
  have hplaywright := Template.renderRecording_of_bounded (s := .start unit) (hsize playwrightTest)
  have hpuppeteer := Template.renderRecording_of_bounded (s := .start unit) (hsize puppeteer)
  rw [template, Playwright.failure?_recordingActs] at hplaywright
  rw [template, Puppeteer.failure?_recordingActs hdefault] at hpuppeteer
  refine ⟨hplaywright, ?_, ?_⟩
  · rw [← Step.exists_nonFinites_iff]
    cases hx : (r.steps.flatMap Step.nonFinites).head? with
    | none =>
      rw [hx] at hpuppeteer
      obtain ⟨script, s', hs'⟩ := hpuppeteer
      refine ⟨fun ⟨f, s'', herror⟩ => ?_, fun ⟨_, h⟩ => nomatch h⟩
      exact nomatch hs'.symm.trans herror
    | some x =>
      rw [hx] at hpuppeteer
      exact ⟨fun _ => ⟨x, rfl⟩, fun _ => ⟨_, hpuppeteer⟩⟩
  · intro x hx
    rw [hx] at hpuppeteer
    obtain ⟨s', hs'⟩ := hpuppeteer
    exact ⟨_, s', hs', rfl, rfl⟩

/-- A wait for an element with these properties, whatever else it asks for. -/
def waitForProperties (properties : Json) : Step :=
  .waitForElement ⟨⟨⟨none, none, none⟩, none⟩, ⟨.plain "#meter", []⟩⟩
    ⟨none, none, none, none, properties⟩

/-- The second wait is the first with a double that is no number, and has two of them. -/
theorem Framework.renderRecording_outcome_meters :
    let finite := waitForProperties (.obj [("value", .num 1)])
    let meter := waitForProperties (.obj [("range", .arr [.num 0, .nonFinite (.infinity true)]),
      ("value", .nonFinite .nan)])
    let r : Recording := ⟨"meters", [finite, meter], none, none⟩
    (∃ script s', (playwrightTest.template {}).renderRecording r (.start "  ") = .ok script s') ∧
    ∃ f s', (puppeteer.template {}).renderRecording r (.start "  ") = .error f s' ∧
      f.name = ("ValueError" : Text) ∧
      f.message = ("Cannot format non-finite number: -inf" : Text) := by
  intro finite meter r
  have hsize : ∀ f : Framework, Act.failure? ((f.template {}).recordingActs r) = none →
      ((Writer.empty "  ").after ((f.template {}).recordingActs r)).size < 2 ^ 31 := by
    intro f h
    cases f with
    | puppeteer =>
      rw [template, Puppeteer.failure?_recordingActs (by nofun)] at h
      exact nomatch h
    | playwrightTest => decide
  obtain ⟨hplaywright, -, hfirst⟩ := renderRecording_outcome {} r "  " (by nofun) hsize
  exact ⟨hplaywright, hfirst (.infinity true) rfl⟩

end FlowScript
