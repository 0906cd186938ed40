import FlowScript.Proofs.Recording.Parts

/-!
# Which values are steps and recordings

A step is read from an object exactly when its type names the step's and its fields describe the
step; a recording likewise. What is read does not depend on the order in which fields are looked at,
nor on the place that a step has in its recording.
-/
namespace FlowScript

namespace StepType

theorem eq_name_of_ofName? {t : Text} {k : StepType} (h : ofName? t = some k) : t = k.name := by
  have hname := List.find?_some h
  exact (of_decide_eq_true hname).symm

end StepType

namespace Step

/-- What the fields of an object have to hold for a step of its type to be read from them. -/
def DescribedBy (f : Fields) : Step → Prop
  | change scope value => scope.DescribedBy f ∧ f "value" = some (.str value)
  | click scope press | doubleClick scope press => scope.DescribedBy f ∧ press.DescribedBy f
  | close scope => scope.DescribedBy f
  | customStep scope name parameters =>
    scope.DescribedBy f ∧ f "name" = some (.str name) ∧ (f "parameters").getD .null = parameters
  | emulateNetworkConditions scope download upload latency =>
    scope.DescribedBy f ∧ f.HoldsNumber "download" (some download) ∧
      f.HoldsNumber "upload" (some upload) ∧ f.HoldsNumber "latency" (some latency)
  | hover scope => scope.DescribedBy f
  | keyDown scope key | keyUp scope key => scope.DescribedBy f ∧ f "key" = some (.str key)
  | navigate scope url => scope.DescribedBy f ∧ f "url" = some (.str url)
  | scroll scope x y selectors =>
    scope.DescribedBy f ∧ f.HoldsNumber "x" x ∧ f.HoldsNumber "y" y ∧
      f "selectors" = selectors.map Alternatives.toJson
  | setViewport scope viewport => scope.DescribedBy f ∧ viewport.DescribedBy f
  | waitForElement scope wait => scope.DescribedBy f ∧ wait.DescribedBy f
  | waitForExpression scope expression =>
    scope.DescribedBy f ∧ f "expression" = some (.str expression)

variable {f : Fields} {s : Step}

theorem customStepOfFields_eq_ok_iff :
    customStepOfFields f = .ok s ↔ ∃ scope name, scope.DescribedBy f ∧
      f "name" = some (.str name) ∧ customStep scope name ((f "parameters").getD .null) = s := by
  unfold customStepOfFields
  split
  · next h => simp [throw_ne_ok, h]
  · next name h =>
    simp only [bind_eq_ok_iff, FrameScope.ofFields_eq_ok_iff, pure_eq_ok_iff]
    constructor
    · rintro ⟨scope, hscope, hs⟩
      exact ⟨scope, name, hscope, h, hs⟩
    · rintro ⟨scope, name', hscope, hname, hs⟩
      obtain rfl : name = name' := by simpa [h] using hname
      exact ⟨scope, hscope, hs⟩
  · next v hne h =>
    refine ⟨fun h => absurd h throw_ne_ok, ?_⟩
    rintro ⟨scope, name, -, hname, -⟩
    exact absurd (Option.some.inj (h.symm.trans hname)) (hne name)

theorem waitForExpressionOfFields_eq_ok_iff :
    waitForExpressionOfFields f = .ok s ↔ ∃ scope expression, scope.DescribedBy f ∧
      f "expression" = some (.str expression) ∧ waitForExpression scope expression = s := by
  unfold waitForExpressionOfFields
  cases h : f "expression" with
  | none => simp [throw_ne_ok, bind_eq_ok_iff]
  | some v =>
    simp only [Option.isNone_some, Bool.false_eq_true, if_false, bind_eq_ok_iff,
      FrameScope.ofFields_eq_ok_iff, Fields.text_eq_ok_iff, pure_eq_ok_iff, h]
    constructor
    · rintro ⟨scope, hscope, expression, hexpression, hs⟩
      exact ⟨scope, expression, hscope, hexpression, hs⟩
    · rintro ⟨scope, expression, hscope, hexpression, hs⟩
      exact ⟨scope, hscope, expression, hexpression, hs⟩

theorem waitForElementOfFields_eq_ok_iff :
    waitForElementOfFields f = .ok s ↔ ∃ scope wait, scope.DescribedBy f ∧
      wait.DescribedBy f ∧ waitForElement scope wait = s := by
  simp only [waitForElementOfFields, bind_eq_ok_iff, Fields.choice_eq_ok_iff,
    ElementWait.attributesOfFields_eq_ok_iff, ElementWait.propertiesOfFields_eq_ok_iff,
    ElementScope.ofFields_eq_ok_iff, Fields.optional_number_eq_ok_iff,
    Fields.optional_boolean_eq_ok_iff, pure_eq_ok_iff]
  constructor
  · rintro ⟨_, hoperator, _, hattributes, _, hproperties, scope, hscope, _, hcount, _, hvisible, hs⟩
    exact ⟨scope, _, hscope, ⟨hoperator, hcount, hvisible, hattributes, hproperties.1,
      hproperties.2⟩, hs⟩
  · rintro ⟨scope, wait, hscope, hwait, hs⟩
    exact ⟨_, hwait.operator, _, hwait.attributes, _, ⟨hwait.properties, hwait.isProperties⟩,
      scope, hscope, _, hwait.count, _, hwait.visible, hs⟩

/-- A step is read only from fields that describe it. -/
theorem describedBy_of_ofFields {type : StepType} (h : ofFields f type = .ok s) :
    s.type = type ∧ s.DescribedBy f := by
  cases type with
  | change =>
    simp only [ofFields, bind_eq_ok_iff, ElementScope.ofFields_eq_ok_iff, Fields.text_eq_ok_iff,
      pure_eq_ok_iff] at h
    obtain ⟨scope, hscope, value, hvalue, rfl⟩ := h
    exact ⟨rfl, hscope, hvalue⟩
  | click | doubleClick =>
    simp only [ofFields, bind_eq_ok_iff, ElementScope.ofFields_eq_ok_iff, Press.ofFields_eq_ok_iff,
      pure_eq_ok_iff] at h
    obtain ⟨scope, hscope, press, hpress, rfl⟩ := h
    exact ⟨rfl, hscope, hpress⟩
  | close =>
    simp only [ofFields, map_eq_ok_iff, PageScope.ofFields_eq_ok_iff] at h
    obtain ⟨scope, hscope, rfl⟩ := h
    exact ⟨rfl, hscope⟩
  | customStep =>
    obtain ⟨scope, name, hscope, hname, rfl⟩ := customStepOfFields_eq_ok_iff.mp h
    exact ⟨rfl, hscope, hname, rfl⟩
  | emulateNetworkConditions =>
    simp only [ofFields, bind_eq_ok_iff, PageScope.ofFields_eq_ok_iff, Fields.number_eq_ok_iff,
      pure_eq_ok_iff] at h
    obtain ⟨scope, hscope, download, hdownload, upload, hupload, latency, hlatency, rfl⟩ := h
    exact ⟨rfl, hscope, hdownload, hupload, hlatency⟩
  | hover =>
    simp only [ofFields, map_eq_ok_iff, ElementScope.ofFields_eq_ok_iff] at h
    obtain ⟨scope, hscope, rfl⟩ := h
    exact ⟨rfl, hscope⟩
  | keyDown | keyUp | navigate =>
    simp only [ofFields, bind_eq_ok_iff, PageScope.ofFields_eq_ok_iff, Fields.text_eq_ok_iff,
      pure_eq_ok_iff] at h
    obtain ⟨scope, hscope, text, htext, rfl⟩ := h
    exact ⟨rfl, hscope, htext⟩
  | scroll =>
    simp only [ofFields, bind_eq_ok_iff, FrameScope.ofFields_eq_ok_iff,
      Fields.optional_number_eq_ok_iff, Alternatives.optional_eq_ok_iff, pure_eq_ok_iff] at h
    obtain ⟨scope, hscope, x, hx, y, hy, selectors, hselectors, rfl⟩ := h
    exact ⟨rfl, hscope, hx, hy, hselectors⟩
  | setViewport =>
    simp only [ofFields, bind_eq_ok_iff, PageScope.ofFields_eq_ok_iff, Viewport.ofFields_eq_ok_iff,
      pure_eq_ok_iff] at h
    obtain ⟨scope, hscope, viewport, hviewport, rfl⟩ := h
    exact ⟨rfl, hscope, hviewport⟩
  | waitForElement =>
    obtain ⟨scope, wait, hscope, hwait, rfl⟩ := waitForElementOfFields_eq_ok_iff.mp h
    exact ⟨rfl, hscope, hwait⟩
  | waitForExpression =>
    obtain ⟨scope, expression, hscope, hexpression, rfl⟩ :=
      waitForExpressionOfFields_eq_ok_iff.mp h
    exact ⟨rfl, hscope, hexpression⟩

/-- Fields that describe a step are read as it. -/
theorem ofFields_of_describedBy (h : s.DescribedBy f) : ofFields f s.type = .ok s := by
  cases s with
  | change scope value =>
    simp only [type, ofFields, bind_eq_ok_iff, ElementScope.ofFields_eq_ok_iff,
      Fields.text_eq_ok_iff, pure_eq_ok_iff]
    exact ⟨scope, h.1, value, h.2, rfl⟩
  | click scope press | doubleClick scope press =>
    simp only [type, ofFields, bind_eq_ok_iff, ElementScope.ofFields_eq_ok_iff,
      Press.ofFields_eq_ok_iff, pure_eq_ok_iff]
    exact ⟨scope, h.1, press, h.2, rfl⟩
  | close scope =>
    simp only [type, ofFields, map_eq_ok_iff, PageScope.ofFields_eq_ok_iff]
    exact ⟨scope, h, rfl⟩
  | customStep scope name parameters =>
    obtain ⟨hscope, hname, rfl⟩ := h
    exact customStepOfFields_eq_ok_iff.mpr ⟨scope, name, hscope, hname, rfl⟩
  | emulateNetworkConditions scope download upload latency =>
    obtain ⟨hscope, hdownload, hupload, hlatency⟩ := h
    simp only [type, ofFields, bind_eq_ok_iff, PageScope.ofFields_eq_ok_iff,
      Fields.number_eq_ok_iff, pure_eq_ok_iff]
    exact ⟨scope, hscope, download, hdownload, upload, hupload, latency, hlatency, rfl⟩
  | hover scope =>
    simp only [type, ofFields, map_eq_ok_iff, ElementScope.ofFields_eq_ok_iff]
    exact ⟨scope, h, rfl⟩
  | keyDown scope text | keyUp scope text | navigate scope text =>
    simp only [type, ofFields, bind_eq_ok_iff, PageScope.ofFields_eq_ok_iff,
      Fields.text_eq_ok_iff, pure_eq_ok_iff]
    exact ⟨scope, h.1, text, h.2, rfl⟩
  | scroll scope x y selectors =>
    obtain ⟨hscope, hx, hy, hselectors⟩ := h
    simp only [type, ofFields, bind_eq_ok_iff, FrameScope.ofFields_eq_ok_iff,
      Fields.optional_number_eq_ok_iff, Alternatives.optional_eq_ok_iff, pure_eq_ok_iff]
    exact ⟨scope, hscope, x, hx, y, hy, selectors, hselectors, rfl⟩
  | setViewport scope viewport =>
    simp only [type, ofFields, bind_eq_ok_iff, PageScope.ofFields_eq_ok_iff,
      Viewport.ofFields_eq_ok_iff, pure_eq_ok_iff]
    exact ⟨scope, h.1, viewport, h.2, rfl⟩
  | waitForElement scope wait =>
    exact waitForElementOfFields_eq_ok_iff.mpr ⟨scope, wait, h.1, h.2, rfl⟩
  | waitForExpression scope expression =>
    exact waitForExpressionOfFields_eq_ok_iff.mpr ⟨scope, expression, h.1, h.2, rfl⟩

theorem ofJson_eq_ok_iff {index : Option Int} {v : Json} :
    ofJson index v = .ok s ↔ ∃ ms, v = .obj ms ∧
      Json.fields ms "type" = some (.str s.type.name) ∧ s.DescribedBy (Json.fields ms) := by
  cases v with
  | obj ms =>
    simp only [ofJson, Json.obj.injEq, exists_eq_left']
    split
    · next h => simp [h, throw_ne_ok]
    · next name h =>
      rw [h]
      constructor
      · intro hs
        split at hs
        · next type htype =>
          obtain ⟨rfl, hdescribed⟩ := describedBy_of_ofFields hs
          rw [StepType.eq_name_of_ofName? htype]
          exact ⟨rfl, hdescribed⟩
        · exact absurd hs throw_ne_ok
      · rintro ⟨hname, hdescribed⟩
        cases hname
        rw [StepType.ofName?_name]
        exact ofFields_of_describedBy hdescribed
    · next v hne h =>
      refine ⟨fun h => absurd h throw_ne_ok, fun ⟨htype, _⟩ => ?_⟩
      exact absurd (Option.some.inj (h.symm.trans htype)) (hne _)
  | _ => simp [ofJson, throw_ne_ok]

theorem listOfJson_eq_ok_iff {index : Nat} {xs : List Json} {ss : List Step} :
    listOfJson index xs = .ok ss ↔ List.Forall₂ (fun x s => ofJson none x = .ok s) xs ss := by
  induction xs generalizing index ss with
  | nil => rw [listOfJson, pure_eq_ok_iff, List.forall₂_nil_left_iff, eq_comm]
  | cons x xs ih =>
    simp only [listOfJson, bind_eq_ok_iff, pure_eq_ok_iff, List.forall₂_cons_left_iff, ih,
      ofJson_eq_ok_iff]
    constructor
    · rintro ⟨s, hs, ss, hss, rfl⟩
      exact ⟨s, ss, hs, hss, rfl⟩
    · rintro ⟨s, ss, hs, hss, rfl⟩
      exact ⟨s, hs, ss, hss, rfl⟩

end Step

namespace Recording

/-- What a recording is read from. -/
structure DescribedBy (r : Recording) (f : Fields) : Prop where
  title : f "title" = some (.str r.title)
  timeout : f.HoldsNumber "timeout" r.timeout
  isTimeout : ∀ n ∈ r.timeout, n.isTimeout
  steps : ∃ xs, f "steps" = some (.arr xs) ∧
    List.Forall₂ (fun x s => Step.ofJson none x = .ok s) xs r.steps
  selectorAttribute : selectorAttributeOfFields f = r.selectorAttribute

theorem timeoutOfFields_eq_ok_iff {f : Fields} {o : Option Number} :
    timeoutOfFields f = .ok o ↔ f.HoldsNumber "timeout" o := by
  rw [timeoutOfFields]
  cases h : f "timeout" with
  | none =>
    rw [pure_eq_ok_iff, Fields.HoldsNumber, h]
    cases o <;> simp
  | some v =>
    simp only [bind_eq_ok_iff]
    constructor
    · rintro ⟨n?, hn, ho⟩
      cases n? with
      | none => exact absurd ho throw_ne_ok
      | some n =>
        obtain rfl := pure_eq_ok_iff.mp ho
        obtain ⟨rfl, hjudged⟩ := Json.finite?_eq_some_iff.mp hn
        exact Fields.holdsNumber_some.mpr ⟨h, hjudged⟩
    · intro ho
      cases o with
      | none => exact absurd (h.symm.trans ho.1) (Option.some_ne_none v)
      | some n =>
        obtain ⟨hv, hjudged⟩ := Fields.holdsNumber_some.mp ho
        obtain rfl := Option.some.inj (h.symm.trans hv)
        exact ⟨some n, Json.finite?_eq_some_iff.mpr ⟨rfl, hjudged⟩, rfl⟩

theorem ofFields_eq_ok_iff {f : Fields} {r : Recording} :
    ofFields f = .ok r ↔ r.DescribedBy f := by
  constructor
  · intro h
    simp only [ofFields] at h
    split at h
    · exact nomatch h
    · next title htitle =>
      obtain ⟨_, ht, h⟩ := bind_eq_ok_iff.mp h
      obtain rfl := pure_eq_ok_iff.mp ht
      obtain ⟨timeout, htimeout, h⟩ := bind_eq_ok_iff.mp h
      split at h
      · exact nomatch h
      · next steps hsteps =>
        split at h
        · exact nomatch h
        · next hbounds =>
          split at h
          · next xs =>
            obtain ⟨ss, hss, h⟩ := bind_eq_ok_iff.mp h
            obtain rfl := pure_eq_ok_iff.mp h
            refine ⟨htitle, timeoutOfFields_eq_ok_iff.mp htimeout, ?_,
              ⟨xs, hsteps, Step.listOfJson_eq_ok_iff.mp hss⟩, rfl⟩
            simpa [Option.any_eq_true] using hbounds
          · exact nomatch h
    · exact nomatch h
  · intro h
    obtain ⟨xs, hsteps, hss⟩ := h.steps
    have hbounds : ¬ (r.timeout.any fun n => !n.isTimeout) = true := by
      simpa [Option.any_eq_true] using h.isTimeout
    simp only [ofFields, h.title, hsteps, bind_eq_ok_iff, pure_eq_ok_iff, h.selectorAttribute]
    refine ⟨r.title, rfl, r.timeout, timeoutOfFields_eq_ok_iff.mpr h.timeout, ?_⟩
    rw [if_neg hbounds]
    exact bind_eq_ok_iff.mpr ⟨r.steps, Step.listOfJson_eq_ok_iff.mpr hss, rfl⟩

theorem ofJson_eq_ok_iff {v : Json} {r : Recording} :
    ofJson v = .ok r ↔ ∃ ms, v = .obj ms ∧ r.DescribedBy (Json.fields ms) := by
  cases v with
  | obj ms => simp only [ofJson, Json.obj.injEq, exists_eq_left', ofFields_eq_ok_iff]
  | _ => simp [ofJson, throw_ne_ok]

end Recording

end FlowScript
