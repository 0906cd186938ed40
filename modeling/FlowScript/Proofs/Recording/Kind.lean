import FlowScript.Proofs.Json.Kind
import FlowScript.Proofs.Recording.Reading

/-!
# Kinds of numbers in recordings

What a value without kinds of numbers is read as is the recording that the value is read as, without
kinds. So values that differ in kinds only are read as recordings that do.
-/
namespace FlowScript

def PageScope.kindless (s : PageScope) : PageScope :=
  { s with timeout := s.timeout.map Number.kindless }

def FrameScope.kindless (s : FrameScope) : FrameScope :=
  { s with toPageScope := s.toPageScope.kindless }

def ElementScope.kindless (s : ElementScope) : ElementScope :=
  { s with toFrameScope := s.toFrameScope.kindless }

def Press.kindless (p : Press) : Press :=
  { p with
    offsetX := p.offsetX.kindless, offsetY := p.offsetY.kindless,
    duration := p.duration.map Number.kindless }

def Viewport.kindless (v : Viewport) : Viewport :=
  { v with
    width := v.width.kindless, height := v.height.kindless,
    deviceScaleFactor := v.deviceScaleFactor.kindless }

def ElementWait.kindless (w : ElementWait) : ElementWait :=
  { w with count := w.count.map Number.kindless, properties := w.properties.kindless }

/-- A step whose integral numbers are all integers. -/
def Step.kindless : Step → Step
  | change s value => change s.kindless value
  | click s press => click s.kindless press.kindless
  | close s => close s.kindless
  | customStep s name parameters => customStep s.kindless name parameters.kindless
  | doubleClick s press => doubleClick s.kindless press.kindless
  | emulateNetworkConditions s download upload latency =>
    emulateNetworkConditions s.kindless download.kindless upload.kindless latency.kindless
  | hover s => hover s.kindless
  | keyDown s key => keyDown s.kindless key
  | keyUp s key => keyUp s.kindless key
  | navigate s url => navigate s.kindless url
  | scroll s x y selectors =>
    scroll s.kindless (x.map Number.kindless) (y.map Number.kindless) selectors
  | setViewport s viewport => setViewport s.kindless viewport.kindless
  | waitForElement s wait => waitForElement s.kindless wait.kindless
  | waitForExpression s expression => waitForExpression s.kindless expression

/-- A recording whose integral numbers are all integers. -/
def Recording.kindless (r : Recording) : Recording :=
  { r with timeout := r.timeout.map Number.kindless, steps := r.steps.map Step.kindless }

namespace Fields
variable {f : Fields} {name : Text}

/-- A field that holds no number is left as it is. -/
theorem kindless_eq {o : Option Json} (h : f name = o)
    (ho : o.map Json.kindless = o) : f.kindless name = o := by
  rw [kindless, h, ho]

/-- A field that holds nothing of some form does not come to do so. -/
theorem kindless_ne {α : Type} {form : α → Json}
    (hform : ∀ v a, v.kindless = form a → ∃ b, v = form b) (h : ∀ a, f name ≠ some (form a))
    (a : α) : f.kindless name ≠ some (form a) := by
  intro ha
  obtain ⟨v, hv, hkind⟩ := Option.map_eq_some_iff.mp ha
  obtain ⟨b, rfl⟩ := hform v a hkind
  exact h b hv

theorem HoldsNumber.kindless {o : Option Number} (h : f.HoldsNumber name o) :
    f.kindless.HoldsNumber name (o.map Number.kindless) := by
  constructor
  · rw [Fields.kindless, h.1]
    cases o with
    | none => rfl
    | some n => exact congrArg some (Json.kindless_num n)
  · intro n hn
    obtain ⟨m, hm, rfl⟩ := Option.mem_map.mp hn
    exact (h.2 m hm).kindless

theorem Names.kindless {α : Type} {ofName? : Text → Option α} {o : Option α}
    (h : f.Names ofName? name o) : f.kindless.Names ofName? name o := by
  cases o with
  | none => exact h.imp (fun h => kindless_eq h rfl) (fun h => kindless_eq h rfl)
  | some a =>
    obtain ⟨t, ht, hne, ha⟩ := h
    exact ⟨t, kindless_eq ht rfl, hne, ha⟩

end Fields

section Parts
variable {f : Fields}

theorem Alternatives.kindless_toJson (a : Alternatives) : a.toJson.kindless = a.toJson := by
  have hselector (s : Selector) : s.toJson.kindless = s.toJson := by
    cases s <;> simp [Selector.toJson, Function.comp_def]
  simp [toJson, hselector, Function.comp_def]

theorem NavigationEvent.DescribedBy.kindless {e : NavigationEvent} {v : Json}
    (h : e.DescribedBy v) : e.DescribedBy v.kindless := by
  obtain ⟨ms, rfl, htype, hurl, htitle⟩ := h
  refine ⟨_, Json.kindless_obj ms, ?_⟩
  rw [Json.fields_kindless]
  have htext (o : Option Text) : (o.map .str).map Json.kindless = o.map .str := by
    simp [Function.comp_def]
  exact ⟨Fields.kindless_eq htype rfl, Fields.kindless_eq hurl (htext e.url),
    Fields.kindless_eq htitle (htext e.title)⟩

theorem PageScope.DescribedBy.kindless {s : PageScope} (h : s.DescribedBy f) :
    s.kindless.DescribedBy f.kindless := by
  refine ⟨?timeout, ?events, ?target⟩
  case timeout =>
    have htimeout := h.timeout
    rw [PageScope.kindless]
    cases hs : s.timeout with
    | none =>
      rw [hs] at htimeout
      exact Fields.kindless_ne (fun v n hv => by cases v <;> simp at hv ⊢) htimeout
    | some n =>
      rw [hs] at htimeout
      obtain ⟨hn, hjudged, hbounds⟩ := htimeout
      have hfield := Fields.HoldsNumber.kindless (Fields.holdsNumber_some.mpr ⟨hn, hjudged⟩)
      exact ⟨hfield.1, hjudged.kindless, n.isTimeout_kindless.trans hbounds⟩
  case events =>
    have hevents := h.events
    rw [PageScope.kindless]
    cases hs : s.assertedEvents with
    | none =>
      rw [hs] at hevents
      exact Fields.kindless_ne (fun v xs hv => by cases v <;> simp at hv ⊢) hevents
    | some es =>
      rw [hs] at hevents
      obtain ⟨xs, hxs, hes⟩ := hevents
      refine ⟨xs.map Json.kindless, ?_, ?_⟩
      · rw [Fields.kindless, hxs, Option.map_some, Json.kindless_arr]
      · exact List.forall₂_map_left_iff.mpr (hes.imp fun _ _ he => he.kindless)
  case target =>
    have htarget := h.target
    rw [PageScope.kindless]
    cases hs : s.target with
    | none =>
      rw [hs] at htarget
      exact Fields.kindless_ne (fun v t hv => by cases v <;> simp at hv ⊢) htarget
    | some t =>
      rw [hs] at htarget
      exact Fields.kindless_eq htarget rfl

theorem IsFrameIndex.kindless {v : Json} {i : Nat} (h : IsFrameIndex v i) :
    IsFrameIndex v.kindless i := by
  obtain ⟨n, rfl, hjudged, hnat⟩ := h
  exact ⟨n.kindless, Json.kindless_num n, hjudged.kindless, n.toNat?_kindless.trans hnat⟩

theorem FrameScope.DescribedBy.kindless {s : FrameScope} (h : s.DescribedBy f) :
    s.kindless.DescribedBy f.kindless := by
  refine ⟨h.page.kindless, ?_⟩
  have hframe := h.frame
  rw [FrameScope.kindless]
  cases hs : s.frame with
  | none =>
    rw [hs] at hframe
    exact Fields.kindless_eq hframe rfl
  | some is =>
    rw [hs] at hframe
    obtain ⟨xs, hxs, his⟩ := hframe
    refine ⟨xs.map Json.kindless, ?_, ?_⟩
    · rw [Fields.kindless, hxs, Option.map_some, Json.kindless_arr]
    · exact List.forall₂_map_left_iff.mpr (his.imp fun _ _ hi => hi.kindless)

theorem ElementScope.DescribedBy.kindless {s : ElementScope} (h : s.DescribedBy f) :
    s.kindless.DescribedBy f.kindless :=
  ⟨h.scope.kindless, Fields.kindless_eq h.selectors (by simp [Alternatives.kindless_toJson])⟩

theorem Press.DescribedBy.kindless {p : Press} (h : p.DescribedBy f) :
    p.kindless.DescribedBy f.kindless :=
  ⟨h.offsetX.kindless, h.offsetY.kindless, h.duration.kindless, h.deviceType.kindless,
    h.button.kindless⟩

theorem Viewport.DescribedBy.kindless {v : Viewport} (h : v.DescribedBy f) :
    v.kindless.DescribedBy f.kindless :=
  ⟨h.width.kindless, h.height.kindless, h.deviceScaleFactor.kindless,
    Fields.kindless_eq h.isMobile rfl, Fields.kindless_eq h.hasTouch rfl,
    Fields.kindless_eq h.isLandscape rfl⟩

theorem ElementWait.DescribedBy.kindless {w : ElementWait} (h : w.DescribedBy f) :
    w.kindless.DescribedBy f.kindless := by
  refine ⟨h.operator.kindless, h.count.kindless,
    Fields.kindless_eq h.visible (by simp [Function.comp_def]),
    Fields.kindless_eq h.attributes (by simp [textMembers, Function.comp_def]), ?properties,
    ?isProperties⟩
  case properties => rw [Fields.kindless, h.properties, ElementWait.kindless, Json.nonNull?_kindless]
  case isProperties =>
    have hproperties := h.isProperties
    rw [ElementWait.kindless]
    generalize w.properties = v at hproperties
    cases hproperties with
    | null => exact Json.kindless_null ▸ .null
    | obj ms => exact Json.kindless_obj ms ▸ .obj _
    | arr xs => exact Json.kindless_arr xs ▸ .arr _

end Parts

namespace Step

section Views
variable (s : Step)

@[simp] theorem type_kindless : s.kindless.type = s.type := by
  cases s <;> rfl

@[simp] theorem page_kindless : s.kindless.page = s.page.kindless := by
  cases s <;> rfl

@[simp] theorem frame?_kindless : s.kindless.frame? = s.frame? := by
  cases s <;> rfl

@[simp] theorem selectors?_kindless : s.kindless.selectors? = s.selectors? := by
  cases s <;> rfl

@[simp] theorem framePath_kindless : s.kindless.framePath = s.framePath := by
  rw [framePath, frame?_kindless, framePath]

@[simp] theorem target_kindless : s.kindless.target = s.target := by
  rw [target, page_kindless, target]
  rfl

@[simp] theorem timeout_kindless : s.kindless.timeout = s.timeout.map Number.kindless := by
  rw [timeout, page_kindless, timeout]
  rfl

@[simp] theorem assertedEvents_kindless : s.kindless.assertedEvents = s.assertedEvents := by
  rw [assertedEvents, page_kindless, assertedEvents]
  rfl

end Views

variable {f : Fields} {s : Step}

theorem DescribedBy.kindless (h : s.DescribedBy f) : s.kindless.DescribedBy f.kindless := by
  cases s with
  | change scope value => exact ⟨h.1.kindless, Fields.kindless_eq h.2 rfl⟩
  | click scope press | doubleClick scope press => exact ⟨h.1.kindless, h.2.kindless⟩
  | close scope => exact PageScope.DescribedBy.kindless h
  | customStep scope name parameters =>
    obtain ⟨hscope, hname, rfl⟩ := h
    refine ⟨hscope.kindless, Fields.kindless_eq hname rfl, ?_⟩
    rw [Fields.kindless]
    cases f "parameters" with
    | none => exact Json.kindless_null.symm
    | some v => rfl
  | emulateNetworkConditions scope download upload latency =>
    obtain ⟨hscope, hdownload, hupload, hlatency⟩ := h
    exact ⟨hscope.kindless, hdownload.kindless, hupload.kindless, hlatency.kindless⟩
  | hover scope => exact ElementScope.DescribedBy.kindless h
  | keyDown scope text | keyUp scope text | navigate scope text =>
    exact ⟨h.1.kindless, Fields.kindless_eq h.2 rfl⟩
  | scroll scope x y selectors =>
    obtain ⟨hscope, hx, hy, hselectors⟩ := h
    refine ⟨hscope.kindless, hx.kindless, hy.kindless, Fields.kindless_eq hselectors ?_⟩
    cases selectors with
    | none => rfl
    | some a => exact congrArg some a.kindless_toJson
  | setViewport scope viewport => exact ⟨h.1.kindless, h.2.kindless⟩
  | waitForElement scope wait => exact ⟨h.1.kindless, h.2.kindless⟩
  | waitForExpression scope expression => exact ⟨h.1.kindless, Fields.kindless_eq h.2 rfl⟩

theorem ofJson_kindless {index : Option Int} {v : Json} (h : ofJson index v = .ok s) :
    ofJson index v.kindless = .ok s.kindless := by
  obtain ⟨ms, rfl, htype, hdescribed⟩ := ofJson_eq_ok_iff.mp h
  refine ofJson_eq_ok_iff.mpr ⟨_, Json.kindless_obj ms, ?_⟩
  rw [Json.fields_kindless, type_kindless]
  exact ⟨Fields.kindless_eq htype rfl, hdescribed.kindless⟩

end Step

/-- A value without kinds is read as the recording without kinds. -/
theorem Recording.ofJson_kindless {v : Json} {r : Recording} (h : ofJson v = .ok r) :
    ofJson v.kindless = .ok r.kindless := by
  obtain ⟨ms, rfl, hdescribed⟩ := ofJson_eq_ok_iff.mp h
  refine ofJson_eq_ok_iff.mpr ⟨_, Json.kindless_obj ms, ?_⟩
  rw [Json.fields_kindless]
  refine ⟨Fields.kindless_eq hdescribed.title rfl, hdescribed.timeout.kindless, ?isTimeout, ?steps,
    ?selectorAttribute⟩
  case isTimeout =>
    intro n hn
    obtain ⟨m, hm, rfl⟩ := Option.mem_map.mp hn
    exact m.isTimeout_kindless.trans (hdescribed.isTimeout m hm)
  case steps =>
    obtain ⟨xs, hxs, hsteps⟩ := hdescribed.steps
    refine ⟨xs.map Json.kindless, ?_, ?_⟩
    · rw [Fields.kindless, hxs, Option.map_some, Json.kindless_arr]
    · rw [Recording.kindless, List.forall₂_map_left_iff, List.forall₂_map_right_iff]
      exact hsteps.imp fun _ _ hstep => Step.ofJson_kindless hstep
  case selectorAttribute =>
    rw [Recording.kindless, ← hdescribed.selectorAttribute, selectorAttributeOfFields,
      selectorAttributeOfFields, Fields.kindless]
    cases Json.fields ms "selectorAttribute" with
    | none => rfl
    | some v => cases v <;> simp

/-- A field whose integral numbers are all integers. -/
abbrev Json.kindlessField (field : Text × Option Json) : Text × Option Json :=
  (field.1, field.2.map Json.kindless)

section Objects
open Json

theorem NavigationEvent.kindless_toJson (e : NavigationEvent) : e.toJson.kindless = e.toJson := by
  simp [toJson, kindless_ofFields, Function.comp_def]

theorem PageScope.map_kindlessField_fields (s : PageScope) :
    s.fields.map kindlessField = s.kindless.fields := by
  simp [fields, targetField, timeoutField, eventsField, kindless, Function.comp_def,
    NavigationEvent.kindless_toJson]

theorem FrameScope.map_kindlessField_fields (s : FrameScope) :
    s.fields.map kindlessField = s.kindless.fields := by
  have hpage := s.toPageScope.map_kindlessField_fields
  simp only [PageScope.fields, List.map_cons, List.cons.injEq] at hpage
  simp [fields, kindless, hpage, Function.comp_def]

theorem ElementScope.kindlessField_selectorsField (s : ElementScope) :
    kindlessField s.selectorsField = s.kindless.selectorsField := by
  simp [selectorsField, kindless, Alternatives.kindless_toJson]

theorem Press.map_kindlessField_fields (p : Press) :
    p.fields.map kindlessField = p.kindless.fields := by
  simp [fields, kindless, Function.comp_def]

theorem Viewport.map_kindlessField_fields (v : Viewport) :
    v.fields.map kindlessField = v.kindless.fields := by
  simp [fields, kindless]

theorem ElementWait.map_kindlessField_fields (w : ElementWait) :
    w.fields.map kindlessField = w.kindless.fields := by
  simp [fields, kindless, Function.comp_def]

theorem Step.map_kindlessField_fields (s : Step) :
    s.fields.map kindlessField = s.kindless.fields := by
  have helement (e : ElementScope) : (e.toFrameScope).fields.map kindlessField =
      e.kindless.toFrameScope.fields := e.toFrameScope.map_kindlessField_fields
  cases s with
  | scroll scope x y selectors =>
    simp [Step.kindless, Step.fields, FrameScope.map_kindlessField_fields,
      Alternatives.kindless_toJson, Function.comp_def]
  | _ =>
    simp [Step.kindless, Step.fields, PageScope.map_kindlessField_fields,
      FrameScope.map_kindlessField_fields, helement, ElementScope.kindlessField_selectorsField,
      Press.map_kindlessField_fields, Viewport.map_kindlessField_fields,
      ElementWait.map_kindlessField_fields]

/-- The object of a step without kinds is that of the step, without kinds. -/
theorem Step.kindless_toJson (s : Step) : s.toJson.kindless = s.kindless.toJson := by
  rw [toJson, kindless_ofFields, toJson, List.map_cons, map_kindlessField_fields, type_kindless,
    Option.map_some, kindless_str]

end Objects

end FlowScript
