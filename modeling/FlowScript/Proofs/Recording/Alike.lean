import FlowScript.Proofs.Recording.RoundTrip
import FlowScript.Proofs.Recording.Timeout

/-!
# What reading does not look at

Values that agree under the keys that are read are alike, whatever else they hold, in whatever order
and with whatever nulls. Reading cannot tell them apart: it gives the same, or the same is wrong.
-/
namespace FlowScript

/-- Values that are the same, or lists of elements that are alike one by one. -/
inductive Json.AlikeLists (alike : Json → Json → Prop) : Json → Json → Prop
  | refl (v : Json) : AlikeLists alike v v
  | items {xs ys : List Json} (h : List.Forall₂ alike xs ys) : AlikeLists alike (.arr xs) (.arr ys)

/-- Objects are alike as events if they agree in what an event says. -/
inductive NavigationEvent.Alike : Json → Json → Prop
  | refl (v : Json) : Alike v v
  | objects {ms ns : List (Text × Json)}
      (h : ∀ key ∈ (["type", "url", "title"] : List Text),
        Json.fields ms key = Json.fields ns key) :
      Alike (.obj ms) (.obj ns)

/-- Fields that hold alike events and under these keys the same. -/
structure Fields.Alike (keys : List Text) (f g : Fields) : Prop where
  events : Option.Rel (Json.AlikeLists NavigationEvent.Alike) (f "assertedEvents")
    (g "assertedEvents")
  others : ∀ key ∈ keys, key ≠ "assertedEvents" → f key = g key

/-- Objects are alike as steps if they name the same type and are alike under the keys of it; one
that is unknown has none. -/
inductive Step.Alike : Json → Json → Prop
  | refl (v : Json) : Alike v v
  | objects {ms ns : List (Text × Json)} {name : Text}
      (hms : Json.fields ms "type" = some (.str name))
      (hns : Json.fields ns "type" = some (.str name))
      (h : ∀ type, StepType.ofName? name = some type →
        Fields.Alike type.keys (Json.fields ms) (Json.fields ns)) : Alike (.obj ms) (.obj ns)

/-- Objects are alike as recordings if they agree under the keys of one, but for steps that are
alike. -/
inductive Recording.Alike : Json → Json → Prop
  | refl (v : Json) : Alike v v
  | objects {ms ns : List (Text × Json)}
      (h : ∀ key ∈ (["title", "timeout", "selectorAttribute"] : List Text),
        Json.fields ms key = Json.fields ns key)
      (hsteps : Option.Rel (Json.AlikeLists Step.Alike) (Json.fields ms "steps")
        (Json.fields ns "steps")) : Alike (.obj ms) (.obj ns)

namespace Fields
variable {f g : Fields} {keys keys' : List Text}

theorem Alike.mono (h : Alike keys f g) (hkeys : keys' ⊆ keys) : Alike keys' f g :=
  ⟨h.events, fun key hkey => h.others key (hkeys hkey)⟩

theorem Alike.eq (h : Alike keys f g) (key : Text)
    (hkey : key ∈ keys ∧ key ≠ "assertedEvents") : f key = g key :=
  h.others key hkey.1 hkey.2

end Fields

theorem NavigationEvent.ofJson_congr {v w : Json} (h : Alike v w) : ofJson v = ofJson w := by
  cases h with
  | refl => rfl
  | @objects ms ns h =>
    simp only [List.forall_mem_cons] at h
    obtain ⟨htype, hurl, htitle, -⟩ := h
    simp only [ofJson, htype, Fields.optional_text_congr hurl, Fields.optional_text_congr htitle]

section Scopes
open Fields
variable {f g : Fields}

theorem PageScope.eventsOfFields_congr
    (h : Option.Rel (Json.AlikeLists NavigationEvent.Alike) (f "assertedEvents")
      (g "assertedEvents")) : eventsOfFields f = eventsOfFields g := by
  rw [eventsOfFields, eventsOfFields]
  generalize f "assertedEvents" = o at h
  generalize g "assertedEvents" = o' at h
  cases h with
  | none => rfl
  | some h =>
    cases h with
    | refl => rfl
    | items h =>
      have hread := mapM_congr (fun _ _ h => NavigationEvent.ofJson_congr h) h
      dsimp only
      rw [hread]

theorem PageScope.ofFields_congr (h : Alike StepType.close.keys f g) :
    ofFields f = ofFields g := by
  have htimeout : timeoutOfFields f = timeoutOfFields g := by
    rw [timeoutOfFields, h.eq "timeout" (by decide), timeoutOfFields]
  have htarget : targetOfFields f = targetOfFields g := by
    rw [targetOfFields, h.eq "target" (by decide), targetOfFields]
  rw [ofFields, htimeout, eventsOfFields_congr h.events, htarget, ofFields]

theorem FrameScope.ofFields_congr (h : Alike ("frame" :: StepType.close.keys) f g) :
    ofFields f = ofFields g := by
  have hpage := PageScope.ofFields_congr (h.mono (List.subset_cons_self _ _))
  have hframe : frameOfFields f = frameOfFields g := by
    rw [frameOfFields, h.eq "frame" (by decide), frameOfFields]
  rw [ofFields, hpage, hframe, ofFields]

theorem ElementScope.ofFields_congr (h : Alike StepType.hover.keys f g) :
    ofFields f = ofFields g := by
  have hscope := FrameScope.ofFields_congr (h.mono (by decide))
  have hselectors := Alternatives.ofFields_congr (h.eq "selectors" (by decide))
  rw [ofFields, hscope, hselectors, ofFields]

theorem Press.ofFields_congr (h : Alike StepType.click.keys f g) : ofFields f = ofFields g := by
  rw [ofFields, number_congr (h.eq "offsetX" (by decide)),
    number_congr (h.eq "offsetY" (by decide)),
    optional_number_congr (h.eq "duration" (by decide)),
    choice_congr (h.eq "deviceType" (by decide)), choice_congr (h.eq "button" (by decide)),
    ofFields]

theorem Viewport.ofFields_congr (h : Alike StepType.setViewport.keys f g) :
    ofFields f = ofFields g := by
  rw [ofFields, number_congr (h.eq "width" (by decide)), number_congr (h.eq "height" (by decide)),
    number_congr (h.eq "deviceScaleFactor" (by decide)),
    boolean_congr (h.eq "isMobile" (by decide)), boolean_congr (h.eq "hasTouch" (by decide)),
    boolean_congr (h.eq "isLandscape" (by decide)), ofFields]

end Scopes

namespace Step
open Fields
variable {f g : Fields}

theorem waitForElementOfFields_congr (h : Fields.Alike StepType.waitForElement.keys f g) :
    waitForElementOfFields f = waitForElementOfFields g := by
  rw [waitForElementOfFields, choice_congr (h.eq "operator" (by decide)),
    ElementWait.attributesOfFields_congr (h.eq "attributes" (by decide)),
    ElementWait.propertiesOfFields_congr (h.eq "properties" (by decide)),
    ElementScope.ofFields_congr (h.mono (by decide)),
    optional_number_congr (h.eq "count" (by decide)),
    optional_boolean_congr (h.eq "visible" (by decide)), waitForElementOfFields]

theorem customStepOfFields_congr (h : Fields.Alike StepType.customStep.keys f g) :
    customStepOfFields f = customStepOfFields g := by
  rw [customStepOfFields, h.eq "name" (by decide), h.eq "parameters" (by decide),
    FrameScope.ofFields_congr (h.mono (by decide)), customStepOfFields]

theorem waitForExpressionOfFields_congr (h : Fields.Alike StepType.waitForExpression.keys f g) :
    waitForExpressionOfFields f = waitForExpressionOfFields g := by
  have hexpression := h.eq "expression" (by decide)
  rw [waitForExpressionOfFields, hexpression, FrameScope.ofFields_congr (h.mono (by decide)),
    text_congr hexpression, waitForExpressionOfFields]

/-- A step of a type is read under the keys of the type only. -/
theorem ofFields_congr {type : StepType} (h : Fields.Alike type.keys f g) :
    ofFields f type = ofFields g type := by
  cases type with
  | change =>
    rw [ofFields, ElementScope.ofFields_congr (h.mono (by decide)),
      text_congr (h.eq "value" (by decide)), ofFields]
  | click | doubleClick =>
    rw [ofFields, ElementScope.ofFields_congr (h.mono (by decide)), Press.ofFields_congr h,
      ofFields]
  | close => rw [ofFields, PageScope.ofFields_congr h, ofFields]
  | customStep => exact customStepOfFields_congr h
  | emulateNetworkConditions =>
    rw [ofFields, PageScope.ofFields_congr (h.mono (by decide)),
      number_congr (h.eq "download" (by decide)), number_congr (h.eq "upload" (by decide)),
      number_congr (h.eq "latency" (by decide)), ofFields]
  | hover => rw [ofFields, ElementScope.ofFields_congr h, ofFields]
  | keyDown | keyUp =>
    rw [ofFields, PageScope.ofFields_congr (h.mono (by decide)),
      text_congr (h.eq "key" (by decide)), ofFields]
  | navigate =>
    rw [ofFields, PageScope.ofFields_congr (h.mono (by decide)),
      text_congr (h.eq "url" (by decide)), ofFields]
  | scroll =>
    have hselectors := h.eq "selectors" (by decide)
    rw [ofFields, FrameScope.ofFields_congr (h.mono (by decide)),
      optional_number_congr (h.eq "x" (by decide)), optional_number_congr (h.eq "y" (by decide)),
      optional_congr (Alternatives.ofFields_congr hselectors) hselectors, ofFields]
  | setViewport =>
    rw [ofFields, PageScope.ofFields_congr (h.mono (by decide)), Viewport.ofFields_congr h,
      ofFields]
  | waitForElement => exact waitForElementOfFields_congr h
  | waitForExpression => exact waitForExpressionOfFields_congr h

theorem ofJson_congr (index : Option Int) {v w : Json} (h : Alike v w) :
    ofJson index v = ofJson index w := by
  cases h with
  | refl => rfl
  | @objects ms ns name hms hns h =>
    simp only [ofJson, hms, hns]
    cases htype : StepType.ofName? name with
    | none => rfl
    | some type => exact ofFields_congr (h type htype)

theorem listOfJson_congr {index : Nat} {xs ys : List Json} (h : List.Forall₂ Alike xs ys) :
    listOfJson index xs = listOfJson index ys := by
  induction h generalizing index with
  | nil => rfl
  | cons hx _ ih => rw [listOfJson, listOfJson, ofJson_congr _ hx, ih]

end Step

namespace Recording

theorem ofJson_congr {v w : Json} (h : Alike v w) : ofJson v = ofJson w := by
  cases h with
  | refl => rfl
  | @objects ms ns h hsteps =>
    simp only [List.forall_mem_cons] at h
    obtain ⟨htitle, htimeout, hattribute, -⟩ := h
    have htimeout' : timeoutOfFields (Json.fields ms) = timeoutOfFields (Json.fields ns) := by
      rw [timeoutOfFields, htimeout, timeoutOfFields]
    have hattribute' : selectorAttributeOfFields (Json.fields ms) =
        selectorAttributeOfFields (Json.fields ns) := by
      rw [selectorAttributeOfFields, hattribute, selectorAttributeOfFields]
    rw [ofJson, ofJson, ofFields, ofFields, htitle, htimeout', hattribute']
    generalize Json.fields ms "steps" = o at hsteps
    generalize Json.fields ns "steps" = o' at hsteps
    cases hsteps with
    | none => rfl
    | some hsteps =>
      cases hsteps with
      | refl => rfl
      | items hsteps => simp only [Step.listOfJson_congr hsteps]

end Recording

/-- A key that steps of this type do not have may be set to anything. -/
theorem Step.ofJson_insert_of_notMem {type : StepType} {key : Text} {ms : List (Text × Json)}
    (htype : Json.fields ms "type" = some (.str type.name))
    (hkey : key ∉ ("type" : Text) :: "assertedEvents" :: type.keys) (index : Option Int)
    (v : Json) :
    ofJson index (.obj (Json.insert ms key v)) = ofJson index (.obj ms) := by
  simp only [List.mem_cons, not_or] at hkey
  obtain ⟨hnottype, hnotevents, hnotkeys⟩ := hkey
  have htype' := (Json.fields_insert_of_ne (Ne.symm hnottype) ms v).trans htype
  refine ofJson_congr index (.objects htype' htype fun read hread => ?_)
  obtain rfl : type = read := by simpa using hread
  refine ⟨?_, fun name hname _ =>
    Json.fields_insert_of_ne (ne_of_mem_of_not_mem hname hnotkeys) ms v⟩
  rw [Json.fields_insert_of_ne (Ne.symm hnotevents)]
  cases Json.fields ms "assertedEvents" with
  | none => exact .none
  | some v => exact .some (.refl v)

/-- Reading gives the same of steps that are alike, with the same place in their recording, and of
recordings and of events that are alike; so steps that act on no frame and on no element may hold
anything as their frame or selectors. -/
theorem ofJson_eq_of_alike :
    (∀ index v w, Step.Alike v w → Step.ofJson index v = Step.ofJson index w) ∧
    (∀ type ∈ [StepType.navigate, .close, .keyDown, .keyUp, .setViewport,
        .emulateNetworkConditions], ∀ key ∈ (["frame", "selectors"] : List Text), ∀ index ms v,
      Json.fields ms "type" = some (.str type.name) →
        Step.ofJson index (.obj (Json.insert ms key v)) = Step.ofJson index (.obj ms)) ∧
    (∀ v w, Recording.Alike v w → Recording.ofJson v = Recording.ofJson w) ∧
    ∀ v w, NavigationEvent.Alike v w → NavigationEvent.ofJson v = NavigationEvent.ofJson w := by
  refine ⟨fun index v w h => Step.ofJson_congr index h, ?scopeless,
    fun v w h => Recording.ofJson_congr h, fun v w h => NavigationEvent.ofJson_congr h⟩
  case scopeless =>
    intro type htype key hkey index ms v h
    have hunread : ∀ type ∈ [StepType.navigate, .close, .keyDown, .keyUp, .setViewport,
        .emulateNetworkConditions], ∀ key ∈ (["frame", "selectors"] : List Text),
        key ∉ ("type" : Text) :: "assertedEvents" :: type.keys := by decide
    exact Step.ofJson_insert_of_notMem h (hunread type htype key hkey) index v

/-- A visit with its event and a press of a key, both told twice: the second time in another order,
with nulls and with keys that are not read. The press is refused for its event both times, though
its key is missing as well. -/
theorem ofJson_eq_of_alike_reordered :
    let event : Json := .obj [("type", .str "navigation"), ("url", .str "/a")]
    let event' : Json := .obj [("url", .str "/a"), ("status", .num 200), ("title", .null),
      ("type", .str "navigation")]
    let visit : List (Text × Json) :=
      [("type", .str "navigate"), ("url", .str "/"), ("assertedEvents", .arr [event])]
    let visit' : List (Text × Json) := [("assertedEvents", .arr [event']), ("timeout", .null),
      ("url", .str "/"), ("type", .str "navigate")]
    let press : Json := .obj [("type", .str "keyUp"), ("assertedEvents", .arr [.num 0])]
    let press' : Json := .obj [("key", .null), ("frame", .str []),
      ("assertedEvents", .arr [.num 0]), ("type", .str "keyUp")]
    let recording : Json :=
      .obj [("title", .str "t"), ("steps", .arr [.obj visit, press])]
    let recording' : Json :=
      .obj [("id", .num 7), ("steps", .arr [.obj visit', press']), ("title", .str "t")]
    let read : Step := .navigate ⟨none, none, some [⟨some "/a", none⟩]⟩ "/"
    (NavigationEvent.Alike event event' ∧ NavigationEvent.ofJson event' = .ok ⟨some "/a", none⟩) ∧
      (Step.Alike (.obj visit) (.obj visit') ∧ Step.ofJson none (.obj visit') = .ok read) ∧
      Step.ofJson none (.obj (Json.insert visit "selectors" (.bool true))) = .ok read ∧
      Recording.Alike recording recording' ∧
      Recording.ofJson recording' = .error .eventNotObject := by
  intro event event' visit visit' press press' recording recording' read
  obtain ⟨hsteps, hunread, hrecordings, hevents⟩ := ofJson_eq_of_alike
  have hevent : NavigationEvent.Alike event event' :=
    .objects (by simp only [List.forall_mem_cons]; exact ⟨rfl, rfl, rfl, nofun⟩)
  have hvisit : Step.Alike (.obj visit) (.obj visit') := by
    refine .objects rfl rfl fun type htype => ?_
    obtain rfl : StepType.navigate = type := Option.some.inj htype
    refine ⟨.some (.items (.cons hevent .nil)), ?_⟩
    simp only [StepType.keys, List.forall_mem_cons]
    exact ⟨fun _ => rfl, fun _ => rfl, fun _ => rfl, fun h => absurd rfl h, nofun⟩
  have hpress : Step.Alike press press' := by
    refine .objects rfl rfl fun type htype => ?_
    obtain rfl : StepType.keyUp = type := Option.some.inj htype
    refine ⟨.some (.refl _), ?_⟩
    simp only [StepType.keys, List.forall_mem_cons]
    exact ⟨fun _ => rfl, fun _ => rfl, fun _ => rfl, fun h => absurd rfl h, nofun⟩
  have hrecording : Recording.Alike recording recording' := by
    refine .objects ?_ (.some (.items (.cons hvisit (.cons hpress .nil))))
    simp only [List.forall_mem_cons]
    exact ⟨rfl, rfl, rfl, nofun⟩
  have hread : Step.ofJson none (.obj visit) = .ok read := rfl
  have hrefused : Recording.ofJson recording = .error .eventNotObject := rfl
  refine ⟨⟨hevent, (hevents _ _ hevent).symm⟩, ⟨hvisit, (hsteps none _ _ hvisit).symm.trans hread⟩,
    (hunread .navigate (by simp) "selectors" (by simp) none visit (.bool true) rfl).trans hread,
    hrecording, (hrecordings _ _ hrecording).symm.trans hrefused⟩

end FlowScript
