import Mathlib.Logic.Function.Basic
import FlowScript.Proofs.Recording.Checks

/-!
# Timeouts

Nothing of a step or a recording but its timeout depends on the field of that name. So the timeout
may be changed in what was read: within its bounds a number is taken over, out of them it is
refused, and what is no finite number leaves a step without timeout and is no recording's.
-/
namespace FlowScript

theorem Json.fields_insert (ms : List (Text × Json)) (key : Text) (v : Json) :
    fields (insert ms key v) = Function.update (fields ms) key v.nonNull? := by
  funext name
  rw [fields, find?_insert, Function.update_apply]
  split
  · rfl
  · rfl

theorem Json.fields_insert_self (ms : List (Text × Json)) (key : Text) (v : Json) :
    fields (insert ms key v) key = v.nonNull? := by
  rw [fields_insert, Function.update_self]

theorem Json.fields_insert_of_ne {name key : Text} (h : name ≠ key) (ms : List (Text × Json))
    (v : Json) : fields (insert ms key v) name = fields ms name := by
  rw [fields_insert, Function.update_of_ne h]

theorem Json.nonNull?_num (n : Number) : (num n).nonNull? = some (num n) := rfl

theorem Json.nonNull?_nonFinite (x : NonFinite) : (nonFinite x).nonNull? = some (nonFinite x) := rfl

section Map
variable {ε α β γ : Type}

/-- What follows a value that may not be there yet cannot fail if it fails for none. -/
theorem map_bind_of_ok {x : Except ε α} {g : α → β} {k : β → Except ε γ} {h : α → γ}
    (hk : ∀ a, k (g a) = .ok (h a)) : g <$> x >>= k = h <$> x := by
  cases x with
  | error e => rfl
  | ok a => exact hk a

end Map

namespace Fields
variable {f : Fields} {o : Option Json} {name : Text}

/-- The fields with this timeout, or without one. -/
def withTimeout (f : Fields) (o : Option Json) : Fields := Function.update f "timeout" o

theorem withTimeout_timeout : f.withTimeout o "timeout" = o := Function.update_self ..

theorem withTimeout_of_ne (h : name ≠ "timeout") : f.withTimeout o name = f name :=
  Function.update_of_ne h ..

theorem withTimeout_eq_self (h : f "timeout" = o) : f.withTimeout o = f := by
  rw [withTimeout, ← h, Function.update_eq_self]

theorem number_withTimeout (h : name ≠ "timeout") :
    (f.withTimeout o).number name = f.number name :=
  number_congr (withTimeout_of_ne h)

theorem text_withTimeout (h : name ≠ "timeout") : (f.withTimeout o).text name = f.text name :=
  text_congr (withTimeout_of_ne h)

theorem boolean_withTimeout (h : name ≠ "timeout") :
    (f.withTimeout o).boolean name = f.boolean name :=
  boolean_congr (withTimeout_of_ne h)

theorem optional_number_withTimeout (h : name ≠ "timeout") :
    (f.withTimeout o).optional number name = f.optional number name :=
  optional_number_congr (withTimeout_of_ne h)

theorem optional_boolean_withTimeout (h : name ≠ "timeout") :
    (f.withTimeout o).optional boolean name = f.optional boolean name :=
  optional_boolean_congr (withTimeout_of_ne h)

theorem choice_withTimeout {α : Type} {ofName? : Text → Option α} {defect : Defect}
    (h : name ≠ "timeout") :
    (f.withTimeout o).choice ofName? defect name = f.choice ofName? defect name :=
  choice_congr (withTimeout_of_ne h)

end Fields

section Scopes
variable {f : Fields} {o : Option Json}

theorem PageScope.ofFields_withTimeout {s : PageScope} (h : ofFields f = .ok s) :
    ofFields (f.withTimeout o) =
      (fun t => { s with timeout := t }) <$> timeoutOfFields (f.withTimeout o) := by
  simp only [ofFields, bind_eq_ok_iff, pure_eq_ok_iff] at h
  obtain ⟨timeout, -, events, hevents, rfl⟩ := h
  have hevents' : eventsOfFields (f.withTimeout o) = .ok events := by
    rw [eventsOfFields, Fields.withTimeout_of_ne (by decide), ← hevents, eventsOfFields]
  have htarget : targetOfFields (f.withTimeout o) = targetOfFields f := by
    rw [targetOfFields, Fields.withTimeout_of_ne (by decide), targetOfFields]
  rw [ofFields, hevents', htarget]
  cases timeoutOfFields (f.withTimeout o) <;> rfl

theorem FrameScope.ofFields_withTimeout {s : FrameScope} (h : ofFields f = .ok s) :
    ofFields (f.withTimeout o) =
      (fun t => { s with timeout := t }) <$> PageScope.timeoutOfFields (f.withTimeout o) := by
  simp only [ofFields, bind_eq_ok_iff, pure_eq_ok_iff] at h
  obtain ⟨page, hpage, frame, hframe, rfl⟩ := h
  have hframe' : frameOfFields (f.withTimeout o) = .ok frame := by
    rw [frameOfFields, Fields.withTimeout_of_ne (by decide), ← hframe, frameOfFields]
  rw [ofFields, PageScope.ofFields_withTimeout hpage]
  exact map_bind_of_ok fun t => by rw [hframe']; rfl

theorem Alternatives.ofFields_withTimeout : ofFields (f.withTimeout o) = ofFields f :=
  ofFields_congr (Fields.withTimeout_of_ne (by decide))

theorem Alternatives.optional_withTimeout :
    (f.withTimeout o).optional (fun f _ => ofFields f) "selectors" =
      f.optional (fun f _ => ofFields f) "selectors" :=
  Fields.optional_congr ofFields_withTimeout (Fields.withTimeout_of_ne (by decide))

theorem ElementScope.ofFields_withTimeout {s : ElementScope} (h : ofFields f = .ok s) :
    ofFields (f.withTimeout o) =
      (fun t => { s with timeout := t }) <$> PageScope.timeoutOfFields (f.withTimeout o) := by
  simp only [ofFields, bind_eq_ok_iff, pure_eq_ok_iff] at h
  obtain ⟨scope, hscope, selectors, hselectors, rfl⟩ := h
  rw [ofFields, FrameScope.ofFields_withTimeout hscope]
  exact map_bind_of_ok fun t => by rw [Alternatives.ofFields_withTimeout, hselectors]; rfl

theorem Press.ofFields_withTimeout : ofFields (f.withTimeout o) = ofFields f := by
  simp (disch := decide) only [ofFields, Fields.number_withTimeout,
    Fields.optional_number_withTimeout, Fields.choice_withTimeout]

theorem Viewport.ofFields_withTimeout : ofFields (f.withTimeout o) = ofFields f := by
  simp (disch := decide) only [ofFields, Fields.number_withTimeout, Fields.boolean_withTimeout]

theorem ElementWait.attributesOfFields_withTimeout :
    attributesOfFields (f.withTimeout o) = attributesOfFields f :=
  attributesOfFields_congr (Fields.withTimeout_of_ne (by decide))

theorem ElementWait.propertiesOfFields_withTimeout :
    propertiesOfFields (f.withTimeout o) = propertiesOfFields f :=
  propertiesOfFields_congr (Fields.withTimeout_of_ne (by decide))

end Scopes

namespace Step
variable {f : Fields} {s : Step}

/-- The step with this timeout, or without one. -/
def withTimeout (t : Option Number) : Step → Step
  | change s value => change { s with timeout := t } value
  | click s press => click { s with timeout := t } press
  | close s => close { s with timeout := t }
  | customStep s name parameters => customStep { s with timeout := t } name parameters
  | doubleClick s press => doubleClick { s with timeout := t } press
  | emulateNetworkConditions s download upload latency =>
    emulateNetworkConditions { s with timeout := t } download upload latency
  | hover s => hover { s with timeout := t }
  | keyDown s key => keyDown { s with timeout := t } key
  | keyUp s key => keyUp { s with timeout := t } key
  | navigate s url => navigate { s with timeout := t } url
  | scroll s x y selectors => scroll { s with timeout := t } x y selectors
  | setViewport s viewport => setViewport { s with timeout := t } viewport
  | waitForElement s wait => waitForElement { s with timeout := t } wait
  | waitForExpression s expression => waitForExpression { s with timeout := t } expression

@[simp] theorem timeout_withTimeout (t : Option Number) (s : Step) : (s.withTimeout t).timeout = t := by
  cases s <;> rfl

theorem customStepOfFields_withTimeout (h : customStepOfFields f = .ok s) (o : Option Json) :
    customStepOfFields (f.withTimeout o) =
      s.withTimeout <$> PageScope.timeoutOfFields (f.withTimeout o) := by
  obtain ⟨scope, name, hscope, hname, rfl⟩ := customStepOfFields_eq_ok_iff.mp h
  have hread := FrameScope.ofFields_withTimeout (o := o) (FrameScope.ofFields_eq_ok_iff.mpr hscope)
  rw [customStepOfFields, Fields.withTimeout_of_ne (by decide), hname]
  dsimp only
  rw [hread]
  refine map_bind_of_ok fun t => ?_
  rw [Fields.withTimeout_of_ne (by decide)]
  rfl

theorem waitForElementOfFields_withTimeout (h : waitForElementOfFields f = .ok s)
    (o : Option Json) : waitForElementOfFields (f.withTimeout o) =
      s.withTimeout <$> PageScope.timeoutOfFields (f.withTimeout o) := by
  simp only [waitForElementOfFields, bind_eq_ok_iff, pure_eq_ok_iff] at h
  obtain ⟨operator, hoperator, attributes, hattributes, properties, hproperties, scope, hscope,
    count, hcount, visible, hvisible, rfl⟩ := h
  rw [waitForElementOfFields, Fields.choice_withTimeout (by decide), hoperator,
    ElementWait.attributesOfFields_withTimeout, hattributes,
    ElementWait.propertiesOfFields_withTimeout, hproperties,
    ElementScope.ofFields_withTimeout hscope]
  refine map_bind_of_ok fun t => ?_
  simp (disch := decide) only [Fields.optional_number_withTimeout, hcount,
    Fields.optional_boolean_withTimeout, hvisible]
  rfl

theorem waitForExpressionOfFields_withTimeout (h : waitForExpressionOfFields f = .ok s)
    (o : Option Json) : waitForExpressionOfFields (f.withTimeout o) =
      s.withTimeout <$> PageScope.timeoutOfFields (f.withTimeout o) := by
  obtain ⟨scope, expression, hscope, hexpression, rfl⟩ := waitForExpressionOfFields_eq_ok_iff.mp h
  have hread := FrameScope.ofFields_withTimeout (o := o) (FrameScope.ofFields_eq_ok_iff.mpr hscope)
  rw [waitForExpressionOfFields, Fields.withTimeout_of_ne (by decide), hexpression, hread]
  refine map_bind_of_ok fun t => ?_
  rw [Fields.text_withTimeout (by decide), Fields.text_eq_ok_iff.mpr hexpression]
  rfl

/-- Fields that a step was read from are read as the same step, whatever comes of their timeout. -/
theorem ofFields_withTimeout {type : StepType} (h : ofFields f type = .ok s) (o : Option Json) :
    ofFields (f.withTimeout o) type =
      s.withTimeout <$> PageScope.timeoutOfFields (f.withTimeout o) := by
  cases type with
  | change =>
    simp only [ofFields, bind_eq_ok_iff, pure_eq_ok_iff] at h
    obtain ⟨scope, hscope, value, hvalue, rfl⟩ := h
    rw [ofFields, ElementScope.ofFields_withTimeout hscope]
    refine map_bind_of_ok fun t => ?_
    rw [Fields.text_withTimeout (by decide), hvalue]
    rfl
  | click | doubleClick =>
    simp only [ofFields, bind_eq_ok_iff, pure_eq_ok_iff] at h
    obtain ⟨scope, hscope, press, hpress, rfl⟩ := h
    rw [ofFields, ElementScope.ofFields_withTimeout hscope]
    refine map_bind_of_ok fun t => ?_
    rw [Press.ofFields_withTimeout, hpress]
    rfl
  | close =>
    simp only [ofFields, map_eq_ok_iff] at h
    obtain ⟨scope, hscope, rfl⟩ := h
    rw [ofFields, PageScope.ofFields_withTimeout hscope, ← comp_map]
    rfl
  | customStep => exact customStepOfFields_withTimeout h o
  | emulateNetworkConditions =>
    simp only [ofFields, bind_eq_ok_iff, pure_eq_ok_iff] at h
    obtain ⟨scope, hscope, download, hdownload, upload, hupload, latency, hlatency, rfl⟩ := h
    rw [ofFields, PageScope.ofFields_withTimeout hscope]
    refine map_bind_of_ok fun t => ?_
    simp (disch := decide) only [Fields.number_withTimeout, hdownload, hupload, hlatency]
    rfl
  | hover =>
    simp only [ofFields, map_eq_ok_iff] at h
    obtain ⟨scope, hscope, rfl⟩ := h
    rw [ofFields, ElementScope.ofFields_withTimeout hscope, ← comp_map]
    rfl
  | keyDown | keyUp | navigate =>
    simp only [ofFields, bind_eq_ok_iff, pure_eq_ok_iff] at h
    obtain ⟨scope, hscope, text, htext, rfl⟩ := h
    rw [ofFields, PageScope.ofFields_withTimeout hscope]
    refine map_bind_of_ok fun t => ?_
    rw [Fields.text_withTimeout (by decide), htext]
    rfl
  | scroll =>
    simp only [ofFields, bind_eq_ok_iff, pure_eq_ok_iff] at h
    obtain ⟨scope, hscope, x, hx, y, hy, selectors, hselectors, rfl⟩ := h
    rw [ofFields, FrameScope.ofFields_withTimeout hscope]
    refine map_bind_of_ok fun t => ?_
    simp (disch := decide) only [Fields.optional_number_withTimeout, hx, hy,
      Alternatives.optional_withTimeout, hselectors]
    rfl
  | setViewport =>
    simp only [ofFields, bind_eq_ok_iff, pure_eq_ok_iff] at h
    obtain ⟨scope, hscope, viewport, hviewport, rfl⟩ := h
    rw [ofFields, PageScope.ofFields_withTimeout hscope]
    refine map_bind_of_ok fun t => ?_
    rw [Viewport.ofFields_withTimeout, hviewport]
    rfl
  | waitForElement => exact waitForElementOfFields_withTimeout h o
  | waitForExpression => exact waitForExpressionOfFields_withTimeout h o

/-- A step that is read from an object remains the same when the timeout is set, but for that. -/
theorem ofJson_insert_timeout {index : Option Int} {ms : List (Text × Json)}
    (h : ofJson index (.obj ms) = .ok s) (v : Json) :
    ofJson index (.obj (Json.insert ms "timeout" v)) =
      s.withTimeout <$> PageScope.timeoutOfFields ((Json.fields ms).withTimeout v.nonNull?) := by
  obtain ⟨_, hms, htype, hdescribed⟩ := ofJson_eq_ok_iff.mp h
  obtain rfl := Json.obj.inj hms
  have hread := ofFields_withTimeout (ofFields_of_describedBy hdescribed) v.nonNull?
  have hfields : Json.fields (Json.insert ms "timeout" v) =
      (Json.fields ms).withTimeout v.nonNull? := Json.fields_insert ms "timeout" v
  simp only [ofJson]
  rw [hfields, Fields.withTimeout_of_ne (by decide), htype]
  simp only [StepType.ofName?_name, hread]

/-- A step that was read without a timeout has none. -/
theorem withTimeout_none_eq_self {index : Option Int} {ms : List (Text × Json)}
    (h : ofJson index (.obj ms) = .ok s) (habsent : Json.fields ms "timeout" = none) :
    s.withTimeout none = s := by
  obtain ⟨_, hms, -, hdescribed⟩ := ofJson_eq_ok_iff.mp h
  obtain rfl := Json.obj.inj hms
  have hfields := ofFields_of_describedBy hdescribed
  have hread := ofFields_withTimeout hfields none
  rw [Fields.withTimeout_eq_self habsent, hfields, PageScope.timeoutOfFields, habsent] at hread
  exact (Except.ok.inj hread).symm

end Step

section Bounds
variable {f : Fields}

theorem PageScope.timeoutOfFields_num {n : Number} (h : n.IsJudged) :
    timeoutOfFields (f.withTimeout (some (.num n))) =
      if 1 ≤ n.value ∧ n.value ≤ 30000 then .ok (some n) else .error .timeoutOutOfBounds := by
  have hfinite : (Json.num n).finite? = .ok (some n) := Json.finite?_eq_some_iff.mpr ⟨rfl, h⟩
  rw [timeoutOfFields, Fields.withTimeout_timeout, if_congr Check.isTimeout_iff.symm rfl rfl]
  dsimp only
  rw [hfinite]
  rfl

theorem PageScope.timeoutOfFields_nonFinite (x : NonFinite) :
    timeoutOfFields (f.withTimeout (some (.nonFinite x))) = .ok none := by
  rw [timeoutOfFields, Fields.withTimeout_timeout]
  rfl

/-- A number within the bounds of timeouts is far from those that cannot be judged. -/
theorem Number.isJudged_of_bounds {n : Number} (h : 1 ≤ n.value ∧ n.value ≤ 30000) :
    n.IsJudged := by
  cases n with
  | int k =>
    simp only [value, Rat.mkRat_one] at h
    have hlower : 1 ≤ k := by exact_mod_cast h.1
    have hupper : k ≤ 30000 := by exact_mod_cast h.2
    have hsmall : k.natAbs ≤ 30000 := by omega
    exact hsmall.trans_lt (by decide +kernel)
  | double d => trivial

end Bounds

namespace Recording
variable {ms : List (Text × Json)} {r : Recording} {v : Json}

/-- A recording remains the same when the timeout is set, but for that. -/
theorem ofJson_insert_timeout (h : ofJson (.obj ms) = .ok r) (v : Json) :
    ofJson (.obj (Json.insert ms "timeout" v)) =
      timeoutOfFields ((Json.fields ms).withTimeout v.nonNull?) >>= fun t =>
        if t.any fun n => !n.isTimeout then .error .timeoutOutOfBounds
        else .ok { r with timeout := t } := by
  obtain ⟨_, hms, hdescribed⟩ := ofJson_eq_ok_iff.mp h
  obtain rfl := Json.obj.inj hms
  obtain ⟨xs, hsteps, hss⟩ := hdescribed.steps
  have hfields : Json.fields (Json.insert ms "timeout" v) =
      (Json.fields ms).withTimeout v.nonNull? := Json.fields_insert ms "timeout" v
  have hread : Step.listOfJson 0 xs = .ok r.steps := Step.listOfJson_eq_ok_iff.mpr hss
  have hattribute : selectorAttributeOfFields ((Json.fields ms).withTimeout v.nonNull?) =
      r.selectorAttribute := by
    rw [← hdescribed.selectorAttribute, selectorAttributeOfFields,
      Fields.withTimeout_of_ne (by decide), selectorAttributeOfFields]
  simp only [ofJson, ofFields]
  rw [hfields]
  simp (disch := decide) only [Fields.withTimeout_of_ne, hdescribed.title, hsteps, hread,
    hattribute]
  rfl

theorem timeoutOfFields_num {f : Fields} {n : Number} (h : n.IsJudged) :
    timeoutOfFields (f.withTimeout (some (.num n))) = .ok (some n) := by
  rw [timeoutOfFields_eq_ok_iff, Fields.holdsNumber_some]
  exact ⟨Fields.withTimeout_timeout, h⟩

/-- No recording is read from a timeout that is out of bounds or cannot be judged. -/
theorem exists_error_insert_num (h : ofJson (.obj ms) = .ok r) {n : Number}
    (hn : ¬ (1 ≤ n.value ∧ n.value ≤ 30000)) :
    ∃ d, ofJson (.obj (Json.insert ms "timeout" (.num n))) = .error d := by
  rw [ofJson_insert_timeout h, Json.nonNull?_num]
  by_cases hjudged : n.IsJudged
  · have hbounds : (!n.isTimeout) = true := by
      rw [← Check.isTimeout_iff] at hn
      simpa using hn
    rw [timeoutOfFields_num hjudged]
    exact ⟨.timeoutOutOfBounds, if_pos hbounds⟩
  · have hlarge : (Json.num n).finite? = .error .integerTooLarge :=
      Json.finite?_eq_error_iff.mpr ⟨Json.isLarge_num.mpr hjudged, rfl⟩
    rw [timeoutOfFields, Fields.withTimeout_timeout]
    exact ⟨.integerTooLarge, by dsimp only; rw [hlarge]; rfl⟩

end Recording

/-- Set to a number that can be judged, the timeout of a step is taken over within its bounds and
refused out of them; set to a double that is no number, it is left out. That of a recording is taken
over within its bounds, and all else is refused. -/
theorem timeout_outcome (index : Option Int) {ms : List (Text × Json)}
    (habsent : Json.fields ms "timeout" = none) :
    (∀ s, Step.ofJson index (.obj ms) = .ok s →
      (∀ n : Number, n.IsJudged →
        Step.ofJson index (.obj (Json.insert ms "timeout" (.num n))) =
          if 1 ≤ n.value ∧ n.value ≤ 30000 then .ok (s.withTimeout (some n))
          else .error .timeoutOutOfBounds) ∧
      ∀ x, Step.ofJson index (.obj (Json.insert ms "timeout" (.nonFinite x))) = .ok s) ∧
    ∀ r, Recording.ofJson (.obj ms) = .ok r →
      (∀ n : Number, 1 ≤ n.value ∧ n.value ≤ 30000 →
        Recording.ofJson (.obj (Json.insert ms "timeout" (.num n))) =
          .ok { r with timeout := some n }) ∧
      (∀ n : Number, ¬ (1 ≤ n.value ∧ n.value ≤ 30000) →
        ∃ d, Recording.ofJson (.obj (Json.insert ms "timeout" (.num n))) = .error d) ∧
      ∀ x, ∃ d, Recording.ofJson (.obj (Json.insert ms "timeout" (.nonFinite x))) = .error d := by
  refine ⟨fun s hs => ⟨fun n hn => ?judged, fun x => ?dropped⟩, fun r hr =>
    ⟨fun n hn => ?taken, fun n hn => Recording.exists_error_insert_num hr hn, fun x => ?refused⟩⟩
  case judged =>
    rw [Step.ofJson_insert_timeout hs, Json.nonNull?_num, PageScope.timeoutOfFields_num hn]
    split <;> rfl
  case dropped =>
    rw [Step.ofJson_insert_timeout hs, Json.nonNull?_nonFinite,
      PageScope.timeoutOfFields_nonFinite]
    exact congrArg _ (Step.withTimeout_none_eq_self hs habsent)
  case taken =>
    have hbounds : ¬ (!n.isTimeout) = true := by simpa [Check.isTimeout_iff] using hn
    rw [Recording.ofJson_insert_timeout hr, Json.nonNull?_num,
      Recording.timeoutOfFields_num (Number.isJudged_of_bounds hn)]
    exact if_neg hbounds
  case refused =>
    rw [Recording.ofJson_insert_timeout hr]
    exact ⟨.timeoutNotNumber, rfl⟩

/-- A wait and a recording whose timeouts are null; that of the wait is checked after its
expression. -/
theorem timeout_outcome_null :
    let wait (t : Json) : Json := .obj (Json.insert
      [("type", .str "waitForExpression"), ("timeout", .null), ("expression", .str "ready")]
      "timeout" t)
    let untitled (t : Json) : Json := .obj (Json.insert
      [("title", .str []), ("timeout", .null), ("steps", .arr [])] "timeout" t)
    let read (t : Option Number) : Step := .waitForExpression ⟨⟨none, t, none⟩, none⟩ "ready"
    Step.ofJson none (wait (.num (.double .one))) = .ok (read (some (.double .one))) ∧
      Step.ofJson none (wait (.num 30001)) = .error .timeoutOutOfBounds ∧
      Step.ofJson none (wait (.nonFinite .nan)) = .ok (read none) ∧
      Recording.ofJson (untitled (.num 30000)) = .ok ⟨[], [], some 30000, none⟩ ∧
      ∃ d, Recording.ofJson (untitled (.num (.int (10 ^ 309)))) = .error d := by
  intro wait untitled read
  have hwait : Step.ofJson none (.obj [("type", .str "waitForExpression"), ("timeout", .null),
      ("expression", .str "ready")]) = .ok (read none) := rfl
  have huntitled : Recording.ofJson (.obj [("title", .str []), ("timeout", .null),
      ("steps", .arr [])]) = .ok ⟨[], [], none, none⟩ := rfl
  obtain ⟨hstep, -⟩ := timeout_outcome none (rfl : Json.fields [("type", .str "waitForExpression"),
    ("timeout", .null), ("expression", .str "ready")] "timeout" = none)
  obtain ⟨-, hrecording⟩ := timeout_outcome none (rfl : Json.fields [("title", .str []),
    ("timeout", .null), ("steps", .arr [])] "timeout" = none)
  obtain ⟨hjudged, hdropped⟩ := hstep _ hwait
  obtain ⟨htaken, hrefused, -⟩ := hrecording _ huntitled
  refine ⟨?one, ?above, hdropped .nan, htaken 30000 (by decide),
    hrefused (.int (10 ^ 309)) (by decide +kernel)⟩
  case one => exact (hjudged (.double .one) trivial).trans (if_pos (by decide))
  case above =>
    have hlarge : (30001 : Number).IsJudged :=
      (by decide +kernel : (30001 : Int).natAbs < Double.overflowBound)
    exact (hjudged 30001 hlarge).trans (if_neg (by decide))

/-- A numeral past all doubles is read as an infinite one, which as the timeout of a step is left
out and not refused. -/
theorem not_refused_overflowed :
    let close : List (Text × Json) := [("type", .str "close")]
    Json.ofText "1e400" = .ok (.nonFinite (.infinity false)) ∧
      Step.ofJson none (.obj (Json.insert close "timeout" (.nonFinite (.infinity false)))) =
        .ok (.close ⟨none, none, none⟩) ∧
      ¬ ∀ (ms : List (Text × Json)) (s : Step), Json.fields ms "timeout" = none →
        Step.ofJson none (.obj ms) = .ok s →
        (∀ n : Number, if 1 ≤ n.value ∧ n.value ≤ 30000
          then ∃ s', Step.ofJson none (.obj (Json.insert ms "timeout" (.num n))) = .ok s' ∧
            s'.timeout = some n
          else Step.ofJson none (.obj (Json.insert ms "timeout" (.num n))) =
            .error .timeoutOutOfBounds) ∧
        ∀ negative, Step.ofJson none (.obj (Json.insert ms "timeout"
          (.nonFinite (.infinity negative)))) = .error .timeoutOutOfBounds := by
  intro close
  have hread : Step.ofJson none (.obj (Json.insert close "timeout"
      (.nonFinite (.infinity false)))) = .ok (.close ⟨none, none, none⟩) := rfl
  refine ⟨rfl, hread, fun h => ?_⟩
  have hrefused := (h close (.close ⟨none, none, none⟩) rfl rfl).2 false
  exact nomatch hread.symm.trans hrefused

end FlowScript
