import FlowScript.Proofs.Recording.Fields

/-!
# Which fields describe the parts of a step

For every part of a step, what the fields of an object have to hold for that part to be read from
them.
-/
namespace FlowScript

namespace Selector

theorem partOfJson_eq_ok_iff {v : Json} {t : Text} : partOfJson v = .ok t ↔ v = .str t := by
  cases v <;> simp [partOfJson, pure_eq_ok_iff, throw_ne_ok]

/-- A selector is carried over as it is. -/
theorem ofJson_eq_ok_iff {v : Json} {s : Selector} : ofJson v = .ok s ↔ v = s.toJson := by
  have hparts {xs : List Json} {ts : List Text} : xs.mapM partOfJson = .ok ts ↔ xs = ts.map .str :=
    mapM_eq_ok_iff_map fun _ _ => partOfJson_eq_ok_iff
  unfold ofJson
  split
  · rw [pure_eq_ok_iff]
    cases s <;> simp [toJson]
  · cases s <;> simp [toJson, throw_ne_ok]
  · simp only [bind_eq_ok_iff, partOfJson_eq_ok_iff, hparts, pure_eq_ok_iff]
    constructor
    · rintro ⟨first, rfl, inner, rfl, rfl⟩
      rfl
    · intro h
      cases s with
      | plain part => exact nomatch h
      | chain first inner =>
        cases h
        exact ⟨first, rfl, inner, rfl, rfl⟩
  · next hstr hnil hcons =>
    refine ⟨fun h => absurd h throw_ne_ok, ?_⟩
    rintro rfl
    cases s with
    | plain part => exact absurd rfl (hstr part)
    | chain first inner => exact absurd rfl (hcons (.str first) (inner.map .str))

end Selector

theorem Alternatives.ofFields_eq_ok_iff {f : Fields} {a : Alternatives} :
    ofFields f = .ok a ↔ f "selectors" = some a.toJson := by
  have hothers {xs : List Json} {ss : List Selector} :
      xs.mapM Selector.ofJson = .ok ss ↔ xs = ss.map Selector.toJson :=
    mapM_eq_ok_iff_map fun _ _ => Selector.ofJson_eq_ok_iff
  unfold ofFields
  split
  · next h => simp [h, throw_ne_ok]
  · next h => simp [h, throw_ne_ok, toJson, toList]
  · next h =>
    simp only [bind_eq_ok_iff, Selector.ofJson_eq_ok_iff, hothers, pure_eq_ok_iff, h, toJson,
      toList, Option.some.injEq, Json.arr.injEq, List.map_cons, List.cons.injEq]
    constructor
    · rintro ⟨best, rfl, others, rfl, rfl⟩
      exact ⟨rfl, rfl⟩
    · rintro ⟨rfl, rfl⟩
      exact ⟨a.best, rfl, a.others, rfl, rfl⟩
  · next v hnil hcons h =>
    refine ⟨fun h => absurd h throw_ne_ok, fun ha => ?_⟩
    rw [h] at ha
    exact absurd (Option.some.inj ha) (hcons _ _)

theorem Alternatives.optional_eq_ok_iff {f : Fields} {o : Option Alternatives} :
    f.optional (fun f _ => ofFields f) "selectors" = .ok o ↔ f "selectors" = o.map toJson := by
  rw [Fields.optional_eq_ok_iff]
  cases o with
  | none => simp
  | some a =>
    simp only [ofFields_eq_ok_iff]
    grind

namespace NavigationEvent

/-- What an event is read from. -/
def DescribedBy (e : NavigationEvent) (v : Json) : Prop :=
  ∃ ms, v = .obj ms ∧ Json.fields ms "type" = some (.str "navigation") ∧
    Json.fields ms "url" = e.url.map .str ∧ Json.fields ms "title" = e.title.map .str

theorem ofJson_eq_ok_iff {v : Json} {e : NavigationEvent} : ofJson v = .ok e ↔ e.DescribedBy v := by
  cases v with
  | obj ms =>
    simp only [ofJson, DescribedBy, Json.obj.injEq, exists_eq_left']
    split
    · next h => simp [h, throw_ne_ok]
    · next type h =>
      rw [h]
      cases type with
      | str t =>
        simp only [Option.some.injEq, Json.str.injEq]
        split
        · next ht =>
          simp only [bind_eq_ok_iff, Fields.optional_text_eq_ok_iff, pure_eq_ok_iff, ht, true_and]
          constructor
          · rintro ⟨url, hurl, title, htitle, rfl⟩
            exact ⟨hurl, htitle⟩
          · rintro ⟨hurl, htitle⟩
            exact ⟨e.url, hurl, e.title, htitle, rfl⟩
        · next ht => simp [ht, throw_ne_ok]
      | _ => simp [throw_ne_ok]
  | _ => simp [ofJson, DescribedBy, throw_ne_ok]

end NavigationEvent

namespace PageScope

/-- A timeout is a finite number in bounds; anything but a number leaves a step without one. -/
def TimeoutIn (f : Fields) : Option Number → Prop
  | none => ∀ n, f "timeout" ≠ some (.num n)
  | some n => f "timeout" = some (.num n) ∧ n.IsJudged ∧ n.isTimeout

/-- Anything but an array leaves a step without events. -/
def EventsIn (f : Fields) : Option (List NavigationEvent) → Prop
  | none => ∀ xs, f "assertedEvents" ≠ some (.arr xs)
  | some es => ∃ xs, f "assertedEvents" = some (.arr xs) ∧
      List.Forall₂ (fun x e => NavigationEvent.DescribedBy e x) xs es

/-- Anything but a text leaves a step without target. -/
def TargetIn (f : Fields) : Option Text → Prop
  | none => ∀ t, f "target" ≠ some (.str t)
  | some t => f "target" = some (.str t)

structure DescribedBy (s : PageScope) (f : Fields) : Prop where
  timeout : TimeoutIn f s.timeout
  events : EventsIn f s.assertedEvents
  target : TargetIn f s.target

variable {f : Fields}

theorem timeoutOfFields_eq_ok_iff {o : Option Number} :
    timeoutOfFields f = .ok o ↔ TimeoutIn f o := by
  rw [timeoutOfFields]
  cases h : f "timeout" with
  | none =>
    rw [pure_eq_ok_iff]
    cases o <;> simp [TimeoutIn, h]
  | some v =>
    simp only [bind_eq_ok_iff]
    constructor
    · rintro ⟨n?, hn, ho⟩
      cases n? with
      | none =>
        obtain rfl := pure_eq_ok_iff.mp ho
        intro n hv
        rw [h] at hv
        exact Json.finite?_eq_none_iff.mp hn n (Option.some.inj hv)
      | some n =>
        obtain ⟨rfl, hjudged⟩ := Json.finite?_eq_some_iff.mp hn
        by_cases hbounds : n.isTimeout
        · simp only [hbounds, if_true, pure_eq_ok_iff] at ho
          subst ho
          exact ⟨h, hjudged, hbounds⟩
        · simp [hbounds, throw_ne_ok] at ho
    · intro ho
      cases o with
      | none =>
        refine ⟨none, Json.finite?_eq_none_iff.mpr fun n hv => ho n (by rw [h, hv]), rfl⟩
      | some n =>
        obtain ⟨hv, hjudged, hbounds⟩ := ho
        rw [h] at hv
        refine ⟨some n, Json.finite?_eq_some_iff.mpr ⟨Option.some.inj hv, hjudged⟩, ?_⟩
        simp only [hbounds, if_true]
        rfl

theorem eventsOfFields_eq_ok_iff {o : Option (List NavigationEvent)} :
    eventsOfFields f = .ok o ↔ EventsIn f o := by
  unfold eventsOfFields
  split
  · next xs h =>
    simp only [map_eq_ok_iff, mapM_eq_ok_iff, NavigationEvent.ofJson_eq_ok_iff]
    cases o with
    | none => simp [EventsIn, h]
    | some es => simp [EventsIn, h]
  · next h =>
    rw [pure_eq_ok_iff]
    cases o with
    | none => exact ⟨fun _ => h, fun _ => rfl⟩
    | some es => exact ⟨nofun, fun ⟨xs, hxs, _⟩ => absurd hxs (h xs)⟩

theorem targetOfFields_eq_iff {o : Option Text} : targetOfFields f = o ↔ TargetIn f o := by
  unfold targetOfFields
  split
  · next h => cases o <;> simp [TargetIn, h]
  · next h =>
    cases o with
    | none => exact ⟨fun _ => h, fun _ => rfl⟩
    | some t => exact ⟨nofun, fun ht => absurd ht (h t)⟩

theorem ofFields_eq_ok_iff {s : PageScope} : ofFields f = .ok s ↔ s.DescribedBy f := by
  simp only [ofFields, bind_eq_ok_iff, timeoutOfFields_eq_ok_iff, eventsOfFields_eq_ok_iff,
    pure_eq_ok_iff]
  constructor
  · rintro ⟨timeout, htimeout, events, hevents, rfl⟩
    exact ⟨htimeout, hevents, targetOfFields_eq_iff.mp rfl⟩
  · intro h
    exact ⟨_, h.timeout, _, h.events, by rw [targetOfFields_eq_iff.mpr h.target]⟩

end PageScope

/-- A child index is a finite number equal to a natural one. -/
def IsFrameIndex (v : Json) (i : Nat) : Prop :=
  ∃ n, v = .num n ∧ n.IsJudged ∧ n.toNat? = some i

theorem frameIndexOfJson_eq_ok_iff {v : Json} {i : Nat} :
    frameIndexOfJson v = .ok i ↔ IsFrameIndex v i := by
  simp only [frameIndexOfJson, bind_eq_ok_iff]
  constructor
  · rintro ⟨n?, hn, hi⟩
    cases n? with
    | none => exact absurd hi throw_ne_ok
    | some n =>
      obtain ⟨hv, hjudged⟩ := Json.finite?_eq_some_iff.mp hn
      rw [Option.bind_some] at hi
      cases hnat : n.toNat? with
      | none => simp [hnat, throw_ne_ok] at hi
      | some j =>
        rw [hnat] at hi
        obtain rfl := pure_eq_ok_iff.mp hi
        exact ⟨n, hv, hjudged, hnat⟩
  · rintro ⟨n, hv, hjudged, hnat⟩
    refine ⟨some n, Json.finite?_eq_some_iff.mpr ⟨hv, hjudged⟩, ?_⟩
    rw [Option.bind_some, hnat]
    rfl

namespace FrameScope

def FrameIn (f : Fields) : Option (List Nat) → Prop
  | none => f "frame" = none
  | some is => ∃ xs, f "frame" = some (.arr xs) ∧ List.Forall₂ IsFrameIndex xs is

structure DescribedBy (s : FrameScope) (f : Fields) : Prop where
  page : s.toPageScope.DescribedBy f
  frame : FrameIn f s.frame

variable {f : Fields}

theorem frameOfFields_eq_ok_iff {o : Option (List Nat)} :
    frameOfFields f = .ok o ↔ FrameIn f o := by
  unfold frameOfFields
  split
  · next h =>
    rw [pure_eq_ok_iff]
    cases o <;> simp [FrameIn, h]
  · next xs h =>
    simp only [map_eq_ok_iff, mapM_eq_ok_iff, frameIndexOfJson_eq_ok_iff]
    cases o <;> simp [FrameIn, h]
  · next v hne h =>
    refine ⟨fun h => absurd h throw_ne_ok, fun ho => ?_⟩
    cases o with
    | none => exact absurd (h.symm.trans ho) nofun
    | some is =>
      obtain ⟨xs, hxs, -⟩ := ho
      exact absurd (Option.some.inj (h.symm.trans hxs)) (hne xs)

theorem ofFields_eq_ok_iff {s : FrameScope} : ofFields f = .ok s ↔ s.DescribedBy f := by
  simp only [ofFields, bind_eq_ok_iff, PageScope.ofFields_eq_ok_iff, frameOfFields_eq_ok_iff,
    pure_eq_ok_iff]
  constructor
  · rintro ⟨page, hpage, frame, hframe, rfl⟩
    exact ⟨hpage, hframe⟩
  · intro h
    exact ⟨_, h.page, _, h.frame, rfl⟩

end FrameScope

namespace ElementScope

structure DescribedBy (s : ElementScope) (f : Fields) : Prop where
  scope : s.toFrameScope.DescribedBy f
  selectors : f "selectors" = some s.selectors.toJson

theorem ofFields_eq_ok_iff {f : Fields} {s : ElementScope} :
    ofFields f = .ok s ↔ s.DescribedBy f := by
  simp only [ofFields, bind_eq_ok_iff, FrameScope.ofFields_eq_ok_iff,
    Alternatives.ofFields_eq_ok_iff, pure_eq_ok_iff]
  constructor
  · rintro ⟨scope, hscope, selectors, hselectors, rfl⟩
    exact ⟨hscope, hselectors⟩
  · intro h
    exact ⟨_, h.scope, _, h.selectors, rfl⟩

end ElementScope

namespace Press

structure DescribedBy (p : Press) (f : Fields) : Prop where
  offsetX : f.HoldsNumber "offsetX" (some p.offsetX)
  offsetY : f.HoldsNumber "offsetY" (some p.offsetY)
  duration : f.HoldsNumber "duration" p.duration
  deviceType : f.Names PointerDevice.ofName? "deviceType" p.deviceType
  button : f.Names MouseButton.ofName? "button" p.button

theorem ofFields_eq_ok_iff {f : Fields} {p : Press} : ofFields f = .ok p ↔ p.DescribedBy f := by
  simp only [ofFields, bind_eq_ok_iff, Fields.number_eq_ok_iff, Fields.optional_number_eq_ok_iff,
    Fields.choice_eq_ok_iff, pure_eq_ok_iff]
  constructor
  · rintro ⟨_, hx, _, hy, _, hduration, _, hdevice, _, hbutton, rfl⟩
    exact ⟨hx, hy, hduration, hdevice, hbutton⟩
  · intro h
    exact ⟨_, h.offsetX, _, h.offsetY, _, h.duration, _, h.deviceType, _, h.button, rfl⟩

end Press

namespace Viewport

structure DescribedBy (v : Viewport) (f : Fields) : Prop where
  width : f.HoldsNumber "width" (some v.width)
  height : f.HoldsNumber "height" (some v.height)
  deviceScaleFactor : f.HoldsNumber "deviceScaleFactor" (some v.deviceScaleFactor)
  isMobile : f "isMobile" = some (.bool v.isMobile)
  hasTouch : f "hasTouch" = some (.bool v.hasTouch)
  isLandscape : f "isLandscape" = some (.bool v.isLandscape)

theorem ofFields_eq_ok_iff {f : Fields} {v : Viewport} : ofFields f = .ok v ↔ v.DescribedBy f := by
  simp only [ofFields, bind_eq_ok_iff, Fields.number_eq_ok_iff, Fields.boolean_eq_ok_iff,
    pure_eq_ok_iff]
  constructor
  · rintro ⟨_, hwidth, _, hheight, _, hscale, _, hmobile, _, htouch, _, hlandscape, rfl⟩
    exact ⟨hwidth, hheight, hscale, hmobile, htouch, hlandscape⟩
  · intro h
    exact ⟨_, h.width, _, h.height, _, h.deviceScaleFactor, _, h.isMobile, _, h.hasTouch, _,
      h.isLandscape, rfl⟩

end Viewport

namespace ElementWait

/-- The members of an object of texts. -/
def textMembers (ms : List (Text × Text)) : List (Text × Json) := ms.map fun m => (m.1, .str m.2)

/-- What properties are: an object, a list or nothing. -/
inductive IsProperties : Json → Prop
  | null : IsProperties .null
  | obj (ms : List (Text × Json)) : IsProperties (.obj ms)
  | arr (xs : List Json) : IsProperties (.arr xs)

structure DescribedBy (w : ElementWait) (f : Fields) : Prop where
  operator : f.Names WaitOperator.ofName? "operator" w.operator
  count : f.HoldsNumber "count" w.count
  visible : f "visible" = w.visible.map .bool
  attributes : f "attributes" = w.attributes.map fun ms => .obj (textMembers ms)
  properties : f "properties" = w.properties.nonNull?
  isProperties : IsProperties w.properties

variable {f : Fields}

theorem attributeOfMember_eq_ok_iff {m : Text × Json} {a : Text × Text} :
    attributeOfMember m = .ok a ↔ m = (a.1, .str a.2) := by
  obtain ⟨k, v⟩ := m
  obtain ⟨k', t⟩ := a
  cases v <;> simp [attributeOfMember, pure_eq_ok_iff, throw_ne_ok]

theorem attributesOfFields_eq_ok_iff {o : Option (List (Text × Text))} :
    attributesOfFields f = .ok o ↔
      f "attributes" = o.map fun ms => .obj (textMembers ms) := by
  have hmembers {ms : List (Text × Json)} {as : List (Text × Text)} :
      ms.mapM attributeOfMember = .ok as ↔ ms = textMembers as :=
    mapM_eq_ok_iff_map fun _ _ => attributeOfMember_eq_ok_iff
  unfold attributesOfFields
  split
  · next h =>
    rw [pure_eq_ok_iff, h]
    cases o <;> simp
  · next ms h =>
    simp only [map_eq_ok_iff, hmembers, h]
    cases o <;> simp
  · next v hne h =>
    refine ⟨fun h => absurd h throw_ne_ok, fun ho => ?_⟩
    rw [h] at ho
    cases o with
    | none => exact nomatch ho
    | some as => exact absurd (Option.some.inj ho) (hne _)

theorem propertiesOfFields_eq_ok_iff {v : Json} :
    propertiesOfFields f = .ok v ↔ f "properties" = v.nonNull? ∧ IsProperties v := by
  constructor
  · intro h
    unfold propertiesOfFields at h
    split at h
    · next hf =>
      obtain rfl := pure_eq_ok_iff.mp h
      exact ⟨hf, .null⟩
    · next ms hf =>
      obtain rfl := pure_eq_ok_iff.mp h
      exact ⟨hf, .obj ms⟩
    · next xs hf =>
      obtain rfl := pure_eq_ok_iff.mp h
      exact ⟨hf, .arr xs⟩
    · exact absurd h throw_ne_ok
  · rintro ⟨hf, hv⟩
    cases hv <;> simp only [propertiesOfFields, hf, Json.nonNull?] <;> rfl

end ElementWait

end FlowScript
