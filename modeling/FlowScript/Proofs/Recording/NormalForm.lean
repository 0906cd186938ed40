import FlowScript.Proofs.Recording.RoundTrip

/-!
# Normal forms of steps and recordings

What is written for a step that was read is the object it was read from, cut down to the keys of its
type and freed of nulls. Seven rules say which values change on the way; every other value is taken
over as it is. For a recording the same holds of each step.
-/
namespace FlowScript

namespace Json

/-- What becomes of the values of some keys: another value, or none. -/
abbrev Rules : Type := List (Text × (Json → Option Json))

/-- A value without a rule for its key stays. -/
def Rules.apply (rules : Rules) (key : Text) : Json → Option Json := (rules.lookup key).getD some

/-- The part of an object that these keys make up, with its values as the rules leave them. -/
def restrict (rules : Rules) (keys : List Text) (ms : List (Text × Json)) : Json :=
  ofFields (keys.map fun key => (key, (fields ms key).bind (rules.apply key)))

/-- As a map from keys to values, `w` is the object `v` cut down to these keys and to values other
than null, each value as the rules leave it. -/
def IsPart (rules : Rules) (keys : List Text) (v w : Json) : Prop :=
  ∃ ms part, v = .obj ms ∧ w = .obj part ∧ (part.map Prod.fst).Nodup ∧
    ∀ key, find? key part = if key ∈ keys then (fields ms key).bind (rules.apply key) else none

theorem map_fst_members_sublist (fs : List (Text × Option Json)) :
    ((members fs).map Prod.fst).Sublist (fs.map Prod.fst) := by
  induction fs with
  | nil => exact List.Sublist.refl []
  | cons p fs ih =>
    obtain ⟨key, o⟩ := p
    cases o with
    | none => exact ih.cons key
    | some v => exact ih.cons_cons key

theorem isPart_restrict {rules : Rules} {keys : List Text} (hkeys : keys.Nodup)
    (ms : List (Text × Json)) : IsPart rules keys (.obj ms) (restrict rules keys ms) := by
  have hfst : (keys.map fun key => (key, (fields ms key).bind (rules.apply key))).map Prod.fst =
      keys := by
    rw [List.map_map]
    exact List.map_id keys
  refine ⟨ms, _, rfl, rfl, (map_fst_members_sublist _).nodup (by rwa [hfst]), fun key => ?_⟩
  by_cases hkey : key ∈ keys
  · rw [if_pos hkey]
    exact find?_members (by rwa [hfst]) (List.mem_map_of_mem hkey)
  · rw [if_neg hkey]
    exact find?_members_of_notMem (by rwa [hfst])

/-- Only a text stays. -/
def onlyText : Json → Option Json
  | .str t => some (.str t)
  | _ => none

/-- Only a finite number stays. -/
def onlyNumber : Json → Option Json
  | .num n => some (.num n)
  | _ => none

/-- An empty text goes. -/
def unlessEmpty : Json → Option Json
  | .str [] => none
  | v => some v

/-- Only a list stays. -/
def onlyList : Json → Option Json
  | .arr xs => some (.arr xs)
  | _ => none

/-- The elements of a list changed; any other value as it is. -/
def mapItems (change : Json → Json) : Json → Json
  | .arr xs => .arr (xs.map change)
  | v => v

/-- A number that equals an integer becomes that integer. -/
def integral : Json → Json
  | .num n => (n.toInt?.map Json.int).getD (.num n)
  | v => v

end Json

/-- An event keeps its type and what it says of the page. -/
def NavigationEvent.normalForm : Json → Json
  | .obj ms => Json.restrict [] ["type", "url", "title"] ms
  | v => v

/-- The type of a step that a value names. -/
def StepType.ofJson? : Json → Option StepType
  | .str name => ofName? name
  | _ => none

namespace Step

def rules : Json.Rules :=
  [("target", Json.onlyText), ("timeout", Json.onlyNumber),
    ("assertedEvents", fun v => v.onlyList.map (Json.mapItems NavigationEvent.normalForm)),
    ("frame", fun v => some (v.mapItems Json.integral)), ("operator", Json.unlessEmpty),
    ("deviceType", Json.unlessEmpty), ("button", Json.unlessEmpty)]

/-- An object with the type of a step keeps it, and what it has under the keys of this type. -/
def normalForm : Json → Json
  | .obj ms =>
    match (Json.fields ms "type").bind StepType.ofJson? with
    | some type => Json.restrict rules ("type" :: type.keys) ms
    | none => .obj ms
  | v => v

end Step

namespace Recording

def rules : Json.Rules :=
  [("selectorAttribute", Json.onlyText), ("steps", fun v => some (v.mapItems Step.normalForm))]

def keys : List Text := ["title", "timeout", "selectorAttribute", "steps"]

end Recording

namespace Fields
variable {f : Fields} {rules : Json.Rules} {p : Text × Option Json}
  {fs gs : List (Text × Option Json)}

/-- The listed values are what the rules make of the fields. -/
def Yields (f : Fields) (rules : Json.Rules) (fs : List (Text × Option Json)) : Prop :=
  ∀ p ∈ fs, p.2 = (f p.1).bind (rules.apply p.1)

theorem yields_nil : f.Yields rules [] := nofun

theorem yields_cons :
    f.Yields rules (p :: fs) ↔ p.2 = (f p.1).bind (rules.apply p.1) ∧ f.Yields rules fs :=
  List.forall_mem_cons

theorem yields_append : f.Yields rules (fs ++ gs) ↔ f.Yields rules fs ∧ f.Yields rules gs :=
  List.forall_mem_append

/-- A field that no rule speaks of is taken over. -/
theorem verbatim {key : Text} {o : Option Json} (hkey : rules.lookup key = none)
    (h : f key = o) : o = (f key).bind (rules.apply key) := by
  rw [Json.Rules.apply, hkey, h, Option.getD_none]
  exact (Option.bind_fun_some o).symm

end Fields

/-- Fields that the rules yield make up the part of the object under their keys. -/
theorem Json.ofFields_eq_restrict {rules : Rules} {ms : List (Text × Json)}
    {fs : List (Text × Option Json)} (h : (fields ms).Yields rules fs) :
    ofFields fs = restrict rules (fs.map Prod.fst) ms := by
  have hfs : fs = fs.map fun p => (p.1, (fields ms p.1).bind (rules.apply p.1)) := by
    conv_lhs => rw [← List.map_id fs]
    exact List.map_congr_left fun p hp => Prod.ext rfl (h p hp)
  rw [restrict, List.map_map]
  exact congrArg ofFields hfs

namespace Json
variable {o : Option Json}

theorem bind_onlyText_eq_none (h : ∀ t, o ≠ some (.str t)) : o.bind onlyText = none := by
  cases o with
  | none => rfl
  | some v =>
    cases v with
    | str t => exact absurd rfl (h t)
    | _ => rfl

theorem bind_onlyNumber_eq_none (h : ∀ n, o ≠ some (.num n)) : o.bind onlyNumber = none := by
  cases o with
  | none => rfl
  | some v =>
    cases v with
    | num n => exact absurd rfl (h n)
    | _ => rfl

theorem bind_onlyList_eq_none (h : ∀ xs, o ≠ some (.arr xs)) : o.bind onlyList = none := by
  cases o with
  | none => rfl
  | some v =>
    cases v with
    | arr xs => exact absurd rfl (h xs)
    | _ => rfl

theorem fields_ne_null (ms : List (Text × Json)) (name : Text) : fields ms name ≠ some .null := by
  intro h
  obtain ⟨v, -, hv⟩ := Option.bind_eq_some_iff.mp h
  exact nonNull?_ne_null v hv

/-- If elements are written as the changed ones that they were read from, so are lists. -/
theorem map_eq_map_of_forall₂ {α : Type} {R : Json → α → Prop} {write : α → Json}
    {change : Json → Json} (h : ∀ x y, R x y → write y = change x) {xs : List Json} {ys : List α}
    (hread : List.Forall₂ R xs ys) : ys.map write = xs.map change := by
  induction hread with
  | nil => rfl
  | cons hx _ ih => rw [List.map_cons, List.map_cons, h _ _ hx, ih]

end Json

theorem IsFrameIndex.integral_eq {v : Json} {i : Nat} (h : IsFrameIndex v i) :
    Json.int i = v.integral := by
  obtain ⟨n, rfl, -, hnat⟩ := h
  have hint : n.toInt? = some (i : Int) := by
    rw [Number.toNat?] at hnat
    split at hnat
    · next k hk => rw [hk, Option.some.inj hnat]; rfl
    · contradiction
  rw [Json.integral, hint]
  rfl

section Parts
variable {f : Fields}

theorem NavigationEvent.toJson_eq_normalForm {v : Json} {e : NavigationEvent}
    (h : e.DescribedBy v) : e.toJson = normalForm v := by
  obtain ⟨ms, rfl, htype, hurl, htitle⟩ := h
  apply Json.ofFields_eq_restrict
  simp only [Fields.yields_cons]
  exact ⟨Fields.verbatim rfl htype, Fields.verbatim rfl hurl, Fields.verbatim rfl htitle,
    Fields.yields_nil⟩

namespace PageScope
variable {s : PageScope}

theorem DescribedBy.target_eq (h : s.DescribedBy f) :
    s.targetField.2 = (f "target").bind (Step.rules.apply "target") := by
  change s.target.map Json.str = (f "target").bind Json.onlyText
  have h := h.target
  cases ht : s.target with
  | none =>
    rw [ht] at h
    exact (Json.bind_onlyText_eq_none h).symm
  | some t =>
    rw [ht] at h
    rw [show f "target" = _ from h]
    rfl

theorem DescribedBy.timeout_eq (h : s.DescribedBy f) :
    s.timeoutField.2 = (f "timeout").bind (Step.rules.apply "timeout") := by
  change s.timeout.map Json.num = (f "timeout").bind Json.onlyNumber
  have h := h.timeout
  cases ht : s.timeout with
  | none =>
    rw [ht] at h
    exact (Json.bind_onlyNumber_eq_none h).symm
  | some n =>
    rw [ht] at h
    rw [h.1]
    rfl

theorem DescribedBy.events_eq (h : s.DescribedBy f) :
    s.eventsField.2 = (f "assertedEvents").bind (Step.rules.apply "assertedEvents") := by
  change (s.assertedEvents.map fun es => Json.arr (es.map NavigationEvent.toJson)) =
    (f "assertedEvents").bind
      (Option.map (Json.mapItems NavigationEvent.normalForm) ∘ Json.onlyList)
  rw [← Option.map_bind]
  have h := h.events
  cases he : s.assertedEvents with
  | none =>
    rw [he] at h
    rw [Json.bind_onlyList_eq_none h]
    rfl
  | some es =>
    rw [he] at h
    obtain ⟨xs, hxs, hes⟩ := h
    rw [hxs, Option.map_some,
      Json.map_eq_map_of_forall₂ (fun _ _ he => NavigationEvent.toJson_eq_normalForm he) hes]
    rfl

theorem DescribedBy.yields (h : s.DescribedBy f) : f.Yields Step.rules s.fields := by
  simp only [PageScope.fields, Fields.yields_cons]
  exact ⟨h.target_eq, h.timeout_eq, h.events_eq, Fields.yields_nil⟩

end PageScope

namespace FrameScope
variable {s : FrameScope}

theorem DescribedBy.frame_eq (h : s.DescribedBy f) :
    (s.frame.map fun is => Json.arr (is.map fun (i : Nat) => Json.int i)) =
      (f "frame").bind (Step.rules.apply "frame") := by
  have h := h.frame
  cases hs : s.frame with
  | none =>
    rw [hs] at h
    rw [show f "frame" = none from h]
    rfl
  | some is =>
    rw [hs] at h
    obtain ⟨xs, hxs, his⟩ := h
    rw [hxs, Option.map_some, Json.map_eq_map_of_forall₂ (fun _ _ hi => hi.integral_eq) his]
    rfl

theorem DescribedBy.yields (h : s.DescribedBy f) : f.Yields Step.rules s.fields := by
  simp only [FrameScope.fields, Fields.yields_cons]
  exact ⟨h.page.target_eq, h.frame_eq, h.page.timeout_eq, h.page.events_eq, Fields.yields_nil⟩

end FrameScope

theorem ElementScope.DescribedBy.selectors_eq {s : ElementScope} (h : s.DescribedBy f) :
    s.selectorsField.2 = (f "selectors").bind (Step.rules.apply "selectors") :=
  Fields.verbatim rfl h.selectors

/-- A name that was read is written again, and an empty one, which names nothing, goes. -/
theorem Fields.Names.written_eq {α : Type} {all : List α} {name : α → Text} {key : Text}
    {o : Option α} (h : f.Names (fun t => all.find? fun a => name a = t) key o) :
    (o.map fun a => Json.str (name a)) = (f key).bind Json.unlessEmpty := by
  cases o with
  | none =>
    rcases h with h | h <;> rw [h] <;> rfl
  | some a =>
    obtain ⟨t, hfield, hne, ha⟩ := h
    have hname := List.find?_some (show (all.find? fun a => name a = t) = some a from ha)
    obtain rfl : name a = t := of_decide_eq_true hname
    rw [hfield, Option.map_some, Option.bind_some, Json.unlessEmpty]
    exact fun hnil => hne (Json.str.inj hnil)

theorem Press.DescribedBy.yields {p : Press} (h : p.DescribedBy f) :
    f.Yields Step.rules p.fields := by
  simp only [Press.fields, Fields.yields_cons]
  exact ⟨Fields.verbatim rfl h.offsetX.1, Fields.verbatim rfl h.offsetY.1,
    Fields.verbatim rfl h.duration.1, h.deviceType.written_eq, h.button.written_eq,
    Fields.yields_nil⟩

theorem Viewport.DescribedBy.yields {v : Viewport} (h : v.DescribedBy f) :
    f.Yields Step.rules v.fields := by
  simp only [Viewport.fields, Fields.yields_cons]
  exact ⟨Fields.verbatim rfl h.width.1, Fields.verbatim rfl h.height.1,
    Fields.verbatim rfl h.deviceScaleFactor.1, Fields.verbatim rfl h.isMobile,
    Fields.verbatim rfl h.hasTouch, Fields.verbatim rfl h.isLandscape, Fields.yields_nil⟩

theorem ElementWait.DescribedBy.yields {w : ElementWait} (h : w.DescribedBy f) :
    f.Yields Step.rules w.fields := by
  simp only [ElementWait.fields, Fields.yields_cons]
  exact ⟨h.operator.written_eq, Fields.verbatim rfl h.count.1, Fields.verbatim rfl h.visible,
    Fields.verbatim rfl h.attributes, Fields.verbatim rfl h.properties, Fields.yields_nil⟩

end Parts

namespace Step

/-- The fields of a step are those it was read from, as the rules leave them. -/
theorem DescribedBy.yields {s : Step} {ms : List (Text × Json)}
    (h : s.DescribedBy (Json.fields ms)) : (Json.fields ms).Yields rules s.fields := by
  cases s with
  | change scope value =>
    simp only [fields, Fields.yields_cons]
    exact ⟨h.1.selectors_eq, Fields.verbatim rfl h.2, h.1.scope.yields⟩
  | click scope press | doubleClick scope press =>
    simp only [fields, Fields.yields_cons, Fields.yields_append, List.cons_append]
    exact ⟨h.1.selectors_eq, h.2.yields, h.1.scope.yields⟩
  | close scope => exact PageScope.DescribedBy.yields h
  | customStep scope name parameters =>
    obtain ⟨hscope, hname, hparameters⟩ := h
    have hvalue : Json.fields ms "parameters" = parameters.nonNull? := by
      rw [← hparameters]
      cases hv : Json.fields ms "parameters" with
      | none => rfl
      | some v =>
        have hne := Json.fields_ne_null ms "parameters"
        cases v with
        | null => exact absurd hv hne
        | _ => rfl
    simp only [fields, Fields.yields_cons]
    exact ⟨Fields.verbatim rfl hname, Fields.verbatim rfl hvalue, hscope.yields⟩
  | emulateNetworkConditions scope download upload latency =>
    obtain ⟨hscope, hdownload, hupload, hlatency⟩ := h
    simp only [fields, Fields.yields_cons]
    exact ⟨Fields.verbatim rfl hdownload.1, Fields.verbatim rfl hupload.1,
      Fields.verbatim rfl hlatency.1, hscope.yields⟩
  | hover scope =>
    simp only [fields, Fields.yields_cons]
    exact ⟨ElementScope.DescribedBy.selectors_eq h, h.scope.yields⟩
  | keyDown scope text | keyUp scope text | navigate scope text =>
    simp only [fields, Fields.yields_cons]
    exact ⟨Fields.verbatim rfl h.2, h.1.yields⟩
  | scroll scope x y selectors =>
    obtain ⟨hscope, hx, hy, hselectors⟩ := h
    simp only [fields, Fields.yields_cons]
    exact ⟨Fields.verbatim rfl hx.1, Fields.verbatim rfl hy.1, Fields.verbatim rfl hselectors,
      hscope.yields⟩
  | setViewport scope viewport =>
    simp only [fields, Fields.yields_append]
    exact ⟨h.2.yields, h.1.yields⟩
  | waitForElement scope wait =>
    simp only [fields, Fields.yields_cons, Fields.yields_append, List.cons_append]
    exact ⟨h.1.selectors_eq, h.2.yields, h.1.scope.yields⟩
  | waitForExpression scope expression =>
    simp only [fields, Fields.yields_cons]
    exact ⟨Fields.verbatim rfl h.2, h.1.yields⟩

/-- A step that was read is written as the part of its object under the keys of its type. -/
theorem toJson_eq_restrict {index : Option Int} {v : Json} {s : Step} (h : ofJson index v = .ok s) :
    ∃ ms, v = .obj ms ∧ Json.fields ms "type" = some (.str s.type.name) ∧
      s.toJson = Json.restrict rules ("type" :: s.type.keys) ms := by
  obtain ⟨ms, rfl, htype, hdescribed⟩ := ofJson_eq_ok_iff.mp h
  have hyields : (Json.fields ms).Yields rules (("type", some (.str s.type.name)) :: s.fields) :=
    Fields.yields_cons.mpr ⟨Fields.verbatim rfl htype, hdescribed.yields⟩
  refine ⟨ms, rfl, htype, ?_⟩
  rw [toJson, Json.ofFields_eq_restrict hyields, List.map_cons, map_fst_fields]

theorem toJson_eq_normalForm {index : Option Int} {v : Json} {s : Step}
    (h : ofJson index v = .ok s) : s.toJson = normalForm v := by
  obtain ⟨ms, rfl, htype, hpart⟩ := toJson_eq_restrict h
  rw [hpart, normalForm, htype, Option.bind_some, StepType.ofJson?, StepType.ofName?_name]

end Step

namespace Recording

/-- A recording that was read is written as the part of its object under the keys of recordings. -/
theorem toJson_eq_restrict {v : Json} {r : Recording} (h : ofJson v = .ok r) :
    ∃ ms, v = .obj ms ∧ r.toJson = Json.restrict rules keys ms := by
  obtain ⟨ms, rfl, hdescribed⟩ := ofJson_eq_ok_iff.mp h
  obtain ⟨xs, hxs, hread⟩ := hdescribed.steps
  have hattribute : r.selectorAttribute.map Json.str =
      (Json.fields ms "selectorAttribute").bind Json.onlyText := by
    rw [← hdescribed.selectorAttribute, selectorAttributeOfFields]
    split
    · next t ht => rw [ht]; rfl
    · next hne => rw [Json.bind_onlyText_eq_none hne]; rfl
  have hsteps : r.steps.map Step.toJson = xs.map Step.normalForm :=
    Json.map_eq_map_of_forall₂ (fun _ _ hx => Step.toJson_eq_normalForm hx) hread
  refine ⟨ms, rfl, Json.ofFields_eq_restrict ?_⟩
  simp only [Fields.yields_cons]
  refine ⟨Fields.verbatim rfl hdescribed.title, Fields.verbatim rfl hdescribed.timeout.1,
    hattribute, ?_, Fields.yields_nil⟩
  rw [hxs, hsteps]
  rfl

/-- Nothing is lost and nothing invented: a step that was read is written as the part of its object
that the keys of its type make up, and a recording as the part that its own keys make up, with the
normal form of every step. -/
theorem isPart_toJson :
    (∀ index v s, Step.ofJson index v = .ok s →
      Json.IsPart Step.rules ("type" :: s.type.keys) v s.toJson) ∧
    ∀ v r, ofJson v = .ok r → Json.IsPart rules keys v r.toJson := by
  constructor
  · intro index v s h
    obtain ⟨ms, rfl, -, hpart⟩ := Step.toJson_eq_restrict h
    rw [hpart]
    exact Json.isPart_restrict s.type.nodup_keys ms
  · intro v r h
    obtain ⟨ms, rfl, hpart⟩ := toJson_eq_restrict h
    rw [hpart]
    exact Json.isPart_restrict (by decide) ms

/-- A visit with a timeout that is no number, a target that is no text, a key that no step has and
an event with a null. -/
def annotatedVisit : List (Text × Json) :=
  [("type", .str "navigate"), ("timeout", .nonFinite .nan), ("url", .str "/"),
    ("target", .bool true), ("note", .num 1),
    ("assertedEvents", .arr [.obj [("type", .str "navigation"), ("title", .null),
      ("status", .num 200), ("url", .str "/a")]])]

def plainVisit : Step := .navigate ⟨none, none, some [⟨some "/a", none⟩]⟩ "/"

theorem ofJson_annotatedVisit (index : Option Int) :
    Step.ofJson index (.obj annotatedVisit) = .ok plainVisit := rfl

theorem isPart_toJson_plainVisit :
    (Step.ofJson none (.obj annotatedVisit) = .ok plainVisit ∧
      Json.IsPart Step.rules ("type" :: StepType.navigate.keys) (.obj annotatedVisit)
        plainVisit.toJson) ∧
    ofJson (.obj [("title", .str []), ("steps", .arr [.obj annotatedVisit]), ("id", .num 7)]) =
        .ok ⟨[], [plainVisit], none, none⟩ ∧
      Json.IsPart rules keys
        (.obj [("title", .str []), ("steps", .arr [.obj annotatedVisit]), ("id", .num 7)])
        (toJson ⟨[], [plainVisit], none, none⟩) :=
  ⟨⟨ofJson_annotatedVisit none, isPart_toJson.1 none _ _ (ofJson_annotatedVisit none)⟩,
    rfl, isPart_toJson.2 _ _ rfl⟩

end Recording

end FlowScript
