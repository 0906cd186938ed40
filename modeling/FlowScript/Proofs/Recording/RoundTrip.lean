import FlowScript.Proofs.Json.Number
import FlowScript.Proofs.Recording.Reading

/-!
# Reading what was written

Whatever was read and is written again reads as itself. A step that was read is described by the
fields it came from; the fields that are written for it describe it as well, although they can
differ from those it came from.
-/
namespace FlowScript

/-- The fields hold the listed values, and nothing where the list has no value. -/
def Fields.Carries (f : Fields) (fs : List (Text × Option Json)) : Prop :=
  ∀ p ∈ fs, f p.1 = p.2

namespace Fields
variable {f : Fields} {p : Text × Option Json} {fs gs : List (Text × Option Json)}

theorem carries_nil : f.Carries [] := nofun

theorem carries_cons : f.Carries (p :: fs) ↔ f p.1 = p.2 ∧ f.Carries fs :=
  List.forall_mem_cons

theorem carries_append : f.Carries (fs ++ gs) ↔ f.Carries fs ∧ f.Carries gs :=
  List.forall_mem_append

end Fields

namespace Json

/-- The members of an object with these fields. -/
def members (fs : List (Text × Option Json)) : List (Text × Json) :=
  fs.filterMap fun f => f.2.map fun v => (f.1, v)

theorem find?_members_of_notMem {name : Text} {fs : List (Text × Option Json)}
    (h : name ∉ fs.map Prod.fst) : find? name (members fs) = none := by
  induction fs with
  | nil => rfl
  | cons p fs ih =>
    obtain ⟨key, o⟩ := p
    simp only [List.map_cons, List.mem_cons, not_or] at h
    cases o with
    | none => exact ih h.2
    | some v =>
      change (if key = name then some v else find? name (members fs)) = none
      rw [if_neg (Ne.symm h.1), ih h.2]

theorem find?_members {name : Text} {o : Option Json} {fs : List (Text × Option Json)}
    (hkeys : (fs.map Prod.fst).Nodup) (h : (name, o) ∈ fs) : find? name (members fs) = o := by
  induction fs with
  | nil => exact absurd h List.not_mem_nil
  | cons p fs ih =>
    obtain ⟨key, w⟩ := p
    simp only [List.map_cons, List.nodup_cons] at hkeys
    rcases List.mem_cons.mp h with heq | hmem
    · cases heq
      cases o with
      | none =>
        change find? name (members fs) = none
        exact find?_members_of_notMem hkeys.1
      | some v => exact if_pos rfl
    · have hne : key ≠ name := fun hk => hkeys.1 (hk ▸ List.mem_map_of_mem hmem)
      cases w with
      | none => exact ih hkeys.2 hmem
      | some v =>
        change (if key = name then some v else find? name (members fs)) = o
        rw [if_neg hne, ih hkeys.2 hmem]

/-- An object with distinct keys and without nulls holds the fields it was made of. -/
theorem carries_members {fs : List (Text × Option Json)} (hkeys : (fs.map Prod.fst).Nodup)
    (hvalues : ∀ p ∈ fs, p.2 ≠ some .null) : (fields (members fs)).Carries fs := by
  rintro ⟨name, o⟩ h
  rw [fields, find?_members hkeys h]
  cases o with
  | none => rfl
  | some v =>
    cases v with
    | null => exact absurd rfl (hvalues _ h)
    | _ => rfl

theorem nonNull?_ne_null (v : Json) : v.nonNull? ≠ some .null := by
  cases v <;> simp [nonNull?]

theorem getD_nonNull? (v : Json) : v.nonNull?.getD .null = v := by
  cases v <;> rfl

end Json

/-- If writing what was read reads as the same, element by element, so it does for whole lists. -/
theorem forall₂_map_self {α β : Type} {R : α → β → Prop} {write : β → α}
    (h : ∀ x y, R x y → R (write y) y) {xs : List α} {ys : List β} (hread : List.Forall₂ R xs ys) :
    List.Forall₂ R (ys.map write) ys := by
  induction hread with
  | nil => exact .nil
  | cons hx _ ih => exact .cons (h _ _ hx) ih

/-- A child index is written as an integer, whichever number it was read from. -/
theorem IsFrameIndex.int {v : Json} {i : Nat} (h : IsFrameIndex v i) :
    IsFrameIndex (Json.int i) i := by
  obtain ⟨n, -, hjudged, hnat⟩ := h
  have hnum := Number.num_eq_of_toNat? hnat
  refine ⟨.int i, rfl, ?_, Number.toNat?_int i⟩
  cases n with
  | int k =>
    have hk : k = i := by simpa [Number.value, Rat.mkRat_one] using hnum
    exact hk ▸ hjudged
  | double d =>
    have hlt := d.natAbs_num_value_lt
    rw [show d.value.num = i from hnum] at hlt
    exact hlt

section Names
variable {α : Type} {ofName? : Text → Option α} {name : α → Text} {g : Fields} {key : Text}

/-- A value is read back from its name, which is never empty. -/
theorem Fields.names_of_carries (hread : ∀ a, ofName? (name a) = some a) (hne : ∀ a, name a ≠ [])
    {o : Option α} (h : g key = o.map fun a => .str (name a)) : g.Names ofName? key o := by
  cases o with
  | none => exact .inl h
  | some a => exact ⟨name a, h, hne a, hread a⟩

theorem PointerDevice.name_ne_nil (d : PointerDevice) : d.name ≠ [] := by
  cases d <;> decide

theorem MouseButton.name_ne_nil (b : MouseButton) : b.name ≠ [] := by
  cases b <;> decide +kernel

theorem WaitOperator.name_ne_nil (o : WaitOperator) : o.name ≠ [] := by
  cases o <;> decide

end Names

section Rewritten
variable {f g : Fields}

theorem NavigationEvent.carries_toJson (e : NavigationEvent) : ∃ ms, e.toJson = .obj ms ∧
    (Json.fields ms).Carries [("type", some (.str "navigation")), ("url", e.url.map .str),
      ("title", e.title.map .str)] := by
  refine ⟨_, rfl, Json.carries_members ?_ ?_⟩
  · simp only [List.map_cons, List.map_nil]
    decide
  · simp

theorem NavigationEvent.describedBy_toJson (e : NavigationEvent) : e.DescribedBy e.toJson := by
  obtain ⟨ms, hms, h⟩ := e.carries_toJson
  simp only [Fields.carries_cons] at h
  obtain ⟨htype, hurl, htitle, -⟩ := h
  exact ⟨ms, hms, htype, hurl, htitle⟩

theorem PageScope.DescribedBy.rewritten {s : PageScope} (h : s.DescribedBy f)
    (hg : g.Carries s.fields) : s.DescribedBy g := by
  simp only [PageScope.fields, Fields.carries_cons, targetField, timeoutField, eventsField] at hg
  obtain ⟨htarget, htimeout, hevents, -⟩ := hg
  refine ⟨?timeout, ?events, ?target⟩
  case timeout =>
    have h := h.timeout
    cases ht : s.timeout with
    | none => simp [TimeoutIn, htimeout, ht]
    | some n =>
      rw [ht] at h htimeout
      exact ⟨htimeout, h.2⟩
  case events =>
    cases he : s.assertedEvents with
    | none => simp [EventsIn, hevents, he]
    | some es =>
      rw [he] at hevents
      refine ⟨_, hevents, ?_⟩
      rw [List.forall₂_map_left_iff, List.forall₂_same]
      exact fun e _ => e.describedBy_toJson
  case target =>
    cases ht : s.target with
    | none => simp [TargetIn, htarget, ht]
    | some t => simp [TargetIn, htarget, ht]

theorem FrameScope.DescribedBy.rewritten {s : FrameScope} (h : s.DescribedBy f)
    (hg : g.Carries s.fields) : s.DescribedBy g := by
  simp only [FrameScope.fields, Fields.carries_cons] at hg
  obtain ⟨htarget, hframe, htimeout, hevents, -⟩ := hg
  refine ⟨h.page.rewritten ?_, ?_⟩
  · simp only [PageScope.fields, Fields.carries_cons]
    exact ⟨htarget, htimeout, hevents, Fields.carries_nil⟩
  · have h := h.frame
    cases hs : s.frame with
    | none =>
      rw [hs] at hframe
      exact hframe
    | some is =>
      rw [hs] at h hframe
      obtain ⟨xs, -, his⟩ := h
      exact ⟨_, hframe, forall₂_map_self (fun _ _ hi => hi.int) his⟩

theorem ElementScope.DescribedBy.rewritten {s : ElementScope} (h : s.DescribedBy f)
    (hselectors : g s.selectorsField.1 = s.selectorsField.2)
    (hg : g.Carries s.toFrameScope.fields) : s.DescribedBy g :=
  ⟨h.scope.rewritten hg, hselectors⟩

theorem Press.DescribedBy.rewritten {p : Press} (h : p.DescribedBy f) (hg : g.Carries p.fields) :
    p.DescribedBy g := by
  simp only [Press.fields, Fields.carries_cons] at hg
  obtain ⟨hx, hy, hduration, hdevice, hbutton, -⟩ := hg
  exact ⟨⟨hx, h.offsetX.2⟩, ⟨hy, h.offsetY.2⟩, ⟨hduration, h.duration.2⟩,
    Fields.names_of_carries PointerDevice.ofName?_name PointerDevice.name_ne_nil hdevice,
    Fields.names_of_carries MouseButton.ofName?_name MouseButton.name_ne_nil hbutton⟩

theorem Viewport.DescribedBy.rewritten {v : Viewport} (h : v.DescribedBy f)
    (hg : g.Carries v.fields) : v.DescribedBy g := by
  simp only [Viewport.fields, Fields.carries_cons] at hg
  obtain ⟨hwidth, hheight, hscale, hmobile, htouch, hlandscape, -⟩ := hg
  exact ⟨⟨hwidth, h.width.2⟩, ⟨hheight, h.height.2⟩, ⟨hscale, h.deviceScaleFactor.2⟩, hmobile,
    htouch, hlandscape⟩

theorem ElementWait.DescribedBy.rewritten {w : ElementWait} (h : w.DescribedBy f)
    (hg : g.Carries w.fields) : w.DescribedBy g := by
  simp only [ElementWait.fields, Fields.carries_cons] at hg
  obtain ⟨hoperator, hcount, hvisible, hattributes, hproperties, -⟩ := hg
  exact ⟨Fields.names_of_carries WaitOperator.ofName?_name WaitOperator.name_ne_nil hoperator,
    ⟨hcount, h.count.2⟩, hvisible, hattributes, hproperties, h.isProperties⟩

end Rewritten

namespace StepType

/-- The keys of a step besides its type, in their order. -/
def keys : StepType → List Text
  | change => ["selectors", "value", "target", "frame", "timeout", "assertedEvents"]
  | click | doubleClick =>
    ["selectors", "offsetX", "offsetY", "duration", "deviceType", "button", "target", "frame",
      "timeout", "assertedEvents"]
  | close => ["target", "timeout", "assertedEvents"]
  | customStep => ["name", "parameters", "target", "frame", "timeout", "assertedEvents"]
  | emulateNetworkConditions =>
    ["download", "upload", "latency", "target", "timeout", "assertedEvents"]
  | hover => ["selectors", "target", "frame", "timeout", "assertedEvents"]
  | keyDown | keyUp => ["key", "target", "timeout", "assertedEvents"]
  | navigate => ["url", "target", "timeout", "assertedEvents"]
  | scroll => ["x", "y", "selectors", "target", "frame", "timeout", "assertedEvents"]
  | setViewport =>
    ["width", "height", "deviceScaleFactor", "isMobile", "hasTouch", "isLandscape", "target",
      "timeout", "assertedEvents"]
  | waitForElement =>
    ["selectors", "operator", "count", "visible", "attributes", "properties", "target", "frame",
      "timeout", "assertedEvents"]
  | waitForExpression => ["expression", "target", "frame", "timeout", "assertedEvents"]

theorem nodup_keys (k : StepType) : (("type" : Text) :: k.keys).Nodup := by
  cases k <;> decide

end StepType

namespace Step
variable {f g : Fields}

/-- A step is described by its own fields if it was read at all. -/
theorem DescribedBy.rewritten {s : Step} (h : s.DescribedBy f) (hg : g.Carries s.fields) :
    s.DescribedBy g := by
  cases s with
  | change scope value =>
    simp only [fields, Fields.carries_cons] at hg
    obtain ⟨hselectors, hvalue, hscope⟩ := hg
    exact ⟨h.1.rewritten hselectors hscope, hvalue⟩
  | click scope press | doubleClick scope press =>
    simp only [fields, Fields.carries_cons, Fields.carries_append, List.cons_append] at hg
    obtain ⟨hselectors, hpress, hscope⟩ := hg
    exact ⟨h.1.rewritten hselectors hscope, h.2.rewritten hpress⟩
  | close scope => exact PageScope.DescribedBy.rewritten h hg
  | customStep scope name parameters =>
    simp only [fields, Fields.carries_cons] at hg
    obtain ⟨hname, hparameters, hscope⟩ := hg
    refine ⟨h.1.rewritten hscope, hname, ?_⟩
    rw [hparameters, Json.getD_nonNull?]
  | emulateNetworkConditions scope download upload latency =>
    simp only [fields, Fields.carries_cons] at hg
    obtain ⟨hdownload, hupload, hlatency, hscope⟩ := hg
    exact ⟨h.1.rewritten hscope, ⟨hdownload, h.2.1.2⟩, ⟨hupload, h.2.2.1.2⟩,
      ⟨hlatency, h.2.2.2.2⟩⟩
  | hover scope =>
    simp only [fields, Fields.carries_cons] at hg
    exact ElementScope.DescribedBy.rewritten h hg.1 hg.2
  | keyDown scope text | keyUp scope text | navigate scope text =>
    simp only [fields, Fields.carries_cons] at hg
    exact ⟨h.1.rewritten hg.2, hg.1⟩
  | scroll scope x y selectors =>
    simp only [fields, Fields.carries_cons] at hg
    obtain ⟨hx, hy, hselectors, hscope⟩ := hg
    exact ⟨h.1.rewritten hscope, ⟨hx, h.2.1.2⟩, ⟨hy, h.2.2.1.2⟩, hselectors⟩
  | setViewport scope viewport =>
    simp only [fields, Fields.carries_append] at hg
    exact ⟨h.1.rewritten hg.2, h.2.rewritten hg.1⟩
  | waitForElement scope wait =>
    simp only [fields, Fields.carries_cons, Fields.carries_append, List.cons_append] at hg
    obtain ⟨hselectors, hwait, hscope⟩ := hg
    exact ⟨h.1.rewritten hselectors hscope, h.2.rewritten hwait⟩
  | waitForExpression scope expression =>
    simp only [fields, Fields.carries_cons] at hg
    exact ⟨h.1.rewritten hg.2, hg.1⟩

/-- A null would not be read as a value, but no field is written with one. -/
theorem ne_null_of_mem_fields {s : Step} : ∀ p ∈ s.fields, p.2 ≠ some .null := by
  cases s <;>
  simp [fields, ElementScope.selectorsField, Alternatives.toJson, FrameScope.fields,
      PageScope.fields, PageScope.targetField, PageScope.timeoutField, PageScope.eventsField,
      Press.fields, Viewport.fields, ElementWait.fields, or_imp, forall_and,
      Json.nonNull?_ne_null]

theorem map_fst_fields (s : Step) : s.fields.map Prod.fst = s.type.keys := by
  cases s <;> rfl

/-- The fields of a written step are those of the step. -/
theorem carries_toJson (s : Step) : ∃ ms, s.toJson = .obj ms ∧
    Json.fields ms "type" = some (.str s.type.name) ∧ (Json.fields ms).Carries s.fields := by
  refine ⟨_, rfl, Fields.carries_cons.mp (Json.carries_members ?_ ?_)⟩
  · rw [List.map_cons, map_fst_fields]
    exact s.type.nodup_keys
  · exact List.forall_mem_cons.mpr ⟨nofun, ne_null_of_mem_fields⟩

theorem ofJson_toJson {index index' : Option Int} {v : Json} {s : Step}
    (h : ofJson index v = .ok s) : ofJson index' s.toJson = .ok s := by
  obtain ⟨_, -, -, hdescribed⟩ := ofJson_eq_ok_iff.mp h
  obtain ⟨ms, hms, htype, hcarries⟩ := carries_toJson s
  exact ofJson_eq_ok_iff.mpr ⟨ms, hms, htype, hdescribed.rewritten hcarries⟩

end Step

namespace Recording

theorem carries_toJson (r : Recording) : ∃ ms, r.toJson = .obj ms ∧ (Json.fields ms).Carries
    [("title", some (.str r.title)), ("timeout", r.timeout.map .num),
      ("selectorAttribute", r.selectorAttribute.map .str),
      ("steps", some (.arr (r.steps.map Step.toJson)))] := by
  refine ⟨_, rfl, Json.carries_members ?_ ?_⟩
  · simp only [List.map_cons, List.map_nil]
    decide
  · simp

theorem ofJson_toJson {v : Json} {r : Recording} (h : ofJson v = .ok r) :
    ofJson r.toJson = .ok r := by
  obtain ⟨_, -, hdescribed⟩ := ofJson_eq_ok_iff.mp h
  obtain ⟨ms, hms, hcarries⟩ := carries_toJson r
  simp only [Fields.carries_cons] at hcarries
  obtain ⟨htitle, htimeout, hattribute, hsteps, -⟩ := hcarries
  obtain ⟨xs, -, hread⟩ := hdescribed.steps
  have hagain : List.Forall₂ (fun x s => Step.ofJson none x = .ok s) (r.steps.map Step.toJson)
      r.steps := by
    refine forall₂_map_self ?_ hread
    exact fun _ _ => Step.ofJson_toJson
  refine ofJson_eq_ok_iff.mpr ⟨ms, hms, htitle, ⟨htimeout, hdescribed.timeout.2⟩,
    hdescribed.isTimeout, ⟨_, hsteps, hagain⟩, ?_⟩
  cases ha : r.selectorAttribute with
  | none => simp [selectorAttributeOfFields, hattribute, ha]
  | some t => simp [selectorAttributeOfFields, hattribute, ha]

/-- A recording that was read, and each step that was read, is what reading its written form
gives. -/
theorem reread : (∀ v r, ofJson v = .ok r → ofJson r.toJson = .ok r) ∧
    ∀ index v s, Step.ofJson index v = .ok s →
      ∀ index', Step.ofJson index' s.toJson = .ok s :=
  ⟨fun _ _ h => ofJson_toJson h, fun _ _ _ h _ => Step.ofJson_toJson h⟩

/-- The members of a click of which reading drops a timeout, a target and an empty button, and
changes a frame index to an integer. -/
def blurredClick : List (Text × Json) :=
  [("type", .str "click"), ("timeout", .str "soon"), ("target", .null), ("button", .str ""),
    ("selectors", .arr [.arr [.str "#host", .str ""], .str ""]), ("offsetX", .num 1),
    ("offsetY", .num (.double (.zero true))), ("frame", .arr [.num (.double .one)]),
    ("assertedEvents", .arr [])]

/-- What is left of it. -/
def sharpClick : Step :=
  .click ⟨⟨⟨none, none, some []⟩, some [1]⟩, ⟨.chain "#host" [[]], [.plain []]⟩⟩
    ⟨1, .double (.zero true), none, none, none⟩

theorem describedBy_blurredClick : sharpClick.DescribedBy (Json.fields blurredClick) := by
  have htimeout : Json.fields blurredClick "timeout" = some (.str "soon") := rfl
  have htarget : Json.fields blurredClick "target" = none := rfl
  have hpage : PageScope.DescribedBy ⟨none, none, some []⟩ (Json.fields blurredClick) :=
    ⟨fun n => by simp [htimeout], ⟨[], rfl, .nil⟩, fun t => by simp [htarget]⟩
  have hindex : IsFrameIndex (.num (.double .one)) 1 :=
    ⟨_, rfl, trivial, by decide⟩
  have hpress : Press.DescribedBy ⟨1, .double (.zero true), none, none, none⟩
      (Json.fields blurredClick) :=
    ⟨Fields.holdsNumber_some.mpr ⟨rfl, by unfold Number.IsJudged; decide +kernel⟩,
      Fields.holdsNumber_some.mpr ⟨rfl, trivial⟩, ⟨rfl, by simp⟩, .inl rfl, .inr rfl⟩
  exact ⟨⟨⟨hpage, ⟨_, rfl, .cons hindex .nil⟩⟩, rfl⟩, hpress⟩

theorem reread_blurredClick :
    (ofJson (.obj [("title", .str []), ("steps", .arr [.obj blurredClick])]) =
        .ok ⟨[], [sharpClick], none, none⟩ ∧
      ofJson (toJson ⟨[], [sharpClick], none, none⟩) = .ok ⟨[], [sharpClick], none, none⟩) ∧
    Step.ofJson (some 0) (.obj blurredClick) = .ok sharpClick ∧
      Step.ofJson none sharpClick.toJson = .ok sharpClick := by
  have hstep (index : Option Int) : Step.ofJson index (.obj blurredClick) = .ok sharpClick :=
    Step.ofJson_eq_ok_iff.mpr ⟨_, rfl, rfl, describedBy_blurredClick⟩
  have hread : ofJson (.obj [("title", .str []), ("steps", .arr [.obj blurredClick])]) =
      .ok ⟨[], [sharpClick], none, none⟩ :=
    ofJson_eq_ok_iff.mpr ⟨_, rfl, rfl, ⟨rfl, by simp⟩, by simp,
      ⟨_, rfl, .cons (hstep none) .nil⟩, rfl⟩
  exact ⟨⟨hread, reread.1 _ _ hread⟩, hstep (some 0), reread.2 (some 0) _ _ (hstep _) none⟩

end Recording

end FlowScript
