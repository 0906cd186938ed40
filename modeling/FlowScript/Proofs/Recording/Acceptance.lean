import FlowScript.Proofs.Recording.Reading
import FlowScript.Proofs.Recording.Schema

/-!
# What is accepted as a step

A step can be read from a value exactly when the value has the schema of a step, provided that no
integer in it is too large to be judged.
-/
namespace FlowScript

/-- No field holds an integer too large to be judged. -/
def Fields.Bounded (f : Fields) : Prop := ∀ name v, f name = some v → v.Bounded

/-- A name names a value exactly when it is one of the names of all values. -/
theorem exists_find?_name_iff {α : Type} {name : α → Text} {all : List α} {t : Text} :
    (∃ a, (all.find? fun a => name a = t) = some a) ↔ t ∈ all.map name := by
  rw [← Option.isSome_iff_exists, List.find?_isSome, List.mem_map]
  simp only [decide_eq_true_eq]

theorem PointerDevice.exists_ofName?_iff (t : Text) :
    (∃ d, ofName? t = some d) ↔ t ∈ (["mouse", "pen", "touch"] : List Text) :=
  exists_find?_name_iff

theorem MouseButton.exists_ofName?_iff (t : Text) : (∃ b, ofName? t = some b) ↔
    t ∈ (["primary", "auxiliary", "secondary", "back", "forward"] : List Text) :=
  exists_find?_name_iff

theorem WaitOperator.exists_ofName?_iff (t : Text) :
    (∃ o, ofName? t = some o) ↔ t ∈ ([">=", "==", "<="] : List Text) :=
  exists_find?_name_iff

namespace Schema
variable {f : Fields} {name : Text} {p : Text × Rule} {rules rules' : List (Text × Rule)}

theorem holds_cons : Holds (p :: rules) f ↔ p.2 (f p.1) ∧ Holds rules f :=
  List.forall_mem_cons

theorem holds_nil : Holds [] f := nofun

theorem holds_append : Holds (rules ++ rules') f ↔ Holds rules f ∧ Holds rules' f :=
  List.forall_mem_append

theorem optional_none {shape : Json → Prop} : optional shape none := nofun

theorem optional_some {shape : Json → Prop} {v : Json} : optional shape (some v) ↔ shape v := by
  simp [optional]

theorem isText_iff {v : Json} : IsText v ↔ ∃ t, v = .str t := Iff.rfl

theorem isNumber_iff {v : Json} : IsNumber v ↔ ∃ n, v = .num n := Iff.rfl

theorem isBoolean_iff {v : Json} : IsBoolean v ↔ ∃ b, v = .bool b := Iff.rfl

section Values

theorem exists_text_iff : (∃ t, f name = some (.str t)) ↔ required IsText (f name) := by
  constructor
  · rintro ⟨t, h⟩
    exact ⟨_, h, t, rfl⟩
  · rintro ⟨_, h, t, rfl⟩
    exact ⟨t, h⟩

theorem exists_boolean_iff : (∃ b, f name = some (.bool b)) ↔ required IsBoolean (f name) := by
  constructor
  · rintro ⟨b, h⟩
    exact ⟨_, h, b, rfl⟩
  · rintro ⟨_, h, b, rfl⟩
    exact ⟨b, h⟩

/-- An optional field is absent or holds what is written for a value. -/
theorem exists_map_iff {α : Type} {write : α → Json} {shape : Json → Prop}
    (h : ∀ v, shape v ↔ ∃ a, v = write a) :
    (∃ o : Option α, f name = o.map write) ↔ optional shape (f name) := by
  constructor
  · rintro ⟨o, ho⟩ v hv
    rw [ho] at hv
    obtain ⟨a, -, ha⟩ := Option.map_eq_some_iff.mp hv
    exact (h v).mpr ⟨a, ha.symm⟩
  · intro ho
    cases hf : f name with
    | none => exact ⟨none, rfl⟩
    | some v =>
      obtain ⟨a, ha⟩ := (h v).mp (ho v hf)
      exact ⟨some a, congrArg some ha⟩

theorem exists_holdsNumber_iff (hf : f.Bounded) :
    (∃ n, f.HoldsNumber name (some n)) ↔ required IsNumber (f name) := by
  simp only [Fields.holdsNumber_some]
  constructor
  · rintro ⟨n, h, -⟩
    exact ⟨_, h, n, rfl⟩
  · rintro ⟨_, h, n, rfl⟩
    exact ⟨n, h, (hf name _ h).isJudged⟩

theorem exists_holdsNumber?_iff (hf : f.Bounded) :
    (∃ o, f.HoldsNumber name o) ↔ optional IsNumber (f name) := by
  rw [← exists_map_iff fun _ => isNumber_iff]
  constructor
  · rintro ⟨o, h, -⟩
    exact ⟨o, h⟩
  · rintro ⟨o, h⟩
    refine ⟨o, h, fun n hn => (hf name _ ?_).isJudged⟩
    rw [h, Option.mem_def.mp hn]
    rfl

theorem exists_names_iff {α : Type} {ofName? : Text → Option α} {names : List Text}
    (hnames : ∀ t, (∃ a, ofName? t = some a) ↔ t ∈ names) :
    (∃ o, f.Names ofName? name o) ↔ optional (IsChoice names) (f name) := by
  constructor
  · rintro ⟨o, h⟩ v hv
    cases o with
    | none =>
      rcases h with h | h
      · exact nomatch hv.symm.trans h
      · obtain rfl := Option.some.inj (hv.symm.trans h)
        exact ⟨[], rfl, .inl rfl⟩
    | some a =>
      obtain ⟨t, h, -, ha⟩ := h
      obtain rfl := Option.some.inj (hv.symm.trans h)
      exact ⟨t, rfl, .inr ((hnames t).mp ⟨a, ha⟩)⟩
  · intro h
    cases hf : f name with
    | none => exact ⟨none, .inl hf⟩
    | some v =>
      obtain ⟨t, rfl, ht⟩ := h v hf
      by_cases hnil : t = []
      · exact ⟨none, .inr (hnil ▸ hf)⟩
      · obtain ⟨a, ha⟩ := (hnames t).mpr (ht.resolve_left hnil)
        exact ⟨some a, t, hf, hnil, ha⟩

end Values

section Parts

theorem exists_forall₂_iff {α β : Type} {R : α → β → Prop} {xs : List α} :
    (∃ ys, List.Forall₂ R xs ys) ↔ ∀ x ∈ xs, ∃ y, R x y := by
  induction xs with
  | nil => exact ⟨fun _ _ h => absurd h List.not_mem_nil, fun _ => ⟨[], .nil⟩⟩
  | cons x xs ih =>
    rw [List.forall_mem_cons, ← ih]
    constructor
    · rintro ⟨_, _ | ⟨hx, hxs⟩⟩
      exact ⟨⟨_, hx⟩, _, hxs⟩
    · rintro ⟨⟨y, hx⟩, ys, hxs⟩
      exact ⟨y :: ys, .cons hx hxs⟩

theorem exists_eq_map_iff {α β : Type} {write : α → β} {xs : List β} :
    (∃ ys, xs = List.map write ys) ↔ ∀ x ∈ xs, ∃ y, x = write y := by
  rw [← exists_forall₂_iff]
  simp only [← List.forall₂_map_right_iff, List.forall₂_eq_eq_eq]

/-- Lists, not empty, of written values are those with a first one. -/
theorem isListOf_iff {α : Type} {write : α → Json} {shape : Json → Prop}
    (h : ∀ v, shape v ↔ ∃ a, v = write a) {v : Json} :
    IsListOf shape v ↔ ∃ a as, v = .arr ((a :: as).map write) := by
  constructor
  · rintro ⟨xs, rfl, hne, hxs⟩
    obtain ⟨as, rfl⟩ := exists_eq_map_iff.mpr fun x hx => (h x).mp (hxs x hx)
    cases as with
    | nil => exact absurd rfl hne
    | cons a as => exact ⟨a, as, rfl⟩
  · rintro ⟨a, as, rfl⟩
    exact ⟨_, rfl, nofun, fun x hx => (h x).mpr (exists_eq_map_iff.mp ⟨_, rfl⟩ x hx)⟩

theorem isSelector_iff {v : Json} : IsSelector v ↔ ∃ s : Selector, v = s.toJson := by
  rw [IsSelector, isListOf_iff fun _ => isText_iff]
  constructor
  · rintro (⟨part, rfl⟩ | ⟨first, inner, rfl⟩)
    · exact ⟨.plain part, rfl⟩
    · exact ⟨.chain first inner, rfl⟩
  · rintro ⟨s, rfl⟩
    cases s with
    | plain part => exact .inl ⟨part, rfl⟩
    | chain first inner => exact .inr ⟨first, inner, rfl⟩

theorem isSelectors_iff {v : Json} : IsListOf IsSelector v ↔ ∃ a : Alternatives, v = a.toJson := by
  rw [isListOf_iff fun _ => isSelector_iff]
  constructor
  · rintro ⟨best, others, rfl⟩
    exact ⟨⟨best, others⟩, rfl⟩
  · rintro ⟨a, rfl⟩
    exact ⟨a.best, a.others, rfl⟩

theorem isEvent_iff {v : Json} : IsEvent v ↔ ∃ e : NavigationEvent, e.DescribedBy v := by
  simp only [IsEvent, ← exists_map_iff fun _ => isText_iff]
  constructor
  · rintro ⟨ms, rfl, htype, ⟨url, hurl⟩, title, htitle⟩
    exact ⟨⟨url, title⟩, ms, rfl, htype, hurl, htitle⟩
  · rintro ⟨e, ms, rfl, htype, hurl, htitle⟩
    exact ⟨ms, rfl, htype, ⟨e.url, hurl⟩, e.title, htitle⟩

theorem exists_timeoutIn_iff (hf : f.Bounded) :
    (∃ o, PageScope.TimeoutIn f o) ↔ optional IsTimeout (f "timeout") := by
  have hbounds (n : Number) : n.isTimeout = true ↔ 1 ≤ n.value ∧ n.value ≤ 30000 := by
    simp [Number.isTimeout]
  constructor
  · rintro ⟨o, ho⟩ v hv n rfl
    cases o with
    | none => exact absurd hv (ho n)
    | some m =>
      obtain ⟨hm, -, htimeout⟩ := ho
      cases hv.symm.trans hm
      exact (hbounds n).mp htimeout
  · intro h
    by_cases hn : ∃ n, f "timeout" = some (.num n)
    · obtain ⟨n, hn⟩ := hn
      exact ⟨some n, hn, (hf _ _ hn).isJudged, (hbounds n).mpr (h _ hn n rfl)⟩
    · exact ⟨none, fun n h => hn ⟨n, h⟩⟩

theorem exists_eventsIn_iff :
    (∃ o, PageScope.EventsIn f o) ↔ optional IsEvents (f "assertedEvents") := by
  constructor
  · rintro ⟨o, ho⟩ v hv xs rfl x hx
    cases o with
    | none => exact absurd hv (ho xs)
    | some es =>
      obtain ⟨ys, hys, hes⟩ := ho
      cases hv.symm.trans hys
      exact isEvent_iff.mpr (exists_forall₂_iff.mp ⟨es, hes⟩ x hx)
  · intro h
    by_cases hxs : ∃ xs, f "assertedEvents" = some (.arr xs)
    · obtain ⟨xs, hxs⟩ := hxs
      obtain ⟨es, hes⟩ := exists_forall₂_iff.mpr fun x hx => isEvent_iff.mp (h _ hxs xs rfl x hx)
      exact ⟨some es, xs, hxs, hes⟩
    · exact ⟨none, fun xs h => hxs ⟨xs, h⟩⟩

theorem exists_targetIn (f : Fields) : ∃ o, PageScope.TargetIn f o :=
  ⟨_, PageScope.targetOfFields_eq_iff.mp rfl⟩

theorem isIndex_iff {v : Json} (hv : v.Bounded) : IsIndex v ↔ ∃ i, IsFrameIndex v i := by
  constructor
  · rintro ⟨n, rfl, hden, hnonneg⟩
    obtain ⟨i, hi⟩ := Number.exists_toNat?_iff.mpr ⟨hden, hnonneg⟩
    exact ⟨i, n, rfl, hv.isJudged, hi⟩
  · rintro ⟨i, n, rfl, -, hi⟩
    exact ⟨n, rfl, Number.exists_toNat?_iff.mp ⟨i, hi⟩⟩

theorem exists_frameIn_iff (hf : f.Bounded) :
    (∃ o, FrameScope.FrameIn f o) ↔ optional IsFrame (f "frame") := by
  constructor
  · rintro ⟨o, ho⟩ v hv
    cases o with
    | none => exact nomatch hv.symm.trans ho
    | some is =>
      obtain ⟨xs, hxs, his⟩ := ho
      cases hv.symm.trans hxs
      exact ⟨xs, rfl, fun x hx => (isIndex_iff ((hf _ _ hv).item hx)).mpr
        (exists_forall₂_iff.mp ⟨is, his⟩ x hx)⟩
  · intro h
    cases hv : f "frame" with
    | none => exact ⟨none, hv⟩
    | some v =>
      obtain ⟨xs, rfl, hxs⟩ := h v hv
      obtain ⟨is, his⟩ := exists_forall₂_iff.mpr fun x hx =>
        (isIndex_iff ((hf _ _ hv).item hx)).mp (hxs x hx)
      exact ⟨some is, xs, hv, his⟩

end Parts

section Scopes

theorem exists_pageScope_iff (hf : f.Bounded) :
    (∃ s : PageScope, s.DescribedBy f) ↔ Holds page f := by
  simp only [page, holds_cons, ← exists_timeoutIn_iff hf, ← exists_eventsIn_iff]
  constructor
  · rintro ⟨s, h⟩
    exact ⟨⟨_, h.timeout⟩, ⟨_, h.events⟩, holds_nil⟩
  · rintro ⟨⟨timeout, htimeout⟩, ⟨events, hevents⟩, -⟩
    obtain ⟨target, htarget⟩ := exists_targetIn f
    exact ⟨⟨target, timeout, events⟩, htimeout, hevents, htarget⟩

theorem exists_frameScope_iff (hf : f.Bounded) :
    (∃ s : FrameScope, s.DescribedBy f) ↔ Holds frame f := by
  simp only [frame, holds_cons, ← exists_frameIn_iff hf, ← exists_pageScope_iff hf]
  constructor
  · rintro ⟨s, h⟩
    exact ⟨⟨_, h.frame⟩, _, h.page⟩
  · rintro ⟨⟨frame, hframe⟩, page, hpage⟩
    exact ⟨⟨page, frame⟩, hpage, hframe⟩

theorem exists_selectors_iff :
    (∃ a : Alternatives, f "selectors" = some a.toJson) ↔
      required (IsListOf IsSelector) (f "selectors") := by
  constructor
  · rintro ⟨a, h⟩
    exact ⟨_, h, isSelectors_iff.mpr ⟨a, rfl⟩⟩
  · rintro ⟨v, h, hv⟩
    obtain ⟨a, rfl⟩ := isSelectors_iff.mp hv
    exact ⟨a, h⟩

theorem exists_elementScope_iff (hf : f.Bounded) :
    (∃ s : ElementScope, s.DescribedBy f) ↔ Holds element f := by
  simp only [element, holds_cons, ← exists_selectors_iff, ← exists_frameScope_iff hf]
  constructor
  · rintro ⟨s, h⟩
    exact ⟨⟨_, h.selectors⟩, _, h.scope⟩
  · rintro ⟨⟨selectors, hselectors⟩, scope, hscope⟩
    exact ⟨⟨scope, selectors⟩, hscope, hselectors⟩

theorem exists_press_iff (hf : f.Bounded) : (∃ p : Press, p.DescribedBy f) ↔ Holds press f := by
  simp only [press, holds_cons, ← exists_holdsNumber_iff hf, ← exists_holdsNumber?_iff hf,
    ← exists_names_iff PointerDevice.exists_ofName?_iff,
    ← exists_names_iff MouseButton.exists_ofName?_iff]
  constructor
  · rintro ⟨p, h⟩
    exact ⟨⟨_, h.offsetX⟩, ⟨_, h.offsetY⟩, ⟨_, h.duration⟩, ⟨_, h.deviceType⟩, ⟨_, h.button⟩,
      holds_nil⟩
  · rintro ⟨⟨_, hx⟩, ⟨_, hy⟩, ⟨_, hduration⟩, ⟨_, hdevice⟩, ⟨_, hbutton⟩, -⟩
    exact ⟨⟨_, _, _, _, _⟩, hx, hy, hduration, hdevice, hbutton⟩

theorem exists_viewport_iff (hf : f.Bounded) :
    (∃ v : Viewport, v.DescribedBy f) ↔ Holds viewport f := by
  simp only [viewport, holds_cons, ← exists_holdsNumber_iff hf, ← exists_boolean_iff]
  constructor
  · rintro ⟨v, h⟩
    exact ⟨⟨_, h.width⟩, ⟨_, h.height⟩, ⟨_, h.deviceScaleFactor⟩, ⟨_, h.isMobile⟩,
      ⟨_, h.hasTouch⟩, ⟨_, h.isLandscape⟩, holds_nil⟩
  · rintro ⟨⟨_, hwidth⟩, ⟨_, hheight⟩, ⟨_, hscale⟩, ⟨_, hmobile⟩, ⟨_, htouch⟩, ⟨_, hlandscape⟩, -⟩
    exact ⟨⟨_, _, _, _, _, _⟩, hwidth, hheight, hscale, hmobile, htouch, hlandscape⟩

theorem isTexts_iff {v : Json} :
    IsTexts v ↔ ∃ ms : List (Text × Text), v = .obj (ElementWait.textMembers ms) := by
  have hmember (m : Text × Json) : IsText m.2 ↔ ∃ a : Text × Text, m = (a.1, .str a.2) := by
    constructor
    · rintro ⟨t, ht⟩
      exact ⟨(m.1, t), Prod.ext rfl ht⟩
    · rintro ⟨a, rfl⟩
      exact ⟨a.2, rfl⟩
  simp only [IsTexts, hmember, ← exists_eq_map_iff]
  constructor
  · rintro ⟨_, rfl, as, rfl⟩
    exact ⟨as, rfl⟩
  · rintro ⟨as, rfl⟩
    exact ⟨_, rfl, as, rfl⟩

theorem exists_properties_iff : (∃ v, f "properties" = v.nonNull? ∧ ElementWait.IsProperties v) ↔
    optional IsStructured (f "properties") := by
  constructor
  · rintro ⟨v, h, hv⟩ w hw
    cases hv with
    | null => exact nomatch hw.symm.trans h
    | obj ms => exact .inl ⟨ms, Option.some.inj (hw.symm.trans h)⟩
    | arr xs => exact .inr ⟨xs, Option.some.inj (hw.symm.trans h)⟩
  · intro h
    cases hf : f "properties" with
    | none => exact ⟨.null, rfl, .null⟩
    | some v =>
      rcases h v hf with ⟨ms, rfl⟩ | ⟨xs, rfl⟩
      · exact ⟨.obj ms, rfl, .obj ms⟩
      · exact ⟨.arr xs, rfl, .arr xs⟩

theorem exists_wait_iff (hf : f.Bounded) :
    (∃ w : ElementWait, w.DescribedBy f) ↔ Holds wait f := by
  simp only [wait, holds_cons, ← exists_holdsNumber?_iff hf, ← exists_properties_iff,
    ← exists_names_iff WaitOperator.exists_ofName?_iff,
    ← exists_map_iff fun _ => isBoolean_iff,
    ← exists_map_iff fun _ => isTexts_iff]
  constructor
  · rintro ⟨w, h⟩
    exact ⟨⟨_, h.operator⟩, ⟨_, h.count⟩, ⟨_, h.visible⟩, ⟨_, h.attributes⟩,
      ⟨_, h.properties, h.isProperties⟩, holds_nil⟩
  · rintro ⟨⟨_, hoperator⟩, ⟨_, hcount⟩, ⟨_, hvisible⟩, ⟨_, hattributes⟩, ⟨_, hproperties, hp⟩, -⟩
    exact ⟨⟨_, _, _, _, _⟩, hoperator, hcount, hvisible, hattributes, hproperties, hp⟩

end Scopes

/-- What describes a step is allowed by the rules for its type. -/
theorem holds_of_describedBy (hf : f.Bounded) {s : Step} (h : s.DescribedBy f) :
    Holds (ofType s.type) f := by
  cases s with
  | change scope value =>
    exact holds_cons.mpr ⟨exists_text_iff.mp ⟨_, h.2⟩, (exists_elementScope_iff hf).mp ⟨_, h.1⟩⟩
  | click scope press | doubleClick scope press =>
    exact holds_append.mpr
      ⟨(exists_press_iff hf).mp ⟨_, h.2⟩, (exists_elementScope_iff hf).mp ⟨_, h.1⟩⟩
  | close scope => exact (exists_pageScope_iff hf).mp ⟨_, h⟩
  | customStep scope name parameters =>
    exact holds_cons.mpr
      ⟨exists_text_iff.mp ⟨_, h.2.1⟩, (exists_frameScope_iff hf).mp ⟨_, h.1⟩⟩
  | emulateNetworkConditions scope download upload latency =>
    obtain ⟨hscope, hdownload, hupload, hlatency⟩ := h
    simp only [Step.type, ofType, holds_cons, ← exists_holdsNumber_iff hf,
      ← exists_pageScope_iff hf]
    exact ⟨⟨_, hdownload⟩, ⟨_, hupload⟩, ⟨_, hlatency⟩, _, hscope⟩
  | hover scope => exact (exists_elementScope_iff hf).mp ⟨_, h⟩
  | keyDown scope text | keyUp scope text | navigate scope text =>
    exact holds_cons.mpr ⟨exists_text_iff.mp ⟨_, h.2⟩, (exists_pageScope_iff hf).mp ⟨_, h.1⟩⟩
  | scroll scope x y selectors =>
    obtain ⟨hscope, hx, hy, hselectors⟩ := h
    simp only [Step.type, ofType, holds_cons, ← exists_holdsNumber?_iff hf,
      ← exists_map_iff fun _ => isSelectors_iff, ← exists_frameScope_iff hf]
    exact ⟨⟨_, hx⟩, ⟨_, hy⟩, ⟨_, hselectors⟩, _, hscope⟩
  | setViewport scope viewport =>
    exact holds_append.mpr
      ⟨(exists_viewport_iff hf).mp ⟨_, h.2⟩, (exists_pageScope_iff hf).mp ⟨_, h.1⟩⟩
  | waitForElement scope wait =>
    exact holds_append.mpr
      ⟨(exists_wait_iff hf).mp ⟨_, h.2⟩, (exists_elementScope_iff hf).mp ⟨_, h.1⟩⟩
  | waitForExpression scope expression =>
    exact holds_cons.mpr ⟨exists_text_iff.mp ⟨_, h.2⟩, (exists_frameScope_iff hf).mp ⟨_, h.1⟩⟩

/-- What the rules for a type allow describes a step of it. -/
theorem exists_describedBy_of_holds (hf : f.Bounded) {type : StepType}
    (h : Holds (ofType type) f) : ∃ s : Step, s.type = type ∧ s.DescribedBy f := by
  cases type with
  | change =>
    simp only [ofType, holds_cons, ← exists_text_iff, ← exists_elementScope_iff hf] at h
    obtain ⟨⟨value, hvalue⟩, scope, hscope⟩ := h
    exact ⟨.change scope value, rfl, hscope, hvalue⟩
  | click =>
    simp only [ofType, holds_append, ← exists_press_iff hf, ← exists_elementScope_iff hf] at h
    obtain ⟨⟨press, hpress⟩, scope, hscope⟩ := h
    exact ⟨.click scope press, rfl, hscope, hpress⟩
  | close =>
    obtain ⟨scope, hscope⟩ := (exists_pageScope_iff hf).mpr h
    exact ⟨.close scope, rfl, hscope⟩
  | customStep =>
    simp only [ofType, holds_cons, ← exists_text_iff, ← exists_frameScope_iff hf] at h
    obtain ⟨⟨name, hname⟩, scope, hscope⟩ := h
    exact ⟨.customStep scope name _, rfl, hscope, hname, rfl⟩
  | doubleClick =>
    simp only [ofType, holds_append, ← exists_press_iff hf, ← exists_elementScope_iff hf] at h
    obtain ⟨⟨press, hpress⟩, scope, hscope⟩ := h
    exact ⟨.doubleClick scope press, rfl, hscope, hpress⟩
  | emulateNetworkConditions =>
    simp only [ofType, holds_cons, ← exists_holdsNumber_iff hf, ← exists_pageScope_iff hf] at h
    obtain ⟨⟨download, hdownload⟩, ⟨upload, hupload⟩, ⟨latency, hlatency⟩, scope, hscope⟩ := h
    exact ⟨.emulateNetworkConditions scope download upload latency, rfl, hscope, hdownload, hupload,
      hlatency⟩
  | hover =>
    obtain ⟨scope, hscope⟩ := (exists_elementScope_iff hf).mpr h
    exact ⟨.hover scope, rfl, hscope⟩
  | keyDown =>
    simp only [ofType, holds_cons, ← exists_text_iff, ← exists_pageScope_iff hf] at h
    obtain ⟨⟨key, hkey⟩, scope, hscope⟩ := h
    exact ⟨.keyDown scope key, rfl, hscope, hkey⟩
  | keyUp =>
    simp only [ofType, holds_cons, ← exists_text_iff, ← exists_pageScope_iff hf] at h
    obtain ⟨⟨key, hkey⟩, scope, hscope⟩ := h
    exact ⟨.keyUp scope key, rfl, hscope, hkey⟩
  | navigate =>
    simp only [ofType, holds_cons, ← exists_text_iff, ← exists_pageScope_iff hf] at h
    obtain ⟨⟨url, hurl⟩, scope, hscope⟩ := h
    exact ⟨.navigate scope url, rfl, hscope, hurl⟩
  | scroll =>
    simp only [ofType, holds_cons, ← exists_holdsNumber?_iff hf,
      ← exists_map_iff fun _ => isSelectors_iff, ← exists_frameScope_iff hf] at h
    obtain ⟨⟨x, hx⟩, ⟨y, hy⟩, ⟨selectors, hselectors⟩, scope, hscope⟩ := h
    exact ⟨.scroll scope x y selectors, rfl, hscope, hx, hy, hselectors⟩
  | setViewport =>
    simp only [ofType, holds_append, ← exists_viewport_iff hf, ← exists_pageScope_iff hf] at h
    obtain ⟨⟨viewport, hviewport⟩, scope, hscope⟩ := h
    exact ⟨.setViewport scope viewport, rfl, hscope, hviewport⟩
  | waitForElement =>
    simp only [ofType, holds_append, ← exists_wait_iff hf, ← exists_elementScope_iff hf] at h
    obtain ⟨⟨wait, hwait⟩, scope, hscope⟩ := h
    exact ⟨.waitForElement scope wait, rfl, hscope, hwait⟩
  | waitForExpression =>
    simp only [ofType, holds_cons, ← exists_text_iff, ← exists_frameScope_iff hf] at h
    obtain ⟨⟨expression, hexpression⟩, scope, hscope⟩ := h
    exact ⟨.waitForExpression scope expression, rfl, hscope, hexpression⟩

/-- A value is accepted as a step if and only if it has the schema of one. -/
theorem exists_step_iff_isStep {v : Json} (hv : v.Bounded) (index : Option Int) :
    (∃ s, Step.ofJson index v = .ok s) ↔ IsStep v := by
  simp only [Step.ofJson_eq_ok_iff, IsStep]
  constructor
  · rintro ⟨s, ms, rfl, htype, h⟩
    exact ⟨ms, s.type, rfl, htype, holds_of_describedBy (fun _ _ => hv.field) h⟩
  · rintro ⟨ms, type, rfl, htype, h⟩
    obtain ⟨s, rfl, hs⟩ := exists_describedBy_of_holds (fun _ _ => hv.field) h
    exact ⟨s, ms, rfl, htype, hs⟩

/-- A wait with an empty operator, a frame index that is a double and a field set to null. -/
def timedWait (timeout : Int) : List (Text × Json) :=
  [("type", .str "waitForElement"), ("timeout", .int timeout), ("visible", .null),
    ("selectors", .arr [.arr [.str "#host"]]), ("operator", .str []),
    ("frame", .arr [.num (.double .one)]),
    ("properties", .arr [])]

theorem bounded_timedWait {timeout : Int} (h : timeout.natAbs ≤ 30001) :
    (Json.obj (timedWait timeout)).Bounded := by
  intro n hn
  have hn : n = timeout := by simpa [timedWait, Json.int, Json.integers, Json.integersOfItems,
    Json.integersOfMembers] using hn
  rw [hn]
  exact h.trans_lt (by decide +kernel)

/-- Whatever the type, a timeout has to be in bounds. -/
theorem timeout_mem_ofType (type : StepType) :
    (("timeout" : Text), optional IsTimeout) ∈ ofType type := by
  cases type <;> simp [ofType, press, viewport, wait, element, frame, page]

theorem isStep_timedWait : IsStep (.obj (timedWait 30000)) := by
  refine ⟨_, .waitForElement, rfl, rfl, ?_⟩
  simp only [ofType, wait, element, frame, page, List.cons_append, List.nil_append, holds_cons]
  have hindex : IsIndex (.num (.double .one)) :=
    ⟨_, rfl, by decide, by decide⟩
  refine ⟨optional_some.mpr ⟨[], rfl, .inl rfl⟩, optional_none, optional_none, optional_none,
    optional_some.mpr (.inr ⟨[], rfl⟩), ?selectors, ?frame, ?timeout, optional_none, holds_nil⟩
  case selectors =>
    exact ⟨_, rfl, _, rfl, by simp, by simp [IsSelector, IsListOf, IsText]⟩
  case frame => exact optional_some.mpr ⟨_, rfl, by simpa using hindex⟩
  case timeout =>
    refine optional_some.mpr fun n hn => ?_
    cases hn
    decide

theorem exists_step_iff_isStep_timedWait :
    (∃ s, Step.ofJson none (.obj (timedWait 30000)) = .ok s) ∧
      ¬ ∃ s, Step.ofJson none (.obj (timedWait 30001)) = .ok s := by
  rw [exists_step_iff_isStep (bounded_timedWait (by decide)),
    exists_step_iff_isStep (bounded_timedWait (by decide))]
  refine ⟨isStep_timedWait, ?_⟩
  rintro ⟨ms, type, hms, htype, h⟩
  cases hms
  have htimeout := h _ (timeout_mem_ofType type) _ rfl _ rfl
  revert htimeout
  decide

end Schema

end FlowScript
