import FlowScript.Proofs.Recording.Acceptance
import FlowScript.Script.Failure

/-!
# Reading as a sequence of checks

A step and a recording are read by one check after another, and the first that fails decides. So
reading ends in a value or in one of the three kinds of failure that callers are told of, except
where an integer too large to be judged is met before anything else is wrong.
-/
namespace FlowScript

section Reaches
variable {α : Type} {good bad : α → Prop} {xs ys : List α}

/-- Some element is bad, and those before it are good. -/
def Reaches (good bad : α → Prop) : List α → Prop
  | [] => False
  | x :: xs => bad x ∨ good x ∧ Reaches good bad xs

theorem reaches_append : Reaches good bad (xs ++ ys) ↔
    Reaches good bad xs ∨ (∀ x ∈ xs, good x) ∧ Reaches good bad ys := by
  induction xs with
  | nil => simp [Reaches]
  | cons x xs ih =>
    simp only [List.cons_append, Reaches, ih, List.forall_mem_cons]
    tauto

theorem not_reaches (h : ∀ x, ¬ bad x) : ¬ Reaches good bad xs := by
  induction xs with
  | nil => exact id
  | cons x xs ih => exact fun hxs => hxs.elim (h x) fun hxs => ih hxs.2

end Reaches

section Except
variable {ε α β : Type} {e : ε}

theorem bind_eq_error_iff {x : Except ε α} {g : α → Except ε β} :
    x >>= g = .error e ↔ x = .error e ∨ ∃ a, x = .ok a ∧ g a = .error e := by
  cases x <;> simp [bind, Except.bind]

theorem map_eq_error_iff {x : Except ε α} {g : α → β} : g <$> x = .error e ↔ x = .error e := by
  cases x <;> simp [Functor.map, Except.map]

@[simp] theorem pure_ne_error {a : α} : (pure a : Except ε α) ≠ .error e := nofun

@[simp] theorem throw_eq_error_iff {d : ε} : (throw d : Except ε α) = .error e ↔ d = e :=
  ⟨Except.error.inj, congrArg _⟩

/-- A list fails as its first element that fails. -/
theorem mapM_eq_error_iff {g : α → Except ε β} {xs : List α} : xs.mapM g = .error e ↔
    Reaches (fun x => ∃ b, g x = .ok b) (fun x => g x = .error e) xs := by
  induction xs with
  | nil => exact ⟨fun h => absurd h pure_ne_error, nofun⟩
  | cons x xs ih =>
    simp only [List.mapM_cons, bind_eq_error_iff, pure_ne_error, and_false, exists_false, or_false,
      ih, Reaches, exists_and_right]

end Except

/-- An integer too large to be judged. -/
def Json.IsLarge (v : Json) : Prop :=
  ∃ n : Int, v = .num (.int n) ∧ Double.overflowBound ≤ n.natAbs

theorem Json.isLarge_num {n : Number} : (num n).IsLarge ↔ ¬ n.IsJudged := by
  cases n with
  | int k => simp [IsLarge, Number.IsJudged]
  | double d => simp [IsLarge, Number.IsJudged]

theorem Json.finite?_eq_error_iff {v : Json} {d : Defect} :
    v.finite? = .error d ↔ v.IsLarge ∧ d = .integerTooLarge := by
  cases v with
  | num n =>
    cases n with
    | int k =>
      rw [finite?]
      split
      · next h => simp [IsLarge, h, eq_comm]
      · next h => simp [IsLarge, h]
    | double d => simp [finite?, IsLarge]
  | _ => simp [finite?, IsLarge]

/-- Judging a value goes wrong only if the value is too large. -/
theorem Json.finite?_bind_eq_large_iff {α : Type} {v : Json} {g : Option Number → Except Defect α}
    (hg : ∀ o, g o ≠ .error .integerTooLarge) :
    v.finite? >>= g = .error .integerTooLarge ↔ v.IsLarge := by
  simp only [bind_eq_error_iff, finite?_eq_error_iff, and_true, hg, and_false, exists_false,
    or_false]

/-- A check of one field: what lets reading go on, and where it meets an integer too large. -/
structure Check where
  key : Text
  passes : Schema.Rule
  isLarge : Schema.Rule

namespace Check
open Schema

/-- A field of which no number is judged. -/
def plain (key : Text) (rule : Rule) : Check := ⟨key, rule, fun _ => False⟩

/-- A field whose value is judged if it is a number. -/
def judged (key : Text) (rule : (Json → Prop) → Rule) (shape : Json → Prop) : Check :=
  ⟨key, rule fun v => shape v ∧ ¬ v.IsLarge, required Json.IsLarge⟩

/-- A list of which one element after another is read. -/
def items (key : Text) (rule : (Json → Prop) → Rule) (good large : Json → Prop) : Check :=
  ⟨key, rule fun v => ∃ xs, v = .arr xs ∧ ∀ x ∈ xs, good x,
    required fun v => ∃ xs, v = .arr xs ∧ Reaches good large xs⟩

def AllPass (f : Fields) (cs : List Check) : Prop := ∀ c ∈ cs, c.passes (f c.key)

/-- An integer too large is met by a check, and those before it pass. -/
def Meets (f : Fields) (cs : List Check) : Prop :=
  Reaches (fun c => c.passes (f c.key)) (fun c => c.isLarge (f c.key)) cs

/-- The outcome of a computation is that of these checks in their order. -/
structure Follows {α : Type} (x : Except Defect α) (f : Fields) (cs : List Check) : Prop where
  large : x = .error .integerTooLarge ↔ Meets f cs
  ok : (∃ a, x = .ok a) ↔ AllPass f cs

variable {α β : Type} {f : Fields} {c : Check} {cs ds : List Check} {x : Except Defect α}

theorem allPass_append : AllPass f (cs ++ ds) ↔ AllPass f cs ∧ AllPass f ds :=
  List.forall_mem_append

theorem meets_cons :
    Meets f (c :: cs) ↔ c.isLarge (f c.key) ∨ c.passes (f c.key) ∧ Meets f cs := Iff.rfl

theorem meets_append : Meets f (cs ++ ds) ↔ Meets f cs ∨ AllPass f cs ∧ Meets f ds :=
  reaches_append

namespace Follows

theorem pure (a : α) : Follows (pure a) f [] :=
  ⟨⟨fun h => absurd h pure_ne_error, nofun⟩, ⟨fun _ => nofun, fun _ => ⟨a, rfl⟩⟩⟩

/-- What comes after a value may count on how this value was read. -/
theorem bindOk {g : α → Except Defect β} (hx : Follows x f cs)
    (hg : ∀ a, x = .ok a → Follows (g a) f ds) : Follows (x >>= g) f (cs ++ ds) := by
  refine ⟨?large, ?ok⟩
  case large =>
    rw [bind_eq_error_iff, meets_append, hx.large, ← hx.ok]
    apply or_congr_right
    constructor
    · rintro ⟨a, ha, hg'⟩
      exact ⟨⟨a, ha⟩, (hg a ha).large.mp hg'⟩
    · rintro ⟨⟨a, ha⟩, hds⟩
      exact ⟨a, ha, (hg a ha).large.mpr hds⟩
  case ok =>
    simp only [bind_eq_ok_iff, allPass_append, ← hx.ok]
    constructor
    · rintro ⟨b, a, ha, hb⟩
      exact ⟨⟨a, ha⟩, (hg a ha).ok.mp ⟨b, hb⟩⟩
    · rintro ⟨⟨a, ha⟩, hds⟩
      obtain ⟨b, hb⟩ := (hg a ha).ok.mpr hds
      exact ⟨b, a, ha, hb⟩

theorem bind {g : α → Except Defect β} (hx : Follows x f cs) (hg : ∀ a, Follows (g a) f ds) :
    Follows (x >>= g) f (cs ++ ds) :=
  hx.bindOk fun a _ => hg a

theorem map {g : α → β} (hx : Follows x f cs) : Follows (g <$> x) f cs := by
  refine ⟨by rw [map_eq_error_iff, hx.large], ?_⟩
  simp only [map_eq_ok_iff, ← hx.ok]
  exact ⟨fun ⟨_, a, ha, _⟩ => ⟨a, ha⟩, fun ⟨a, ha⟩ => ⟨g a, a, ha, rfl⟩⟩

theorem single (hlarge : x = .error .integerTooLarge ↔ c.isLarge (f c.key))
    (hok : (∃ a, x = .ok a) ↔ c.passes (f c.key)) : Follows x f [c] :=
  ⟨by simp [Meets, Reaches, hlarge], by simp [AllPass, hok]⟩

/-- A check that passes may stand in front. -/
theorem cons (hpasses : c.passes (f c.key)) (hlarge : ¬ c.isLarge (f c.key))
    (hx : Follows x f cs) : Follows x f (c :: cs) :=
  ⟨by simp [meets_cons, hpasses, hlarge, hx.large], by simp [AllPass, hpasses, hx.ok]⟩

/-- After a check that does not pass no other is made. -/
theorem fail {d : Defect} (hpasses : ¬ c.passes (f c.key)) (hlarge : ¬ c.isLarge (f c.key))
    (hd : d ≠ .integerTooLarge) : Follows (.error d : Except Defect α) f (c :: cs) :=
  ⟨by simp [meets_cons, hpasses, hlarge, hd], by simp [AllPass, hpasses]⟩

theorem plain {key : Text} {rule : Rule} (hx : x ≠ .error .integerTooLarge)
    (hok : (∃ a, x = .ok a) ↔ rule (f key)) : Follows x f [plain key rule] :=
  single ⟨fun h => absurd h hx, nofun⟩ hok

end Follows

/-! The checks of every part of a step, in the order in which they are made. -/

def page : List Check :=
  [judged "timeout" optional IsTimeout, plain "assertedEvents" (optional IsEvents)]

def frame : List Check :=
  page ++ [items "frame" optional (fun v => IsIndex v ∧ ¬ v.IsLarge) Json.IsLarge]

def element : List Check := frame ++ [plain "selectors" (required (IsListOf IsSelector))]

def press : List Check :=
  [judged "offsetX" required IsNumber, judged "offsetY" required IsNumber,
    judged "duration" optional IsNumber,
    plain "deviceType" (optional (IsChoice ["mouse", "pen", "touch"])),
    plain "button" (optional (IsChoice ["primary", "auxiliary", "secondary", "back", "forward"]))]

def viewport : List Check :=
  [judged "width" required IsNumber, judged "height" required IsNumber,
    judged "deviceScaleFactor" required IsNumber, plain "isMobile" (required IsBoolean),
    plain "hasTouch" (required IsBoolean), plain "isLandscape" (required IsBoolean)]

/-- The checks of a step of a type. A wait looks at what it waits for before it looks at its
element, and a step that is named or an expression begins with that. -/
def ofType : StepType → List Check
  | .change => element ++ [plain "value" (required IsText)]
  | .click | .doubleClick => element ++ press
  | .close => page
  | .customStep => plain "name" (required IsText) :: frame
  | .emulateNetworkConditions =>
    page ++ [judged "download" required IsNumber, judged "upload" required IsNumber,
      judged "latency" required IsNumber]
  | .hover => element
  | .keyDown | .keyUp => page ++ [plain "key" (required IsText)]
  | .navigate => page ++ [plain "url" (required IsText)]
  | .scroll =>
    frame ++ [judged "x" optional IsNumber, judged "y" optional IsNumber,
      plain "selectors" (optional (IsListOf IsSelector))]
  | .setViewport => page ++ viewport
  | .waitForElement =>
    plain "operator" (optional (IsChoice [">=", "==", "<="])) ::
      plain "attributes" (optional IsTexts) :: plain "properties" (optional IsStructured) ::
      (element ++ [judged "count" optional IsNumber, plain "visible" (optional IsBoolean)])
  | .waitForExpression =>
    plain "expression" (· ≠ none) :: (frame ++ [plain "expression" (required IsText)])

section Fields
variable {f : Fields} {name : Text}

theorem judged_number_iff {v : Json} : IsNumber v ∧ ¬ v.IsLarge ↔ ∃ n, v = .num n ∧ n.IsJudged := by
  constructor
  · rintro ⟨⟨n, rfl⟩, hlarge⟩
    exact ⟨n, rfl, by simpa [Json.isLarge_num] using hlarge⟩
  · rintro ⟨n, rfl, hn⟩
    exact ⟨⟨n, rfl⟩, by simpa [Json.isLarge_num] using hn⟩

theorem follows_number : Follows (f.number name) f [judged name required IsNumber] := by
  refine .single ?large ?ok
  case large =>
    change _ ↔ required Json.IsLarge (f name)
    rw [Fields.number]
    cases f name with
    | none => simp [required]
    | some v =>
      simp only [required, Option.some.injEq, exists_eq_left']
      refine Json.finite?_bind_eq_large_iff fun o => ?_
      cases o <;> simp
  case ok =>
    simp only [Fields.number_eq_ok_iff, Fields.holdsNumber_some]
    change _ ↔ required (fun v => IsNumber v ∧ ¬ v.IsLarge) (f name)
    simp only [required, judged_number_iff]
    constructor
    · rintro ⟨n, hn, hjudged⟩
      exact ⟨_, hn, n, rfl, hjudged⟩
    · rintro ⟨_, hv, n, rfl, hjudged⟩
      exact ⟨n, hv, hjudged⟩

theorem follows_text : Follows (f.text name) f [plain name (required IsText)] := by
  refine .plain ?_ ?_
  · rw [Fields.text]
    split <;> simp
  · simp only [Fields.text_eq_ok_iff, exists_text_iff]

theorem follows_boolean : Follows (f.boolean name) f [plain name (required IsBoolean)] := by
  refine .plain ?_ ?_
  · rw [Fields.boolean]
    split <;> simp
  · simp only [Fields.boolean_eq_ok_iff, exists_boolean_iff]

/-- An optional field is checked like a required one, unless it is absent. -/
theorem Follows.optional {read : Fields → Text → Except Defect α} {shape : Json → Prop}
    {large : Rule} (h : Follows (read f name) f [⟨name, required shape, large⟩])
    (hnone : ¬ large none) : Follows (f.optional read name) f [⟨name, optional shape, large⟩] := by
  have hlarge := h.large
  have hok := h.ok
  simp only [Meets, Reaches, AllPass, List.forall_mem_singleton, and_false, or_false]
    at hlarge hok
  refine .single ?_ ?_
  · change _ ↔ large (f name)
    rw [Fields.optional]
    cases hv : f name with
    | none => simp [hnone]
    | some v => rw [map_eq_error_iff, hlarge, hv]
  · change _ ↔ Schema.optional shape (f name)
    rw [Fields.optional]
    cases hv : f name with
    | none => exact ⟨fun _ => optional_none, fun _ => ⟨none, rfl⟩⟩
    | some v =>
      simp only [map_eq_ok_iff, optional_some]
      rw [hv] at hok
      constructor
      · rintro ⟨_, a, ha, -⟩
        obtain ⟨w, hw, hshape⟩ := hok.mp ⟨a, ha⟩
        exact Option.some.inj hw ▸ hshape
      · intro hshape
        obtain ⟨a, ha⟩ := hok.mpr ⟨v, rfl, hshape⟩
        exact ⟨some a, a, ha, rfl⟩

theorem follows_optional_number :
    Follows (f.optional Fields.number name) f [judged name optional IsNumber] :=
  follows_number.optional fun ⟨_, h, _⟩ => nomatch h

theorem follows_optional_text :
    Follows (f.optional Fields.text name) f [plain name (optional IsText)] :=
  follows_text.optional id

theorem follows_optional_boolean :
    Follows (f.optional Fields.boolean name) f [plain name (optional IsBoolean)] :=
  follows_boolean.optional id

theorem follows_choice {ofName? : Text → Option α} {defect : Defect} {names : List Text}
    (hnames : ∀ t, (∃ a, ofName? t = some a) ↔ t ∈ names) (hdefect : defect ≠ .integerTooLarge) :
    Follows (f.choice ofName? defect name) f [plain name (optional (IsChoice names))] := by
  refine .plain ?_ ?_
  · rw [Fields.choice, ne_eq, bind_eq_error_iff, follows_optional_text.large]
    rintro (h | ⟨o, -, h⟩)
    · simp [Meets, Reaches, plain] at h
    · split at h
      · simp at h
      · split at h
        · simp at h
        · split at h
          · simp at h
          · exact hdefect (throw_eq_error_iff.mp h)
  · simp only [Fields.choice_eq_ok_iff, exists_names_iff hnames]

end Fields

section Parts
variable {f : Fields}

theorem isTimeout_iff {n : Number} : n.isTimeout = true ↔ 1 ≤ n.value ∧ n.value ≤ 30000 := by
  simp [Number.isTimeout]

theorem follows_timeout :
    Follows (PageScope.timeoutOfFields f) f [judged "timeout" optional IsTimeout] := by
  refine .single ?large ?ok
  case large =>
    change _ ↔ required Json.IsLarge (f "timeout")
    rw [PageScope.timeoutOfFields]
    cases f "timeout" with
    | none => simp [required]
    | some v =>
      simp only [required, Option.some.injEq, exists_eq_left']
      refine Json.finite?_bind_eq_large_iff fun o => ?_
      split
      · simp
      · split <;> simp
  case ok =>
    simp only [PageScope.timeoutOfFields_eq_ok_iff]
    change _ ↔ optional (fun v => IsTimeout v ∧ ¬ v.IsLarge) (f "timeout")
    constructor
    · rintro ⟨o, ho⟩ v hv
      cases o with
      | none =>
        have hne (n : Number) : v ≠ .num n := fun hn => ho n (hn ▸ hv)
        simp [IsTimeout, Json.IsLarge, hne]
      | some m =>
        obtain ⟨hm, hjudged, hbounds⟩ := ho
        obtain rfl := Option.some.inj (hv.symm.trans hm)
        refine ⟨fun n hn => ?_, fun hlarge => Json.isLarge_num.mp hlarge hjudged⟩
        obtain rfl := Json.num.inj hn
        exact isTimeout_iff.mp hbounds
    · intro h
      by_cases hn : ∃ n, f "timeout" = some (.num n)
      · obtain ⟨n, hn⟩ := hn
        obtain ⟨hbounds, hlarge⟩ := h _ hn
        exact ⟨some n, hn, not_not.mp fun hj => hlarge (Json.isLarge_num.mpr hj),
          isTimeout_iff.mpr (hbounds n rfl)⟩
      · exact ⟨none, fun n h => hn ⟨n, h⟩⟩

theorem event_ne_large (v : Json) : NavigationEvent.ofJson v ≠ .error .integerTooLarge := by
  have htext {g : Fields} {name : Text} : g.optional Fields.text name ≠ .error .integerTooLarge := by
    rw [ne_eq, follows_optional_text.large]
    simp [Meets, Reaches, plain]
  cases v with
  | obj ms =>
    rw [NavigationEvent.ofJson]
    split
    · simp
    · split
      · split
        · simp [bind_eq_error_iff, map_eq_error_iff, htext]
        · simp
      · simp
  | _ => simp [NavigationEvent.ofJson]

theorem follows_events :
    Follows (PageScope.eventsOfFields f) f [plain "assertedEvents" (optional IsEvents)] := by
  refine .plain ?_ ?_
  · rw [PageScope.eventsOfFields]
    split
    · rw [ne_eq, map_eq_error_iff, mapM_eq_error_iff]
      exact not_reaches event_ne_large
    · simp
  · simp only [PageScope.eventsOfFields_eq_ok_iff, exists_eventsIn_iff]

theorem follows_page : Follows (PageScope.ofFields f) f page :=
  follows_timeout.bind fun _ => follows_events.bind fun _ => .pure _

theorem frameIndex_eq_ok_iff {v : Json} :
    (∃ i, frameIndexOfJson v = .ok i) ↔ IsIndex v ∧ ¬ v.IsLarge := by
  simp only [frameIndexOfJson_eq_ok_iff]
  constructor
  · rintro ⟨i, n, rfl, hjudged, hi⟩
    exact ⟨⟨n, rfl, Number.exists_toNat?_iff.mp ⟨i, hi⟩⟩,
      fun hlarge => Json.isLarge_num.mp hlarge hjudged⟩
  · rintro ⟨⟨n, rfl, hn⟩, hlarge⟩
    obtain ⟨i, hi⟩ := Number.exists_toNat?_iff.mpr hn
    exact ⟨i, n, rfl, not_not.mp fun hj => hlarge (Json.isLarge_num.mpr hj), hi⟩

theorem frameIndex_eq_large_iff {v : Json} :
    frameIndexOfJson v = .error .integerTooLarge ↔ v.IsLarge := by
  refine Json.finite?_bind_eq_large_iff fun o => ?_
  split <;> simp

theorem follows_frameField : Follows (FrameScope.frameOfFields f) f
    [items "frame" optional (fun v => IsIndex v ∧ ¬ v.IsLarge) Json.IsLarge] := by
  refine .single ?large ?ok
  case large =>
    change _ ↔ required _ (f "frame")
    rw [FrameScope.frameOfFields]
    split
    · next h => simp [h, required, pure_ne_error]
    · next xs h =>
      simp only [h, map_eq_error_iff, mapM_eq_error_iff, frameIndex_eq_ok_iff,
        frameIndex_eq_large_iff, required, Option.some.injEq, exists_eq_left', Json.arr.injEq]
    · next v hne h =>
      refine ⟨nofun, ?_⟩
      rintro ⟨_, hv, _, rfl, -⟩
      exact absurd (Option.some.inj (h.symm.trans hv)) (hne _)
  case ok =>
    change _ ↔ optional _ (f "frame")
    rw [FrameScope.frameOfFields]
    split
    · next h => exact ⟨fun _ => h ▸ optional_none, fun _ => ⟨none, rfl⟩⟩
    · next xs h =>
      simp only [h, map_eq_ok_iff, mapM_eq_ok_iff, optional_some, Json.arr.injEq, exists_eq_left',
        ← frameIndex_eq_ok_iff, ← exists_forall₂_iff]
      exact ⟨fun ⟨_, is, his, _⟩ => ⟨is, his⟩, fun ⟨is, his⟩ => ⟨some is, is, his, rfl⟩⟩
    · next v hne h =>
      simp only [h, optional_some, throw_ne_ok, exists_false, false_iff]
      rintro ⟨xs, rfl, -⟩
      exact hne xs rfl

theorem follows_frame : Follows (FrameScope.ofFields f) f frame :=
  follows_page.bind fun _ => follows_frameField.bind fun _ => .pure _

theorem follows_selectors : Follows (Alternatives.ofFields f) f
    [plain "selectors" (required (IsListOf IsSelector))] := by
  have hpart (v : Json) : Selector.partOfJson v ≠ .error .integerTooLarge := by
    cases v <;> simp [Selector.partOfJson]
  have hselector (v : Json) : Selector.ofJson v ≠ .error .integerTooLarge := by
    rw [Selector.ofJson.eq_def]
    split
    · simp
    · simp
    · simp [bind_eq_error_iff, map_eq_error_iff, mapM_eq_error_iff, hpart, not_reaches]
    · simp
  refine .plain ?_ ?_
  · rw [Alternatives.ofFields]
    split
    · simp
    · simp
    · simp [bind_eq_error_iff, map_eq_error_iff, mapM_eq_error_iff, hselector, not_reaches]
    · simp
  · simp only [Alternatives.ofFields_eq_ok_iff, exists_selectors_iff]

theorem follows_element : Follows (ElementScope.ofFields f) f element :=
  follows_frame.bind fun _ => follows_selectors.bind fun _ => .pure _

theorem follows_press : Follows (Press.ofFields f) f press :=
  follows_number.bind fun _ => follows_number.bind fun _ => follows_optional_number.bind fun _ =>
    (follows_choice PointerDevice.exists_ofName?_iff (by nofun)).bind fun _ =>
      (follows_choice MouseButton.exists_ofName?_iff (by nofun)).bind fun _ => .pure _

theorem follows_viewport : Follows (Viewport.ofFields f) f viewport :=
  follows_number.bind fun _ => follows_number.bind fun _ => follows_number.bind fun _ =>
    follows_boolean.bind fun _ => follows_boolean.bind fun _ => follows_boolean.bind fun _ =>
      .pure _

theorem follows_attributes : Follows (ElementWait.attributesOfFields f) f
    [plain "attributes" (optional IsTexts)] := by
  refine .plain ?_ ?_
  · rw [ElementWait.attributesOfFields]
    split
    · simp
    · rw [ne_eq, map_eq_error_iff, mapM_eq_error_iff]
      apply not_reaches
      rintro ⟨k, v⟩
      cases v <;> simp [ElementWait.attributeOfMember]
    · simp
  · simp only [ElementWait.attributesOfFields_eq_ok_iff]
    exact exists_map_iff fun _ => isTexts_iff

theorem follows_properties : Follows (ElementWait.propertiesOfFields f) f
    [plain "properties" (optional IsStructured)] := by
  refine .plain ?_ ?_
  · rw [ElementWait.propertiesOfFields]
    split <;> simp
  · simp only [ElementWait.propertiesOfFields_eq_ok_iff, exists_properties_iff]

theorem follows_customStep : Follows (Step.customStepOfFields f) f (ofType .customStep) := by
  rw [Step.customStepOfFields]
  split
  · next h => exact .fail (fun hp => by simp [plain, h, required] at hp) id nofun
  · next name h => exact .cons ⟨_, h, name, rfl⟩ id (follows_frame.bind fun _ => .pure _)
  · next v hne h =>
    refine .fail ?_ id nofun
    rintro ⟨_, hv, name, rfl⟩
    exact absurd (Option.some.inj (h.symm.trans hv)) (hne name)

theorem follows_waitForExpression :
    Follows (Step.waitForExpressionOfFields f) f (ofType .waitForExpression) := by
  rw [Step.waitForExpressionOfFields]
  by_cases h : f "expression" = none
  · rw [h]
    exact .fail (fun hp => hp h) id nofun
  · rw [if_neg (by simpa using h)]
    exact (follows_frame.bind fun _ => follows_text.bind fun _ => .pure _).cons h id

theorem follows_waitForElement :
    Follows (Step.waitForElementOfFields f) f (ofType .waitForElement) :=
  (follows_choice WaitOperator.exists_ofName?_iff (by nofun)).bind fun _ =>
    follows_attributes.bind fun _ => follows_properties.bind fun _ => follows_element.bind fun _ =>
      follows_optional_number.bind fun _ => follows_optional_boolean.bind fun _ => .pure _

end Parts

/-- A step of a type is read by the checks of this type. -/
theorem follows_ofFields (f : Fields) (type : StepType) :
    Follows (Step.ofFields f type) f (ofType type) := by
  cases type with
  | change => exact follows_element.bind fun _ => follows_text.bind fun _ => .pure _
  | click | doubleClick =>
    rw [ofType, ← List.append_nil press]
    exact follows_element.bind fun _ => follows_press.bind fun _ => .pure _
  | close => exact follows_page.map
  | customStep => exact follows_customStep
  | emulateNetworkConditions =>
    exact follows_page.bind fun _ => follows_number.bind fun _ => follows_number.bind fun _ =>
      follows_number.bind fun _ => .pure _
  | hover => exact follows_element.map
  | keyDown | keyUp | navigate =>
    exact follows_page.bind fun _ => follows_text.bind fun _ => .pure _
  | scroll =>
    exact follows_frame.bind fun _ => follows_optional_number.bind fun _ =>
      follows_optional_number.bind fun _ => (follows_selectors.optional id).bind fun _ => .pure _
  | setViewport =>
    exact follows_page.bind fun _ => follows_viewport.bind fun _ => .pure _
  | waitForElement => exact follows_waitForElement
  | waitForExpression => exact follows_waitForExpression

end Check

theorem StepType.name_injective : Function.Injective name := by
  intro a b h
  have hread := congrArg ofName? h
  rw [ofName?_name, ofName?_name] at hread
  exact Option.some.inj hread

namespace Step

/-- An object with the type of a step, and a property of its fields and of the checks for this
type. -/
def Checked (property : Fields → List Check → Prop) (v : Json) : Prop :=
  ∃ ms type, v = .obj ms ∧ Json.fields ms "type" = some (.str (StepType.name type)) ∧
    property (Json.fields ms) (Check.ofType type)

/-- All checks for the type of the step pass. -/
def PassesChecks : Json → Prop := Checked Check.AllPass

/-- The checks for the type of the step meet an integer too large before anything else is wrong. -/
def Overflows : Json → Prop := Checked Check.Meets

variable {index : Option Int} {v : Json} {property : Fields → List Check → Prop}

theorem checked_obj_iff {ms : List (Text × Json)} {type : StepType}
    (h : Json.fields ms "type" = some (.str type.name)) :
    Checked property (.obj ms) ↔ property (Json.fields ms) (Check.ofType type) := by
  constructor
  · rintro ⟨_, type', hms, htype', hproperty⟩
    cases hms
    have hname : type.name = type'.name := Json.str.inj (Option.some.inj (h.symm.trans htype'))
    rwa [StepType.name_injective hname]
  · intro hproperty
    exact ⟨ms, type, rfl, h, hproperty⟩

/-- A value without the type of a step is refused before any number is judged. -/
theorem ofJson_of_not_typed (h : ¬ Checked (fun _ _ => True) v) :
    ∃ d, ofJson index v = .error d ∧ d ≠ .integerTooLarge := by
  cases v with
  | obj ms =>
    simp only [ofJson]
    split
    · simp
    · next name hname =>
      split
      · next type htype =>
        rw [StepType.eq_name_of_ofName? htype] at hname
        exact absurd ⟨ms, type, rfl, hname, trivial⟩ h
      · simp
    · simp
  | _ => simp [ofJson]

theorem Checked.typed (h : Checked property v) : Checked (fun _ _ => True) v := by
  obtain ⟨ms, type, hms, htype, -⟩ := h
  exact ⟨ms, type, hms, htype, trivial⟩

/-- A step is read by the checks of the type that its value names. -/
theorem ofJson_outcome (index : Option Int) (v : Json) :
    (ofJson index v = .error .integerTooLarge ↔ Overflows v) ∧
      ((∃ s, ofJson index v = .ok s) ↔ PassesChecks v) := by
  by_cases htyped : Checked (fun _ _ => True) v
  · obtain ⟨ms, type, rfl, htype, -⟩ := htyped
    have hread : ofJson index (.obj ms) = ofFields (Json.fields ms) type := by
      simp only [ofJson, htype, StepType.ofName?_name]
    rw [hread, Overflows, PassesChecks, checked_obj_iff htype, checked_obj_iff htype]
    have hfollows := Check.follows_ofFields (Json.fields ms) type
    exact ⟨hfollows.large, hfollows.ok⟩
  · obtain ⟨d, hd, hne⟩ := ofJson_of_not_typed htyped
    have hoverflows : ¬ Overflows v := fun h => htyped h.typed
    have hpasses : ¬ PassesChecks v := fun h => htyped h.typed
    rw [hd]
    simp [hne, hoverflows, hpasses]

theorem listOfJson_eq_large_iff {index : Nat} {xs : List Json} :
    listOfJson index xs = .error .integerTooLarge ↔ Reaches PassesChecks Overflows xs := by
  induction xs generalizing index with
  | nil => exact ⟨nofun, nofun⟩
  | cons x xs ih =>
    rw [listOfJson, bind_eq_error_iff, (ofJson_outcome _ x).1, Reaches,
      ← (ofJson_outcome (some index) x).2]
    simp only [bind_eq_error_iff, pure_ne_error, and_false, exists_false, or_false, ih,
      exists_and_right]

theorem exists_listOfJson_iff {index : Nat} {xs : List Json} :
    (∃ ss, listOfJson index xs = .ok ss) ↔ ∀ x ∈ xs, PassesChecks x := by
  simp only [listOfJson_eq_ok_iff, Schema.exists_forall₂_iff, (ofJson_outcome none _).2]

end Step

namespace Recording
open Schema Check

/-- The checks of a recording in their order; whether there are steps is asked between the two looks
at the timeout. -/
def checks : List Check :=
  [plain "title" (required IsText), judged "timeout" optional IsNumber, plain "steps" (· ≠ none),
    plain "timeout" (optional IsTimeout),
    items "steps" required Step.PassesChecks Step.Overflows]

def Overflows (v : Json) : Prop := ∃ ms, v = .obj ms ∧ Meets (Json.fields ms) checks

variable {f : Fields}

theorem follows_timeout :
    Follows (timeoutOfFields f) f [judged "timeout" optional IsNumber] := by
  refine .single ?large ?ok
  case large =>
    change _ ↔ required Json.IsLarge (f "timeout")
    rw [timeoutOfFields]
    cases f "timeout" with
    | none => simp [required]
    | some v =>
      simp only [required, Option.some.injEq, exists_eq_left']
      refine Json.finite?_bind_eq_large_iff fun o => ?_
      cases o <;> simp
  case ok =>
    simp only [timeoutOfFields_eq_ok_iff, ← Fields.optional_number_eq_ok_iff]
    exact follows_optional_number.ok.trans (by simp [AllPass])

theorem follows_steps {xs : List Json} (h : f "steps" = some (.arr xs)) :
    Follows (Step.listOfJson 0 xs) f [items "steps" required Step.PassesChecks Step.Overflows] := by
  refine .single ?_ ?_
  · change _ ↔ required _ (f "steps")
    simp only [Step.listOfJson_eq_large_iff, h, required, Option.some.injEq, exists_eq_left',
      Json.arr.injEq]
  · change _ ↔ required _ (f "steps")
    simp only [Step.exists_listOfJson_iff, h, required, Option.some.injEq, exists_eq_left',
      Json.arr.injEq]

/-- A timeout that was read is a number or none, so that its bounds are all that is left to see. -/
theorem bounded_timeout_iff {timeout : Option Number} (h : timeoutOfFields f = .ok timeout) :
    (timeout.any fun n => !n.isTimeout) = false ↔ optional IsTimeout (f "timeout") := by
  obtain ⟨hv, -⟩ := timeoutOfFields_eq_ok_iff.mp h
  rw [hv]
  cases timeout with
  | none => simp [optional_none]
  | some n => simp [optional_some, IsTimeout, isTimeout_iff]

theorem fail_steps {α : Type} (hne : ∀ xs, f "steps" ≠ some (.arr xs)) :
    Follows (.error .stepsNotList : Except Defect α) f
      [items "steps" required Step.PassesChecks Step.Overflows] := by
  refine .fail ?_ ?_ nofun
  all_goals
    rintro ⟨_, hv, xs, rfl, -⟩
    exact hne xs hv

/-- A recording is read by its checks. -/
theorem follows_ofFields (f : Fields) : Follows (ofFields f) f checks := by
  rw [ofFields]
  split
  · next h => exact .fail (by simp [plain, h, required]) id (by simp)
  · next title htitle =>
    refine .cons ⟨_, htitle, title, rfl⟩ id ?_
    refine follows_timeout.bindOk fun timeout htimeout => ?_
    split
    · next h => exact .fail (fun hp => hp h) id (by simp)
    · next steps hsteps =>
      refine .cons (by simp [plain, hsteps]) id ?_
      by_cases hbounded : (timeout.any fun n => !n.isTimeout) = true
      · rw [if_pos hbounded]
        refine .fail (fun hp => ?_) id (by simp)
        simp [(bounded_timeout_iff htimeout).mpr hp] at hbounded
      · rw [if_neg hbounded]
        have hpasses := (bounded_timeout_iff htimeout).mp (by simpa using hbounded)
        refine .cons hpasses id ?_
        cases steps with
        | arr xs => exact (follows_steps hsteps).bind fun _ => .pure _
        | _ => exact fail_steps (by simp [hsteps])
  · next v hne h =>
    refine .fail ?_ id (by simp)
    rintro ⟨_, hv, title, rfl⟩
    exact absurd (Option.some.inj (h.symm.trans hv)) (hne title)

theorem ofJson_eq_large_iff {v : Json} :
    ofJson v = .error .integerTooLarge ↔ Overflows v := by
  cases v with
  | obj ms => simp [ofJson, (follows_ofFields (Json.fields ms)).large, Overflows]
  | _ => simp [ofJson, Overflows]

end Recording

/-- What callers of a reader are told to expect: a value, or a failure of one of three kinds. -/
def IsPromised {α : Type} (x : Except Defect α) : Prop :=
  (∃ a, x = .ok a) ∨ ∃ d, x = .error d ∧ d.kind ∈ [DefectKind.shape, .range, .unknownVariant]

theorem Defect.kind_eq_overflow_iff {d : Defect} : d.kind = .overflow ↔ d = .integerTooLarge := by
  cases d <;> simp [kind]

theorem isPromised_iff {α : Type} {x : Except Defect α} :
    IsPromised x ↔ x ≠ .error .integerTooLarge := by
  cases x with
  | ok a => simp [IsPromised]
  | error d =>
    rw [Ne, Except.error.injEq, ← Defect.kind_eq_overflow_iff]
    cases h : d.kind <;> simp [IsPromised, h]

/-- Reading ends in a value or in a failure that callers are told of, but for one case: an integer
too large to be judged is met before anything else is wrong. -/
theorem isPromised_ofJson_iff (index : Option Int) (v : Json) :
    (IsPromised (Step.ofJson index v) ↔ ¬ Step.Overflows v) ∧
      (IsPromised (Recording.ofJson v) ↔ ¬ Recording.Overflows v) := by
  rw [isPromised_iff, isPromised_iff, Ne, Ne, (Step.ofJson_outcome index v).1,
    Recording.ofJson_eq_large_iff]
  exact ⟨Iff.rfl, Iff.rfl⟩

/-- Ten to the power of 309 milliseconds are neither accepted as a timeout nor refused as out of
bounds. -/
theorem not_isPromised_hugeTimeout :
    let close : Json := .obj [("type", .str "close"), ("timeout", .num (.int (10 ^ 309)))]
    Step.ofJson none close = .error .integerTooLarge ∧
      (Failure.defective .integerTooLarge).name = ("OverflowError" : Text) ∧
      ¬ ∀ v, IsPromised (Step.ofJson none v) ∧ IsPromised (Recording.ofJson v) := by
  have hlarge : Double.overflowBound ≤ (10 ^ 309 : Int).natAbs := by decide +kernel
  have hread : Step.ofJson none (.obj [("type", .str "close"),
      ("timeout", .num (.int (10 ^ 309)))]) = .error .integerTooLarge :=
    (Step.ofJson_outcome none _).1.mpr ⟨_, .close, rfl, rfl, .inl ⟨_, rfl, 10 ^ 309, rfl, hlarge⟩⟩
  exact ⟨hread, rfl, fun h => isPromised_iff.mp (h _).1 hread⟩

end FlowScript
