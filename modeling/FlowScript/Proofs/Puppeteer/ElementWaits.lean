import FlowScript.Proofs.Literal.Deepened
import Mathlib.Data.List.Basic

/-!
# Waiting for elements in Puppeteer scripts

A script passes all of a step to its function `waitForElement`, which fills in what the step leaves
out, and asks the page again until the answer is yes. Here is that answer, for any value passed and
any page. For the payload of a step that asks for no attributes and no properties, it depends on
nothing but the number of elements.
-/
namespace FlowScript

theorem Json.eq_of_mem_nonNull? {v u : Json} (h : u ∈ v.nonNull?) : v = u := by
  cases v <;> cases h <;> rfl

namespace Value

/-- The value under a name, the last one if there are several. -/
def lookup (name : List Nat) : List (List Nat × Value) → Option Value
  | [] => none
  | (k, v) :: ms => (lookup name ms).or (if k = name then some v else none)

/-- A member of an object. -/
def member? (v : Value) (name : Text) : Option Value :=
  match v with
  | object ms => lookup name.units ms
  | _ => none

/-- What counts as true in a condition; an array or an object does so even without entries. -/
def isTruthy : Value → Bool
  | null => false
  | bool b => b
  | number q => q ≠ 0
  | text units => !units.isEmpty
  | array _ | object _ => true

section
variable {key : Text → Option (List Nat)} {fs : List (Text × Option Json)} (names : List Text)

theorem isSome_of_isFalsy {v : Json} (h : v.isFalsy = true) : (ofJson key v).isSome := by
  cases v with
  | nonFinite x => exact nomatch h
  | arr xs =>
    rw [List.isEmpty_iff.mp h]
    rfl
  | obj ms =>
    rw [List.isEmpty_iff.mp h]
    rfl
  | _ => rfl

/-- A field is seen, if it is left out or every value that it may have is. -/
theorem isSome_of_mem_map {α : Type} {g : α → Json} (h : ∀ a, (ofJson key (g a)).isSome)
    {o : Option α} (v) (hv : v ∈ o.map g) : (ofJson key v).isSome := by
  obtain ⟨a, -, rfl⟩ := Option.map_eq_some_iff.mp hv
  exact h a

/-- An object of fields is seen with those of its fields that have a value. -/
theorem exists_ofJson_ofFields (hnames : fs.map Prod.fst = names)
    (hkeys : ∀ k ∈ names, key k = some k.units) (hnodup : (names.map Text.units).Nodup)
    (hvalues : ∀ f ∈ fs, ∀ v ∈ f.2, (ofJson key v).isSome) :
    ∃ ms, ofJson key (.ofFields fs) = some (.object ms) ∧
      (∀ f ∈ fs, lookup f.1.units ms = f.2.bind (ofJson key)) ∧
      ∀ units ∉ names.map Text.units, lookup units ms = none := by
  subst hnames
  induction fs with
  | nil => exact ⟨[], rfl, nofun, fun _ _ => rfl⟩
  | cons f fs ih =>
    obtain ⟨name, value⟩ := f
    simp only [List.map_cons, List.forall_mem_cons, List.nodup_cons] at hkeys hnodup hvalues ⊢
    obtain ⟨ms, hms, hlookup, hnone⟩ := ih hvalues.2 hkeys.2 hnodup.2
    have hfresh := hnone _ hnodup.1
    cases value with
    | none =>
      exact ⟨ms, hms, ⟨hfresh, hlookup⟩, fun units hunits =>
        hnone units (List.not_mem_of_not_mem_cons hunits)⟩
    | some v =>
      obtain ⟨x, hx⟩ := Option.isSome_iff_exists.mp (hvalues.1 v rfl)
      refine ⟨(name.units, x) :: ms, ?_, ⟨?_, fun f hf => ?_⟩, fun units hunits => ?_⟩
      · obtain ⟨_, hmembers, ⟨⟩⟩ := Option.map_eq_some_iff.mp hms
        have hcons : Json.ofFields ((name, some v) :: fs) = .obj ((name, v) ::
            fs.filterMap fun f => f.2.map fun v => (f.1, v)) := rfl
        rw [hcons, ofJson, ofMembers, hkeys.1, hx, hmembers]
        rfl
      · rw [lookup, hfresh, if_pos rfl]
        exact hx.symm
      · have hne : name.units ≠ f.1.units := by
          intro h
          rw [h, List.map_map] at hnodup
          exact hnodup.1 (List.mem_map_of_mem hf)
        rw [lookup, if_neg hne, Option.or_none, hlookup f hf]
      · obtain ⟨hne, hunits⟩ := not_or.mp (mt List.mem_cons.mpr hunits)
        rw [lookup, hnone units hunits, if_neg (Ne.symm hne)]
        rfl

end

end Value

/-- What a script can ask of the frame that it waits in. -/
structure Page where
  Element : Type
  /-- Anything a property can hold. -/
  Thing : Type
  ofElement : Element → Thing
  /-- The elements that a selector without inner parts matches. -/
  matching : Value → List Element
  /-- The elements below another one that a part of a chain matches. -/
  matchingIn : Element → Value → List Element
  /-- Where the next part of a chain is looked for: the shadow root, if there is one. -/
  root? : Element → Option Element
  attribute? : Element → List Nat → Option (List Nat)
  property : Thing → List Nat → Thing
  /-- Strict equality with a value of the script. -/
  isSame : Value → Thing → Bool
  isTruthy : Thing → Bool
  isObject : Thing → Bool
  isTruthy_ofElement : ∀ e, isTruthy (ofElement e) = true
  isObject_ofElement : ∀ e, isObject (ofElement e) = true

namespace Page
variable (page : Page)

mutual

/-- Whether a thing has, at any depth, the properties that a value has. -/
def isDeepMatch : Value → page.Thing → Bool
  | .array xs, b => page.isSame (.array xs) b ||
      (page.isTruthy b && page.isObject b && haveItems 0 xs b)
  | .object ms, b => page.isSame (.object ms) b ||
      (page.isTruthy b && page.isObject b && haveMembers ms b)
  | v, b => page.isSame v b

def haveItems (index : Nat) : List Value → page.Thing → Bool
  | [], _ => true
  | x :: xs, b =>
    isDeepMatch x (page.property b (Decimal.natText index).units) && haveItems (index + 1) xs b

/-- A member does not count if there is another one with its name behind it. -/
def haveMembers : List (List Nat × Value) → page.Thing → Bool
  | [], _ => true
  | (k, v) :: ms, b =>
    (ms.any (·.1 = k) || isDeepMatch v (page.property b k)) && haveMembers ms b

end

/-- Whether an element has these attributes, and the properties, if any are asked for. -/
def isMatch (attributes : List (List Nat × Value)) (properties : Option Value)
    (e : page.Element) : Bool :=
  (attributes.all fun m => match Value.lookup m.1 attributes with
    | some (.text units) => page.attribute? e m.1 = some units
    | _ => false) &&
  properties.all fun v => !v.isTruthy || page.isDeepMatch v (page.ofElement e)

/-- The elements that a selector matches; each part of a chain is looked for in the elements that
the part in front of it matches. A chain without parts is an error. -/
def querySelectorAll (selector : Value) : Option (List page.Element) :=
  match (match selector with
    | .array parts => parts
    | part => [part]) with
  | [] => none
  | first :: inner => some (inner.foldl (fun elements part =>
      (elements.filterMap page.root?).flatMap fun e => page.matchingIn e part) (page.matching first))

/-- The elements that the first selector with a match matches. -/
def querySelectorsAll : List Value → Option (List page.Element)
  | [] => some []
  | selector :: selectors => do
    let elements ← page.querySelectorAll selector
    if elements.isEmpty then querySelectorsAll selectors else some elements

/-- The ways to compare two numbers, by the operators of a script. -/
def comparison? (operator : List Nat) : Option (Rat → Rat → Bool) :=
  if operator = Text.units "==" then some fun a b => a = b
  else if operator = Text.units ">=" then some fun a b => b ≤ a
  else if operator = Text.units "<=" then some fun a b => a ≤ b
  else none

/-- Whether the page is as the function `waitForElement` waits for it to be. There is no answer for
an argument that does not have the shape of a step. -/
def isSatisfied? (step : Value) : Option Bool :=
  match step.member? "selectors", (step.member? "count").getD (.number 1),
      (step.member? "operator").getD (.text (Text.units ">=")),
      (step.member? "visible").getD (.bool true),
      (step.member? "attributes").getD (.object []) with
  | some (.array selectors), .number count, .text operator, .bool visible, .object attributes => do
    let compare ← comparison? operator
    let elements ← page.querySelectorsAll selectors
    let result := compare elements.length count &&
      elements.all (page.isMatch attributes (step.member? "properties"))
    some (result == visible)
  | _, _, _, _, _ => none

theorem querySelectorAll_isSome (s : Selector) : (page.querySelectorAll s.toValue).isSome := by
  cases s <;> rfl

theorem querySelectorsAll_isSome (selectors : List Selector) :
    (page.querySelectorsAll (selectors.map Selector.toValue)).isSome := by
  induction selectors with
  | nil => rfl
  | cons s selectors ih =>
    obtain ⟨elements, helements⟩ := Option.isSome_iff_exists.mp (page.querySelectorAll_isSome s)
    rw [List.map_cons, querySelectorsAll, helements, Option.bind_eq_bind, Option.bind_some]
    split
    · exact ih
    · rfl

/-- A page on which any selector matches so many elements. -/
def uniform (n : Nat) : Page where
  Element := Unit
  Thing := Unit
  ofElement := id
  matching _ := List.replicate n ()
  matchingIn e _ := [e]
  root? := some
  attribute? _ _ := none
  property b _ := b
  isSame _ _ := false
  isTruthy _ := true
  isObject _ := true
  isTruthy_ofElement _ := rfl
  isObject_ofElement _ := rfl

theorem querySelectorAll_uniform (n : Nat) (s : Selector) :
    (uniform n).querySelectorAll s.toValue = some (List.replicate n ()) := by
  cases s with
  | plain part => rfl
  | chain first inner => simp [querySelectorAll, Selector.toValue, uniform, List.foldl_fixed]

/-- A single selector is the first with a match, or there is none. -/
theorem querySelectorsAll_singleton (selector : Value) :
    page.querySelectorsAll [selector] = page.querySelectorAll selector := by
  rw [querySelectorsAll, Option.bind_eq_bind]
  cases page.querySelectorAll selector with
  | none => rfl
  | some elements => cases elements <;> rfl

/-- Empty properties are asked for of no element, or every element has them. -/
theorem isMatch_of_isFalsy {properties : Json} (h : properties.isFalsy = true)
    (key : Text → Option (List Nat)) (e : page.Element) :
    page.isMatch [] (properties.nonNull?.bind (Value.ofJson key)) e = true := by
  have htruthy := page.isTruthy_ofElement e
  have hobject := page.isObject_ofElement e
  cases properties with
  | null | nonFinite => rfl
  | bool b =>
    cases b with
    | false => rfl
    | true => exact nomatch h
  | num n =>
    have hzero : n.value = 0 := by simpa [Json.isFalsy, Number.isZero] using h
    simp [isMatch, Json.nonNull?, Value.ofJson, Value.isTruthy, hzero]
  | str t =>
    rw [List.isEmpty_iff.mp h]
    rfl
  -- An array or an object counts as true without entries too, and every element has all of them.
  | arr xs =>
    rw [List.isEmpty_iff.mp h]
    simp [isMatch, Json.nonNull?, Value.ofJson, Value.ofItems, isDeepMatch, haveItems, htruthy,
      hobject]
  | obj ms =>
    rw [List.isEmpty_iff.mp h]
    simp [isMatch, Json.nonNull?, Value.ofJson, Value.ofMembers, isDeepMatch, haveMembers,
      htruthy, hobject]

end Page

/-- What an operator of a step says of two numbers. -/
def WaitOperator.holds : WaitOperator → Rat → Rat → Bool
  | atLeast, a, b => b ≤ a
  | exactly, a, b => a = b
  | atMost, a, b => a ≤ b

theorem Page.comparison?_name (o : WaitOperator) :
    comparison? o.name.units = some o.holds := by
  cases o <;> rfl

namespace ElementWait
variable (w : ElementWait)

/-- Whether a wait is over with so many elements, whatever they are like. -/
def isOver (n : Nat) : Bool :=
  (w.operator.getD .atLeast).holds n (w.count.getD 1).value == w.visible.getD true

/-- Neither attributes nor properties are asked for. -/
structure IsPlain : Prop where
  attributes : ∀ ms ∈ w.attributes, ms = []
  properties : w.properties.isFalsy = true

end ElementWait

namespace Puppeteer
open Quoted (keyUnits?)
open Value (isSome_of_mem_map)

/-- The names of the fields of a wait. -/
def waitNames : List Text :=
  ["type", "selectors", "operator", "count", "visible", "attributes", "properties", "target",
    "frame", "timeout", "assertedEvents"]

theorem isSome_events (events : List NavigationEvent) :
    (Value.ofJson keyUnits? (.arr (events.map NavigationEvent.toJson))).isSome := by
  rw [Value.ofJson_arr, Option.isSome_map]
  refine Value.mapM_isSome (List.forall_mem_map.mpr fun event _ => ?_)
  have hvalues : ∀ f ∈ [(("type" : Text), some (Json.str "navigation")), ("url", event.url.map .str),
      ("title", event.title.map .str)], ∀ v ∈ f.2, (Value.ofJson keyUnits? v).isSome := by
    simp [Value.ofJson]
  obtain ⟨ms, hms, -⟩ := Value.exists_ofJson_ofFields ["type", "url", "title"] rfl (by decide)
    (by decide) hvalues
  rw [NavigationEvent.toJson, hms]
  rfl

section
variable (e : ElementScope) {w : ElementWait} (hplain : w.IsPlain)
include hplain

/-- A step without attributes and properties is passed on, with all of its fields. -/
theorem exists_payload : ∃ ms,
    Value.ofJson keyUnits? (Step.waitForElement e w).toJson = some (.object ms) ∧
      ∀ f ∈ (Step.waitForElement e w).fields,
        Value.lookup f.1.units ms = f.2.bind (Value.ofJson keyUnits?) := by
  have hselectors (v) (h : v ∈ some e.selectors.toJson) : (Value.ofJson keyUnits? v).isSome := by
    rw [← Option.mem_some_iff.mp h, e.selectors.ofJson_toJson]
    rfl
  have hattributes (v)
      (h : v ∈ w.attributes.map fun ms => Json.obj (ms.map fun m => (m.1, .str m.2))) :
      (Value.ofJson keyUnits? v).isSome := by
    obtain ⟨ms, hms, rfl⟩ := Option.map_eq_some_iff.mp h
    rw [hplain.attributes ms hms]
    rfl
  have hproperties (v) (h : v ∈ w.properties.nonNull?) : (Value.ofJson keyUnits? v).isSome :=
    Json.eq_of_mem_nonNull? h ▸ Value.isSome_of_isFalsy hplain.properties
  have hframe (path : List Nat) :
      (Value.ofJson keyUnits? (.arr (path.map fun (i : Nat) => Json.int i))).isSome := by
    rw [Value.ofJson_arr, Option.isSome_map]
    exact Value.mapM_isSome (List.forall_mem_map.mpr fun _ _ => rfl)
  have hvalues : ∀ f ∈ (("type" : Text), some (Json.str "waitForElement")) ::
      (Step.waitForElement e w).fields, ∀ v ∈ f.2, (Value.ofJson keyUnits? v).isSome := by
    simp only [Step.fields, ElementScope.selectorsField, ElementWait.fields, FrameScope.fields,
      PageScope.targetField, PageScope.timeoutField, PageScope.eventsField, List.cons_append,
      List.nil_append, List.forall_mem_cons]
    exact ⟨by simp [Value.ofJson], hselectors, isSome_of_mem_map (fun _ => rfl),
      isSome_of_mem_map (fun _ => rfl), isSome_of_mem_map (fun _ => rfl), hattributes, hproperties,
      isSome_of_mem_map (fun _ => rfl), isSome_of_mem_map hframe, isSome_of_mem_map (fun _ => rfl),
      isSome_of_mem_map isSome_events, nofun⟩
  obtain ⟨ms, hms, hlookup, -⟩ := Value.exists_ofJson_ofFields waitNames rfl (by decide)
    (by decide) hvalues
  exact ⟨ms, hms, (List.forall_mem_cons.mp hlookup).2⟩

/-- What a script asks a page of such a step is whether the wait is over with the elements that the
selectors match. -/
theorem exists_isSatisfied?_eq : ∃ payload,
    Value.ofJson keyUnits? (Step.waitForElement e w).toJson = some payload ∧
      ∀ page : Page, page.isSatisfied? payload =
        (page.querySelectorsAll (e.selectors.toList.map Selector.toValue)).map fun elements =>
          w.isOver elements.length := by
  obtain ⟨ms, hms, hlookup⟩ := exists_payload e hplain
  refine ⟨_, hms, fun page => ?_⟩
  simp only [Step.fields, ElementScope.selectorsField, ElementWait.fields, List.cons_append,
    List.nil_append, List.forall_mem_cons] at hlookup
  obtain ⟨hselectors, hoperator, hcount, hvisible, hattributes, hproperties, -⟩ := hlookup
  have hselectors : (Value.object ms).member? "selectors" =
      some (.array (e.selectors.toList.map Selector.toValue)) :=
    hselectors.trans (e.selectors.ofJson_toJson _)
  have hcount : ((Value.object ms).member? "count").getD (.number 1) =
      .number (w.count.getD 1).value := by
    rw [Value.member?, hcount]
    cases w.count with
    | none => rfl
    | some n => rfl
  have hoperator : ((Value.object ms).member? "operator").getD (.text (Text.units ">=")) =
      .text (w.operator.getD .atLeast).name.units := by
    rw [Value.member?, hoperator]
    cases w.operator <;> rfl
  have hvisible : ((Value.object ms).member? "visible").getD (.bool true) =
      .bool (w.visible.getD true) := by
    rw [Value.member?, hvisible]
    cases w.visible <;> rfl
  have hattributes : ((Value.object ms).member? "attributes").getD (.object []) = .object [] := by
    rw [Value.member?, hattributes]
    cases h : w.attributes with
    | none => rfl
    | some members => rw [hplain.attributes members h]; rfl
  have hmatch (e : page.Element) :
      page.isMatch [] ((Value.object ms).member? "properties") e = true := by
    rw [Value.member?, hproperties]
    exact page.isMatch_of_isFalsy hplain.properties _ e
  simp only [Page.isSatisfied?, hselectors, hcount, hoperator, hvisible, hattributes,
    Page.comparison?_name, Option.bind_eq_bind, Option.bind_some]
  obtain ⟨elements, helements⟩ :=
    Option.isSome_iff_exists.mp (page.querySelectorsAll_isSome e.selectors.toList)
  have hall : elements.all (page.isMatch [] ((Value.object ms).member? "properties")) = true :=
    List.all_eq_true.mpr fun e _ => hmatch e
  rw [helements, Option.bind_some, hall, Bool.and_true]
  rfl

end

end Puppeteer

end FlowScript
