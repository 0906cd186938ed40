import FlowScript.Proofs.Json.Number
import FlowScript.Proofs.Recording.Fields

/-!
# The schema of a step

What a value has to look like to be a step, said field by field and without reading anything: for
each type of step, which fields it looks at and what each of them may hold.
-/
namespace FlowScript

namespace Json

mutual

/-- The integers in a value, at any depth. -/
def integers : Json → List Int
  | num (.int n) => [n]
  | arr xs => integersOfItems xs
  | obj ms => integersOfMembers ms
  | _ => []

def integersOfItems : List Json → List Int
  | [] => []
  | x :: xs => integers x ++ integersOfItems xs

def integersOfMembers : List (Text × Json) → List Int
  | [] => []
  | (_, v) :: ms => integers v ++ integersOfMembers ms

end

/-- No integer in the value is too large to be judged. -/
def Bounded (v : Json) : Prop := ∀ n ∈ v.integers, n.natAbs < Double.overflowBound

theorem integersOfItems_subset {x : Json} {xs : List Json} (h : x ∈ xs) :
    x.integers ⊆ integersOfItems xs := by
  induction xs with
  | nil => exact absurd h List.not_mem_nil
  | cons y xs ih =>
    rw [integersOfItems]
    rcases List.mem_cons.mp h with rfl | h
    · exact List.subset_append_left _ _
    · exact List.Subset.trans (ih h) (List.subset_append_right _ _)

theorem integersOfMembers_subset {key : Text} {v : Json} {ms : List (Text × Json)}
    (h : find? key ms = some v) : v.integers ⊆ integersOfMembers ms := by
  induction ms with
  | nil => exact nomatch h
  | cons m ms ih =>
    rw [integersOfMembers]
    rw [find?] at h
    split at h
    · obtain rfl := Option.some.inj h
      exact List.subset_append_left _ _
    · exact List.Subset.trans (ih h) (List.subset_append_right _ _)

theorem Bounded.item {x : Json} {xs : List Json} (h : (arr xs).Bounded) (hx : x ∈ xs) :
    x.Bounded := fun n hn => h n (integersOfItems_subset hx hn)

theorem find?_of_fields {ms : List (Text × Json)} {name : Text} {v : Json}
    (h : fields ms name = some v) : find? name ms = some v := by
  rw [fields] at h
  obtain ⟨w, hw, hv⟩ := Option.bind_eq_some_iff.mp h
  cases w with
  | null => exact nomatch hv
  | _ => exact hv ▸ hw

theorem Bounded.field {ms : List (Text × Json)} {name : Text} {v : Json} (h : (obj ms).Bounded)
    (hv : fields ms name = some v) : v.Bounded :=
  fun n hn => h n (integersOfMembers_subset (find?_of_fields hv) hn)

theorem Bounded.isJudged {n : Number} (h : (num n).Bounded) : n.IsJudged := by
  cases n with
  | int k => exact h k (List.mem_singleton.mpr rfl)
  | double d => trivial

end Json

namespace Schema

/-- What a field may hold, where none is an absent field. -/
abbrev Rule : Type := Option Json → Prop

def required (shape : Json → Prop) : Rule := fun o => ∃ v, o = some v ∧ shape v

def optional (shape : Json → Prop) : Rule := fun o => ∀ v, o = some v → shape v

def IsText (v : Json) : Prop := ∃ t, v = .str t

def IsNumber (v : Json) : Prop := ∃ n, v = .num n

def IsBoolean (v : Json) : Prop := ∃ b, v = .bool b

/-- One of the names, or an empty text. -/
def IsChoice (names : List Text) (v : Json) : Prop := ∃ t, v = .str t ∧ (t = [] ∨ t ∈ names)

/-- A list, not empty, of values of a shape. -/
def IsListOf (shape : Json → Prop) (v : Json) : Prop :=
  ∃ xs, v = .arr xs ∧ xs ≠ [] ∧ ∀ x ∈ xs, shape x

def IsSelector (v : Json) : Prop := IsText v ∨ IsListOf IsText v

/-- A finite number that is a natural one, of either kind. -/
def IsIndex (v : Json) : Prop := ∃ n, v = .num n ∧ n.value.den = 1 ∧ 0 ≤ n.value

def IsFrame (v : Json) : Prop := ∃ xs, v = .arr xs ∧ ∀ x ∈ xs, IsIndex x

/-- A number is in bounds; what is no number is let through. -/
def IsTimeout (v : Json) : Prop := ∀ n, v = .num n → 1 ≤ n.value ∧ n.value ≤ 30000

def IsEvent (v : Json) : Prop :=
  ∃ ms, v = .obj ms ∧ Json.fields ms "type" = some (.str "navigation") ∧
    optional IsText (Json.fields ms "url") ∧ optional IsText (Json.fields ms "title")

/-- A list has events only; what is no list is let through. -/
def IsEvents (v : Json) : Prop := ∀ xs, v = .arr xs → ∀ x ∈ xs, IsEvent x

def IsTexts (v : Json) : Prop := ∃ ms, v = .obj ms ∧ ∀ m ∈ ms, IsText m.2

def IsStructured (v : Json) : Prop := (∃ ms, v = .obj ms) ∨ ∃ xs, v = .arr xs

def page : List (Text × Rule) :=
  [("timeout", optional IsTimeout), ("assertedEvents", optional IsEvents)]

def frame : List (Text × Rule) := ("frame", optional IsFrame) :: page

def element : List (Text × Rule) := ("selectors", required (IsListOf IsSelector)) :: frame

def press : List (Text × Rule) :=
  [("offsetX", required IsNumber), ("offsetY", required IsNumber),
    ("duration", optional IsNumber), ("deviceType", optional (IsChoice ["mouse", "pen", "touch"])),
    ("button", optional (IsChoice ["primary", "auxiliary", "secondary", "back", "forward"]))]

def viewport : List (Text × Rule) :=
  [("width", required IsNumber), ("height", required IsNumber),
    ("deviceScaleFactor", required IsNumber), ("isMobile", required IsBoolean),
    ("hasTouch", required IsBoolean), ("isLandscape", required IsBoolean)]

def wait : List (Text × Rule) :=
  [("operator", optional (IsChoice [">=", "==", "<="])), ("count", optional IsNumber),
    ("visible", optional IsBoolean), ("attributes", optional IsTexts),
    ("properties", optional IsStructured)]

/-- The fields that a step of a type looks at besides its type, where any text is let through as
target and anything as parameters. -/
def ofType : StepType → List (Text × Rule)
  | .change => ("value", required IsText) :: element
  | .click | .doubleClick => press ++ element
  | .close => page
  | .customStep => ("name", required IsText) :: frame
  | .emulateNetworkConditions =>
    ("download", required IsNumber) :: ("upload", required IsNumber) ::
      ("latency", required IsNumber) :: page
  | .hover => element
  | .keyDown | .keyUp => ("key", required IsText) :: page
  | .navigate => ("url", required IsText) :: page
  | .scroll =>
    ("x", optional IsNumber) :: ("y", optional IsNumber) ::
      ("selectors", optional (IsListOf IsSelector)) :: frame
  | .setViewport => viewport ++ page
  | .waitForElement => wait ++ element
  | .waitForExpression => ("expression", required IsText) :: frame

def Holds (rules : List (Text × Rule)) (f : Fields) : Prop := ∀ rule ∈ rules, rule.2 (f rule.1)

/-- An object whose type is that of a step, with fields that the rules for its type allow. -/
def IsStep (v : Json) : Prop :=
  ∃ ms type, v = .obj ms ∧ Json.fields ms "type" = some (.str type.name) ∧
    Holds (ofType type) (Json.fields ms)

end Schema

end FlowScript
