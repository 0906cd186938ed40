import FlowScript.Export.Framework
import FlowScript.Proofs.Script.ScannedActs

/-!
# Recordings without their free texts

Free texts are those that a script only ever shows in literals. A recording without them has empty
texts in their place, and one name in the place of every target but the main one, which scripts tell
apart.
-/
namespace FlowScript

/-- What a text of a recording is. -/
inductive TextUse where
  | title
  | selector
  | value
  | key
  | url
  | expression
  | event
  | attribute
  | target
  deriving DecidableEq

/-- Whether such texts are free in the scripts of a framework. Playwright Test translates selectors
and keys, and Puppeteer shows no title. -/
def Framework.frees : Framework → TextUse → Bool
  | puppeteer, .title => false
  | playwrightTest, .selector | playwrightTest, .key | playwrightTest, .attribute => false
  | _, _ => true

namespace Framework

def redactText (f : Framework) (use : TextUse) (t : Text) : Text := if f.frees use then [] else t

/-- A target that names a page, by the name that stands for all of them. -/
def redactTarget (f : Framework) (t : Text) : Text :=
  if f.frees .target ∧ t ≠ [] ∧ t ≠ Step.mainTarget then "page" else t

variable (f : Framework)

def redactSelector : Selector → Selector
  | .plain part => .plain (f.redactText .selector part)
  | .chain first inner =>
    .chain (f.redactText .selector first) (inner.map (f.redactText .selector))

def redactAlternatives (a : Alternatives) : Alternatives :=
  ⟨f.redactSelector a.best, a.others.map f.redactSelector⟩

def redactEvent (e : NavigationEvent) : NavigationEvent :=
  ⟨e.url.map (f.redactText .event), e.title.map (f.redactText .event)⟩

def redactPage (s : PageScope) : PageScope :=
  ⟨s.target.map f.redactTarget, s.timeout, s.assertedEvents.map (List.map f.redactEvent)⟩

def redactFrame (s : FrameScope) : FrameScope := ⟨f.redactPage s.toPageScope, s.frame⟩

def redactElement (s : ElementScope) : ElementScope :=
  ⟨f.redactFrame s.toFrameScope, f.redactAlternatives s.selectors⟩

def redactWait (w : ElementWait) : ElementWait :=
  let attributes := w.attributes.map (List.map fun m => (m.1, f.redactText .attribute m.2))
  { w with attributes := attributes }

def redactStep : Step → Step
  | .change s value => .change (f.redactElement s) (f.redactText .value value)
  | .click s press => .click (f.redactElement s) press
  | .close s => .close (f.redactPage s)
  | .customStep s name parameters => .customStep (f.redactFrame s) name parameters
  | .doubleClick s press => .doubleClick (f.redactElement s) press
  | .emulateNetworkConditions s download upload latency =>
    .emulateNetworkConditions (f.redactPage s) download upload latency
  | .hover s => .hover (f.redactElement s)
  | .keyDown s key => .keyDown (f.redactPage s) (f.redactText .key key)
  | .keyUp s key => .keyUp (f.redactPage s) (f.redactText .key key)
  | .navigate s url => .navigate (f.redactPage s) (f.redactText .url url)
  | .scroll s x y selectors =>
    .scroll (f.redactFrame s) x y (selectors.map f.redactAlternatives)
  | .setViewport s viewport => .setViewport (f.redactPage s) viewport
  | .waitForElement s wait => .waitForElement (f.redactElement s) (f.redactWait wait)
  | .waitForExpression s expression =>
    .waitForExpression (f.redactFrame s) (f.redactText .expression expression)

/-- A recording without the texts that are free in the scripts of the framework. -/
def redact (r : Recording) : Recording :=
  { r with title := f.redactText .title r.title, steps := r.steps.map f.redactStep }

section Steps
variable (s : Step)

@[simp] theorem type_redactStep : (f.redactStep s).type = s.type := by
  cases s <;> rfl

@[simp] theorem page_redactStep : (f.redactStep s).page = f.redactPage s.page := by
  cases s <;> rfl

@[simp] theorem frame?_redactStep : (f.redactStep s).frame? = s.frame? := by
  cases s <;> rfl

@[simp] theorem framePath_redactStep : (f.redactStep s).framePath = s.framePath := by
  rw [Step.framePath, frame?_redactStep, Step.framePath]

@[simp] theorem inFrame_redactStep : (f.redactStep s).inFrame = s.inFrame := by
  rw [Step.inFrame, framePath_redactStep, Step.inFrame]

@[simp] theorem timeout_redactStep : (f.redactStep s).timeout = s.timeout := by
  rw [Step.timeout, page_redactStep]
  rfl

@[simp] theorem assertedEvents_redactStep :
    (f.redactStep s).assertedEvents = s.assertedEvents.map f.redactEvent := by
  rw [Step.assertedEvents, page_redactStep, Step.assertedEvents, redactPage]
  cases s.page.assertedEvents <;> rfl

/-- The main target stays what it is, and no other becomes it. -/
theorem target_redactStep : (f.redactStep s).target = f.redactTarget s.target := by
  have hmain : f.redactTarget Step.mainTarget = Step.mainTarget := by simp [redactTarget]
  rw [Step.target, page_redactStep, Step.target, redactPage]
  cases s.page.target with
  | none => exact hmain.symm
  | some t =>
    cases t with
    | nil =>
      have hempty : f.redactTarget [] = [] := by simp [redactTarget]
      simp [hempty, hmain]
    | cons c t =>
      have hne : (f.redactTarget (c :: t)).isEmpty = false := by
        rw [redactTarget]
        split <;> rfl
      simp [hne]

@[simp] theorem target_redactStep_eq_main_iff :
    (f.redactStep s).target = Step.mainTarget ↔ s.target = Step.mainTarget := by
  rw [target_redactStep, redactTarget]
  split
  · next h =>
    have hpage : ("page" : Text) ≠ Step.mainTarget := by decide
    exact ⟨fun heq => absurd heq hpage, fun heq => absurd heq h.2.2⟩
  · exact Iff.rfl

end Steps

end Framework

namespace Json

mutual

/-- A value without its texts, keys apart. -/
def redacted : Json → Json
  | str _ => str []
  | arr xs => arr (redactedItems xs)
  | obj ms => obj (redactedMembers ms)
  | v => v

def redactedItems : List Json → List Json
  | [] => []
  | x :: xs => redacted x :: redactedItems xs

def redactedMembers : List (Text × Json) → List (Text × Json)
  | [] => []
  | (k, v) :: ms => (k, redacted v) :: redactedMembers ms

end

@[simp] theorem redacted_str (t : Text) : (str t).redacted = str [] := by rw [redacted]

@[simp] theorem redacted_arr (xs : List Json) : (arr xs).redacted = arr (xs.map redacted) := by
  rw [redacted]
  congr 1
  induction xs with
  | nil => rfl
  | cons x xs ih => rw [redactedItems, ih, List.map_cons]

@[simp] theorem redacted_obj (ms : List (Text × Json)) :
    (obj ms).redacted = obj (ms.map fun m => (m.1, m.2.redacted)) := by
  rw [redacted]
  congr 1
  induction ms with
  | nil => rfl
  | cons m ms ih => rw [redactedMembers, ih, List.map_cons]

theorem redacted_ofFields (fs : List (Text × Option Json)) :
    (ofFields fs).redacted = ofFields (fs.map fun f => (f.1, f.2.map redacted)) := by
  rw [ofFields, redacted_obj, ofFields]
  induction fs with
  | nil => rfl
  | cons f fs ih => cases hf : f.2 <;> simp_all

end Json

namespace Piece

mutual

/-- A literal less its texts is the literal of the value less its texts. -/
theorem literal_redacted (level : Nat) : (v : Json) →
    literal level v.redacted = (literal level v).map redacted
  | .null => rfl
  | .bool _ => rfl
  | .num _ => rfl
  | .nonFinite _ => rfl
  | .str _ => rfl
  | .arr xs => by
    simp [literal, literalItems_redacted level xs, Piece.redacted]
  | .obj ms => by
    simp [literal, literalMembers_redacted level ms, Piece.redacted]

theorem literalItems_redacted (level : Nat) : (xs : List Json) →
    literalItems level (xs.map Json.redacted) = (literalItems level xs).map redacted
  | [] => rfl
  | [x] => by simp [literalItems, literal_redacted (level + 1) x, Piece.redacted]
  | x :: y :: xs => by
    have hx := literal_redacted (level + 1) x
    have hrest := literalItems_redacted level (y :: xs)
    simp_all [literalItems, Piece.redacted]

theorem literalMembers_redacted (level : Nat) : (ms : List (Text × Json)) →
    literalMembers level (ms.map fun m => (m.1, m.2.redacted)) =
      (literalMembers level ms).map redacted
  | [] => rfl
  | [(k, v)] => by simp [literalMembers, literal_redacted (level + 1) v, Piece.redacted]
  | (k, v) :: m :: ms => by
    have hv := literal_redacted (level + 1) v
    have hrest := literalMembers_redacted level (m :: ms)
    simp_all [literalMembers, Piece.redacted]

end

theorem map_redacted_value (v : Json) : (value v).map redacted = value v.redacted :=
  (literal_redacted 0 v).symm

end Piece

end FlowScript
