import FlowScript.Proofs.Recording.Kind
import FlowScript.Script.Scope

/-!
# Kinds of numbers in acts

Acts that differ in kinds of numbers only write the same from the same writer on, or fail alike. What
they tell may differ, since a notice shows a number as it came.
-/
namespace FlowScript

namespace Piece

/-- A piece whose number, if integral, is an integer. -/
def kindless : Piece → Piece
  | number n => number n.kindless
  | p => p

@[simp] theorem kindless_number (n : Number) : (number n).kindless = number n.kindless := rfl

@[simp] theorem kindless_code (s : String) : (code s).kindless = code s := rfl

@[simp] theorem kindless_quoted (t : Text) : (quoted t).kindless = quoted t := rfl

@[simp] theorem kindless_key (t : Text) : (key t).kindless = key t := rfl

@[simp] theorem kindless_scalar (v : Json) : (scalar v).kindless = scalar v := rfl

@[simp] theorem kindless_indent (levels : Nat) : (indent levels).kindless = indent levels := rfl

@[simp] theorem kindless_lineBreak : lineBreak.kindless = lineBreak := rfl

def isNumber : Piece → Bool
  | number _ => true
  | _ => false

theorem kindless_of_isNumber {p : Piece} (h : p.isNumber = false) : p.kindless = p := by
  cases p with
  | number n => exact nomatch h
  | _ => rfl

@[simp] theorem text_kindless (unit : Text) (size : Nat) (p : Piece) :
    p.kindless.text unit size = p.text unit size := by
  cases p with
  | number n => rw [kindless, text, text, Number.numeral_kindless]
  | _ => rfl

theorem textAll_map_kindless (unit : Text) (size : Nat) (pieces : List Piece) :
    textAll unit size (pieces.map kindless) = textAll unit size pieces := by
  induction pieces with
  | nil => rfl
  | cons p pieces ih => rw [List.map_cons, textAll, text_kindless, ih, textAll]

mutual

theorem literal_kindless (level : Nat) : (v : Json) →
    literal level v.kindless = (literal level v).map kindless
  | .null => by simp [literal]
  | .bool _ => by simp [literal]
  | .num _ => by simp [literal]
  | .nonFinite _ => by simp [literal]
  | .str _ => by simp [literal]
  | .arr xs => by simp [literal, literalItems_kindless level xs]
  | .obj ms => by simp [literal, literalMembers_kindless level ms]

theorem literalItems_kindless (level : Nat) : (xs : List Json) →
    literalItems level (xs.map Json.kindless) = (literalItems level xs).map kindless
  | [] => rfl
  | [x] => by simp [literalItems, literal_kindless (level + 1) x]
  | x :: y :: xs => by
    have hx := literal_kindless (level + 1) x
    have hrest := literalItems_kindless level (y :: xs)
    simp_all [literalItems]

theorem literalMembers_kindless (level : Nat) : (ms : List (Text × Json)) →
    literalMembers level (ms.map fun m => (m.1, m.2.kindless)) =
      (literalMembers level ms).map kindless
  | [] => rfl
  | [(k, v)] => by simp [literalMembers, literal_kindless (level + 1) v]
  | (k, v) :: m :: ms => by
    have hv := literal_kindless (level + 1) v
    have hrest := literalMembers_kindless level (m :: ms)
    simp_all [literalMembers]

end

/-- The literal of a value without kinds is that of the value, without kinds. -/
theorem value_kindless (v : Json) : value v.kindless = (value v).map kindless :=
  literal_kindless 0 v

end Piece

def SkipReason.kindless : SkipReason → SkipReason
  | elementCount operator count => elementCount operator count.kindless
  | reason => reason

def Notice.kindless : Notice → Notice
  | skipped type selector reason => skipped type selector reason.kindless
  | n => n

namespace Act

/-- An act whose integral numbers are all integers. -/
def kindless : Act → Act
  | line pieces => line (pieces.map Piece.kindless)
  | notify n => notify n.kindless
  | a => a

@[simp] theorem kindless_line (pieces : List Piece) :
    (line pieces).kindless = line (pieces.map Piece.kindless) := rfl

@[simp] theorem kindless_code (t : String) : (code t).kindless = code t := rfl

@[simp] theorem kindless_startBlock : startBlock.kindless = startBlock := rfl

@[simp] theorem kindless_endBlock : endBlock.kindless = endBlock := rfl

@[simp] theorem kindless_notify (n : Notice) : (notify n).kindless = notify n.kindless := rfl

end Act

namespace Step

@[simp] theorem inFrame_kindless (s : Step) : s.kindless.inFrame = s.inFrame := by
  rw [inFrame, framePath_kindless, inFrame]

/-- Frame indices are integers anyway. -/
@[simp] theorem map_kindless_frameActs (path : List Nat) :
    (frameActs path).map Act.kindless = frameActs path := by
  simp [frameActs]

end Step

namespace Rendering
variable {α β : Type}

/-- Results that are the same but for the notices. -/
inductive Agree : EStateM.Result Failure Session α → EStateM.Result Failure Session α → Prop
  | ok (a : α) {s s' : Session} (h : s.writer = s'.writer) : Agree (.ok a s) (.ok a s')
  | error (f : Failure) {s s' : Session} (h : s.writer = s'.writer) :
    Agree (.error f s) (.error f s')

/-- Renderings that agree from the same writer on. -/
def WritesSame (x y : Rendering α) : Prop :=
  ∀ s s' : Session, s.writer = s'.writer → Agree (x s) (y s')

theorem WritesSame.bind {x y : Rendering α} {g g' : α → Rendering β} (h : WritesSame x y)
    (hg : ∀ a, WritesSame (g a) (g' a)) : WritesSame (x >>= g) (y >>= g') := by
  intro s s' hs
  have hagree := h s s' hs
  simp only [Bind.bind, EStateM.bind]
  generalize x s = result at hagree
  generalize y s' = result' at hagree
  cases hagree with
  | ok a h => exact hg a _ _ h
  | error f h => exact .error f h

theorem writesSame_pure (a : α) : WritesSame (pure a) (pure a) := fun _ _ h => .ok a h

/-- What goes on from a session may look at its writer. -/
theorem writesSame_get {g g' : Session → Rendering α}
    (h : ∀ s s', s.writer = s'.writer → WritesSame (g s) (g' s')) :
    WritesSame (get >>= g) (get >>= g') :=
  fun s s' hs => h s s' hs s s' hs

end Rendering

namespace Act
open Rendering

/-- One act writes the same without kinds. -/
theorem writesSame_kindless (a : Act) : WritesSame a.kindless.run a.run := by
  intro s s' h
  cases a with
  | line pieces =>
    simp only [kindless, run, Piece.textAll_map_kindless, h]
    split
    · exact .ok () rfl
    · exact .error _ h
  | startBlock => exact .ok () (congrArg Writer.startBlock h)
  | endBlock => exact .ok () (congrArg Writer.endBlock h)
  | notify n => exact .ok () h
  | fail f => exact .error f h

theorem writesSame_map_kindless (acts : List Act) :
    WritesSame (runAll (acts.map kindless)) (runAll acts) := by
  induction acts with
  | nil => exact writesSame_pure ()
  | cons a acts ih =>
    rw [List.map_cons, runAll, runAll]
    exact a.writesSame_kindless.bind fun _ => ih

end Act

namespace Template
open Rendering

/-- A template that runs the same acts for a recording without kinds, less their kinds. -/
structure HidesKinds (t : Template) (r : Recording) : Prop where
  prologue : flowActs t.beforeAllSteps r.kindless = (flowActs t.beforeAllSteps r).map Act.kindless
  steps : ∀ step, t.stepActs step.kindless (some r.kindless) =
    (t.stepActs step (some r)).map Act.kindless
  epilogue : flowActs t.afterAllSteps r.kindless = (flowActs t.afterAllSteps r).map Act.kindless

variable {t : Template} {r : Recording}

theorem HidesKinds.writesSame_renderRange (h : t.HidesKinds r) (step : Step) :
    WritesSame (t.renderRange step.kindless r.kindless) (t.renderRange step r) := by
  rw [renderRange, renderRange, h.steps]
  refine writesSame_get fun s s' hfirst => ?_
  refine (Act.writesSame_map_kindless _).bind fun _ => writesSame_get fun z z' hlast => ?_
  rw [hfirst, hlast]
  exact writesSame_pure _

theorem HidesKinds.writesSame_renderRanges (h : t.HidesKinds r) (steps : List Step) :
    WritesSame (t.renderRanges r.kindless (steps.map Step.kindless)) (t.renderRanges r steps) := by
  induction steps with
  | nil => exact writesSame_pure []
  | cons step steps ih =>
    rw [List.map_cons, renderRanges, renderRanges]
    exact (h.writesSame_renderRange step).bind fun range => ih.bind fun _ => writesSame_pure _

theorem writesSame_appendSourceMap (ranges : List (Nat × Nat)) :
    WritesSame (appendSourceMap ranges) (appendSourceMap ranges) := by
  intro s s' h
  simp only [appendSourceMap]
  split
  · exact .ok () (congrArg (Writer.append · _) h)
  · exact .error _ h

/-- Such a template writes the same for a recording without kinds. -/
theorem HidesKinds.writesSame (h : t.HidesKinds r) :
    WritesSame (t.renderRecording r.kindless) (t.renderRecording r) := by
  rw [renderRecording, renderRecording, h.prologue, h.epilogue]
  refine (Act.writesSame_map_kindless _).bind fun _ => ?_
  refine (h.writesSame_renderRanges r.steps).bind fun ranges => ?_
  refine (Act.writesSame_map_kindless _).bind fun _ => ?_
  refine (writesSame_appendSourceMap ranges).bind fun _ => writesSame_get fun s s' hs => ?_
  rw [hs]
  exact writesSame_pure _

end Template

end FlowScript
