import FlowScript.Json

/-!
# Scoped log context

Fields that every event has while a block lasts. Entering a block overrides fields one by one and
keeps what each was before; leaving it puts exactly that back.
-/
namespace FlowScript

/-- The fields bound at some point. -/
abbrev LogScope := List (Text × Json)

namespace LogScope

def get? (s : LogScope) (key : Text) : Option Json := Json.find? key s

def set (s : LogScope) (key : Text) (v : Json) : LogScope := Json.insert s key v

def erase (s : LogScope) (key : Text) : LogScope := s.filter fun m => m.1 ≠ key

@[simp] theorem get?_set (s : LogScope) (key name : Text) (v : Json) :
    (s.set key v).get? name = if name = key then some v else s.get? name :=
  Json.find?_insert s key name v

theorem get?_erase (s : LogScope) (key name : Text) :
    (s.erase key).get? name = if name = key then none else s.get? name := by
  induction s with
  | nil => grind [erase, get?, Json.find?]
  | cons m s ih => grind [erase, get?, Json.find?]

/-- A field, and the value it had before it was overridden, if it had one. -/
structure Undo where
  key : Text
  before : Option Json

/-- The scope inside a block, and how to get back out of it. -/
def enter : LogScope → List (Text × Json) → LogScope × List Undo
  | s, [] => (s, [])
  | s, (k, v) :: context =>
    let (inner, undos) := enter (s.set k v) context
    (inner, ⟨k, s.get? k⟩ :: undos)

def Undo.apply (s : LogScope) (u : Undo) : LogScope :=
  match u.before with
  | some v => s.set u.key v
  | none => s.erase u.key

/-- The scope behind a block, restored one field after another. -/
def leave (s : LogScope) (undos : List Undo) : LogScope := undos.foldl Undo.apply s

end LogScope

end FlowScript
