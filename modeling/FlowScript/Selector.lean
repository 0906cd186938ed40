import FlowScript.Json

/-!
# Selectors

A selector finds an element: one text, or a chain that crosses one shadow root per part. What is in
front of the first slash says how a part is to be read.
-/
namespace FlowScript

inductive Selector where
  | plain (part : Text)
  /-- A chain, outermost part first. -/
  | chain (first : Text) (inner : List Text)
  deriving DecidableEq

/-- How a selector part is read. -/
inductive SelectorKind where
  | css
  | aria
  | text
  | xpath
  | pierce
  deriving DecidableEq

namespace SelectorKind

def name : SelectorKind → Text
  | css => "css"
  | aria => "aria"
  | text => "text"
  | xpath => "xpath"
  | pierce => "pierce"

/-- What a part of this kind starts with; a part that starts with none of them is CSS. -/
def marker (k : SelectorKind) : Text := k.name ++ ("/" : Text)

def ofPart (part : Text) : SelectorKind :=
  ([aria, text, xpath, pierce].find? fun k => k.marker.isPrefixOf part).getD css

end SelectorKind

namespace Selector

def first : Selector → Text
  | plain part => part
  | chain first _ => first

def parts : Selector → List Text
  | plain part => [part]
  | chain first inner => first :: inner

/-- The chain with these parts; there is none without parts. -/
def chain? : List Text → Option Selector
  | [] => none
  | first :: inner => some (chain first inner)

/-- The kind of the outermost part. -/
def kind (s : Selector) : SelectorKind := SelectorKind.ofPart s.first

def toJson : Selector → Json
  | plain part => .str part
  | chain first inner => .arr ((first :: inner).map .str)

end Selector

/-- Alternative selectors for one element, in order of preference; there is at least one. -/
structure Alternatives where
  best : Selector
  others : List Selector
  deriving DecidableEq

namespace Alternatives

def toList (a : Alternatives) : List Selector := a.best :: a.others

def toJson (a : Alternatives) : Json := .arr (a.toList.map Selector.toJson)

end Alternatives

end FlowScript
