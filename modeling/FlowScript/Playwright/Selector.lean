import FlowScript.Selector

/-!
# Static choice of selectors

A Playwright script names one selector per step. Alternatives that start at the accessibility tree
are passed over; of the rest the first with the preferred attribute is taken, else the first.
-/
namespace FlowScript.Playwright

/-- What stands in front of a part in place of its marker, for the kinds with an engine. -/
def engine? : SelectorKind → Option Text
  | .text => some "text="
  | .xpath => some "xpath="
  | .pierce => some "css="
  | .css | .aria => none

/-- A selector part in Playwright's form. -/
def convertPart (part : Text) : Text :=
  let kind := SelectorKind.ofPart part
  match engine? kind with
  | some engine => engine ++ part.drop kind.marker.length
  | none => part

def separator : Text := " >> "

/-- The parts of a chain as nested queries; the CSS engine sees through open shadow roots. -/
def joinParts (parts : List Text) : Text := Text.join separator (parts.map convertPart)

def convert (s : Selector) : Text := joinParts s.parts

def ariaMarker : Text := SelectorKind.aria.marker

/-- Whether an alternative stays when filtering for `value`: the outermost part has to contain it,
or, for the marker of the accessibility tree, must not. -/
def keeps (value : Text) (s : Selector) : Bool :=
  if value = ariaMarker then !ariaMarker.occursIn s.first else value.occursIn s.first

def filterSelectors (selectors : List Selector) (value : Text) : List Selector :=
  selectors.filter (keeps value)

/-- The alternative taken for a preferred attribute; an empty attribute is no preference. -/
def choose (selectors : List Selector) (preferred : Option Text) : Option Selector :=
  let usable := filterSelectors selectors ariaMarker
  match preferred with
  | some (x :: xs) => (filterSelectors usable (x :: xs)).head? <|> usable.head?
  | _ => usable.head?

/-- The selector that a script names for a list of alternatives. -/
def pickSelector (selectors : List Selector) (preferred : Option Text) : Option Text :=
  (choose selectors preferred).map convert

end FlowScript.Playwright
