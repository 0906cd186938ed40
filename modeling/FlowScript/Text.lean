/-!
# Text as code points

Recordings may hold lone surrogates, which no `Char` can be, so text is a list of code points.
The text of a string literal never holds one: the coercion from `String` gives scalar values only.
-/
namespace FlowScript

/-- A Unicode code point, surrogates included. -/
structure CodePoint where
  val : Nat
  isLt : val < 0x110000 := by decide
  deriving DecidableEq

abbrev Text := List CodePoint

theorem char_toNat_lt (c : Char) : c.toNat < 0x110000 := by
  have h := c.valid
  simp only [UInt32.isValidChar, Nat.isValidChar] at h
  show c.val.toNat < 0x110000
  omega

namespace CodePoint

def ofChar (c : Char) : CodePoint := ⟨c.toNat, char_toNat_lt c⟩

instance : Coe Char CodePoint := ⟨ofChar⟩

/-- The code point of a number; numbers past the last one give U+FFFD. -/
def ofNat (n : Nat) : CodePoint :=
  if h : n < 0x110000 then ⟨n, h⟩ else ⟨0xFFFD, by decide⟩

def lineFeed : CodePoint := ⟨10, by decide⟩
def space : CodePoint := ⟨32, by decide⟩

/-- High surrogates open a UTF-16 pair. -/
def isHighSurrogate (c : CodePoint) : Bool := 0xD800 ≤ c.val && c.val < 0xDC00

/-- Low surrogates close a UTF-16 pair. -/
def isLowSurrogate (c : CodePoint) : Bool := 0xDC00 ≤ c.val && c.val < 0xE000

def isSurrogate (c : CodePoint) : Bool := 0xD800 ≤ c.val && c.val < 0xE000

def isDigit (c : CodePoint) : Bool := 48 ≤ c.val && c.val ≤ 57

end CodePoint

namespace Text

def ofString (s : String) : Text := s.toList.map CodePoint.ofChar

instance : Coe String Text := ⟨ofString⟩

theorem ofString_ofList (l : List Char) : ofString (String.ofList l) = l.map CodePoint.ofChar := by
  simp [ofString]

/-- The scalar values of a text as a string; a surrogate, which a string cannot hold, is U+FFFD. -/
def toString (t : Text) : String :=
  String.ofList (t.map fun c => if c.isSurrogate then Char.ofNat 0xFFFD else Char.ofNat c.val)

/-- The lines of a text; only a line feed ends one. -/
def lines (t : Text) : List Text := t.splitOn CodePoint.lineFeed

/-- The texts in order with `sep` between neighbours. -/
def join (sep : Text) (ts : List Text) : Text := sep.intercalate ts

/-- The text `n` times over. -/
def repeated (t : Text) (n : Nat) : Text := (List.replicate n t).flatten

/-- Whether `part` occurs in `t`; the empty text occurs everywhere. -/
def occursIn (part : Text) : Text → Bool
  | [] => part.isEmpty
  | c :: t => part.isPrefixOf (c :: t) || occursIn part t

/-- The text padded with spaces on the right to at least `width` code points. -/
def padTo (width : Nat) (t : Text) : Text :=
  t ++ List.replicate (width - t.length) CodePoint.space

/-- Order by code points, the one in which keys are sorted. -/
def le : Text → Text → Bool
  | [], _ => true
  | _ :: _, [] => false
  | a :: s, b :: t => a.val < b.val || (a.val = b.val && le s t)

end Text

end FlowScript
