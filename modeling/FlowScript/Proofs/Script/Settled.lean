import FlowScript.Proofs.Script.Failures
import FlowScript.Proofs.Script.Indentation
import FlowScript.Step.Json

/-!
# Settled acts

Nearly all acts of the shipped templates write a text that exists and is the same everywhere. The
exception are values printed where a numeral is due, and those are what is left of a literal when
everything settled is taken away: the doubles that are no number, in the order of the document.
-/
namespace FlowScript

namespace Json

mutual

/-- The doubles that are no number in a value, at any depth, in the order of the document. -/
def nonFinites : Json → List NonFinite
  | nonFinite x => [x]
  | arr xs => nonFinitesOfItems xs
  | obj ms => nonFinitesOfMembers ms
  | _ => []

def nonFinitesOfItems : List Json → List NonFinite
  | [] => []
  | x :: xs => nonFinites x ++ nonFinitesOfItems xs

def nonFinitesOfMembers : List (Text × Json) → List NonFinite
  | [] => []
  | (_, v) :: ms => nonFinites v ++ nonFinitesOfMembers ms

end

@[simp] theorem nonFinites_arr (xs : List Json) : (arr xs).nonFinites = xs.flatMap nonFinites := by
  rw [nonFinites]
  induction xs with
  | nil => rfl
  | cons x xs ih => rw [nonFinitesOfItems, ih, List.flatMap_cons]

@[simp] theorem nonFinites_obj (ms : List (Text × Json)) :
    (obj ms).nonFinites = ms.flatMap fun m => m.2.nonFinites := by
  rw [nonFinites]
  induction ms with
  | nil => rfl
  | cons m ms ih => rw [nonFinitesOfMembers, ih, List.flatMap_cons]

@[simp] theorem nonFinites_str (t : Text) : (str t).nonFinites = [] := by simp only [nonFinites]

@[simp] theorem nonFinites_num (n : Number) : (num n).nonFinites = [] := by simp only [nonFinites]

@[simp] theorem nonFinites_bool (b : Bool) : (bool b).nonFinites = [] := by simp only [nonFinites]

/-- A field counts with its value, if it has one. -/
theorem nonFinites_ofFields (fs : List (Text × Option Json)) :
    (ofFields fs).nonFinites = fs.flatMap fun f => f.2.elim [] nonFinites := by
  rw [ofFields, nonFinites_obj]
  induction fs with
  | nil => rfl
  | cons f fs ih => cases hf : f.2 <;> simp [hf, ih]

end Json

namespace Piece

/-- A piece that has the same text everywhere. -/
def isSettled : Piece → Bool
  | scalar _ | size => false
  | _ => true

@[simp] theorem isSettled_code (s : String) : (code s).isSettled = true := by
  simp only [isSettled]

@[simp] theorem isSettled_quoted (t : Text) : (quoted t).isSettled = true := by
  simp only [isSettled]

@[simp] theorem isSettled_key (t : Text) : (key t).isSettled = true := by
  simp only [isSettled]

@[simp] theorem isSettled_number (n : Number) : (number n).isSettled = true := by
  simp only [isSettled]

@[simp] theorem isSettled_indent (levels : Nat) : (indent levels).isSettled = true := by
  simp only [isSettled]

@[simp] theorem isSettled_lineBreak : lineBreak.isSettled = true := by
  simp only [isSettled]

/-- What is not settled, of pieces that print these doubles among settled ones. -/
def unsettled (xs : List NonFinite) : List Piece := xs.map fun x => scalar (.nonFinite x)

mutual

theorem filter_literal (level : Nat) : (v : Json) →
    (literal level v).filter (!isSettled ·) = unsettled v.nonFinites
  | .null => rfl
  | .bool _ => rfl
  | .num _ => rfl
  | .nonFinite _ => rfl
  | .str _ => rfl
  | .arr xs => by simp [literal, filter_literalItems level xs]
  | .obj ms => by simp [literal, filter_literalMembers level ms]

theorem filter_literalItems (level : Nat) : (xs : List Json) →
    (literalItems level xs).filter (!isSettled ·) = unsettled (xs.flatMap Json.nonFinites)
  | [] => rfl
  | [x] => by simp [literalItems, filter_literal (level + 1) x]
  | x :: y :: xs => by
    have hx := filter_literal (level + 1) x
    have hrest := filter_literalItems level (y :: xs)
    simp_all [literalItems, unsettled]

theorem filter_literalMembers (level : Nat) : (ms : List (Text × Json)) →
    (literalMembers level ms).filter (!isSettled ·) =
      unsettled (ms.flatMap fun m => m.2.nonFinites)
  | [] => rfl
  | [(k, v)] => by simp [literalMembers, filter_literal (level + 1) v]
  | (k, v) :: m :: ms => by
    have hv := filter_literal (level + 1) v
    have hrest := filter_literalMembers level (m :: ms)
    simp_all [literalMembers, unsettled]

end

theorem eq_nonFinite_of_mem_value {v : Json} {p : Piece} (hp : p ∈ value v)
    (h : p.isSettled = false) : ∃ x ∈ v.nonFinites, p = scalar (.nonFinite x) := by
  have hmem : p ∈ (value v).filter (!isSettled ·) := by simp [hp, h]
  rw [value, filter_literal, unsettled] at hmem
  obtain ⟨x, hx, rfl⟩ := List.mem_map.mp hmem
  exact ⟨x, hx, rfl⟩

@[simp] theorem size_notMem_value (v : Json) : Piece.size ∉ value v := by
  intro hsize
  obtain ⟨x, -, hx⟩ := eq_nonFinite_of_mem_value hsize rfl
  exact nomatch hx

/-- Every piece of a line is settled. -/
def AllSettled (pieces : List Piece) : Prop := ∀ p ∈ pieces, p.isSettled = true

/-- Every piece of every entry is settled. -/
def EntriesSettled (entries : List (List Piece)) : Prop := ∀ e ∈ entries, AllSettled e

section
variable {first second : List Piece} {entries rest : List (List Piece)}

@[simp] theorem allSettled_nil : AllSettled [] := by simp [AllSettled]

@[simp] theorem allSettled_cons {p : Piece} :
    AllSettled (p :: first) ↔ p.isSettled = true ∧ AllSettled first := List.forall_mem_cons

@[simp] theorem allSettled_append :
    AllSettled (first ++ second) ↔ AllSettled first ∧ AllSettled second := List.forall_mem_append

@[simp] theorem allSettled_value {v : Json} : AllSettled (value v) ↔ v.nonFinites = [] := by
  have hfilter := filter_literal 0 v
  constructor
  · intro h
    have hnil : (literal 0 v).filter (!isSettled ·) = [] := by
      simpa [List.filter_eq_nil_iff, AllSettled, value] using h
    simpa [hfilter, unsettled] using hnil
  · intro h p hp
    by_contra hne
    obtain ⟨x, hx, -⟩ := eq_nonFinite_of_mem_value hp (by simpa using hne)
    simp [h] at hx

@[simp] theorem entriesSettled_nil : EntriesSettled [] := by simp [EntriesSettled]

@[simp] theorem entriesSettled_cons :
    EntriesSettled (first :: entries) ↔ AllSettled first ∧ EntriesSettled entries :=
  List.forall_mem_cons

@[simp] theorem entriesSettled_append :
    EntriesSettled (entries ++ rest) ↔ EntriesSettled entries ∧ EntriesSettled rest :=
  List.forall_mem_append

end

theorem nonFinite?_of_isSettled {p : Piece} (h : p.isSettled = true) : p.nonFinite? = none := by
  cases p with
  | scalar v => exact nomatch h
  | _ => rfl

/-- Nothing settled goes wrong. -/
theorem filterMap_unsettled (pieces : List Piece) :
    (pieces.filter (!isSettled ·)).filterMap nonFinite? = pieces.filterMap nonFinite? := by
  have hpiece : (fun p : Piece => if !p.isSettled then p.nonFinite? else none) = nonFinite? := by
    funext p
    cases p <;> rfl
  rw [List.filterMap_filter, hpiece]

/-- A literal goes wrong with the doubles in its value. -/
@[simp] theorem filterMap_value (v : Json) : (value v).filterMap nonFinite? = v.nonFinites := by
  rw [← filterMap_unsettled, value, filter_literal, unsettled, List.filterMap_map]
  exact List.filterMap_some

end Piece

namespace Act

/-- An act that does the same everywhere and opens or closes no block. -/
def IsSettled : Act → Prop
  | line pieces => Piece.AllSettled pieces
  | notify _ => True
  | _ => False

@[simp] theorem isSettled_line {pieces : List Piece} :
    (line pieces).IsSettled ↔ Piece.AllSettled pieces := Iff.rfl

@[simp] theorem isSettled_code (s : String) : (code s).IsSettled := by simp [code]

@[simp] theorem isSettled_notify (n : Notice) : (notify n).IsSettled := trivial

theorem IsSettled.isPlain {a : Act} (h : a.IsSettled) : a.IsPlain := by
  cases a with
  | line pieces => exact fun hsize => nomatch h _ hsize
  | notify n => trivial
  | _ => exact h.elim

theorem IsSettled.failures_eq {a : Act} (h : a.IsSettled) : a.failures = [] := by
  cases a with
  | line pieces =>
    rw [failures, List.map_eq_nil_iff, List.filterMap_eq_nil_iff]
    exact fun p hp => Piece.nonFinite?_of_isSettled (h p hp)
  | notify n => rfl
  | _ => exact h.elim

@[simp] theorem failures_line (pieces : List Piece) :
    (line pieces).failures = (pieces.filterMap Piece.nonFinite?).map .nonFinite := rfl

@[simp] theorem failures_code (s : String) : (code s).failures = [] := rfl

@[simp] theorem failures_startBlock : startBlock.failures = [] := rfl

@[simp] theorem failures_endBlock : endBlock.failures = [] := rfl

/-- Plain acts that go wrong with these doubles and nothing else. -/
structure Prints (acts : List Act) (xs : List NonFinite) : Prop where
  plain : ∀ a ∈ acts, a.IsPlain
  failures : acts.flatMap failures = xs.map .nonFinite

theorem Prints.append {first second : List Act} {xs ys : List NonFinite} (hfirst : Prints first xs)
    (hsecond : Prints second ys) : Prints (first ++ second) (xs ++ ys) := by
  refine ⟨List.forall_mem_append.mpr ⟨hfirst.plain, hsecond.plain⟩, ?_⟩
  rw [List.flatMap_append, hfirst.failures, hsecond.failures, List.map_append]

/-- Every act is settled. -/
def AllSettled (acts : List Act) : Prop := ∀ a ∈ acts, a.IsSettled

section
variable {first second acts : List Act}

@[simp] theorem allSettled_nil : AllSettled [] := by simp [AllSettled]

@[simp] theorem allSettled_cons {a : Act} :
    AllSettled (a :: first) ↔ a.IsSettled ∧ AllSettled first := List.forall_mem_cons

@[simp] theorem allSettled_append :
    AllSettled (first ++ second) ↔ AllSettled first ∧ AllSettled second := List.forall_mem_append

@[simp] theorem allSettled_map {α : Type} {g : α → Act} {xs : List α} :
    AllSettled (xs.map g) ↔ ∀ x ∈ xs, (g x).IsSettled := List.forall_mem_map

theorem AllSettled.prints (h : AllSettled acts) : Prints acts [] := by
  refine ⟨fun a ha => (h a ha).isPlain, ?_⟩
  rw [List.map_nil, List.flatMap_eq_nil_iff]
  exact fun a ha => (h a ha).failures_eq

theorem AllSettled.closed (h : AllSettled acts) : Closed acts :=
  closed_of_isPlain h.prints.plain

end

end Act

end FlowScript
