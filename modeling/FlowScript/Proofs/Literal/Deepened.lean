import FlowScript.Proofs.Literal.Written
import FlowScript.Proofs.Script.Indentation
import FlowScript.Proofs.Script.ScannedLines

/-!
# Literals in indented lines

A writer sets the lines of a text deeper one by one. For a list of texts that comes to the literal of
the list so many levels deeper: every line of it ends in a mark, so nothing is trimmed, and no line
feed stands inside an element.
-/
namespace FlowScript

namespace Text

/-- A text whose lines but the first are set off by `pad`. -/
def deepened (pad t : Text) : Text :=
  t.flatMap fun c => if c = CodePoint.lineFeed then c :: pad else [c]

@[simp] theorem deepened_nil (pad : Text) : deepened pad [] = [] := rfl

theorem deepened_cons (pad : Text) (c : CodePoint) (t : Text) : deepened pad (c :: t) =
    (if c = CodePoint.lineFeed then c :: pad else [c]) ++ deepened pad t := List.flatMap_cons

@[simp] theorem deepened_append (pad s t : Text) :
    deepened pad (s ++ t) = deepened pad s ++ deepened pad t := List.flatMap_append

@[simp] theorem deepened_lineFeed (pad : Text) :
    deepened pad [CodePoint.lineFeed] = CodePoint.lineFeed :: pad := List.append_nil _

theorem deepened_of_isLine (pad : Text) {t : Text} (h : t.IsLine) : deepened pad t = t := by
  induction t with
  | nil => rfl
  | cons c t ih =>
    have hc : c ≠ CodePoint.lineFeed := fun hc => h (hc ▸ List.mem_cons_self)
    rw [deepened_cons, if_neg hc, ih fun hmem => h (List.mem_cons_of_mem c hmem)]
    rfl

/-- The lines of a text, all of them set off. -/
theorem ofLines_map_append (pad t : Text) :
    ofLines (t.lines.map (pad ++ ·)) = pad ++ deepened pad t ++ [CodePoint.lineFeed] := by
  induction t with
  | nil => simp [lines, ofLines]
  | cons c t ih =>
    obtain ⟨l, rest, hlines⟩ := List.exists_cons_of_ne_nil
      (List.splitOn_ne_nil CodePoint.lineFeed t)
    rw [lines, hlines] at ih
    rw [lines, List.splitOn_cons_eq_if_modifyHead, deepened_cons, hlines]
    by_cases hc : c = CodePoint.lineFeed
    · simpa [hc, ofLines] using ih
    · simpa [hc, ofLines] using ih

/-- Whether the last code point of a text is no blank, if none of its lines but the last one ends in
a blank. Behind it stands a text whose last code point is so as told. -/
def firm? : Bool → Text → Option Bool
  | firm, [] => some firm
  | firm, c :: t =>
    if c = CodePoint.lineFeed then if firm then firm? false t else none else firm? (!c.isBlank) t

/-- No line of the text ends in a blank, or is empty. -/
def IsFirm (t : Text) : Prop := firm? false t = some true

theorem firm?_append (firm : Bool) (s t : Text) :
    firm? firm (s ++ t) = (firm? firm s).bind (firm? · t) := by
  induction s generalizing firm with
  | nil => rfl
  | cons c s ih =>
    rw [List.cons_append, firm?, firm?]
    split
    · split
      · exact ih false
      · rfl
    · exact ih _

theorem firm?_of_isLine {t : Text} (h : t.IsLine) (firm : Bool) : ∃ last, firm? firm t = some last := by
  induction t generalizing firm with
  | nil => exact ⟨firm, rfl⟩
  | cons c t ih =>
    have hc : c ≠ CodePoint.lineFeed := fun hc => h (hc ▸ List.mem_cons_self)
    rw [firm?, if_neg hc]
    exact ih (fun hmem => h (List.mem_cons_of_mem c hmem)) _

/-- The last code point decides, if the text is a line. -/
theorem firm?_concat {t : Text} {c : CodePoint} (h : IsLine (t ++ [c])) (firm : Bool) :
    firm? firm (t ++ [c]) = some (!c.isBlank) := by
  have hc : c ≠ CodePoint.lineFeed := fun hc => h (hc ▸ List.mem_append_right _ List.mem_cons_self)
  obtain ⟨last, hlast⟩ := firm?_of_isLine (fun hmem => h (List.mem_append_left _ hmem)) firm
  rw [firm?_append, hlast, Option.bind_some, firm?, if_neg hc]
  rfl

theorem exists_nonBlank_of_firm? {t : Text} {firm : Bool} (h : firm? firm t = some true) :
    ∃ l rest, t.lines = l :: rest ∧ (l = [] → firm = true) ∧
      (l ≠ [] → ∃ c ∈ l.getLast?, c.isBlank = false) ∧
      ∀ l ∈ rest, ∃ c ∈ l.getLast?, c.isBlank = false := by
  induction t generalizing firm with
  | nil => exact ⟨[], [], rfl, fun _ => by simpa [firm?] using h, fun hne => absurd rfl hne, nofun⟩
  | cons c t ih =>
    rw [firm?] at h
    by_cases hc : c = CodePoint.lineFeed
    · rw [if_pos hc] at h
      cases firm with
      | false => exact nomatch h
      | true =>
        obtain ⟨l, rest, hlines, hempty, hfirst, hrest⟩ := ih h
        refine ⟨[], l :: rest, ?_, fun _ => rfl, fun hne => absurd rfl hne,
          List.forall_mem_cons.mpr ⟨hfirst fun hnil => Bool.false_ne_true (hempty hnil), hrest⟩⟩
        rw [hc, ← List.nil_append (_ :: t)]
        exact (lines_append_lineFeed [] t).trans (congrArg _ hlines)
    · rw [if_neg hc] at h
      obtain ⟨l, rest, hlines, hempty, hfirst, hrest⟩ := ih h
      refine ⟨c :: l, rest, ?_, nofun, fun _ => ?_, hrest⟩
      · rw [lines] at hlines ⊢
        rw [List.splitOn_cons_eq_if_modifyHead, if_neg (by simpa using hc), hlines]
        rfl
      · by_cases hl : l = []
        · refine ⟨c, by simp [hl], ?_⟩
          simpa using hempty hl
        · obtain ⟨d, hd, hblank⟩ := hfirst hl
          exact ⟨d, by rw [List.getLast?_cons_of_ne_nil hl]; exact hd, hblank⟩

/-- A writer sets off every line of a text that has nothing to be trimmed. -/
theorem IsFirm.ofLines_layout {t : Text} (h : t.IsFirm) (unit : Text) (depth : Int) :
    ofLines (t.lines.map (Writer.layout unit depth)) =
      unit.repeated depth.toNat ++ deepened (unit.repeated depth.toNat) t ++
        [CodePoint.lineFeed] := by
  have hlayout : ∀ l ∈ t.lines, Writer.layout unit depth l = unit.repeated depth.toNat ++ l := by
    obtain ⟨l, rest, hlines, hempty, hfirst, hrest⟩ := exists_nonBlank_of_firm? h
    have hall : ∀ l ∈ t.lines, ∃ c ∈ l.getLast?, c.isBlank = false := by
      rw [hlines]
      exact List.forall_mem_cons.mpr
        ⟨hfirst fun hnil => Bool.false_ne_true (hempty hnil), hrest⟩
    intro l hl
    obtain ⟨c, hc, hblank⟩ := hall l hl
    have htrim : l.trimRight = l := trimRight_eq_self fun d hd => by
      rwa [Option.mem_unique hd hc]
    have hne : l ≠ [] := by
      rintro rfl
      exact nomatch hc
    simp [Writer.layout, htrim, hne]
  rw [List.map_congr_left hlayout, ofLines_map_append]

end Text

namespace Piece
open Text

/-- Pieces that come to the same text as others that are set so many levels less deep, but for the
margin of the lines, and whose text has nothing to be trimmed. -/
structure IsDeeper (unit : Text) (size levels : Nat) (deep pieces : List Piece) (s : Text) : Prop where
  text : textAll unit size pieces = .ok s
  deep : textAll unit size deep = .ok (deepened (unit.repeated levels) s)
  firm : ∀ firm, firm? firm s = some true

variable {unit : Text} {size levels : Nat}

theorem isLine_encode (t : Text) : IsLine (Quoted.encode t) := fun h =>
  absurd (Quoted.isPrintable_of_mem_encode h).1 (by decide)

theorem isDeeper_quoted (t : Text) :
    IsDeeper unit size levels [quoted t] [quoted t] (Quoted.encode t) where
  text := textAll_singleton rfl
  deep := by
    rw [deepened_of_isLine _ (isLine_encode t)]
    exact textAll_singleton rfl
  firm firm := by
    have hquote : (Quoted.quoteFor t).codePoint.isBlank = false := by
      cases Quoted.quoteFor t <;> rfl
    have hline := isLine_encode t
    rw [Quoted.encode] at hline ⊢
    rw [firm?_concat hline, hquote]
    rfl

section
variable (hunit : unit.IsLine)
include hunit

theorem isLine_repeated (n : Nat) : IsLine (unit.repeated n) := fun h =>
  hunit (mem_of_mem_repeated h)

/-- Entries on lines of their own that are set deeper each are set deeper all together. -/
theorem exists_separated {α : Type} {pieces deep : α → List Piece} {xs : List α} (level : Nat)
    (h : ∀ x ∈ xs, ∃ s, IsDeeper unit size levels (deep x) (pieces x) s) :
    ∃ s s', textAll unit size (separated level (xs.map pieces)) = .ok s ∧
      textAll unit size (separated (levels + level) (xs.map deep)) = .ok s' ∧
      unit.repeated levels ++ deepened (unit.repeated levels) s = s' ++ unit.repeated levels ∧
      firm? false s = some false := by
  have hindent : deepened (unit.repeated levels) (unit.repeated level) = unit.repeated level :=
    deepened_of_isLine _ (isLine_repeated hunit level)
  obtain ⟨margin, hmargin⟩ := firm?_of_isLine (isLine_repeated hunit level) false
  induction xs with
  | nil => exact ⟨[], [], rfl, rfl, by simp, rfl⟩
  | cons x xs ih =>
    obtain ⟨⟨s, hs⟩, hxs⟩ := List.forall_mem_cons.mp h
    cases xs with
    | nil =>
      refine ⟨unit.repeated level ++ (s ++ [CodePoint.lineFeed]),
        unit.repeated (levels + level) ++ (deepened (unit.repeated levels) s ++
          [CodePoint.lineFeed]),
        textAll_cons rfl (textAll_append hs.text rfl), textAll_cons rfl (textAll_append hs.deep rfl),
        ?_, ?_⟩
      · simp [hindent, repeated_add]
      · rw [firm?_append, hmargin, Option.bind_some, firm?_append, hs.firm]
        rfl
    | cons y xs =>
      obtain ⟨u, u', hu, hu', hrest, hfirm⟩ := ih hxs
      have hcomma : textAll unit size (code "," :: lineBreak :: separated level
          ((y :: xs).map pieces)) = .ok ((',' : CodePoint) :: CodePoint.lineFeed :: u) :=
        textAll_cons (p := .code ",") (s := [(',' : CodePoint)]) rfl
          (textAll_cons (p := .lineBreak) (s := [CodePoint.lineFeed]) rfl hu)
      have hcomma' : textAll unit size (code "," :: lineBreak :: separated (levels + level)
          ((y :: xs).map deep)) = .ok ((',' : CodePoint) :: CodePoint.lineFeed :: u') :=
        textAll_cons (p := .code ",") (s := [(',' : CodePoint)]) rfl
          (textAll_cons (p := .lineBreak) (s := [CodePoint.lineFeed]) rfl hu')
      have hbehind : deepened (unit.repeated levels) ((',' : CodePoint) :: CodePoint.lineFeed :: u) =
          (',' : CodePoint) :: CodePoint.lineFeed :: (u' ++ unit.repeated levels) := by
        rw [← hrest]
        rfl
      refine ⟨_, _, textAll_cons rfl (textAll_append hs.text hcomma),
        textAll_cons rfl (textAll_append hs.deep hcomma'), ?_, ?_⟩
      · simp [hindent, hbehind, repeated_add]
      · rw [firm?_append, hmargin, Option.bind_some, firm?_append, hs.firm]
        exact hfirm

/-- An array is set deeper if its elements are, wherever they stand. -/
theorem exists_isDeeper_arr {xs : List Json} (h : ∀ x ∈ xs, ∀ level, ∃ s,
    IsDeeper unit size levels (literal (levels + level) x) (literal level x) s) (level : Nat) :
    ∃ s, IsDeeper unit size levels (literal (levels + level) (.arr xs)) (literal level (.arr xs)) s := by
  have hentries : ∀ x ∈ xs, ∃ s, IsDeeper unit size levels (literal (levels + (level + 1)) x)
      (literal (level + 1) x) s := fun x hx => h x hx (level + 1)
  obtain ⟨u, u', hu, hu', hitems, hfirm⟩ := exists_separated hunit (level + 1) hentries
  have hend (n : Nat) : textAll unit size [indent n, code "]"] =
      .ok (unit.repeated n ++ [(']' : CodePoint)]) := textAll_cons rfl rfl
  have hclosing : IsLine (unit.repeated level ++ [(']' : CodePoint)]) := by
    intro hmem
    rcases List.mem_append.mp hmem with hmem | hmem
    · exact isLine_repeated hunit level hmem
    · exact absurd hmem (by decide)
  refine ⟨('[' : CodePoint) :: CodePoint.lineFeed ::
    (u ++ (unit.repeated level ++ [(']' : CodePoint)])), ?_, ?_, fun firm => ?_⟩
  · rw [literal, literalItems_eq]
    exact textAll_cons (p := .code "[") (s := [('[' : CodePoint)]) rfl
      (textAll_cons (p := .lineBreak) (s := [CodePoint.lineFeed]) rfl (textAll_append hu (hend level)))
  · rw [literal, literalItems_eq]
    have hdeep := textAll_cons (p := .code "[") (s := [('[' : CodePoint)]) rfl
      (textAll_cons (p := .lineBreak) (s := [CodePoint.lineFeed]) rfl
        (textAll_append hu' (hend (levels + level))))
    have hrest : deepened (unit.repeated levels)
        (CodePoint.lineFeed :: (u ++ (unit.repeated level ++ [(']' : CodePoint)]))) =
        CodePoint.lineFeed :: (u' ++ (unit.repeated (levels + level) ++ [(']' : CodePoint)])) := by
      rw [deepened_cons, if_pos rfl, List.cons_append, deepened_append, ← List.append_assoc, hitems,
        deepened_of_isLine _ hclosing, repeated_add, List.append_assoc, List.append_assoc]
    rw [deepened_cons, hrest]
    exact hdeep
  · change firm? false (u ++ _) = _
    rw [firm?_append, hfirm, Option.bind_some, firm?_concat hclosing]
    rfl

theorem exists_isDeeper_selector (a : Selector) (level : Nat) : ∃ s,
    IsDeeper unit size levels (literal (levels + level) a.toJson) (literal level a.toJson) s := by
  cases a with
  | plain part => exact ⟨_, isDeeper_quoted part⟩
  | chain first inner =>
    refine exists_isDeeper_arr hunit (List.forall_mem_map.mpr fun part _ level => ?_) level
    exact ⟨_, isDeeper_quoted part⟩

theorem exists_isDeeper_alternatives (a : Alternatives) (level : Nat) : ∃ s,
    IsDeeper unit size levels (literal (levels + level) a.toJson) (literal level a.toJson) s :=
  exists_isDeeper_arr hunit (List.forall_mem_map.mpr fun selector _ =>
    exists_isDeeper_selector hunit selector) level

end

end Piece

/-- What a script sees of a selector: a text, or the parts of a chain. -/
def Selector.toValue : Selector → Value
  | plain part => .text part.units
  | chain first inner => .array ((first :: inner).map fun part => .text part.units)

def Alternatives.toValue (a : Alternatives) : Value := .array (a.toList.map Selector.toValue)

section
variable (a : Alternatives)

theorem Selector.ofJson_toJson (key : Text → Option (List Nat)) (s : Selector) :
    Value.ofJson key s.toJson = some s.toValue := by
  cases s with
  | plain part => rfl
  | chain first inner =>
    have hparts (parts : List Text) : (parts.map Json.str).mapM (Value.ofJson key) =
        some (parts.map fun part => .text part.units) := by
      induction parts with
      | nil => rfl
      | cons part parts ih => rw [List.map_cons, List.mapM_cons, ih]; rfl
    rw [toJson, Value.ofJson_arr, hparts]
    rfl

theorem Alternatives.ofJson_toJson (key : Text → Option (List Nat)) :
    Value.ofJson key a.toJson = some a.toValue := by
  have hlist (selectors : List Selector) : (selectors.map Selector.toJson).mapM (Value.ofJson key) =
      some (selectors.map Selector.toValue) := by
    induction selectors with
    | nil => rfl
    | cons s selectors ih => rw [List.map_cons, List.mapM_cons, ih, s.ofJson_toJson]; rfl
  rw [toJson, Value.ofJson_arr, hlist]
  rfl

/-- Selectors are lists of texts. -/
theorem Alternatives.subvalues_cases {v : Json} (h : v ∈ a.toJson.subvalues) :
    (∃ xs, v = .arr xs) ∨ ∃ t, v = .str t := by
  have hselector (s : Selector) (h : v ∈ s.toJson.subvalues) :
      (∃ xs, v = .arr xs) ∨ ∃ t, v = .str t := by
    cases s with
    | plain part => exact .inr ⟨part, List.mem_singleton.mp h⟩
    | chain first inner =>
      rw [Selector.toJson, Json.subvalues_arr, List.mem_cons, List.flatMap_map] at h
      rcases h with rfl | h
      · exact .inl ⟨_, rfl⟩
      · obtain ⟨part, -, hpart⟩ := List.mem_flatMap.mp h
        exact .inr ⟨part, List.mem_singleton.mp hpart⟩
  rw [toJson, Json.subvalues_arr, List.mem_cons, List.flatMap_map] at h
  rcases h with rfl | h
  · exact .inl ⟨_, rfl⟩
  · obtain ⟨s, -, hs⟩ := List.mem_flatMap.mp h
    exact hselector s hs

theorem Alternatives.isFinite_toJson : a.toJson.IsFinite := fun _ hx => by
  rcases a.subvalues_cases hx with ⟨_, h⟩ | ⟨_, h⟩ <;> cases h

theorem Alternatives.hasReadableDoubles_toJson : a.toJson.HasReadableDoubles := fun _ hd => by
  rcases a.subvalues_cases hd with ⟨_, h⟩ | ⟨_, h⟩ <;> cases h

end

/-- A unit of indentation that is made of spaces and tabs. -/
def Text.IsSpacing (unit : Text) : Prop :=
  ∀ c ∈ unit, c = CodePoint.space ∨ c = ('\t' : CodePoint)

theorem Text.IsSpacing.isBlank {unit : Text} (h : unit.IsSpacing) : unit.isBlank = true :=
  List.all_eq_true.mpr fun c hc => by rcases h c hc with rfl | rfl <;> rfl

theorem Text.IsSpacing.isLine {unit : Text} (h : unit.IsSpacing) : unit.IsLine := fun hmem => by
  rcases h _ hmem with h | h <;> exact absurd h (by decide)

theorem Text.IsSpacing.isGap {unit : Text} (h : unit.IsSpacing) : ∀ c ∈ unit, c.isGap = true :=
  fun c hc => by rcases h c hc with rfl | rfl <;> rfl

open Text in
/-- The lines of an act that prints selectors, in the middle of a line of code: what stands between is
read back as the selectors. -/
theorem Act.exists_ofLines_selectors {unit : Text} (hunit : unit.IsSpacing) (depth : Int) (size : Nat)
    (a : Alternatives) {before : String} (hbefore : Text.IsLine before) {behind : List Piece}
    {rest : Text} (hbehind : Piece.textAll unit size behind = .ok rest) (hrest : rest.IsLine)
    (hend : ∃ c ∈ rest.getLast?, c.isBlank = false) : ∃ argument,
      Value.read argument = some a.toValue ∧
      ofLines ((line (.code before :: Piece.value a.toJson ++ behind)).linesAt unit depth size) =
        unit.repeated depth.toNat ++ (before ++ (argument ++ rest)) ++ [CodePoint.lineFeed] := by
  have hdeeper : ∃ s, Piece.IsDeeper unit size depth.toNat
      (Piece.literal (depth.toNat + 0) a.toJson) (Piece.literal 0 a.toJson) s :=
    Piece.exists_isDeeper_alternatives hunit.isLine a 0
  obtain ⟨s, hs⟩ := hdeeper
  obtain ⟨argument, hargument⟩ := Literal.literal_isWritten hunit.isGap size a.isFinite_toJson
    a.hasReadableDoubles_toJson depth.toNat
  have hdeep : deepened (unit.repeated depth.toNat) s = argument :=
    Except.ok.inj (hs.deep.symm.trans hargument.text)
  have htext : Piece.textAll unit size (.code before :: Piece.value a.toJson ++ behind) =
      .ok (before ++ (s ++ rest)) :=
    Piece.textAll_cons rfl (Piece.textAll_append hs.text hbehind)
  have hfirm : IsFirm ((before : Text) ++ (s ++ rest)) := by
    obtain ⟨last, hlast⟩ := firm?_of_isLine hbefore false
    obtain ⟨c, hc, hblank⟩ := hend
    obtain ⟨r, rfl⟩ := List.getLast?_eq_some_iff.mp hc
    rw [IsFirm, firm?_append, hlast, Option.bind_some, firm?_append, hs.firm, Option.bind_some,
      firm?_concat hrest, hblank]
    rfl
  refine ⟨argument, hargument.read.trans (a.ofJson_toJson _), ?_⟩
  simp only [linesAt, htext]
  rw [hfirm.ofLines_layout, deepened_append, deepened_append, deepened_of_isLine _ hbefore,
    deepened_of_isLine _ hrest, hdeep]

end FlowScript
