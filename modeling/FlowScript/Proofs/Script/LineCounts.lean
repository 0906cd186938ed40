import FlowScript.Proofs.Script.ScannedScripts

/-!
# How many lines acts write

A text has the line feeds that scanning leaves of it, so texts of one skeleton have as many lines.
A piece brings no line feed unless it is a line break, or a key that is written bare and ends in one.
So the number of lines that acts write is bounded by what the acts are, without a look at the texts
in them; and it is no less than the number of lines they append.
-/
namespace FlowScript
open Scan

theorem Text.length_lines (t : Text) : t.lines.length = t.count CodePoint.lineFeed + 1 := by
  induction t with
  | nil => rfl
  | cons c t ih =>
    rw [lines] at ih
    rw [lines, List.splitOn_cons_eq_if_modifyHead, List.count_cons]
    split
    · rw [List.length_cons, ih]
    · rw [List.length_modifyHead, ih, Nat.add_zero]

theorem Text.IsLine.count_eq {t : Text} (h : t.IsLine) : t.count CodePoint.lineFeed = 0 :=
  List.count_eq_zero.mpr h

namespace Scan

variable {st st' : State} {sk : Skeleton}

/-- A line feed leaves itself wherever one may stand, and nothing else leaves one. -/
theorem count_of_step {c : CodePoint} (h : step st c = some (sk, st')) :
    sk.count (some CodePoint.lineFeed) = [c].count CodePoint.lineFeed := by
  by_cases hc : c = CodePoint.lineFeed
  · subst hc
    obtain ⟨mode, due⟩ := st
    cases mode with
    | code => cases h; rfl
    | slash => exact nomatch h
    | comment => cases h; rfl
    | literal q dollar => cases q <;> exact nomatch h
    | escape q => exact nomatch h
  · rcases output_cases h with rfl | rfl | rfl <;> simp [hc]

/-- A skeleton has the line feeds of its text. -/
theorem count_of_run {t : Text} (h : run st t = some (sk, st')) :
    sk.count (some CodePoint.lineFeed) = t.count CodePoint.lineFeed := by
  induction t generalizing st sk with
  | nil =>
    cases h
    rfl
  | cons c t ih =>
    obtain ⟨first, mid, rest, hstep, hrun, rfl⟩ := run_cons_eq_some_iff.mp h
    rw [List.count_append, count_of_step hstep, ih hrun, ← List.count_append, List.singleton_append]

theorem isLine_of_run {t : Text} (h : run st t = some (sk, st'))
    (hfeed : some CodePoint.lineFeed ∉ sk) : t.IsLine :=
  List.count_eq_zero.mp ((count_of_run h).symm.trans (List.count_eq_zero.mpr hfeed))

/-- Texts with one skeleton have as many lines. -/
theorem length_lines_of_run {t t' : Text} {mid mid' : State} (h : run st t = some (sk, mid))
    (h' : run st' t' = some (sk, mid')) : t.lines.length = t'.lines.length := by
  rw [Text.length_lines, Text.length_lines, ← count_of_run h, count_of_run h']

end Scan

theorem Quoted.isLine_encode (t : Text) : (encode t).IsLine :=
  isLine_of_run (run_encode t []) (by simp)

theorem Quoted.count_encodeKey_le (t : Text) : (encodeKey t).count CodePoint.lineFeed ≤ 1 := by
  rw [encodeKey]
  split
  · next hbare =>
    obtain ⟨c, s, tail, rfl, -, hname, htail⟩ := isBareKey_cases hbare
    have hline : Text.IsLine (c :: s) := fun hmem => absurd (hname _ hmem) (by decide)
    rw [List.count_append, hline.count_eq]
    rcases htail with rfl | rfl <;> decide
  · rw [(isLine_encode t).count_eq]
    exact Nat.zero_le 1

namespace Piece

/-- The line feeds that a piece brings, at the most. -/
def breaks : Piece → Nat
  | lineBreak | key _ => 1
  | _ => 0

theorem isLine_of_quietRun {st st' : State} {t : Text} (h : quietRun st t = some st') :
    t.IsLine := by
  induction t generalizing st with
  | nil => exact List.not_mem_nil
  | cons c t ih =>
    obtain ⟨r, -, hrest⟩ := Option.bind_eq_some_iff.mp h
    split at hrest
    · exact nomatch hrest
    · next hne =>
      intro hmem
      rcases List.mem_cons.mp hmem with rfl | hmem
      · exact hne (.inr rfl)
      · exact ih hrest hmem

theorem isLine_of_isNumeralText {t : Text} (h : Decimal.IsNumeralText t) : t.IsLine := fun hmem =>
  absurd (h _ hmem) (by decide)

theorem isLine_numeral {v : Json} (hv : v.IsAtomic) {t : Text} (h : v.numeral = .ok t) :
    t.IsLine := by
  cases v with
  | null => cases h; unfold Text.IsLine; decide
  | bool b => cases b <;> (cases h; unfold Text.IsLine; decide)
  | num n =>
    cases h
    exact isLine_of_isNumeralText n.isNumeralText_numeral
  | nonFinite x => exact nomatch h
  | _ => exact hv.elim

variable {unit : Text} (hunit : unit.IsLine)
include hunit

theorem count_le_breaks {p : Piece} {st st' : State} (h : p.scan st = some st') {size : Nat}
    {t : Text} (ht : p.text unit size = .ok t) : t.count CodePoint.lineFeed ≤ p.breaks := by
  have hline (ht : t.IsLine) : t.count CodePoint.lineFeed ≤ 0 := Nat.le_of_eq ht.count_eq
  cases p with
  | code s =>
    cases ht
    exact hline (isLine_of_quietRun h)
  | raw s => exact nomatch h
  | quoted s =>
    cases ht
    exact hline (Quoted.isLine_encode s)
  | key s =>
    cases ht
    exact Quoted.count_encodeKey_le s
  | number n =>
    cases ht
    exact hline (isLine_of_isNumeralText n.isNumeralText_numeral)
  | scalar v => exact hline (isLine_numeral (isAtomic_of_scan h).1 ht)
  | indent levels =>
    cases ht
    exact hline fun hmem => hunit (Text.mem_of_mem_repeated hmem)
  | lineBreak =>
    cases ht
    exact Nat.le_refl 1
  | size =>
    cases ht
    exact hline (isLine_of_isNumeralText (Decimal.isNumeralText_natText size))

theorem count_le_sum_breaks {pieces : List Piece} {st st' : State}
    (h : scanAll st pieces = some st') {size : Nat} {t : Text}
    (ht : textAll unit size pieces = .ok t) :
    t.count CodePoint.lineFeed ≤ (pieces.map breaks).sum := by
  induction pieces generalizing st t with
  | nil =>
    cases ht
    exact Nat.le_refl 0
  | cons p pieces ih =>
    obtain ⟨mid, hp, hrest⟩ := Option.bind_eq_some_iff.mp h
    obtain ⟨s, rest, hptext, hresttext, rfl⟩ := textAll_cons_eq_ok_iff.mp ht
    rw [List.count_append, List.map_cons, List.sum_cons]
    exact Nat.add_le_add (count_le_breaks hunit hp hptext) (ih hrest hresttext)

end Piece

namespace Act

/-- The lines that an act writes, at the most. -/
def bound : Act → Nat
  | line pieces => (pieces.map Piece.breaks).sum + 1
  | _ => 0

def isLine : Act → Bool
  | line _ => true
  | _ => false

variable {unit : Text}

theorem length_linesAt_le (hunit : unit.IsLine) {a : Act} {due due' : List CodePoint}
    (h : a.scan due = some due') (depth : Int) (size : Nat) :
    (a.linesAt unit depth size).length ≤ a.bound := by
  cases a with
  | line pieces =>
    obtain ⟨st, hscan, -⟩ := Option.bind_eq_some_iff.mp h
    rw [linesAt]
    split
    · next t ht =>
      rw [List.length_map, Text.length_lines]
      exact Nat.succ_le_succ (Piece.count_le_sum_breaks hunit hscan ht)
    · exact Nat.zero_le _
  | _ => exact Nat.le_refl 0

/-- Acts write no more lines than their bounds come to. -/
theorem length_written_le (hunit : unit.IsLine) {acts : List Act} {due due' : List CodePoint}
    (h : scanAll due acts = some due') (depth : Int) (size : Nat) :
    (written unit depth size acts).length ≤ (acts.map bound).sum := by
  induction acts generalizing due depth size with
  | nil => exact Nat.le_refl 0
  | cons a acts ih =>
    obtain ⟨mid, ha, hrest⟩ := Option.bind_eq_some_iff.mp h
    rw [written, List.length_append, List.map_cons, List.sum_cons]
    exact Nat.add_le_add (length_linesAt_le hunit ha depth size) (ih hrest _ _)

theorem one_le_length_linesAt {a : Act} (ha : a.Completes) (hline : a.isLine = true) (depth : Int)
    (size : Nat) : 1 ≤ (a.linesAt unit depth size).length := by
  cases a with
  | line pieces =>
    obtain ⟨t, ht⟩ := Piece.textAll_of_hasText ha unit size
    simp only [linesAt, ht]
    rw [List.length_map, Text.length_lines]
    exact Nat.succ_le_succ (Nat.zero_le _)
  | _ => cases hline

/-- Acts that complete write a line at least for every line they append. -/
theorem countP_le_length_written {acts : List Act} (hacts : ∀ a ∈ acts, a.Completes) (depth : Int)
    (size : Nat) : acts.countP isLine ≤ (written unit depth size acts).length := by
  induction acts generalizing depth size with
  | nil => exact Nat.le_refl 0
  | cons a acts ih =>
    rw [List.forall_mem_cons] at hacts
    have hrest := ih hacts.2 (depth + a.shift) (size + (a.linesAt unit depth size).length)
    rw [written, List.length_append, List.countP_cons]
    split
    · next hline =>
      have hfirst : 1 ≤ (a.linesAt unit depth size).length :=
        one_le_length_linesAt hacts.1 hline depth size
      omega
    · omega

end Act

namespace Template
open Act

variable {t : Template} {r : Recording} {unit : Text} {banner : Banner} {opening : List Act}
  {due : List CodePoint}

/-- All that is written behind the banner closes what it opens. -/
theorem IsBracketed.scanAll_eq (h : t.IsBracketed r banner opening due) :
    scanAll [] (opening ++ (r.steps.flatMap fun step => t.stepActs step (some r)) ++
      flowActs t.afterAllSteps r) = some [] :=
  scanAll_between h.opening (isNeutral_flatMap fun step _ => h.steps step) h.epilogue

/-- A script has no more lines than its acts allow for, the comment apart. -/
theorem IsBracketed.size_le (h : t.IsBracketed r banner opening due) (hunit : unit.IsLine) :
    ((Writer.empty unit).after (t.recordingActs r)).size ≤ banner.lines.length +
      ((opening ++ (r.steps.flatMap fun step => t.stepActs step (some r)) ++
        flowActs t.afterAllSteps r).map bound).sum := by
  let rest := opening ++ (r.steps.flatMap fun step => t.stepActs step (some r)) ++
    flowActs t.afterAllSteps r
  have hacts : t.recordingActs r = banner.acts ++ rest := by
    simp only [recordingActs, h.prologue, rest, List.append_assoc]
  have hbanner : (Writer.empty unit).written banner.acts = banner.lines := banner.written unit
  have hempty : (Writer.empty unit).size = 0 := rfl
  rw [hacts, Writer.size_after, Writer.written_append, hbanner, List.length_append, hempty,
    Nat.zero_add]
  exact Nat.add_le_add_left (length_written_le hunit h.scanAll_eq _ _) _

/-- A recording whose acts complete renders, if its acts allow for few lines. -/
theorem IsBracketed.exists_renderRecording (h : t.IsBracketed r banner opening due)
    (hunit : unit.IsLine) (hacts : failure? (t.recordingActs r) = none)
    (hsize : banner.lines.length + ((opening ++
      (r.steps.flatMap fun step => t.stepActs step (some r)) ++
        flowActs t.afterAllSteps r).map bound).sum < 2 ^ 31) :
    ∃ script s', t.renderRecording r (.start unit) = .ok script s' :=
  Template.exists_renderRecording hacts (Nat.lt_of_le_of_lt (h.size_le hunit) hsize)

end Template

end FlowScript
