import FlowScript.Proofs.Decimal.Numeral
import FlowScript.Proofs.Script.Indentation
import FlowScript.Proofs.Script.ScannedLines

/-!
# Scanning acts

Which brackets acts open and close can be told without running them: code is scanned as it stands,
and of every other piece only the place counts, which has to be in code. Acts that pass write lines
that each start and end in code, at any depth, and what the lines leave of themselves does not depend
on the texts of their literals.
-/
namespace FlowScript

namespace Scan

/-- The state behind a text that stands on one line, unless a comment starts in it. -/
def quietRun : State → Text → Option State
  | st, [] => some st
  | st, c :: t => (step st c).bind fun r =>
      if r.2.mode = .slash ∨ c.val = 10 then none else quietRun r.2 t

/-- The state behind a string that is given by its characters. -/
def quietRunChars (st : State) (l : List Char) : Option State := quietRun st (l.map CodePoint.ofChar)

theorem quietRun_ofString (st : State) (l : List Char) :
    quietRun st (Text.ofString (String.ofList l)) = quietRunChars st l := by
  rw [Text.ofString_ofList, quietRunChars]

theorem isQuiet_of_step {st st' : State} {c : CodePoint} {sk : Skeleton} (hst : st.mode.IsQuiet)
    (h : step st c = some (sk, st')) (hmode : st'.mode ≠ .slash) : IsQuiet sk := by
  intro hmem
  rcases output_cases h with rfl | rfl | rfl
  · exact List.not_mem_nil hmem
  · exact nomatch List.mem_singleton.mp hmem
  · have hc : CodePoint.slash = c := Option.some.inj (List.mem_singleton.mp hmem)
    subst hc
    obtain ⟨mode, due⟩ := st
    cases mode with
    | code =>
      cases h
      exact hmode rfl
    | slash => exact hst
    | comment => exact hst
    | literal q dollar =>
      have hstep : step ⟨.literal q dollar, due⟩ CodePoint.slash = _ :=
        literalStep_of_isInner (by decide) q dollar due
      rw [hstep] at h
      exact nomatch h
    | escape q => exact nomatch h

theorem exists_run_of_quietRun {st st' : State} {t : Text} (hst : st.mode.IsQuiet)
    (h : quietRun st t = some st') : ∃ sk, run st t = some (sk, st') ∧ IsQuiet sk := by
  induction t generalizing st with
  | nil =>
    cases h
    exact ⟨[], rfl, List.not_mem_nil⟩
  | cons c t ih =>
    obtain ⟨⟨first, mid⟩, hstep, hrest⟩ := Option.bind_eq_some_iff.mp h
    split at hrest
    · exact nomatch hrest
    · next hmode =>
      have hquiet := isQuiet_of_step hst hstep fun h => hmode (.inl h)
      obtain ⟨rest, hrun, hsk⟩ := ih (quiet_of_step hst hstep hquiet) hrest
      exact ⟨first ++ rest, run_cons hstep hrun, isQuiet_append.mpr ⟨hquiet, hsk⟩⟩

/-- Two texts that lead from one state to another and leave the same of themselves. -/
def Alike (st st' : State) (t t' : Text) : Prop :=
  ∃ sk, run st t = some (sk, st') ∧ run st t' = some (sk, st') ∧ IsQuiet sk

theorem Alike.append {st mid st' : State} {s s' t t' : Text} (hs : Alike st mid s s')
    (ht : Alike mid st' t t') : Alike st st' (s ++ t) (s' ++ t') := by
  obtain ⟨first, hs, hs', hfirst⟩ := hs
  obtain ⟨rest, ht, ht', hrest⟩ := ht
  exact ⟨first ++ rest, run_append hs ht, run_append hs' ht', isQuiet_append.mpr ⟨hfirst, hrest⟩⟩

theorem alike_of_isPlain {t : Text} (h : ∀ c ∈ t, IsPlain c) (due : List CodePoint) :
    Alike ⟨.code, due⟩ ⟨.code, due⟩ t t :=
  ⟨t.map some, run_of_isPlain h due, run_of_isPlain h due, isQuiet_map_some h⟩

theorem alike_encode (s t : Text) (due : List CodePoint) :
    Alike ⟨.code, due⟩ ⟨.code, due⟩ (Quoted.encode s) (Quoted.encode t) :=
  ⟨[none], run_encode s due, run_encode t due, by simp [IsQuiet]⟩

/-- Lines that are scanned alike, one by one. -/
def AlikeLines (due due' : List CodePoint) (ls ls' : List Text) : Prop :=
  ∃ sks, Lines due ls sks due' ∧ Lines due ls' sks due'

theorem AlikeLines.length_eq {due due' : List CodePoint} {ls ls' : List Text}
    (h : AlikeLines due due' ls ls') : ls.length = ls'.length := by
  obtain ⟨sks, hls, hls'⟩ := h
  rw [hls.length_eq, hls'.length_eq]

theorem AlikeLines.append {due mid due' : List CodePoint} {ls₁ ls₁' ls₂ ls₂' : List Text}
    (h₁ : AlikeLines due mid ls₁ ls₁') (h₂ : AlikeLines mid due' ls₂ ls₂') :
    AlikeLines due due' (ls₁ ++ ls₂) (ls₁' ++ ls₂') := by
  obtain ⟨first, h₁, h₁'⟩ := h₁
  obtain ⟨rest, h₂, h₂'⟩ := h₂
  exact ⟨first ++ rest, h₁.append h₂, h₁'.append h₂'⟩

/-- Lines that are scanned like the same lines are scanned alike. -/
theorem AlikeLines.trans_symm {due due' : List CodePoint} {ls ls' ls₀ : List Text}
    (h : AlikeLines due due' ls ls₀) (h' : AlikeLines due due' ls' ls₀) :
    AlikeLines due due' ls ls' := by
  obtain ⟨sks, hls, h₀⟩ := h
  obtain ⟨sks', hls', h₀'⟩ := h'
  obtain ⟨rfl, -⟩ := h₀.unique h₀'
  exact ⟨sks, hls, hls'⟩

/-- Texts of lines that are scanned alike leave the same. -/
theorem AlikeLines.run {due due' : List CodePoint} {ls ls' : List Text}
    (h : AlikeLines due due' ls ls') : ∃ sk,
      Scan.run ⟨.code, due⟩ (Text.ofLines ls) = some (sk, ⟨.code, due'⟩) ∧
      Scan.run ⟨.code, due⟩ (Text.ofLines ls') = some (sk, ⟨.code, due'⟩) := by
  obtain ⟨sks, hls, hls'⟩ := h
  exact ⟨_, hls.run, hls'.run⟩

theorem AlikeLines.flatten {due : List CodePoint} {blocks blocks' : List (List Text)}
    (h : List.Forall₂ (AlikeLines due due) blocks blocks') :
    AlikeLines due due blocks.flatten blocks'.flatten := by
  induction h with
  | nil => exact ⟨[], .nil, .nil⟩
  | cons hblock _ ih => exact hblock.append ih

theorem Alike.layout {due due' : List CodePoint} {t t' : Text}
    (h : Alike ⟨.code, due⟩ ⟨.code, due'⟩ t t') {unit : Text} (hunit : unit.isBlank = true)
    (depth : Int) : AlikeLines due due' (t.lines.map (Writer.layout unit depth))
      (t'.lines.map (Writer.layout unit depth)) := by
  obtain ⟨sk, ht, ht', hsk⟩ := h
  exact ⟨_, (lines_of_run ht hsk).layout hunit depth, (lines_of_run ht' hsk).layout hunit depth⟩

theorem isPlain_of_isNumeralPart {c : CodePoint} (h : c.isNumeralPart = true) : IsPlain c := by
  intro hmem
  simp only [List.mem_cons, List.not_mem_nil, or_false] at hmem
  rcases hmem with hc | hc | hc | hc | hc | hc | hc | hc | hc | hc <;>
    simp [CodePoint.isNumeralPart, CodePoint.isDigit, hc] at h

theorem isPlain_of_isNamePart {c : CodePoint} (h : Quoted.isNamePart c = true) : IsPlain c := by
  intro hmem
  simp only [List.mem_cons, List.not_mem_nil, or_false] at hmem
  rcases hmem with hc | hc | hc | hc | hc | hc | hc | hc | hc | hc <;>
    simp [Quoted.isNamePart, Quoted.isNameStart, CodePoint.isDigit, hc] at h

theorem isPlain_of_isBareKey {t : Text} (h : Quoted.isBareKey t = true) : ∀ c ∈ t, IsPlain c := by
  obtain ⟨d, s, tail, rfl, -, hname, htail⟩ := Quoted.isBareKey_cases h
  rw [List.forall_mem_append]
  refine ⟨fun c hc => isPlain_of_isNamePart (hname c hc), ?_⟩
  rcases htail with rfl | rfl <;> decide

theorem alike_encodeKey (t : Text) (due : List CodePoint) :
    Alike ⟨.code, due⟩ ⟨.code, due⟩ (Quoted.encodeKey t) (Quoted.encodeKey t) := by
  rw [Quoted.encodeKey]
  split
  · next h => exact alike_of_isPlain (isPlain_of_isBareKey h) due
  · exact alike_encode t t due

end Scan

/-- A value that is neither a text nor could hold one. -/
def Json.IsAtomic : Json → Prop
  | str _ | arr _ | obj _ => False
  | _ => True

namespace Piece
open Scan

/-- A piece without the text of its literal. -/
def redacted : Piece → Piece
  | quoted _ => quoted []
  | p => p

/-- The state behind a piece. No comment may start in code, and no other piece stand anywhere else. -/
def scan (st : State) : Piece → Option State
  | code s => quietRun st s
  | raw _ | scalar (.str _) | scalar (.arr _) | scalar (.obj _) => none
  | _ => if st.mode = .code then some st else none

def scanAll (st : State) : List Piece → Option State
  | [] => some st
  | p :: ps => do
    let st ← p.scan st
    scanAll st ps

theorem scanAll_append (st : State) (first second : List Piece) :
    scanAll st (first ++ second) = scanAll st first >>= (scanAll · second) := by
  induction first generalizing st with
  | nil => rfl
  | cons p first ih =>
    rw [List.cons_append, scanAll, scanAll, bind_assoc]
    simp only [ih]

theorem scanAll_trans {first second : List Piece} {st mid st' : State}
    (h : scanAll st first = some mid) (h' : scanAll mid second = some st') :
    scanAll st (first ++ second) = some st' := by
  rw [scanAll_append, h]
  exact h'

/-- The text of a literal does not count. -/
theorem scanAll_map_redacted (st : State) (pieces : List Piece) :
    scanAll st (pieces.map redacted) = scanAll st pieces := by
  induction pieces generalizing st with
  | nil => rfl
  | cons p pieces ih =>
    have hp : p.redacted.scan st = p.scan st := by cases p <;> rfl
    rw [List.map_cons, scanAll, scanAll, hp]
    simp only [ih]

theorem isPlain_numeral (v : Json) (hv : v.IsAtomic) {t : Text} (h : v.numeral = .ok t) :
    ∀ c ∈ t, IsPlain c := by
  cases v with
  | null => cases h; decide
  | bool b => cases b <;> (cases h; decide)
  | num n =>
    cases h
    exact fun c hc => isPlain_of_isNumeralPart (n.isNumeralText_numeral c hc)
  | nonFinite x => exact nomatch h
  | _ => exact hv.elim

theorem isAtomic_of_scan {v : Json} {st st' : State} (h : (scalar v).scan st = some st') :
    v.IsAtomic ∧ (if st.mode = .code then some st else none) = some st' := by
  cases v with
  | str _ => exact nomatch h
  | arr _ => exact nomatch h
  | obj _ => exact nomatch h
  | _ => exact ⟨trivial, h⟩

variable {unit : Text} (hunit : unit.isBlank = true)
include hunit

/-- What a piece writes is scanned as it was foreseen, and like the piece without its text. -/
theorem alike_of_scan {p : Piece} {st st' : State} (hst : st.mode.IsQuiet)
    (h : p.scan st = some st') {size : Nat} {t : Text} (ht : p.text unit size = .ok t) :
    ∃ t₀, p.redacted.text unit size = .ok t₀ ∧ Alike st st' t t₀ := by
  have hcode (h : (if st.mode = .code then some st else none) = some st') :
      ∃ due, st = ⟨.code, due⟩ ∧ st' = ⟨.code, due⟩ := by
    split at h
    · next hmode =>
      cases h
      exact ⟨st.due, by rw [← hmode], by rw [← hmode]⟩
    · exact nomatch h
  have hplain {s : Text} (hs : ∀ c ∈ s, IsPlain c)
      (h : (if st.mode = .code then some st else none) = some st') : Alike st st' s s := by
    obtain ⟨due, rfl, rfl⟩ := hcode h
    exact alike_of_isPlain hs due
  cases p with
  | code s =>
    cases ht
    obtain ⟨sk, hrun, hsk⟩ := exists_run_of_quietRun hst h
    exact ⟨_, rfl, sk, hrun, hrun, hsk⟩
  | raw s => exact nomatch h
  | quoted s =>
    cases ht
    obtain ⟨due, rfl, rfl⟩ := hcode h
    exact ⟨_, rfl, alike_encode s [] due⟩
  | key s =>
    cases ht
    obtain ⟨due, rfl, rfl⟩ := hcode h
    exact ⟨_, rfl, alike_encodeKey s due⟩
  | number n =>
    cases ht
    exact ⟨_, rfl, hplain
      (fun c hc => isPlain_of_isNumeralPart (n.isNumeralText_numeral c hc)) h⟩
  | scalar v =>
    obtain ⟨hv, hcode⟩ := isAtomic_of_scan h
    exact ⟨t, ht, hplain (isPlain_numeral v hv ht) hcode⟩
  | indent levels =>
    cases ht
    exact ⟨_, rfl, hplain (fun c hc => isPlain_of_isBlank
      (List.all_eq_true.mp hunit c (Text.mem_of_mem_repeated hc))) h⟩
  | lineBreak =>
    cases ht
    exact ⟨_, rfl, hplain (by decide) h⟩
  | size =>
    cases ht
    exact ⟨_, rfl, hplain (fun c hc => isPlain_of_isNumeralPart
      (Decimal.isNumeralText_natText size c hc)) h⟩

theorem alike_of_scanAll {pieces : List Piece} {st st' : State} (hst : st.mode.IsQuiet)
    (h : scanAll st pieces = some st') {size : Nat} {t : Text}
    (ht : textAll unit size pieces = .ok t) :
    ∃ t₀, textAll unit size (pieces.map redacted) = .ok t₀ ∧ Alike st st' t t₀ := by
  induction pieces generalizing st t with
  | nil =>
    cases h
    cases ht
    exact ⟨[], rfl, [], rfl, rfl, List.not_mem_nil⟩
  | cons p pieces ih =>
    obtain ⟨mid, hp, hrest⟩ := Option.bind_eq_some_iff.mp h
    obtain ⟨s, rest, hptext, hresttext, rfl⟩ := textAll_cons_eq_ok_iff.mp ht
    obtain ⟨s₀, hs₀, hs⟩ := alike_of_scan hunit hst hp hptext
    obtain ⟨sk, hrun, -, hsk⟩ := id hs
    obtain ⟨rest₀, hrest₀, hrest⟩ := ih (quiet_of_run hst hrun hsk) hrest hresttext
    exact ⟨s₀ ++ rest₀, textAll_cons_eq_ok_iff.mpr ⟨s₀, rest₀, hs₀, hrest₀, rfl⟩, hs.append hrest⟩

end Piece

namespace Act
open Scan

/-- An act without the texts of its literals. -/
def redacted : Act → Act
  | line pieces => line (pieces.map Piece.redacted)
  | a => a

/-- The closing brackets that are due behind an act. Every line starts and ends in code. -/
def scan (due : List CodePoint) : Act → Option (List CodePoint)
  | line pieces => do
    let st ← Piece.scanAll ⟨.code, due⟩ pieces
    if st.mode = .code then some st.due else none
  | fail _ => none
  | _ => some due

def scanAll (due : List CodePoint) : List Act → Option (List CodePoint)
  | [] => some due
  | a :: acts => do
    let due ← a.scan due
    scanAll due acts

theorem scanAll_append (due : List CodePoint) (first second : List Act) :
    scanAll due (first ++ second) = scanAll due first >>= (scanAll · second) := by
  induction first generalizing due with
  | nil => rfl
  | cons a first ih =>
    rw [List.cons_append, scanAll, scanAll, bind_assoc]
    simp only [ih]

theorem scanAll_trans {first second : List Act} {due mid due' : List CodePoint}
    (h : scanAll due first = some mid) (h' : scanAll mid second = some due') :
    scanAll due (first ++ second) = some due' := by
  rw [scanAll_append, h]
  exact h'

@[simp] theorem redacted_shift (a : Act) : a.redacted.shift = a.shift := by
  cases a <;> rfl

theorem scanAll_map_redacted (due : List CodePoint) (acts : List Act) :
    scanAll due (acts.map redacted) = scanAll due acts := by
  induction acts generalizing due with
  | nil => rfl
  | cons a acts ih =>
    have ha : a.redacted.scan due = a.scan due := by
      cases a with
      | line pieces => simp only [redacted, scan, Piece.scanAll_map_redacted]
      | _ => rfl
    rw [List.map_cons, scanAll, scanAll, ha]
    simp only [ih]

theorem shiftAll_map_redacted (acts : List Act) : shiftAll (acts.map redacted) = shiftAll acts := by
  induction acts with
  | nil => rfl
  | cons a acts ih => rw [List.map_cons, shiftAll, shiftAll, redacted_shift, ih]

variable {unit : Text} (hunit : unit.isBlank = true)
include hunit

theorem alikeLines_of_scan {a : Act} {due due' : List CodePoint} (h : a.scan due = some due')
    (ha : a.Completes) (depth : Int) (size : Nat) :
    AlikeLines due due' (a.linesAt unit depth size) (a.redacted.linesAt unit depth size) := by
  cases a with
  | line pieces =>
    obtain ⟨t, ht⟩ := Piece.textAll_of_hasText ha unit size
    obtain ⟨⟨mode, due₁⟩, hscan, hmode⟩ := Option.bind_eq_some_iff.mp h
    split at hmode
    · next hcode =>
      cases hmode
      cases hcode
      obtain ⟨t₀, ht₀, halike⟩ := Piece.alike_of_scanAll hunit (isQuiet_code due) hscan ht
      simp only [linesAt, redacted, ht, ht₀]
      exact halike.layout hunit depth
    · cases hmode
  | fail f => exact ha.elim
  | startBlock => cases h; exact ⟨[], .nil, .nil⟩
  | endBlock => cases h; exact ⟨[], .nil, .nil⟩
  | notify n => cases h; exact ⟨[], .nil, .nil⟩

/-- Acts write lines that are scanned as it was foreseen, and like those of the acts without their
texts. -/
theorem alikeLines_redacted {acts : List Act} {due due' : List CodePoint}
    (h : scanAll due acts = some due') (hacts : ∀ a ∈ acts, a.Completes) (depth : Int)
    (size : Nat) : AlikeLines due due' (written unit depth size acts)
      (written unit depth size (acts.map redacted)) := by
  induction acts generalizing due depth size with
  | nil =>
    cases h
    exact ⟨[], .nil, .nil⟩
  | cons a acts ih =>
    obtain ⟨mid, ha, hrest⟩ := Option.bind_eq_some_iff.mp h
    rw [List.forall_mem_cons] at hacts
    have hline := alikeLines_of_scan hunit ha hacts.1 depth size
    rw [List.map_cons, written, written, redacted_shift, ← hline.length_eq]
    exact hline.append (ih hrest hacts.2 _ _)

/-- Acts that differ in the texts of their literals only write lines that are scanned alike. -/
theorem alikeLines_of_redacted_eq {acts acts' : List Act}
    (h : acts.map redacted = acts'.map redacted) {due due' : List CodePoint}
    (hscan : scanAll due acts = some due') (hacts : ∀ a ∈ acts, a.Completes)
    (hacts' : ∀ a ∈ acts', a.Completes) (depth : Int) (size : Nat) :
    AlikeLines due due' (written unit depth size acts) (written unit depth size acts') := by
  have hscan' : scanAll due acts' = some due' := by
    rw [← scanAll_map_redacted, ← h, scanAll_map_redacted, hscan]
  have hlines := alikeLines_redacted hunit hscan hacts depth size
  rw [h] at hlines
  exact hlines.trans_symm (alikeLines_redacted hunit hscan' hacts' depth size)

end Act

end FlowScript
