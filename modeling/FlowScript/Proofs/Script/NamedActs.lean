import FlowScript.Proofs.Script.Brackets
import FlowScript.Proofs.Script.Names

/-!
# Names in acts

Which names acts mention can be told without running them: code is read as it stands, and of a
literal, a numeral or a key only the place counts. What the acts write mentions the same names, at
any depth.
-/
namespace FlowScript

namespace Scan

/-- What a code point leaves of itself, and the mode behind it, whichever brackets are due. -/
def Mode.next (m : Mode) (c : CodePoint) : Skeleton × Mode :=
  match step ⟨m, [c]⟩ c with
  | some (sk, st) => (sk, st.mode)
  | none => ([], m)

def Mode.skeleton : Mode → Text → Skeleton × Mode
  | m, [] => ([], m)
  | m, c :: t =>
    ((m.next c).1 ++ ((m.next c).2.skeleton t).1, ((m.next c).2.skeleton t).2)

theorem Mode.next_of_step {st st' : State} {c : CodePoint} {sk : Skeleton}
    (h : step st c = some (sk, st')) : st.mode.next c = (sk, st'.mode) := by
  have hstep : ∃ st₁, step ⟨st.mode, [c]⟩ c = some (sk, st₁) ∧ st₁.mode = st'.mode := by
    obtain ⟨mode, due⟩ := st
    cases mode with
    | code =>
      simp only [step, codeStep] at h ⊢
      split at h <;> simp_all
      all_goals grind
    | _ => simp only [step, literalStep] at h ⊢; grind
  obtain ⟨st₁, hstep, hmode⟩ := hstep
  rw [next, hstep, ← hmode]

theorem Mode.skeleton_of_run {st st' : State} {t : Text} {sk : Skeleton}
    (h : run st t = some (sk, st')) : st.mode.skeleton t = (sk, st'.mode) := by
  induction t generalizing st sk with
  | nil =>
    cases h
    rfl
  | cons c t ih =>
    obtain ⟨first, mid, rest, hstep, hrun, rfl⟩ := run_cons_eq_some_iff.mp h
    rw [skeleton, next_of_step hstep, ih hrun]

end Scan

namespace Names
open Quoted (isNamePart)

/-- What is known of a reader. -/
inductive Standing where
  | exact (r : Reader)
  /-- Its last word mentions nothing, whatever stands behind it. -/
  | sealed (level : Nat)
  /-- Its last word is a key if a colon stands behind it. -/
  | keyed (level : Nat)

def Standing.Covers : Standing → Reader → Prop
  | exact r, r' => r' = r
  | sealed level, r => r.level = level ∧ ∀ behind, r.mentions behind = []
  | keyed level, r => r.level = level ∧ r.mentions (some ':') = []

/-- Code behind a word that mentions nothing: only a mark that may follow a value ends the word. -/
def resume (level : Nat) : Skeleton → Option (List Mention × Standing)
  | [] => some ([], .sealed level)
  | none :: _ => none
  | some c :: sk =>
    if c.isBlank then resume level sk
    else if isNamePart c ∨ c.val = 123 then none
    else
      let r := (Reader.idle level .elsewhere).read (some c :: sk)
      some (r.1, .exact r.2)

/-- What code mentions from there on, and what is known behind it. -/
def Standing.read? : Standing → Skeleton → Option (List Mention × Standing)
  | exact r, sk => some ((r.read sk).1, .exact (r.read sk).2)
  | sealed level, sk => resume level sk
  | keyed level, some c :: sk =>
    if c = ':' then
      let r := (Reader.idle level .elsewhere).read (some c :: sk)
      some (r.1, .exact r.2)
    else none
  | keyed _, _ => none

/-- A word that mentions nothing may be forgotten. -/
def Standing.settle : Standing → Standing
  | exact r =>
    if r.word ≠ [] ∧ r.closed = false ∧ r.place ≠ .declaration ∧
      (r.place = .member ∨ tracked.contains r.word = false) then .sealed r.level else .exact r
  | s => s

/-- What is known while pieces are read. -/
structure Glance where
  mode : Scan.Mode
  standing : Standing

/-- In code. -/
def Glance.at (r : Reader) : Glance := ⟨.code, .exact r⟩

/-- In code, behind a value. -/
def Glance.behind (level : Nat) : Glance := ⟨.code, .sealed level⟩

/-- A mark ends a word that mentions nothing, and leaves nothing of it. -/
theorem next_mark {r : Reader} {c : CodePoint} (hr : r.mentions (some c) = [])
    (hname : isNamePart c = false) (hblank : c.isBlank = false) (hbrace : c.val ≠ 123) :
    r.next (some c) = (Reader.idle r.level .elsewhere).next (some c) := by
  have hidle : (Reader.idle r.level .elsewhere).mentions (some c) = [] := rfl
  simp only [Reader.next, hname, hblank, hbrace, hr, hidle, false_and, if_false, List.append_nil]
  rfl

theorem read_of_resume {level : Nat} {sk : Skeleton} {ms : List Mention} {s : Standing}
    (h : resume level sk = some (ms, s)) {r : Reader} (hr : (Standing.sealed level).Covers r) :
    (r.read sk).1 = ms ∧ s.Covers (r.read sk).2 := by
  induction sk generalizing r with
  | nil =>
    cases h
    exact ⟨rfl, hr⟩
  | cons x sk ih =>
    cases x with
    | none => cases h
    | some c =>
      rw [resume] at h
      split at h
      · next hblank =>
        rw [Reader.read, Reader.next_blank r hblank]
        exact ih h hr
      split at h
      · cases h
      · next hblank hmark =>
        rw [not_or, Bool.not_eq_true] at hmark
        cases h
        rw [Reader.read, next_mark (hr.2 _) hmark.1 (by simpa using hblank) hmark.2, hr.1]
        exact ⟨rfl, rfl⟩

theorem Standing.read_of_read? {s s' : Standing} {sk : Skeleton} {ms : List Mention}
    (h : s.read? sk = some (ms, s')) {r : Reader} (hr : s.Covers r) :
    (r.read sk).1 = ms ∧ s'.Covers (r.read sk).2 := by
  cases s with
  | exact r₀ =>
    cases h
    cases hr
    exact ⟨rfl, rfl⟩
  | sealed level => exact read_of_resume h hr
  | keyed level =>
    rcases sk with _ | ⟨_ | c, sk⟩
    · cases h
    · cases h
    · simp only [read?] at h
      split at h
      · next hc =>
        subst hc
        cases h
        rw [Reader.read, next_mark hr.2 (by decide) (by decide) (by decide), hr.1]
        exact ⟨rfl, rfl⟩
      · cases h

theorem Standing.covers_settle {s : Standing} {r : Reader} (h : s.Covers r) :
    s.settle.Covers r := by
  cases s with
  | exact r₀ =>
    cases h
    rw [settle]
    split
    · next hword =>
      obtain ⟨-, -, hplace, hword⟩ := hword
      refine ⟨rfl, fun behind => ?_⟩
      rw [Reader.mentions]
      cases hp : r.place <;> simp_all
    · exact rfl
  | _ => exact h

section
variable {r : Reader}

/-- A run of name parts continues the word that is being read. -/
theorem read_nameParts (hr : r.closed = false) {t : Text} (ht : ∀ c ∈ t, isNamePart c = true) :
    r.read (t.map some) = ([], { r with word := r.word ++ t }) := by
  induction t generalizing r with
  | nil => simp
  | cons c t ih =>
    rw [List.forall_mem_cons] at ht
    have hnext : r.next (some c) = ([], { r with word := r.word ++ [c] }) := by
      simp [Reader.next, ht.1, hr]
    have hrest := ih (r := { r with word := r.word ++ [c] }) hr ht.2
    rw [List.map_cons, Reader.read, hnext]
    simp [hrest]

theorem ne_numeral_of_mem_tracked : ∀ v ∈ tracked, ∃ c ∈ v, c.isNumeralPart = false := by decide

/-- No numeral is a name. -/
theorem mentions_of_isNumeralText (hplace : r.place ≠ .declaration)
    (hword : Decimal.IsNumeralText r.word) (behind : Option CodePoint) :
    r.mentions behind = [] := by
  have htracked : r.word ∉ tracked := fun h => by
    obtain ⟨c, hc, hpart⟩ := ne_numeral_of_mem_tracked _ h
    rw [hword c hc] at hpart
    exact nomatch hpart
  rw [Reader.mentions]
  cases hp : r.place <;> simp_all

theorem read_of_isNumeralText (hplace : r.place ≠ .declaration) (hclosed : r.closed = false)
    (hword : Decimal.IsNumeralText r.word) {t : Text} (ht : Decimal.IsNumeralText t) :
    (r.read (t.map some)).1 = [] ∧ (Standing.sealed r.level).Covers (r.read (t.map some)).2 := by
  induction t generalizing r with
  | nil => exact ⟨rfl, rfl, mentions_of_isNumeralText hplace hword⟩
  | cons c t ih =>
    rw [Decimal.isNumeralText_cons] at ht
    rw [List.map_cons, Reader.read]
    by_cases hname : isNamePart c = true
    · have hnext : r.next (some c) = ([], { r with word := r.word ++ [c] }) := by
        simp [Reader.next, hname, hclosed]
      rw [hnext]
      exact ih hplace hclosed (by simpa [ht.1] using hword) ht.2
    · have hmark : (c.val = 43 ∨ c.val = 45) ∨ c.val = 46 := by
        have hpart := ht.1
        simp only [CodePoint.isNumeralPart, isNamePart, Quoted.isNameStart, CodePoint.isDigit,
          Bool.or_eq_true, Bool.and_eq_true, decide_eq_true_eq] at hpart hname
        omega
      have hnext : r.next (some c) = ([], .idle r.level (.behind c)) := by
        have hnone := mentions_of_isNumeralText hplace hword (some c)
        rcases hmark with (h | h) | h <;>
          simp [Reader.next, hname, hnone, CodePoint.isBlank, levelBehind, h]
      rw [hnext]
      refine ih ?_ rfl Decimal.isNumeralText_nil ht.2
      rcases hmark with (h | h) | h <;> simp [Reader.idle, Place.behind, h]

end

end Names

namespace Piece
open Names

theorem textAll_append_eq_ok_iff {unit : Text} {size : Nat} {first second : List Piece} {t : Text} :
    textAll unit size (first ++ second) = .ok t ↔
      ∃ s s', textAll unit size first = .ok s ∧ textAll unit size second = .ok s' ∧ t = s ++ s' := by
  induction first generalizing t with
  | nil =>
    constructor
    · intro h
      exact ⟨[], t, rfl, h, rfl⟩
    · rintro ⟨_, s', ⟨⟩, h, rfl⟩
      exact h
  | cons p first ih =>
    simp only [List.cons_append, textAll_cons_eq_ok_iff, ih]
    constructor
    · rintro ⟨a, _, ha, ⟨s, s', hs, hs', rfl⟩, rfl⟩
      exact ⟨a ++ s, s', ⟨a, s, ha, hs, rfl⟩, hs', (List.append_assoc a s s').symm⟩
    · rintro ⟨_, s', ⟨a, s, ha, hs, rfl⟩, hs', rfl⟩
      exact ⟨a, s ++ s', ha, ⟨s, s', hs, hs', rfl⟩, List.append_assoc a s s'⟩

/-- What a piece mentions, and what is known behind it. -/
def glance (g : Glance) : Piece → Option (List Mention × Glance)
  | code s =>
    let r := g.mode.skeleton s
    (g.standing.read? r.1).map fun x => (x.1, ⟨r.2, x.2.settle⟩)
  | quoted _ =>
    match g with
    | ⟨.code, .exact r⟩ => some (r.mentions none, .at (.idle r.level .elsewhere))
    | _ => none
  | key _ =>
    match g with
    | ⟨.code, .exact ⟨level, .entry, [], false⟩⟩ => some ([], ⟨.code, .keyed level⟩)
    | _ => none
  | number _ =>
    match g with
    | ⟨.code, .exact ⟨level, place, [], false⟩⟩ =>
      if place = .declaration then none else some ([], .behind level)
    | _ => none
  | indent _ | lineBreak =>
    match g with
    | ⟨.code, .exact ⟨level, place, [], false⟩⟩ => some ([], .at (.idle level place))
    | ⟨.code, .sealed level⟩ => some ([], .behind level)
    | _ => none
  | _ => none

def glanceAll (g : Glance) : List Piece → Option (List Mention × Glance)
  | [] => some ([], g)
  | p :: ps => do
    let first ← p.glance g
    let rest ← glanceAll first.2 ps
    pure (first.1 ++ rest.1, rest.2)

/-- Wherever pieces are read of which no more is known than `g`, they mention these names, and `g'`
is known behind them. -/
def Reads (g : Glance) (pieces : List Piece) (ms : List Mention) (g' : Glance) : Prop :=
  ∀ ⦃unit : Text⦄, unit.isBlank = true → ∀ ⦃size : Nat⦄ ⦃t : Text⦄,
    textAll unit size pieces = .ok t → ∀ ⦃due : List CodePoint⦄ ⦃sk : Skeleton⦄ ⦃st : Scan.State⦄,
    Scan.run ⟨g.mode, due⟩ t = some (sk, st) → ∀ ⦃r : Reader⦄, g.standing.Covers r →
    st.mode = g'.mode ∧ (r.read sk).1 = ms ∧ g'.standing.Covers (r.read sk).2

section
variable {g mid g' : Glance} {first second : List Piece} {ms ms' : List Mention}

theorem reads_nil (g : Glance) : Reads g [] [] g := by
  intro unit _ size t ht due sk st hrun r hr
  cases ht
  cases hrun
  exact ⟨rfl, rfl, hr⟩

/-- Pieces are read one after another. -/
theorem Reads.append (h : Reads g first ms mid) (h' : Reads mid second ms' g') :
    Reads g (first ++ second) (ms ++ ms') g' := by
  intro unit hunit size t ht due sk st hrun r hr
  obtain ⟨s, s', hs, hs', rfl⟩ := textAll_append_eq_ok_iff.mp ht
  obtain ⟨sk₁, ⟨mode, due₁⟩, sk₂, hrun₁, hrun₂, rfl⟩ := Scan.run_append_eq_some_iff.mp hrun
  obtain ⟨rfl, rfl, hmid⟩ := h hunit hs hrun₁ hr
  obtain ⟨hmode, hms, hlast⟩ := h' hunit hs' hrun₂ hmid
  rw [Reader.read_append]
  exact ⟨hmode, by rw [hms], hlast⟩

/-- A glance at code is one at its skeleton. -/
theorem reads_code {s : String} (h : (code s).glance g = some (ms, g')) :
    Reads g [code s] ms g' := by
  intro unit _ size t ht due sk st hrun r hr
  obtain ⟨_, _, ⟨⟩, ⟨⟩, rfl⟩ := textAll_cons_eq_ok_iff.mp ht
  rw [List.append_nil] at hrun
  have hsk : g.mode.skeleton s = (sk, st.mode) := Scan.Mode.skeleton_of_run hrun
  simp only [glance, hsk] at h
  obtain ⟨⟨_, last⟩, hread, hlast⟩ := Option.map_eq_some_iff.mp h
  cases hlast
  obtain ⟨hms, hcovers⟩ := Standing.read_of_read? hread hr
  exact ⟨rfl, hms, Standing.covers_settle hcovers⟩

/-- What is plain in code is read as it is written. -/
theorem reads_of_isPlain {p : Piece} {s : Standing} {last : Standing}
    (h : ∀ ⦃unit : Text⦄, unit.isBlank = true → ∀ ⦃size : Nat⦄ ⦃t : Text⦄, p.text unit size = .ok t →
      (∀ c ∈ t, Scan.IsPlain c) ∧ ∀ ⦃r : Reader⦄, s.Covers r →
        (r.read (t.map some)).1 = ms ∧ last.Covers (r.read (t.map some)).2) :
    Reads ⟨.code, s⟩ [p] ms ⟨.code, last⟩ := by
  intro unit hunit size t ht due sk st hrun r hr
  obtain ⟨s', _, hs', ⟨⟩, rfl⟩ := textAll_cons_eq_ok_iff.mp ht
  obtain ⟨hplain, hread⟩ := h hunit hs'
  rw [List.append_nil, Scan.run_of_isPlain hplain] at hrun
  cases hrun
  exact ⟨rfl, hread hr⟩

theorem reads_quoted (t : Text) (r : Reader) :
    Reads (.at r) [quoted t] (r.mentions none) (.at (.idle r.level .elsewhere)) := by
  rintro unit _ size _ ht due sk st hrun _ rfl
  obtain ⟨_, _, ⟨⟩, ⟨⟩, rfl⟩ := textAll_cons_eq_ok_iff.mp ht
  rw [List.append_nil] at hrun
  cases (Scan.run_encode t due).symm.trans hrun
  exact ⟨rfl, List.append_nil _, rfl⟩

theorem reads_number (n : Number) {level : Nat} {place : Place} (hplace : place ≠ .declaration) :
    Reads (.at (.idle level place)) [number n] [] (.behind level) := by
  refine reads_of_isPlain fun unit _ size t ht => ?_
  cases ht
  have hnumeral := n.isNumeralText_numeral
  refine ⟨fun c hc => Scan.isPlain_of_isNumeralPart (hnumeral c hc), ?_⟩
  rintro _ rfl
  exact read_of_isNumeralText hplace rfl Decimal.isNumeralText_nil hnumeral

/-- Indentation and line breaks are blank. -/
theorem isBlank_text {p : Piece} (hp : p = lineBreak ∨ ∃ levels, p = indent levels) {unit : Text}
    (hunit : unit.isBlank = true) {size : Nat} {t : Text} (ht : p.text unit size = .ok t) :
    t.isBlank = true := by
  rcases hp with rfl | ⟨levels, rfl⟩
  · cases ht
    rfl
  · cases ht
    exact List.all_eq_true.mpr fun c hc =>
      List.all_eq_true.mp hunit c (Text.mem_of_mem_repeated hc)

theorem reads_blank {p : Piece} (hp : p = lineBreak ∨ ∃ levels, p = indent levels) {r : Reader}
    (hr : r.blank = r) : Reads (.at r) [p] [] (.at r) := by
  refine reads_of_isPlain fun unit hunit size t ht => ?_
  have hblank := isBlank_text hp hunit ht
  refine ⟨fun c hc => Scan.isPlain_of_isBlank (List.all_eq_true.mp hblank c hc), ?_⟩
  rintro _ rfl
  have hread := Reader.read_blanks hr hblank
  exact ⟨congrArg Prod.fst hread, congrArg Prod.snd hread⟩

theorem reads_blank_behind {p : Piece} (hp : p = lineBreak ∨ ∃ levels, p = indent levels)
    (level : Nat) : Reads (.behind level) [p] [] (.behind level) := by
  refine reads_of_isPlain fun unit hunit size t ht => ?_
  have hblank := isBlank_text hp hunit ht
  refine ⟨fun c hc => Scan.isPlain_of_isBlank (List.all_eq_true.mp hblank c hc), fun r hr => ?_⟩
  rw [r.read_eq_of_isBlank hblank]
  split
  · exact ⟨rfl, hr⟩
  · exact ⟨rfl, hr⟩

theorem reads_key (t : Text) (level : Nat) :
    Reads (.at (.idle level .entry)) [key t] [] ⟨.code, .keyed level⟩ := by
  by_cases hbare : Quoted.isBareKey t = true
  · refine reads_of_isPlain fun unit _ size s hs => ?_
    cases hs
    rw [Quoted.encodeKey, if_pos hbare]
    refine ⟨Scan.isPlain_of_isBareKey hbare, ?_⟩
    obtain ⟨d, s, tail, rfl, -, hname, htail⟩ := Quoted.isBareKey_cases hbare
    rintro _ rfl
    have hword := read_nameParts (r := .idle level .entry) rfl hname
    -- A line feed behind the name closes the word and changes nothing else.
    rcases htail with rfl | rfl
    · rw [List.append_nil, hword]
      exact ⟨rfl, rfl, by simp [Reader.mentions, Reader.idle]⟩
    · rw [List.map_append, Reader.read_append, hword]
      simp only [List.map_cons, List.map_nil, Reader.read_lineFeed]
      exact ⟨rfl, rfl, by simp [Reader.mentions, Reader.idle, Reader.blank]⟩
  · rintro unit _ size _ ht due sk st hrun _ rfl
    obtain ⟨_, _, ⟨⟩, ⟨⟩, rfl⟩ := textAll_cons_eq_ok_iff.mp ht
    rw [List.append_nil, Quoted.encodeKey, if_neg hbare] at hrun
    cases (Scan.run_encode t due).symm.trans hrun
    exact ⟨rfl, rfl, rfl, rfl⟩

/-- What a glance tells is so wherever the pieces are read. -/
theorem reads_of_glance {p : Piece} (h : p.glance g = some (ms, g')) : Reads g [p] ms g' := by
  cases p with
  | code s => exact reads_code h
  | quoted t =>
    simp only [glance] at h
    split at h
    · cases h; exact reads_quoted t _
    · exact nomatch h
  | key t =>
    simp only [glance] at h
    split at h
    · cases h; exact reads_key t _
    · exact nomatch h
  | number n =>
    simp only [glance] at h
    split at h
    · split at h
      · exact nomatch h
      · next hplace => cases h; exact reads_number n hplace
    · exact nomatch h
  | indent levels =>
    simp only [glance] at h
    split at h
    · cases h; exact reads_blank (.inr ⟨levels, rfl⟩) rfl
    · cases h; exact reads_blank_behind (.inr ⟨levels, rfl⟩) _
    · exact nomatch h
  | lineBreak =>
    simp only [glance] at h
    split at h
    · cases h; exact reads_blank (.inl rfl) rfl
    · cases h; exact reads_blank_behind (.inl rfl) _
    · exact nomatch h
  | raw | scalar | size => exact nomatch h

theorem reads_of_glanceAll {pieces : List Piece} (h : glanceAll g pieces = some (ms, g')) :
    Reads g pieces ms g' := by
  induction pieces generalizing g ms with
  | nil =>
    cases h
    exact reads_nil _
  | cons p pieces ih =>
    obtain ⟨⟨first, mid⟩, hp, h⟩ := Option.bind_eq_some_iff.mp h
    obtain ⟨⟨rest, last⟩, hrest, h⟩ := Option.bind_eq_some_iff.mp h
    cases h
    exact (reads_of_glance hp).append (ih hrest)

/-- A string literal is read by its characters. -/
def glanceChars (g : Glance) (l : List Char) : Option (List Mention × Glance) :=
  let r := g.mode.skeleton (l.map CodePoint.ofChar)
  (g.standing.read? r.1).map fun x => (x.1, ⟨r.2, x.2.settle⟩)

theorem glance_code (g : Glance) (l : List Char) :
    (code (no_index (String.ofList l))).glance g = glanceChars g l := by
  rw [glance, Text.ofString_ofList, glanceChars]

/-- No more has to be known of a reader behind a value. -/
theorem Reads.behind {level : Nat} (h : Reads g first ms (.at (.idle level .elsewhere))) :
    Reads g first ms (.behind level) := by
  intro unit hunit size t ht due sk st hrun r hr
  obtain ⟨hmode, hms, hcovers⟩ := h hunit ht hrun hr
  exact ⟨hmode, hms, by rw [show _ = _ from hcovers]; exact ⟨rfl, fun _ => rfl⟩⟩

end

section Values

/-- The places of values. -/
def IsValuePlace (place : Place) : Prop := place = .operand ∨ place = .entry

theorem reads_constant {l : List Char} {level : Nat}
    (h : ∀ place, IsValuePlace place →
      glanceChars (.at (.idle level place)) l = some ([], .behind level))
    {place : Place} (hplace : IsValuePlace place) :
    Reads (.at (.idle level place)) [code (no_index (String.ofList l))] [] (.behind level) :=
  reads_code (by rw [glance_code, h place hplace])

theorem reads_opening {l : List Char} {level level' : Nat} {place' : Place}
    (h : ∀ place, IsValuePlace place →
      glanceChars (.at (.idle level place)) l = some ([], .at (.idle level' place')))
    {place : Place} (hplace : IsValuePlace place) :
    Reads (.at (.idle level place)) [code (no_index (String.ofList l)), lineBreak] []
      (.at (.idle level' place')) :=
  (reads_code (by rw [glance_code, h place hplace])).append (reads_blank (.inl rfl) rfl)

theorem reads_closing {l : List Char} {level level' : Nat} (depth : Nat) {place : Place}
    (h : glanceChars (.at (.idle level place)) l = some ([], .at (.idle level' .elsewhere))) :
    Reads (.at (.idle level place)) [indent depth, code (no_index (String.ofList l))] []
      (.at (.idle level' .elsewhere)) :=
  (reads_blank (.inr ⟨depth, rfl⟩) rfl).append (reads_code (by rw [glance_code, h]))

theorem reads_closing_behind {l : List Char} {level level' : Nat} (depth : Nat)
    (h : glanceChars (.behind level) l = some ([], .at (.idle level' .elsewhere))) :
    Reads (.behind level) [indent depth, code (no_index (String.ofList l))] []
      (.at (.idle level' .elsewhere)) :=
  (reads_blank_behind (.inr ⟨depth, rfl⟩) level).append (reads_code (by rw [glance_code, h]))

theorem reads_comma (level : Nat) :
    Reads (.behind level) [code ",", lineBreak] [] (.at (.idle level .entry)) :=
  reads_of_glanceAll (by simp only [glanceAll, glance_code]; rfl)

theorem reads_colon (level : Nat) :
    Reads ⟨.code, .keyed level⟩ [code ": "] [] (.at (.idle level .operand)) :=
  reads_of_glanceAll (by simp only [glanceAll, glance_code]; rfl)

section
variable {g g' : Glance} {e rest closing : List Piece} {level : Nat}

theorem reads_entry (depth : Nat) {place : Place}
    (h : Reads (.at (.idle level place)) e [] (.behind level)) :
    Reads (.at (.idle level place)) (indent depth :: e) [] (.behind level) :=
  (reads_blank (.inr ⟨depth, rfl⟩) rfl).append h

theorem reads_member (k : Text) (h : Reads (.at (.idle level .operand)) e [] (.behind level)) :
    Reads (.at (.idle level .entry)) (key k :: code ": " :: e) [] (.behind level) :=
  (reads_key k level).append ((reads_colon level).append h)

theorem reads_last (h : Reads g e [] (.behind level))
    (hclosing : Reads (.behind level) closing [] g') :
    Reads g (e ++ [lineBreak] ++ closing) [] g' :=
  (h.append (reads_blank_behind (.inl rfl) level)).append hclosing

theorem reads_next (h : Reads g e [] (.behind level))
    (hrest : Reads (.at (.idle level .entry)) (rest ++ closing) [] g') :
    Reads g (e ++ code "," :: lineBreak :: rest ++ closing) [] g' := by
  rw [List.append_assoc]
  exact h.append ((reads_comma level).append hrest)

end

mutual

/-- A value mentions nothing, whatever it holds. -/
theorem reads_literal (depth : Nat) : (v : Json) → ∀ {level : Nat} {place : Place},
    IsValuePlace place → Reads (.at (.idle level place)) (literal depth v) [] (.behind level)
  | .null, _, _, hplace => reads_constant (by rintro _ (rfl | rfl) <;> rfl) hplace
  | .bool true, _, _, hplace => reads_constant (by rintro _ (rfl | rfl) <;> rfl) hplace
  | .bool false, _, _, hplace => reads_constant (by rintro _ (rfl | rfl) <;> rfl) hplace
  | .num n, _, _, hplace => reads_number n (by rcases hplace with rfl | rfl <;> decide)
  | .nonFinite x, _, _, _ => fun _ _ _ _ ht => nomatch ht
  | .str t, _, _, _ => (reads_quoted t _).behind
  | .arr xs, level, _, hplace => by
    have hopen : Reads (.at (.idle level _)) [code "[", lineBreak] []
        (.at (.idle level .operand)) :=
      reads_opening (by rintro _ (rfl | rfl) <;> rfl) hplace
    exact (hopen.append (reads_literalItems depth xs (.inl rfl))).behind
  | .obj ms, level, _, hplace => by
    have hopen : Reads (.at (.idle level _)) [code "\x7b", lineBreak] []
        (.at (.idle (level + 1) .entry)) :=
      reads_opening (by rintro _ (rfl | rfl) <;> rfl) hplace
    exact (hopen.append (reads_literalMembers depth ms)).behind

theorem reads_literalItems (depth : Nat) : (xs : List Json) → ∀ {level : Nat} {place : Place},
    IsValuePlace place → Reads (.at (.idle level place))
      (literalItems depth xs ++ [indent depth, code "]"]) [] (.at (.idle level .elsewhere))
  | [], _, _, hplace => reads_closing depth (by rcases hplace with rfl | rfl <;> rfl)
  | [x], level, _, hplace =>
    reads_last (reads_entry (depth + 1) (reads_literal (depth + 1) x hplace))
      (reads_closing_behind depth rfl)
  | x :: y :: xs, level, _, hplace =>
    reads_next (reads_entry (depth + 1) (reads_literal (depth + 1) x hplace))
      (reads_literalItems depth (y :: xs) (.inr rfl))

theorem reads_literalMembers (depth : Nat) : (ms : List (Text × Json)) → ∀ {level : Nat},
    Reads (.at (.idle (level + 1) .entry)) (literalMembers depth ms ++ [indent depth, code "\x7d"])
      [] (.at (.idle level .elsewhere))
  | [], _ => reads_closing depth rfl
  | [(k, v)], _ =>
    reads_last (reads_entry (depth + 1) (reads_member k (reads_literal (depth + 1) v (.inl rfl))))
      (reads_closing_behind depth rfl)
  | (k, v) :: m :: ms, _ =>
    reads_next (reads_entry (depth + 1) (reads_member k (reads_literal (depth + 1) v (.inl rfl))))
      (reads_literalMembers depth (m :: ms))

end

theorem reads_value (v : Json) (level : Nat) :
    Reads (.at (.idle level .operand)) (value v) [] (.behind level) := reads_literal 0 v (.inl rfl)

end Values

end Piece

namespace Act
open Names

/-- What acts mention from a reader on, and the reader behind them. No word goes on past a line. -/
inductive Reads : Reader → List Act → List Mention → Reader → Prop
  | nil (r : Reader) : Reads r [] [] r
  | line {r mid r' : Reader} {pieces : List Piece} {acts : List Act} {ms ms' : List Mention}
    (hpieces : Piece.Reads (.at r) pieces ms (.at mid)) (hmid : mid.blank = mid)
    (hrest : Reads mid acts ms' r') : Reads r (line pieces :: acts) (ms ++ ms') r'
  | silent {r r' : Reader} {a : Act} {acts : List Act} {ms : List Mention}
    (ha : ∀ pieces, a ≠ line pieces) (hrest : Reads r acts ms r') : Reads r (a :: acts) ms r'

/-- What an act mentions, and the reader behind it. -/
def glance (r : Reader) : Act → Option (List Mention × Reader)
  | line pieces =>
    match Piece.glanceAll (.at r) pieces with
    | some (ms, ⟨.code, .exact ⟨level, place, [], false⟩⟩) => some (ms, .idle level place)
    | _ => none
  | _ => some ([], r)

def glanceAll (r : Reader) : List Act → Option (List Mention × Reader)
  | [] => some ([], r)
  | a :: acts => do
    let first ← a.glance r
    let rest ← glanceAll first.2 acts
    pure (first.1 ++ rest.1, rest.2)

section
variable {r mid r' : Reader} {first second acts : List Act} {ms ms' : List Mention}

theorem Reads.append (h : Reads r first ms mid) (h' : Reads mid second ms' r') :
    Reads r (first ++ second) (ms ++ ms') r' := by
  induction h with
  | nil => exact h'
  | line hpieces hmid _ ih =>
    rw [List.append_assoc]
    exact .line hpieces hmid (ih h')
  | silent ha _ ih => exact .silent ha (ih h')

theorem reads_line {pieces : List Piece} (h : Piece.Reads (.at r) pieces ms (.at mid))
    (hmid : mid.blank = mid) : Reads r [line pieces] ms mid := by
  have hline := Reads.line h hmid (.nil mid)
  rwa [List.append_nil] at hline

theorem reads_silent {a : Act} (ha : ∀ pieces, a ≠ line pieces) : Reads r [a] [] r :=
  .silent ha (.nil r)

theorem reads_of_glance {a : Act} (h : a.glance r = some (ms, mid)) : Reads r [a] ms mid := by
  cases a with
  | line pieces =>
    rw [glance] at h
    split at h
    · next hglance =>
      cases h
      exact reads_line (Piece.reads_of_glanceAll hglance) rfl
    · exact nomatch h
  | startBlock | endBlock | notify | fail =>
    cases h
    exact reads_silent nofun

theorem reads_of_glanceAll (h : glanceAll r acts = some (ms, r')) : Reads r acts ms r' := by
  induction acts generalizing r ms with
  | nil =>
    cases h
    exact .nil _
  | cons a acts ih =>
    obtain ⟨⟨first, mid⟩, ha, h⟩ := Option.bind_eq_some_iff.mp h
    obtain ⟨⟨rest, last⟩, hrest, h⟩ := Option.bind_eq_some_iff.mp h
    cases h
    exact (reads_of_glance ha).append (ih hrest)

/-- Acts that are repeated for the entries of a list mention one after another what each does. -/
theorem reads_flatMap {α : Type} {g : α → List Act} {m : α → List Mention} {xs : List α}
    (h : ∀ x ∈ xs, Reads r (g x) (m x) r) : Reads r (xs.flatMap g) (xs.flatMap m) r := by
  induction xs with
  | nil => exact .nil r
  | cons x xs ih =>
    rw [List.forall_mem_cons] at h
    exact h.1.append (ih h.2)

theorem reads_map {α : Type} {g : α → Act} {m : α → List Mention} {xs : List α}
    (h : ∀ x ∈ xs, Reads r [g x] (m x) r) : Reads r (xs.map g) (xs.flatMap m) r := by
  rw [List.map_eq_flatMap]
  exact reads_flatMap h

section
variable {unit : Text} (hunit : unit.isBlank = true) (hr : r.blank = r) {due due' : List CodePoint}
include hunit hr

theorem exists_run_linesAt {pieces : List Piece} (h : Piece.Reads (.at r) pieces ms (.at mid))
    (hmid : mid.blank = mid) (hscan : (line pieces).scan due = some due')
    (ha : (line pieces).Completes) (depth : Int) (size : Nat) : ∃ sk,
      Scan.run ⟨.code, due⟩ (Text.ofLines ((line pieces).linesAt unit depth size)) =
        some (sk, ⟨.code, due'⟩) ∧ r.read sk = (ms, mid) := by
  obtain ⟨⟨mode, due₁⟩, hpieces, hmode⟩ := Option.bind_eq_some_iff.mp hscan
  split at hmode
  · next hcode =>
    cases hmode
    cases hcode
    obtain ⟨t, ht⟩ := Piece.textAll_of_hasText ha unit size
    obtain ⟨-, -, sk, hrun, -, hquiet⟩ :=
      Piece.alike_of_scanAll hunit (Scan.isQuiet_code due) hpieces ht
    obtain ⟨-, hms, hlast⟩ := h hunit ht hrun rfl
    have hlines := ((Scan.lines_of_run hrun hquiet).layout hunit depth).run
    refine ⟨_, by simpa only [linesAt, ht] using hlines, ?_⟩
    rw [Reader.read_splitOn hunit depth hr, Reader.read_append, Reader.read_lineFeed, hms,
      show (r.read sk).2 = mid from hlast, hmid, List.append_nil]
  · cases hmode

/-- Acts that pass write lines that mention what was foreseen. -/
theorem Reads.exists_run (h : Reads r acts ms r') (hscan : scanAll due acts = some due')
    (hacts : ∀ a ∈ acts, a.Completes) (depth : Int) (size : Nat) : ∃ sk,
      Scan.run ⟨.code, due⟩ (Text.ofLines (written unit depth size acts)) =
        some (sk, ⟨.code, due'⟩) ∧ r.read sk = (ms, r') := by
  induction h generalizing due depth size with
  | nil =>
    cases hscan
    exact ⟨[], rfl, rfl⟩
  | line hpieces hmid _ ih =>
    obtain ⟨due₁, ha, hrest⟩ := Option.bind_eq_some_iff.mp hscan
    rw [List.forall_mem_cons] at hacts
    obtain ⟨sk, hrun, hread⟩ := exists_run_linesAt hunit hr hpieces hmid ha hacts.1 depth size
    obtain ⟨rest, hrunrest, hreadrest⟩ := ih hmid hrest hacts.2 _ _
    rw [written, Text.ofLines_append]
    exact ⟨_, Scan.run_append hrun hrunrest, Reader.read_append_of_eq hread hreadrest⟩
  | @silent _ _ a _ _ ha _ ih =>
    obtain ⟨due₁, hfirst, hrest⟩ := Option.bind_eq_some_iff.mp hscan
    rw [List.forall_mem_cons] at hacts
    cases a with
    | line pieces => exact absurd rfl (ha pieces)
    | fail f => cases hfirst
    | startBlock | endBlock | notify =>
      cases hfirst
      simpa [written, linesAt] using ih hr hrest hacts.2 _ _

end

/-- Acts that close what they open write a text of which it is known what it mentions. -/
theorem Reads.tells {unit : Text} (hunit : unit.isBlank = true) {level : Nat} {place : Place}
    (h : Reads .start acts ms (.idle level place)) (hneutral : IsNeutral acts)
    (hacts : ∀ a ∈ acts, a.Completes) (depth : Int) (size : Nat) :
    Tells (Text.ofLines (written unit depth size acts)) ms := by
  obtain ⟨sk, hrun, hread⟩ := h.exists_run hunit rfl (hneutral []) hacts depth size
  refine ⟨sk, hrun, ?_⟩
  rw [ofSkeleton, hread]
  exact List.append_nil ms

end

end Act

end FlowScript
