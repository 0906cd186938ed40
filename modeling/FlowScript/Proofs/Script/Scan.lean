import FlowScript.Proofs.Literal.Quoted
import FlowScript.Proofs.Text.Lines

/-!
# Scanning scripts

How the text of a script falls into code, literals and comments: an automaton that reads one code
point after another, replaces every literal by a hole and keeps the closing brackets that are due.
The literal of a text is one hole, whatever the text, and lines that start and end in code stay so
when they are indented and trimmed.
-/
namespace FlowScript

/-- The text of a script with a hole in the place of every literal. -/
abbrev Skeleton := List (Option CodePoint)

namespace Scan
open Quoted (Quote)

/-- What the next code point of a script is part of. -/
inductive Mode where
  | code
  /-- It stands behind a slash in code. -/
  | slash
  /-- It is in a comment that ends with its line. -/
  | comment
  /-- It is in a literal, and stands behind a dollar sign or not. -/
  | literal (quote : Quote) (dollar : Bool)
  /-- It stands behind a backslash in a literal. -/
  | escape (quote : Quote)
  deriving DecidableEq

/-- What is being read, and the closing brackets that are due, the innermost first. -/
structure State where
  mode : Mode
  due : List CodePoint
  deriving DecidableEq

/-- In code, and no bracket is open. -/
def start : State := ⟨.code, []⟩

/-- A code point of code. A closing bracket has to be the one that is due. -/
def codeStep (due : List CodePoint) (c : CodePoint) : Option (Skeleton × State) :=
  match c.val with
  | 34 => some ([], ⟨.literal .double false, due⟩)
  | 39 => some ([], ⟨.literal .single false, due⟩)
  | 96 => some ([], ⟨.literal .backtick false, due⟩)
  | 47 => some ([some c], ⟨.slash, due⟩)
  | 40 => some ([some c], ⟨.code, ')' :: due⟩)
  | 91 => some ([some c], ⟨.code, ']' :: due⟩)
  | 123 => some ([some c], ⟨.code, '\x7d' :: due⟩)
  | 41 | 93 | 125 =>
    match due with
    | d :: due => if d = c then some ([some c], ⟨.code, due⟩) else none
    | [] => none
  | _ => some ([some c], ⟨.code, due⟩)

/-- A code point of a literal. The literal has to end on its line, and no substitution may stand in a
template literal. -/
def literalStep (q : Quote) (dollar : Bool) (due : List CodePoint) (c : CodePoint) :
    Option (Skeleton × State) :=
  if c = q.codePoint then some ([none], ⟨.code, due⟩)
  else if c.val = 92 then some ([], ⟨.escape q, due⟩)
  else if c.val = 10 ∨ c.val = 13 ∨ (q = .backtick ∧ dollar = true ∧ c.val = 123) then none
  else some ([], ⟨.literal q (c.val = 36), due⟩)

/-- What a code point leaves of itself, and the state behind it. A slash has to open a comment, since
it might open a regular expression or a longer comment otherwise. -/
def step (st : State) (c : CodePoint) : Option (Skeleton × State) :=
  match st.mode with
  | .code => codeStep st.due c
  | .slash => if c.val = 47 then some ([some c], ⟨.comment, st.due⟩) else none
  | .comment =>
    if c.val = 10 ∨ c.val = 13 ∨ c.val = 0x2028 ∨ c.val = 0x2029 then
      some ([some c], ⟨.code, st.due⟩)
    else some ([some c], st)
  | .literal q dollar => literalStep q dollar st.due c
  | .escape q => if c.val = 10 ∨ c.val = 13 then none else some ([], ⟨.literal q false, st.due⟩)

/-- The skeleton of a text that is read from a state on, and the state behind it. -/
def run : State → Text → Option (Skeleton × State)
  | st, [] => some ([], st)
  | st, c :: t =>
    match step st c with
    | some (sk, st) => (run st t).map fun r => (sk ++ r.1, r.2)
    | none => none

theorem run_cons_eq_some_iff {st st' : State} {c : CodePoint} {t : Text} {sk : Skeleton} :
    run st (c :: t) = some (sk, st') ↔ ∃ first mid rest,
      step st c = some (first, mid) ∧ run mid t = some (rest, st') ∧ sk = first ++ rest := by
  rw [run]
  cases hstep : step st c with
  | none => simp
  | some r =>
    obtain ⟨first, mid⟩ := r
    simp only [Option.map_eq_some_iff, Prod.exists, Prod.mk.injEq, Option.some.injEq]
    constructor
    · rintro ⟨rest, last, hrun, rfl, rfl⟩
      exact ⟨first, mid, rest, ⟨rfl, rfl⟩, hrun, rfl⟩
    · rintro ⟨_, _, rest, ⟨rfl, rfl⟩, hrun, rfl⟩
      exact ⟨rest, st', hrun, rfl, rfl⟩

theorem run_cons {st mid st' : State} {c : CodePoint} {t : Text} {first rest : Skeleton}
    (hstep : step st c = some (first, mid)) (hrun : run mid t = some (rest, st')) :
    run st (c :: t) = some (first ++ rest, st') :=
  run_cons_eq_some_iff.mpr ⟨first, mid, rest, hstep, hrun, rfl⟩

theorem run_singleton {st st' : State} {c : CodePoint} {sk : Skeleton}
    (h : step st c = some (sk, st')) : run st [c] = some (sk, st') := by
  simpa using run_cons h (rfl : run st' [] = some ([], st'))

/-- A text is scanned part by part. -/
theorem run_append_eq_some_iff {st st' : State} {s t : Text} {sk : Skeleton} :
    run st (s ++ t) = some (sk, st') ↔ ∃ first mid rest,
      run st s = some (first, mid) ∧ run mid t = some (rest, st') ∧ sk = first ++ rest := by
  induction s generalizing st sk with
  | nil =>
    constructor
    · intro h
      exact ⟨[], st, sk, rfl, h, rfl⟩
    · rintro ⟨_, _, rest, ⟨rfl, rfl⟩, hrest, rfl⟩
      exact hrest
  | cons c s ih =>
    simp only [List.cons_append, run_cons_eq_some_iff, ih]
    constructor
    · rintro ⟨first, mid, _, hstep, ⟨second, mid', rest, hs, ht, rfl⟩, rfl⟩
      exact ⟨_, mid', rest, ⟨first, mid, second, hstep, hs, rfl⟩, ht,
        (List.append_assoc first second rest).symm⟩
    · rintro ⟨_, mid', rest, ⟨first, mid, second, hstep, hs, rfl⟩, ht, rfl⟩
      exact ⟨first, mid, _, hstep, ⟨second, mid', rest, hs, ht, rfl⟩,
        List.append_assoc first second rest⟩

theorem run_append {st mid st' : State} {s t : Text} {first rest : Skeleton}
    (hs : run st s = some (first, mid)) (ht : run mid t = some (rest, st')) :
    run st (s ++ t) = some (first ++ rest, st') :=
  run_append_eq_some_iff.mpr ⟨first, mid, rest, hs, ht, rfl⟩

/-- A code point that is code and no more: no quote, no bracket and no slash. -/
def IsPlain (c : CodePoint) : Prop :=
  c.val ∉ [34, 39, 40, 41, 47, 91, 93, 96, 123, 125]

instance (c : CodePoint) : Decidable (IsPlain c) := inferInstanceAs (Decidable (_ ∉ _))

theorem codeStep_of_isPlain {c : CodePoint} (h : IsPlain c) (due : List CodePoint) :
    codeStep due c = some ([some c], ⟨.code, due⟩) := by
  unfold codeStep
  split <;> simp_all [IsPlain]

theorem run_of_isPlain {t : Text} (h : ∀ c ∈ t, IsPlain c) (due : List CodePoint) :
    run ⟨.code, due⟩ t = some (t.map some, ⟨.code, due⟩) := by
  induction t with
  | nil => rfl
  | cons c t ih =>
    rw [List.forall_mem_cons] at h
    have hstep : step ⟨.code, due⟩ c = _ := codeStep_of_isPlain h.1 due
    exact run_cons hstep (ih h.2)

theorem isPlain_of_isBlank {c : CodePoint} (h : c.isBlank = true) : IsPlain c := by
  intro hmem
  simp only [List.mem_cons, List.not_mem_nil, or_false] at hmem
  rcases hmem with hc | hc | hc | hc | hc | hc | hc | hc | hc | hc <;>
    simp [CodePoint.isBlank, hc] at h

section Literals
open Quoted

/-- A code point of a literal that neither ends it nor means anything to the code points after it. -/
def IsInner (c : CodePoint) : Prop :=
  c.val ∉ [10, 13, 34, 36, 39, 92, 96, 123]

instance (c : CodePoint) : Decidable (IsInner c) := inferInstanceAs (Decidable (_ ∉ _))

theorem literalStep_of_isInner {c : CodePoint} (h : IsInner c) (q : Quote) (dollar : Bool)
    (due : List CodePoint) : literalStep q dollar due c = some ([], ⟨.literal q false, due⟩) := by
  have hquote : c ≠ q.codePoint := by
    rintro rfl
    cases q <;> exact h (by decide)
  simp only [IsInner, List.mem_cons, List.not_mem_nil, or_false, not_or] at h
  simp [literalStep, hquote, h]

theorem run_of_isInner {t : Text} (h : ∀ c ∈ t, IsInner c) (q : Quote) (due : List CodePoint) :
    run ⟨.literal q false, due⟩ t = some ([], ⟨.literal q false, due⟩) := by
  induction t with
  | nil => rfl
  | cons c t ih =>
    rw [List.forall_mem_cons] at h
    have hstep : step ⟨.literal q false, due⟩ c = _ := literalStep_of_isInner h.1 q false due
    exact run_cons hstep (ih h.2)

theorem upperDigit_isInner : ∀ d < 16, IsInner (upperDigit d) := by decide

/-- A backslash, a code point on the same line, and digits. -/
structure IsEscapeText (e : Text) : Prop where
  shape : ∃ c digits, e = CodePoint.backslash :: c :: digits ∧ c.val ≠ 10 ∧ c.val ≠ 13 ∧
    ∀ d ∈ digits, IsInner d

theorem isEscapeText_pair {c : CodePoint} (h : c.val ≠ 10 ∧ c.val ≠ 13) :
    IsEscapeText [CodePoint.backslash, c] :=
  ⟨c, [], rfl, h.1, h.2, fun _ hd => absurd hd List.not_mem_nil⟩

theorem isEscapeText_hexUpper (width n : Nat) {c : CodePoint} (h : c.val ≠ 10 ∧ c.val ≠ 13) :
    IsEscapeText (CodePoint.backslash :: c :: hexUpper width n) := by
  refine ⟨c, _, rfl, h.1, h.2, ?_⟩
  induction width generalizing n with
  | zero => exact fun _ hd => absurd hd List.not_mem_nil
  | succ width ih =>
    have hsucc : hexUpper (width + 1) n = hexUpper width (n / 16) ++ [upperDigit (n % 16)] := by
      simp [hexUpper, Decimal.hex, Text.upper, upperDigit]
    rw [hsucc, List.forall_mem_append]
    refine ⟨ih (n / 16), ?_⟩
    rw [List.forall_mem_singleton]
    exact upperDigit_isInner _ (Nat.mod_lt _ (by decide))

theorem IsEscapeText.run {e : Text} (h : IsEscapeText e) (q : Quote) (dollar : Bool)
    (due : List CodePoint) :
    Scan.run ⟨.literal q dollar, due⟩ e = some ([], ⟨.literal q false, due⟩) := by
  obtain ⟨c, digits, rfl, hfeed, hreturn, hdigits⟩ := h.shape
  have hback : step ⟨.literal q dollar, due⟩ CodePoint.backslash =
      some ([], ⟨.escape q, due⟩) := by
    cases q <;> rfl
  have hescape : step ⟨.escape q, due⟩ c = some ([], ⟨.literal q false, due⟩) := by
    simp [step, hfeed, hreturn]
  exact run_cons hback (run_cons hescape (run_of_isInner hdigits q due))

/-- A code point is kept, or its escape is such a text. -/
theorem escape_kept_or_isEscapeText (q : Quote) (c : CodePoint) (rest : Text) :
    (escape q c rest = [c] ∧ IsKept q c rest) ∨ IsEscapeText (escape q c rest) := by
  have hshape : (escape q c rest = [c] ∧ c.val ≠ 92) ∨ IsEscapeText (escape q c rest) := by
    have hhex {x : CodePoint} {width n : Nat} (hx : x.val ≠ 10 ∧ x.val ≠ 13) :
        IsEscapeText (CodePoint.backslash :: x :: hexUpper width n) := isEscapeText_hexUpper _ _ hx
    unfold escape
    split
    iterate 6 exact .inr (isEscapeText_pair (by decide))
    · split
      · exact .inr (isEscapeText_pair (by decide))
      · exact .inl ⟨rfl, by omega⟩
    · split
      · exact .inr (isEscapeText_hexUpper 2 60 (by decide))
      · exact .inl ⟨rfl, by omega⟩
    · exact .inr (isEscapeText_pair (by decide))
    · split
      · exact .inr (isEscapeText_hexUpper 2 _ (by decide))
      · split
        · exact .inr (isEscapeText_hexUpper 4 _ (by decide))
        · exact .inl ⟨rfl, by assumption⟩
  rcases hshape with ⟨hself, hne⟩ | hescape
  · rcases escape_cases q c rest with hkept | hescape
    · exact .inl hkept
    · have hhead := hescape.head
      rw [hself] at hhead
      exact absurd (congrArg CodePoint.val (Option.some.inj hhead)) hne
  · exact .inr hescape

theorem literalStep_of_isKept {q : Quote} {c : CodePoint} {s : Text} (hc : IsKept q c s)
    (hs : q.Fits (c :: s)) {dollar : Bool}
    (hdollar : q = .backtick → dollar = true → c.val ≠ 123) (due : List CodePoint) :
    literalStep q dollar due c = some ([], ⟨.literal q (c.val = 36), due⟩) := by
  have hprint := hc.printable
  rw [literalStep, if_neg (hs.ne_codePoint hc), if_neg hc.not_backslash, if_neg]
  rintro (hfeed | hreturn | ⟨hq, hd, hbrace⟩)
  · omega
  · omega
  · exact hdollar hq hd hbrace

/-- A text that may stand between backticks opens no substitution behind a dollar sign. -/
theorem head_ne_brace {c : CodePoint} {s : Text} (hs : Quote.backtick.Fits (c :: s))
    (hc : c.val = 36) : ∀ d ∈ s.head?, d.val ≠ 123 := by
  rintro d hd hbrace
  obtain ⟨rest, rfl⟩ := List.head?_eq_some_iff.mp hd
  have hsubstitution : substitution = [c, d] := by
    cases c
    cases d
    cases hc
    cases hbrace
    rfl
  exact hs.2 (hsubstitution ▸ ⟨[], rest, rfl⟩)

/-- The inside of a literal leaves nothing and stays inside. -/
theorem run_escapeAll {q : Quote} {s : Text} (hs : q.Fits s) {dollar : Bool}
    (hdollar : q = .backtick → dollar = true → ∀ d ∈ s.head?, d.val ≠ 123)
    (due : List CodePoint) : ∃ dollar',
      run ⟨.literal q dollar, due⟩ (escapeAll q s) = some ([], ⟨.literal q dollar', due⟩) := by
  induction s generalizing dollar with
  | nil => exact ⟨dollar, rfl⟩
  | cons c s ih =>
    rw [escapeAll]
    rcases escape_kept_or_isEscapeText q c s with ⟨hself, hkept⟩ | hescape
    · have hstep : step ⟨.literal q dollar, due⟩ c = _ :=
        literalStep_of_isKept hkept hs (fun hq hd => hdollar hq hd c rfl) due
      have hnext (hq : q = .backtick) (hd : decide (c.val = 36) = true) :
          ∀ d ∈ s.head?, d.val ≠ 123 := head_ne_brace (hq ▸ hs) (of_decide_eq_true hd)
      obtain ⟨dollar', hrest⟩ := ih hs.tail hnext
      rw [hself]
      exact ⟨dollar', run_append (run_singleton hstep) hrest⟩
    · obtain ⟨dollar', hrest⟩ := ih hs.tail fun _ hd => absurd hd Bool.false_ne_true
      exact ⟨dollar', run_append (hescape.run q dollar due) hrest⟩

/-- The literal of any text is one hole. -/
theorem run_encode (t : Text) (due : List CodePoint) :
    run ⟨.code, due⟩ (encode t) = some ([none], ⟨.code, due⟩) := by
  have hopen (q : Quote) : step ⟨.code, due⟩ q.codePoint =
      some ([], ⟨.literal q false, due⟩) := by
    cases q <;> rfl
  have hclose (q : Quote) (dollar : Bool) : step ⟨.literal q dollar, due⟩ q.codePoint =
      some ([none], ⟨.code, due⟩) := by
    simp [step, literalStep]
  obtain ⟨dollar, hinside⟩ :=
    run_escapeAll (quoteFor_fits t) (fun _ (hd : false = true) => nomatch hd) due
  exact run_cons (hopen _) (run_append hinside (run_singleton (hclose _ dollar)))

end Literals

-- A bracket in a literal counts as little as one in a comment.
example : (run start "f(')', [`\\``]) // (\n").map (·.2) = some start := by decide

end Scan

end FlowScript
