import FlowScript.Proofs.Literal.Reader

/-!
# Quoted text read back

Every text is the value of its literal, whatever stands behind the literal. A code point is either
kept, and then it means itself between the quotes in use, or escaped, and then its escape means it.
The literal holds no control character and no lone surrogate, and opens no tag in a page.
-/
namespace FlowScript

theorem Text.occursIn_iff_infix (part t : Text) : part.occursIn t = true ↔ part <:+: t := by
  induction t with
  | nil => simp [occursIn]
  | cons c t ih =>
    rw [occursIn, Bool.or_eq_true, List.isPrefixOf_iff_prefix, ih, List.infix_cons_iff]

namespace Quoted
open Literal

/-- A code point in front of `rest` that stands for itself between quotes. -/
structure IsKept (q : Quote) (c : CodePoint) (rest : Text) : Prop where
  printable : 0x20 ≤ c.val ∧ (c.val < 0x7F ∨ 0xA0 ≤ c.val)
  not_surrogate : c.isSurrogate = false
  not_backslash : c.val ≠ 92
  not_quote : c.val = 39 → q ≠ .single
  not_tag : c.val = 60 → opensTag rest = false

/-- A printable text that stands for a code point between any quotes. -/
structure IsEscape (c : CodePoint) (e : Text) : Prop where
  head : e.head? = some CodePoint.backslash
  printable : ∀ x ∈ e, 0x20 ≤ x.val ∧ x.val < 0x7F ∧ x.val ≠ 60
  reads : ∀ q t, readFrom q .plain (e ++ t) = prepend c.units (readFrom q .plain t)

theorem units_of_lt {c : CodePoint} (h : c.val < 0x10000) : c.units = [c.val] := if_pos h

theorem readFrom_backslash (q : Quote) {c : CodePoint} {t : Text} {units : List Nat} {next : State}
    (h : escapeStep c t.head? = some (units, next)) :
    readFrom q .plain (CodePoint.backslash :: c :: t) = prepend units (readFrom q next t) := by
  have hquote : CodePoint.backslash ≠ q.codePoint := by cases q <;> decide
  have hback : step q CodePoint.backslash (c :: t).head? .plain = some ([], .escape) := rfl
  have hescape : step q c t.head? .escape = some (units, next) := h
  rw [readFrom_of_step (fun h => hquote h.2) hback, prepend_nil,
    readFrom_of_inner hescape nofun]

/-- A backslash and a letter with a meaning of its own. -/
theorem isEscape_letter {c letter : CodePoint}
    (hletter : 0x20 ≤ letter.val ∧ letter.val < 0x7F ∧ letter.val ≠ 60)
    (h : ∀ next, escapeStep letter next = some (c.units, .plain)) :
    IsEscape c [CodePoint.backslash, letter] where
  head := rfl
  printable x hx := by
    rcases List.mem_cons.mp hx with rfl | hx
    · decide
    · rwa [List.mem_singleton.mp hx]
  reads q t := readFrom_backslash q (h t.head?)

/-- A hexadecimal digit as it is written in escapes. -/
def upperDigit (d : Nat) : CodePoint := (Decimal.digitChar d).upper

theorem hexValue?_upperDigit : ∀ d < 16, Decimal.hexValue? (upperDigit d) = some d := by decide

theorem upperDigit_printable : ∀ d < 16, 0x20 ≤ (upperDigit d).val ∧ (upperDigit d).val < 0x7F ∧
    (upperDigit d).val ≠ 60 := by decide

theorem upperDigit_ne_brace : ∀ d < 16, (upperDigit d).val ≠ 123 := by decide

theorem hexUpper_two (n : Nat) : hexUpper 2 n = [upperDigit (n / 16 % 16), upperDigit (n % 16)] :=
  rfl

theorem hexUpper_four (n : Nat) :
    hexUpper 4 n = [upperDigit (n / 16 / 16 / 16 % 16), upperDigit (n / 16 / 16 % 16),
      upperDigit (n / 16 % 16), upperDigit (n % 16)] := rfl

theorem readFrom_digit (q : Quote) {d : Nat} (hd : d < 16) (left value : Nat) (t : Text) :
    readFrom q (.digits (left + 1) value) (upperDigit d :: t) =
      readFrom q (.digits left (16 * value + d)) t := by
  have hstep : step q (upperDigit d) t.head? (.digits (left + 1) value) =
      some ([], .digits left (16 * value + d)) := by
    rw [step, digitStep, hexValue?_upperDigit d hd, Option.map_some]
  rw [readFrom_of_inner hstep nofun, prepend_nil]

theorem readFrom_last_digit (q : Quote) {d : Nat} (hd : d < 16) (value : Nat) (t : Text) :
    readFrom q (.digits 0 value) (upperDigit d :: t) =
      prepend [16 * value + d] (readFrom q .plain t) := by
  have hstep : step q (upperDigit d) t.head? (.digits 0 value) =
      some ([16 * value + d], .plain) := by
    rw [step, digitStep, hexValue?_upperDigit d hd, Option.map_some]
  rw [readFrom_of_inner hstep nofun]

theorem isEscape_hex {c : CodePoint} (h : c.val < 0x100) :
    IsEscape c (("\\x" : Text) ++ hexUpper 2 c.val) where
  head := rfl
  printable x hx := by
    rw [hexUpper_two] at hx
    simp only [List.mem_append, List.mem_cons, List.not_mem_nil, or_false] at hx
    rcases hx with hx | rfl | rfl
    · exact (show ∀ x ∈ ("\\x" : Text), 0x20 ≤ x.val ∧ x.val < 0x7F ∧ x.val ≠ 60 by decide) x hx
    · exact upperDigit_printable _ (Nat.mod_lt _ (by decide))
    · exact upperDigit_printable _ (Nat.mod_lt _ (by decide))
  reads q t := by
    change readFrom q .plain
      (CodePoint.backslash :: ('x' : CodePoint) :: (hexUpper 2 c.val ++ t)) = _
    have hx (next : Option CodePoint) : escapeStep 'x' next = some ([], .digits 1 0) := rfl
    rw [readFrom_backslash q (hx _), prepend_nil, hexUpper_two,
      List.cons_append, List.cons_append, readFrom_digit q (Nat.mod_lt _ (by decide)),
      readFrom_last_digit q (Nat.mod_lt _ (by decide)), List.nil_append, units_of_lt (by omega)]
    congr 2
    omega

theorem isEscape_unicode {c : CodePoint} (h : c.val < 0x10000) :
    IsEscape c (("\\u" : Text) ++ hexUpper 4 c.val) where
  head := rfl
  printable x hx := by
    rw [hexUpper_four] at hx
    simp only [List.mem_append, List.mem_cons, List.not_mem_nil, or_false] at hx
    rcases hx with hx | rfl | rfl | rfl | rfl
    · exact (show ∀ x ∈ ("\\u" : Text), 0x20 ≤ x.val ∧ x.val < 0x7F ∧ x.val ≠ 60 by decide) x hx
    all_goals exact upperDigit_printable _ (Nat.mod_lt _ (by decide))
  reads q t := by
    have hfirst : c.val / 16 / 16 / 16 % 16 < 16 := Nat.mod_lt _ (by decide)
    change readFrom q .plain
      (CodePoint.backslash :: ('u' : CodePoint) :: (hexUpper 4 c.val ++ t)) = _
    have hu (next : Option CodePoint) : escapeStep 'u' next = some ([], .unicode) := rfl
    have hstep (next : Option CodePoint) :
        step q (upperDigit (c.val / 16 / 16 / 16 % 16)) next .unicode =
          some ([], .digits 2 (16 * 0 + c.val / 16 / 16 / 16 % 16)) := by
      rw [step, if_neg (upperDigit_ne_brace _ hfirst), digitStep, hexValue?_upperDigit _ hfirst,
        Option.map_some]
    rw [readFrom_backslash q (hu _), prepend_nil, hexUpper_four, List.cons_append,
      readFrom_of_inner (hstep _) nofun, prepend_nil, List.cons_append,
      readFrom_digit q (Nat.mod_lt _ (by decide)), List.cons_append,
      readFrom_digit q (Nat.mod_lt _ (by decide)), List.cons_append,
      readFrom_last_digit q (Nat.mod_lt _ (by decide)), List.nil_append, units_of_lt h]
    congr 2
    omega

/-- Every code point is either kept or escaped. -/
theorem escape_cases (q : Quote) (c : CodePoint) (rest : Text) :
    (escape q c rest = [c] ∧ IsKept q c rest) ∨ IsEscape c (escape q c rest) := by
  have hletter {letter : CodePoint} {n : Nat} (hc : c.val = n) (hn : n < 0x10000)
      (hprint : 0x20 ≤ letter.val ∧ letter.val < 0x7F ∧ letter.val ≠ 60)
      (h : ∀ next, escapeStep letter next = some ([n], .plain)) :
      IsEscape c [CodePoint.backslash, letter] := by
    apply isEscape_letter hprint
    rw [units_of_lt (by omega), hc]
    exact h
  unfold escape
  split
  · next h => exact .inr (hletter h (by decide) (by decide) fun _ => rfl)
  · next h => exact .inr (hletter h (by decide) (by decide) fun _ => rfl)
  · next h => exact .inr (hletter h (by decide) (by decide) fun _ => rfl)
  · next h => exact .inr (hletter h (by decide) (by decide) fun _ => rfl)
  · next h => exact .inr (hletter h (by decide) (by decide) fun _ => rfl)
  · next h => exact .inr (hletter h (by decide) (by decide) fun _ => rfl)
  · next h =>
    split
    · exact .inr (hletter h (by decide) (by decide) fun _ => rfl)
    · next hq =>
      refine .inl ⟨rfl, by omega, ?_, by omega, fun _ => hq, by omega⟩
      simp [CodePoint.isSurrogate, h]
  · next h =>
    split
    · have hhex := isEscape_hex (c := c) (by omega)
      rw [h] at hhex
      exact .inr hhex
    · next htag =>
      refine .inl ⟨rfl, by omega, ?_, by omega, by omega, fun _ => by simpa using htag⟩
      simp [CodePoint.isSurrogate, h]
  · next h => exact .inr (hletter h (by decide) (by decide) fun _ => rfl)
  · split
    · exact .inr (isEscape_hex (by omega))
    · split
      · next hsurrogate =>
        have hlt : c.val < 0xE000 := by
          simp only [CodePoint.isSurrogate, Bool.and_eq_true, decide_eq_true_eq] at hsurrogate
          exact hsurrogate.2
        exact .inr (isEscape_unicode (by omega))
      · next hsurrogate =>
        exact .inl ⟨rfl, by omega, by simpa using hsurrogate, by omega,
          fun h => absurd h (by omega), fun h => absurd h (by omega)⟩

/-- A quote that a text can stand in. Single quotes always do, since they are escaped. -/
def Quote.Fits (t : Text) : Quote → Prop
  | .single => True
  | .double => Quote.double.codePoint ∉ t
  | .backtick => Quote.backtick.codePoint ∉ t ∧ ¬ substitution <:+: t

theorem quoteFor_fits (t : Text) : (quoteFor t).Fits t := by
  have hnotMem {q : Quote} (h : q.occursIn t = false) : q.codePoint ∉ t := by
    intro hmem
    rw [Quote.occursIn, List.any_eq_false] at h
    exact h _ hmem (by simp)
  unfold quoteFor
  split
  · trivial
  · split
    · next h => exact hnotMem (by simpa using h)
    · split
      · next h =>
        simp only [Bool.and_eq_true, Bool.not_eq_true'] at h
        refine ⟨hnotMem h.1, fun hinfix => ?_⟩
        rw [(Text.occursIn_iff_infix _ _).mpr hinfix] at h
        exact nomatch h.2
      · trivial

theorem Quote.Fits.tail {q : Quote} {c : CodePoint} {t : Text} (h : q.Fits (c :: t)) :
    q.Fits t := by
  cases q with
  | single => trivial
  | double => exact fun hmem => h (List.mem_cons_of_mem c hmem)
  | backtick =>
    exact ⟨fun hmem => h.1 (List.mem_cons_of_mem c hmem),
      fun hinfix => h.2 (List.infix_cons_iff.mpr (.inr hinfix))⟩

theorem Quote.Fits.ne_codePoint {q : Quote} {c : CodePoint} {t : Text} (h : q.Fits (c :: t))
    (hc : IsKept q c t) : c ≠ q.codePoint := by
  rintro rfl
  cases q with
  | single => exact hc.not_quote rfl rfl
  | double => exact h List.mem_cons_self
  | backtick => exact h.1 List.mem_cons_self

/-- What a literal goes on with after some point opens no brace unless the text does. -/
theorem head_of_escapeAll {q : Quote} {s t : Text} {c : CodePoint}
    (h : (escapeAll q s ++ q.codePoint :: t).head? = some c)
    (hc : c ≠ q.codePoint) (hb : c ≠ CodePoint.backslash) : s.head? = some c := by
  cases s with
  | nil => exact absurd (Option.some.inj h) (Ne.symm hc)
  | cons d s =>
    rw [escapeAll] at h
    rcases escape_cases q d s with ⟨hkept, -⟩ | hescape
    · rw [hkept] at h
      exact h
    · obtain ⟨e, he⟩ := List.head?_eq_some_iff.mp hescape.head
      rw [he] at h
      exact absurd (Option.some.inj h) (Ne.symm hb)

theorem readFrom_kept {q : Quote} {c : CodePoint} {s t : Text} (hc : IsKept q c s)
    (hs : q.Fits (c :: s)) :
    readFrom q .plain (c :: (escapeAll q s ++ q.codePoint :: t)) =
      prepend c.units (readFrom q .plain (escapeAll q s ++ q.codePoint :: t)) := by
  have hcontrol : c.val ≠ 10 ∧ c.val ≠ 13 := by have := hc.printable; omega
  apply readFrom_of_step fun h => hs.ne_codePoint hc h.2
  rw [step, plainStep, if_neg hc.not_backslash]
  by_cases hq : q = .backtick
  · subst hq
    rw [if_pos rfl, if_neg, if_neg hcontrol.2]
    rintro ⟨hdollar, hbrace⟩
    obtain ⟨d, hd, hval⟩ := (Option.any_eq_true _ _).mp hbrace
    have hval : d.val = 123 := by simpa using hval
    have hhead : s.head? = some d := by
      apply head_of_escapeAll hd <;> (rintro rfl; exact absurd hval (by decide))
    obtain ⟨rest, rfl⟩ := List.head?_eq_some_iff.mp hhead
    apply hs.2
    have hsubstitution : substitution = [c, d] := by
      cases c
      cases d
      cases hdollar
      cases hval
      rfl
    rw [hsubstitution]
    exact ⟨[], rest, rfl⟩
  · rw [if_neg hq, if_neg (by omega)]

/-- The inside of a literal is read up to the closing quote and gives the text. -/
theorem readFrom_escapeAll {q : Quote} {s : Text} (hs : q.Fits s) (t : Text) :
    readFrom q .plain (escapeAll q s ++ q.codePoint :: t) = some (s.units, t) := by
  induction s with
  | nil => exact readFrom_quote q t
  | cons c s ih =>
    have hrest : prepend c.units (readFrom q .plain (escapeAll q s ++ q.codePoint :: t)) =
        some (Text.units (c :: s), t) := by
      rw [ih hs.tail]
      rfl
    rw [escapeAll, List.append_assoc, ← hrest]
    rcases escape_cases q c s with ⟨hkept, hc⟩ | hescape
    · rw [hkept]
      exact readFrom_kept hc hs
    · exact hescape.reads q _

/-- A code point that neither ends a line nor controls anything, and no lone surrogate. -/
def IsPrintable (c : CodePoint) : Prop :=
  ¬ c.val ≤ 0x1F ∧ ¬ (0x7F ≤ c.val ∧ c.val ≤ 0x9F) ∧ ¬ (0xD800 ≤ c.val ∧ c.val ≤ 0xDFFF)

theorem isPrintable_of_ascii {c : CodePoint} (h : 0x20 ≤ c.val ∧ c.val < 0x7F) : IsPrintable c := by
  unfold IsPrintable
  omega

theorem isPrintable_codePoint (q : Quote) : IsPrintable q.codePoint := by
  apply isPrintable_of_ascii
  cases q <;> decide

theorem isPrintable_of_mem_escapeAll {q : Quote} {s : Text} {x : CodePoint}
    (h : x ∈ escapeAll q s) : IsPrintable x := by
  induction s with
  | nil => exact absurd h List.not_mem_nil
  | cons c s ih =>
    rcases List.mem_append.mp h with h | h
    · rcases escape_cases q c s with ⟨hkept, hc⟩ | hescape
      · rw [hkept] at h
        rw [List.mem_singleton.mp h]
        have hprint := hc.printable
        have hsurrogate := hc.not_surrogate
        simp only [CodePoint.isSurrogate, Bool.and_eq_false_iff, decide_eq_false_iff_not]
          at hsurrogate
        refine ⟨by omega, by omega, by omega⟩
      · have hx := hescape.printable x h
        exact isPrintable_of_ascii ⟨hx.1, hx.2.1⟩
    · exact ih h

/-- A sequence of code points that escapes leave alone and that holds no quote. -/
def IsTransparent (tag : Text) : Prop :=
  ∀ c ∈ tag, c ≠ CodePoint.backslash ∧ c ≠ Quote.single.codePoint ∧ c ≠ Quote.double.codePoint ∧
    c ≠ Quote.backtick.codePoint

theorem IsTransparent.ne_quote {tag : Text} (h : IsTransparent tag) (q : Quote) :
    ∀ c ∈ tag, c ≠ q.codePoint := by
  intro c hc
  obtain ⟨-, hsingle, hdouble, hbacktick⟩ := h c hc
  cases q with
  | single => exact hsingle
  | double => exact hdouble
  | backtick => exact hbacktick

/-- Such a sequence at the start of what is left of a literal stood in the text already. -/
theorem prefix_of_prefix_escapeAll {q : Quote} {s tag : Text} (htag : IsTransparent tag)
    (h : tag <+: escapeAll q s ++ [q.codePoint]) : tag <+: s := by
  induction tag generalizing s with
  | nil => exact List.nil_prefix
  | cons c tag ih =>
    have hbackslash := (htag c List.mem_cons_self).1
    have hquote := htag.ne_quote q c List.mem_cons_self
    have hhead : (escapeAll q s ++ [q.codePoint]).head? = some c := by
      obtain ⟨rest, hrest⟩ := h
      rw [← hrest]
      rfl
    obtain ⟨rest, rfl⟩ := List.head?_eq_some_iff.mp (head_of_escapeAll hhead hquote hbackslash)
    have hkept : escape q c rest = [c] := by
      rcases escape_cases q c rest with ⟨hkept, -⟩ | hescape
      · exact hkept
      · obtain ⟨e, he⟩ := List.head?_eq_some_iff.mp hescape.head
        rw [escapeAll, he] at hhead
        exact absurd (Option.some.inj hhead).symm hbackslash
    rw [escapeAll, hkept] at h
    have htail := (List.cons_prefix_cons.mp h).2
    exact List.cons_prefix_cons.mpr
      ⟨rfl, ih (fun d hd => htag d (List.mem_cons_of_mem c hd)) htail⟩

theorem infix_of_infix_append {c : CodePoint} {tag e t : Text} (he : c ∉ e)
    (h : c :: tag <:+: e ++ t) : c :: tag <:+: t := by
  induction e with
  | nil => exact h
  | cons d e ih =>
    rw [List.cons_append, List.infix_cons_iff] at h
    rcases h with h | h
    · exact absurd (List.cons_prefix_cons.mp h).1 (fun hcd => he (hcd ▸ List.mem_cons_self))
    · exact ih (fun hmem => he (List.mem_cons_of_mem d hmem)) h

/-- An angle bracket in a literal stood in the text, in front of what opens no tag. -/
theorem exists_suffix_of_infix_encode {tag : Text} (htag : IsTransparent tag) {s : Text}
    (h : (('<' : CodePoint) :: tag) <:+: encode s) :
    ∃ rest, (('<' : CodePoint) :: rest) <:+ s ∧ tag <+: rest ∧ opensTag rest = false := by
  have hquote (q : Quote) : ('<' : CodePoint) ∉ [q.codePoint] := by cases q <;> decide
  have hbody (q : Quote) {s : Text} (h : (('<' : CodePoint) :: tag) <:+:
      escapeAll q s ++ [q.codePoint]) :
      ∃ rest, (('<' : CodePoint) :: rest) <:+ s ∧ tag <+: rest ∧ opensTag rest = false := by
    induction s with
    | nil =>
      have hnil := infix_of_infix_append (t := []) (hquote q) h
      exact absurd (List.infix_nil.mp hnil) (List.cons_ne_nil _ _)
    | cons c s ih =>
      rw [escapeAll, List.append_assoc] at h
      have hrest (h : (('<' : CodePoint) :: tag) <:+: escapeAll q s ++ [q.codePoint]) :
          ∃ rest, (('<' : CodePoint) :: rest) <:+ c :: s ∧ tag <+: rest ∧
            opensTag rest = false := by
        obtain ⟨rest, hsuffix, hopens⟩ := ih h
        exact ⟨rest, hsuffix.trans (List.suffix_cons c s), hopens⟩
      rcases escape_cases q c s with ⟨hkept, hc⟩ | hescape
      · rw [hkept, List.singleton_append, List.infix_cons_iff] at h
        rcases h with h | h
        · obtain ⟨rfl, hprefix⟩ := List.cons_prefix_cons.mp h
          exact ⟨s, List.suffix_rfl, prefix_of_prefix_escapeAll htag hprefix, hc.not_tag rfl⟩
        · exact hrest h
      · refine hrest (infix_of_infix_append (fun hmem => ?_) h)
        exact (hescape.printable _ hmem).2.2 rfl
  exact hbody _ (infix_of_infix_append (hquote _) h)

/-- An angle bracket in front of what opens a tag does not stand in a literal. -/
theorem not_infix_encode (tag : Text) (htag : IsTransparent tag)
    (hopens : ∀ rest, tag <+: rest → opensTag rest = true) (s : Text) :
    ¬ (('<' : CodePoint) :: tag) <:+: encode s := by
  intro h
  obtain ⟨rest, -, hprefix, hclosed⟩ := exists_suffix_of_infix_encode htag h
  exact nomatch (hopens rest hprefix).symm.trans hclosed

theorem isPrintable_of_mem_encode {s : Text} {c : CodePoint} (h : c ∈ encode s) :
    IsPrintable c := by
  rcases List.mem_cons.mp h with rfl | h
  · exact isPrintable_codePoint _
  · rcases List.mem_append.mp h with h | h
    · exact isPrintable_of_mem_escapeAll h
    · rw [List.mem_singleton.mp h]
      exact isPrintable_codePoint _

/-- The literal of a text is read back as the text whatever follows it, and up to its end. It holds
neither control characters nor lone surrogates, and opens no comment or script in a page. -/
theorem read_encode (s t : Text) :
    read (encode s ++ t) = some (s.units, t) ∧
    (∀ c ∈ encode s, ¬ c.val ≤ 0x1F ∧ ¬ (0x7F ≤ c.val ∧ c.val ≤ 0x9F) ∧
      ¬ (0xD800 ≤ c.val ∧ c.val ≤ 0xDFFF)) ∧
    ¬ ("<!--" : Text) <:+: encode s ∧ ¬ ("<script" : Text) <:+: encode s ∧
      ¬ ("</script" : Text) <:+: encode s := by
  refine ⟨?_, fun c hc => isPrintable_of_mem_encode hc, ?_, ?_, ?_⟩
  · have hread := readFrom_escapeAll (quoteFor_fits s) t
    simp only [encode, List.cons_append, List.append_assoc, read_quote]
    exact hread
  · apply not_infix_encode "!--"
    · unfold IsTransparent; decide
    · intro rest h
      rw [opensTag, List.isPrefixOf_iff_prefix.mpr h]
      rfl
  · apply not_infix_encode "script"
    · unfold IsTransparent; decide
    · intro rest h
      rw [opensTag, List.isPrefixOf_iff_prefix.mpr h, Bool.or_true, Bool.true_or]
  · apply not_infix_encode "/script"
    · unfold IsTransparent; decide
    · intro rest h
      rw [opensTag, List.isPrefixOf_iff_prefix.mpr h, Bool.or_true]

/-- A bare key is a name, with one line feed behind it or none. -/
theorem isBareKey_cases {t : Text} (h : isBareKey t = true) :
    ∃ c s tail, t = c :: s ++ tail ∧ isNameStart c = true ∧ (∀ d ∈ c :: s, isNamePart d = true) ∧
      (tail = [] ∨ tail = [CodePoint.lineFeed]) := by
  cases t with
  | nil => exact nomatch h
  | cons c t =>
    simp only [isBareKey, Bool.and_eq_true, Bool.or_eq_true, List.all_eq_true,
      decide_eq_true_eq] at h
    obtain ⟨hc, h | ⟨hlast, h⟩⟩ := h
    · exact ⟨c, t, [], by rw [List.append_nil], hc,
        List.forall_mem_cons.mpr ⟨by simp [isNamePart, hc], h⟩, .inl rfl⟩
    · obtain ⟨s, rfl⟩ := List.getLast?_eq_some_iff.mp hlast
      rw [List.dropLast_concat] at h
      exact ⟨c, s, _, rfl, hc, List.forall_mem_cons.mpr ⟨by simp [isNamePart, hc], h⟩, .inr rfl⟩

end Quoted

end FlowScript
