import FlowScript.Proofs.Script.Margins

/-!
# Tags in scripts

A page around a script looks for comments and script tags in it, and takes capitals for small
letters. Neither code nor numbers hold the start of one, so what is found stands in the literal of a
recorded text: there a tag is escaped in small letters, and left as it is in any other spelling.
-/
namespace FlowScript

/-- A code point that a page takes for another one: itself, or its capital. -/
def CodePoint.Spells (c d : CodePoint) : Prop :=
  c = d ∨ 65 ≤ c.val ∧ c.val ≤ 90 ∧ d.val = c.val + 32

instance : DecidableRel CodePoint.Spells := fun c d =>
  inferInstanceAs (Decidable (c = d ∨ 65 ≤ c.val ∧ c.val ≤ 90 ∧ d.val = c.val + 32))

namespace Text

/-- A spelling of a text, in any mixture of small letters and capitals. -/
def Spells (w t : Text) : Prop := List.Forall₂ CodePoint.Spells w t

instance : DecidableRel Spells := fun w t =>
  inferInstanceAs (Decidable (List.Forall₂ CodePoint.Spells w t))

/-- A name behind an angle bracket. -/
abbrev tag (name : Text) : Text := ('<' : CodePoint) :: name

/-- What makes an angle bracket start a comment, or start or end a script. -/
def tagNames : List Text := ["!--", "script", "/script"]

/-- A text that literals hold as it is, without a bracket of its own, and that is no end of an
operator. -/
structure IsTagName (name : Text) : Prop where
  transparent : Quoted.IsTransparent name
  solid : ∀ c ∈ name, 33 ≤ c.val ∧ c.val ≤ 122 ∧ c.val ≠ 60
  head : ∃ c rest, name = c :: rest ∧ c ≠ CodePoint.ofChar ' ' ∧ c ≠ CodePoint.ofChar '='

variable {name small : Text}

theorem isTagName_of_spells (hsmall : small ∈ tagNames) (h : name.Spells small) :
    IsTagName name := by
  have hvals : ∀ small ∈ tagNames, small ≠ [] ∧
      ∀ d ∈ small, d.val ∈ [33, 45, 47] ∨ 97 ≤ d.val ∧ d.val ≤ 122 := by decide
  obtain ⟨hne, hvals⟩ := hvals small hsmall
  have hname : ∀ c ∈ name, c.val ∈ [33, 45, 47] ∨ 65 ≤ c.val ∧ c.val ≤ 90 ∨
      97 ≤ c.val ∧ c.val ≤ 122 := by
    intro c hc
    obtain ⟨d, hd, rfl | hcapital⟩ := exists_of_forall₂ h hc
    · exact (hvals c hd).imp_right .inr
    · exact .inr (.inl ⟨hcapital.1, hcapital.2.1⟩)
  refine ⟨?transparent, ?solid, ?head⟩
  case transparent =>
    intro c hc
    refine ⟨?_, ?_, ?_, ?_⟩ <;> (rintro rfl; exact absurd (hname _ hc) (by decide))
  case solid =>
    intro c hc
    have hval := hname c hc
    simp only [List.mem_cons, List.not_mem_nil, or_false] at hval
    omega
  case head =>
    cases h with
    | nil => exact absurd rfl hne
    | @cons c d rest _ _ _ =>
      have hval := hname c List.mem_cons_self
      refine ⟨c, rest, rfl, ?_, ?_⟩ <;> (rintro rfl; exact absurd hval (by decide))

/-- An angle bracket in front of a name is escaped if the name is in small letters, -/
theorem opensTag_of_prefix {rest : Text} (hname : name ∈ tagNames) (h : name <+: rest) :
    Quoted.opensTag rest = true := by
  have hpre := List.isPrefixOf_iff_prefix.mpr h
  simp only [tagNames, List.mem_cons, List.not_mem_nil, or_false] at hname
  rcases hname with rfl | rfl | rfl <;> simp [Quoted.opensTag, hpre]

/-- and only then. -/
theorem eq_of_opensTag {rest : Text} (hsmall : small ∈ tagNames) (h : name.Spells small)
    (hpre : name <+: rest) (hopens : Quoted.opensTag rest = true) : name = small := by
  have hheads : ∀ small ∈ tagNames, ∀ other ∈ tagNames, small.head? = other.head? →
      small = other := by decide
  have hcapital : ∀ other ∈ tagNames, other ≠ [] ∧ ∀ e ∈ other, ¬ (65 ≤ e.val ∧ e.val ≤ 90) := by
    decide
  obtain ⟨other, hother, hopened⟩ : ∃ other ∈ tagNames, other <+: rest := by
    simpa [Quoted.opensTag, tagNames, List.isPrefixOf_iff_prefix, or_assoc] using hopens
  have hlength := h.length_eq
  have hsame : small = other := by
    refine hheads small hsmall other hother ?_
    cases h with
    | nil => exact absurd rfl (hcapital [] hsmall).1
    | @cons c d _ _ hcd _ =>
      obtain ⟨tail, rfl⟩ := hpre
      obtain ⟨e, rest, rfl⟩ := List.exists_cons_of_ne_nil (hcapital other hother).1
      obtain rfl : e = c := (List.cons_prefix_cons.mp hopened).1
      have he := (hcapital _ hother).2 e List.mem_cons_self
      rcases hcd with rfl | hcd
      · rfl
      · exact absurd ⟨hcd.1, hcd.2.1⟩ he
  subst hsame
  exact (List.prefix_of_prefix_length_le hpre hopened hlength.le).eq_of_length hlength

/-- What a page takes for the start of a comment, or for the start or the end of a script. -/
def tags : List Text := ["<!--", "<script", "</script"]

/-- An angle bracket has no capital, so a spelling differs in the name only. -/
theorem exists_name_of_spells {w tag : Text} (htag : tag ∈ tags) (h : w.Spells tag) :
    ∃ name small : Text, w = name.tag ∧ tag = small.tag ∧
      small ∈ tagNames ∧ name.Spells small := by
  have hnames : ∀ tag ∈ tags, tag.head? = some ('<' : CodePoint) ∧ tag.tail ∈ tagNames := by decide
  obtain ⟨hhead, htail⟩ := hnames tag htag
  obtain ⟨small, rfl⟩ := List.head?_eq_some_iff.mp hhead
  obtain ⟨c, name, hc, hname, rfl⟩ := List.forall₂_cons_right_iff.mp h
  obtain rfl : c = ('<' : CodePoint) := by
    rcases hc with hc | ⟨hlow, -, hval⟩
    · exact hc
    · have hbracket : ('<' : CodePoint).val = 60 := rfl
      omega
  exact ⟨name, small, rfl, rfl, htail, hname⟩

theorem bracket_notMem_of_isBlank {t : Text} (h : t.isBlank = true) : ('<' : CodePoint) ∉ t :=
  fun hmem => absurd (List.all_eq_true.mp h _ hmem) (by decide)

end Text

section Infix
variable {α : Type} {w s t : List α} {x : α}

theorem prefix_of_prefix_append_cons (hx : x ∉ w) (h : w <+: s ++ x :: t) : w <+: s := by
  induction w generalizing s with
  | nil => exact List.nil_prefix
  | cons y w ih =>
    cases s with
    | nil =>
      obtain ⟨rfl, -⟩ := List.cons_prefix_cons.mp h
      exact absurd List.mem_cons_self hx
    | cons z s =>
      obtain ⟨rfl, htail⟩ := List.cons_prefix_cons.mp h
      exact List.cons_prefix_cons.mpr
        ⟨rfl, ih (fun hmem => hx (List.mem_cons_of_mem _ hmem)) htail⟩

/-- What does not hold an element stands on one side of it. -/
theorem infix_of_infix_append_cons (hx : x ∉ w) (h : w <:+: s ++ x :: t) :
    w <:+: s ∨ w <:+: t := by
  induction s with
  | nil =>
    rcases List.infix_cons_iff.mp h with h | h
    · exact .inl (prefix_of_prefix_append_cons (s := []) hx h).isInfix
    · exact .inr h
  | cons y s ih =>
    rcases List.infix_cons_iff.mp h with h | h
    · exact .inl (prefix_of_prefix_append_cons (s := y :: s) hx h).isInfix
    · exact (ih h).imp_left fun h => List.infix_cons h

/-- What does not hold the separator stands in one of the parts. -/
theorem infix_intercalate_iff {parts : List (List α)} (hw : w ≠ []) (hx : x ∉ w) :
    w <:+: [x].intercalate parts ↔ ∃ part ∈ parts, w <:+: part := by
  induction parts with
  | nil => simpa using hw
  | cons part parts ih =>
    by_cases hparts : parts = []
    · simp [hparts]
    · rw [List.intercalate_cons_of_ne_nil hparts, List.append_assoc, List.singleton_append]
      simp only [List.exists_mem_cons_iff, ← ih]
      constructor
      · exact infix_of_infix_append_cons hx
      · rintro (h | h)
        · exact h.trans (List.prefix_append _ _).isInfix
        · exact h.trans ((List.suffix_cons x _).trans (List.suffix_append _ _)).isInfix

end Infix

namespace Quoted

variable {name : Text}

theorem escape_of_isTagName (h : Text.IsTagName name) {c : CodePoint} (hc : c ∈ name) (q : Quote)
    (rest : Text) : escape q c rest = [c] := by
  have hsolid := h.solid c hc
  have hne {n : Nat} {d : CodePoint} (hd : d.val = n) (hcd : c ≠ d) : c.val ≠ n := by
    rintro hn
    refine hcd ?_
    cases c
    cases d
    simp_all
  have hbackslash : c.val ≠ 92 := hne rfl (h.transparent c hc).1
  have hsingle : c.val ≠ 39 := hne rfl (h.transparent c hc).2.1
  unfold escape
  split
  case h_10 =>
    rw [if_neg (by omega), if_neg]
    simp only [CodePoint.isSurrogate, Bool.and_eq_true, decide_eq_true_eq]
    omega
  all_goals omega

theorem prefix_escapeAll {q : Quote} {s : Text}
    (hname : ∀ c ∈ name, ∀ rest, escape q c rest = [c]) (h : name <+: s) :
    name <+: escapeAll q s := by
  induction name generalizing s with
  | nil => exact List.nil_prefix
  | cons c name ih =>
    obtain ⟨rest, rfl⟩ := h
    rw [List.forall_mem_cons] at hname
    rw [List.cons_append, escapeAll, hname.1, List.singleton_append, List.cons_prefix_cons]
    exact ⟨rfl, ih hname.2 (List.prefix_append name rest)⟩

/-- A tag whose name has a capital somewhere is left as it is. -/
theorem infix_encode (h : Text.IsTagName name)
    (hopens : ∀ rest, name <+: rest → opensTag rest = false) {s : Text}
    (hs : name.tag <:+: s) : name.tag <:+: encode s := by
  have hbody (q : Quote) : name.tag <:+: escapeAll q s := by
    induction s with
    | nil => exact absurd (List.infix_nil.mp hs) (List.cons_ne_nil _ _)
    | cons c s ih =>
      rw [escapeAll]
      rcases List.infix_cons_iff.mp hs with hs | hs
      · obtain ⟨rfl, hpre⟩ := List.cons_prefix_cons.mp hs
        have hkept : escape q ('<' : CodePoint) s = [('<' : CodePoint)] :=
          if_neg (by simp [hopens s hpre])
        rw [hkept, List.singleton_append]
        have hname := prefix_escapeAll (fun c hc => escape_of_isTagName h hc q) hpre
        exact (List.cons_prefix_cons.mpr ⟨rfl, hname⟩).isInfix
      · exact (ih hs).trans (List.suffix_append _ _).isInfix
  exact (hbody _).trans (List.infix_append [_] _ [_])

/-- The literal of a text holds the tags of the text, but for those in small letters. -/
theorem infix_encode_iff {small : Text} (hsmall : small ∈ Text.tagNames) (h : name.Spells small)
    {s : Text} : name.tag <:+: encode s ↔ name ≠ small ∧ name.tag <:+: s := by
  have hname := Text.isTagName_of_spells hsmall h
  constructor
  · intro hin
    obtain ⟨rest, hsuffix, hpre, hopens⟩ :=
      exists_suffix_of_infix_encode hname.transparent hin
    refine ⟨?_, ?_⟩
    · rintro rfl
      exact nomatch (Text.opensTag_of_prefix hsmall hpre).symm.trans hopens
    · exact (List.cons_prefix_cons.mpr ⟨rfl, hpre⟩).isInfix.trans hsuffix.isInfix
  · rintro ⟨hne, hin⟩
    refine infix_encode hname (fun rest hpre => ?_) hin
    rw [← Bool.not_eq_true]
    exact fun hopens => hne (Text.eq_of_opensTag hsmall h hpre hopens)

/-- A tag does not reach over the quote at the end of a literal. -/
theorem infix_of_infix_encode_append (h : Text.IsTagName name) {u t : Text}
    (hin : name.tag <:+: encode u ++ t) : name.tag <:+: encode u ∨ name.tag <:+: t := by
  have hquote (q : Quote) : q.codePoint ∉ name.tag := by
    intro hmem
    rcases List.mem_cons.mp hmem with hq | hmem
    · exact absurd hq (by cases q <;> decide)
    · exact h.transparent.ne_quote q _ hmem rfl
  rw [encode, List.append_assoc, List.singleton_append] at hin
  refine (infix_of_infix_append_cons (hquote _) hin).imp_left fun hu => ?_
  exact hu.trans (List.prefix_append _ _).isInfix

theorem notMem_of_isBareKey {u : Text} (h : isBareKey u = true) : ('<' : CodePoint) ∉ u := by
  obtain ⟨c, s, tail, rfl, -, hname, htail⟩ := isBareKey_cases h
  intro hmem
  rcases List.mem_append.mp hmem with hmem | hmem
  · exact absurd (hname _ hmem) (by decide)
  · rcases htail with rfl | rfl
    · exact absurd hmem List.not_mem_nil
    · exact absurd hmem (by decide)

end Quoted

namespace Piece

/-- The text that a piece writes as a literal; a key may be written bare as well. -/
def recorded? : Piece → Option Text
  | quoted t | key t => some t
  | _ => none

/-- A piece that is neither text taken over as it is nor a value that could hold text. -/
def IsGuarded : Piece → Prop
  | raw _ => False
  | scalar v => v.IsAtomic
  | _ => True

variable {name unit : Text}

theorem notMem_numeral {v : Json} (hv : v.IsAtomic) {t : Text} (h : v.numeral = .ok t) :
    ('<' : CodePoint) ∉ t := by
  cases v with
  | null => cases h; decide
  | bool b => cases b <;> (cases h; decide)
  | num n =>
    cases h
    exact fun hmem => absurd (n.isNumeralText_numeral _ hmem) (by decide)
  | nonFinite x => exact nomatch h
  | _ => exact hv.elim

/-- Tame code and what follows it: a tag does not start in the code. -/
theorem infix_of_isTame (h : Text.IsTagName name) {l : List Char} (hl : isTame l = true) {t : Text}
    (hin : name.tag <:+: l.map CodePoint.ofChar ++ t) : name.tag <:+: t := by
  induction l with
  | nil => exact hin
  | cons c l ih =>
    rw [isTame, Bool.and_eq_true, Bool.or_eq_true, decide_eq_true_eq] at hl
    rcases List.infix_cons_iff.mp hin with hpre | hin
    · obtain ⟨hc, hbehind⟩ := List.cons_prefix_cons.mp hpre
      obtain rfl : '<' = c := Char.toNat_inj.mp (congrArg CodePoint.val hc)
      obtain ⟨d, rest, rfl, hblank, hequals⟩ := h.head
      rcases hl.1 with hne | hnext
      · exact absurd rfl hne
      · cases l with
        | nil => exact nomatch hnext
        | cons e l =>
          obtain ⟨rfl, -⟩ := List.cons_prefix_cons.mp hbehind
          have he : e = ' ' ∨ e = '=' := by simpa using hnext
          rcases he with rfl | rfl
          · exact absurd rfl hblank
          · exact absurd rfl hequals
    · exact ih hl.2 hin

theorem IsTidy.tail {fresh : Bool} {p : Piece} {pieces : List Piece}
    (h : IsTidy fresh (p :: pieces)) : ∃ fresh', IsTidy fresh' pieces := by
  cases p with
  | code s => exact ⟨_, h.2⟩
  | indent levels => exact ⟨_, h.2⟩
  | _ => exact ⟨_, h⟩

/-- Scanned pieces are guarded. -/
theorem isGuarded_of_scanAll {pieces : List Piece} {st st' : Scan.State}
    (h : scanAll st pieces = some st') : ∀ p ∈ pieces, p.IsGuarded := by
  induction pieces generalizing st with
  | nil => exact List.forall_mem_nil _
  | cons p pieces ih =>
    obtain ⟨mid, hp, hrest⟩ := Option.bind_eq_some_iff.mp h
    refine List.forall_mem_cons.mpr ⟨?_, ih hrest⟩
    cases p with
    | raw t => exact nomatch hp
    | scalar v => exact (isAtomic_of_scan hp).1
    | _ => trivial

/-- A tag in a line starts in a literal, or behind the first piece. -/
theorem infix_of_text (h : Text.IsTagName name) (hunit : unit.isBlank = true) {fresh : Bool}
    {p : Piece} {pieces : List Piece} (htidy : IsTidy fresh (p :: pieces)) (hp : p.IsGuarded)
    {size : Nat} {s t : Text} (hs : p.text unit size = .ok s)
    (hin : name.tag <:+: s ++ t) :
    (∃ u, p.recorded? = some u ∧ name.tag <:+: Quoted.encode u) ∨ name.tag <:+: t := by
  have hother (hs : ('<' : CodePoint) ∉ s) : name.tag <:+: t :=
    Quoted.infix_of_infix_append hs hin
  have hliteral {u : Text} (hin : name.tag <:+: Quoted.encode u ++ t) :=
    Quoted.infix_of_infix_encode_append h hin
  cases p with
  | code c =>
    cases hs
    exact .inr (infix_of_isTame h htidy.1 hin)
  | raw u => exact hp.elim
  | quoted u =>
    cases hs
    exact (hliteral hin).imp_left fun hu => ⟨u, rfl, hu⟩
  | key u =>
    cases hs
    rw [Quoted.encodeKey] at hin hother
    split at hin
    · next hbare =>
      rw [if_pos hbare] at hother
      exact .inr (hother (Quoted.notMem_of_isBareKey hbare))
    · exact (hliteral hin).imp_left fun hu => ⟨u, rfl, hu⟩
  | number n =>
    cases hs
    exact .inr (hother fun hmem => absurd (n.isNumeralText_numeral _ hmem) (by decide))
  | scalar v => exact .inr (hother (notMem_numeral hp hs))
  | indent levels =>
    cases hs
    exact .inr (hother fun hmem =>
      Text.bracket_notMem_of_isBlank hunit (Text.mem_of_mem_repeated hmem))
  | lineBreak =>
    cases hs
    exact .inr (hother (by decide))
  | size =>
    cases hs
    exact .inr (hother fun hmem => absurd (Decimal.isNumeralText_natText size _ hmem) (by decide))

/-- A tag in the text of a tidy line stands in a literal of it. -/
theorem exists_recorded_of_infix (h : Text.IsTagName name) (hunit : unit.isBlank = true)
    {fresh : Bool} {pieces : List Piece} (htidy : IsTidy fresh pieces)
    (hpieces : ∀ p ∈ pieces, p.IsGuarded) {size : Nat} {t : Text}
    (ht : textAll unit size pieces = .ok t) (hin : name.tag <:+: t) :
    ∃ p ∈ pieces, ∃ u, p.recorded? = some u ∧ name.tag <:+: Quoted.encode u := by
  induction pieces generalizing fresh t with
  | nil =>
    cases ht
    exact absurd (List.infix_nil.mp hin) (List.cons_ne_nil _ _)
  | cons p pieces ih =>
    obtain ⟨s, rest, hs, hrest, rfl⟩ := textAll_cons_eq_ok_iff.mp ht
    rw [List.forall_mem_cons] at hpieces
    rcases infix_of_text h hunit htidy hpieces.1 hs hin with hp | hin
    · exact ⟨p, List.mem_cons_self, hp⟩
    · obtain ⟨fresh', htail⟩ := htidy.tail
      obtain ⟨q, hq, hrecorded⟩ := ih htail hpieces.2 hrest hin
      exact ⟨q, List.mem_cons_of_mem p hq, hrecorded⟩

theorem text_infix_of_mem {pieces : List Piece} {p : Piece} (hp : p ∈ pieces) {size : Nat}
    {t : Text} (ht : textAll unit size pieces = .ok t) :
    ∃ s, p.text unit size = .ok s ∧ s <:+: t := by
  induction pieces generalizing t with
  | nil => exact absurd hp List.not_mem_nil
  | cons q pieces ih =>
    obtain ⟨s, rest, hs, hrest, rfl⟩ := textAll_cons_eq_ok_iff.mp ht
    rcases List.mem_cons.mp hp with rfl | hp
    · exact ⟨s, hs, (List.prefix_append s rest).isInfix⟩
    · obtain ⟨s', hs', hin⟩ := ih hp hrest
      exact ⟨s', hs', hin.trans (List.suffix_append s rest).isInfix⟩

/-- A tag in a literal stands in the text of its line. -/
theorem infix_of_recorded (h : Text.IsTagName name) {pieces : List Piece} {p : Piece}
    (hp : p ∈ pieces) {u : Text} (hu : p.recorded? = some u)
    (hin : name.tag <:+: Quoted.encode u) {size : Nat} {t : Text}
    (ht : textAll unit size pieces = .ok t) : name.tag <:+: t := by
  obtain ⟨s, hs, hst⟩ := text_infix_of_mem hp ht
  refine List.IsInfix.trans ?_ hst
  cases p with
  | quoted u' =>
    cases hu
    cases hs
    exact hin
  | key u' =>
    cases hu
    cases hs
    obtain ⟨rest, hsuffix, -, -⟩ := Quoted.exists_suffix_of_infix_encode h.transparent hin
    have hmem : ('<' : CodePoint) ∈ u := hsuffix.subset List.mem_cons_self
    have hbare : ¬ Quoted.isBareKey u = true := fun hbare => Quoted.notMem_of_isBareKey hbare hmem
    rwa [Quoted.encodeKey, if_neg hbare]
  | _ => cases hu

end Piece

namespace Text

variable {name unit : Text}

theorem IsTagName.notMem_of_isBlank (h : IsTagName name) {c : CodePoint} (hc : c.isBlank = true) :
    c ∉ name.tag := by
  have hsolid : ∀ d ∈ name.tag, 33 ≤ d.val ∧ d.val ≤ 122 :=
    List.forall_mem_cons.mpr ⟨by decide, fun d hd => ⟨(h.solid d hd).1, (h.solid d hd).2.1⟩⟩
  intro hmem
  have hval := hsolid c hmem
  simp only [CodePoint.isBlank, Bool.or_eq_true, Bool.and_eq_true, decide_eq_true_eq] at hc
  omega

theorem IsTagName.lineFeed_notMem (h : IsTagName name) :
    CodePoint.lineFeed ∉ name.tag := h.notMem_of_isBlank (by decide)

theorem infix_iff_exists_line (h : IsTagName name) {t : Text} :
    name.tag <:+: t ↔ ∃ part ∈ t.lines, name.tag <:+: part := by
  rw [← infix_intercalate_iff (List.cons_ne_nil _ _) h.lineFeed_notMem, lines,
    List.intercalate_splitOn]

theorem exists_trimRight_append (t : Text) :
    ∃ blanks : Text, t = t.trimRight ++ blanks ∧ blanks.isBlank = true := by
  refine ⟨(t.reverse.takeWhile CodePoint.isBlank).reverse, ?_, ?_⟩
  · rw [trimRight, ← List.reverse_append, List.takeWhile_append_dropWhile, List.reverse_reverse]
  · rw [isBlank, List.all_reverse]
    exact List.all_takeWhile

theorem infix_trimRight_iff (h : IsTagName name) (t : Text) :
    name.tag <:+: t.trimRight ↔ name.tag <:+: t := by
  obtain ⟨blanks, ht, hblanks⟩ := t.exists_trimRight_append
  constructor
  · intro hin
    rw [ht]
    exact hin.trans (List.prefix_append _ _).isInfix
  · intro hin
    cases blanks with
    | nil => rwa [ht, List.append_nil] at hin
    | cons x blanks =>
      rw [isBlank, List.all_cons, Bool.and_eq_true] at hblanks
      rw [ht] at hin
      refine (infix_of_infix_append_cons (h.notMem_of_isBlank hblanks.1) hin).resolve_right ?_
      exact fun hin => bracket_notMem_of_isBlank hblanks.2 (hin.subset List.mem_cons_self)

end Text

namespace Writer

variable {name unit : Text}

/-- Neither the margin nor trimming changes the tags of a line. -/
theorem infix_layout_iff (h : Text.IsTagName name) (hunit : unit.isBlank = true) (depth : Int)
    (part : Text) : name.tag <:+: layout unit depth part ↔ name.tag <:+: part := by
  rw [← Text.infix_trimRight_iff h part, layout]
  split
  · next hempty => rw [List.isEmpty_iff.mp hempty]
  · constructor
    · refine Quoted.infix_of_infix_append fun hmem => ?_
      exact Text.bracket_notMem_of_isBlank hunit (Text.mem_of_mem_repeated hmem)
    · exact fun hin => hin.trans (List.suffix_append _ _).isInfix

theorem infix_text_iff (h : Text.IsTagName name) (w : Writer) :
    name.tag <:+: w.text ↔ ∃ l ∈ w.lines, name.tag <:+: l := by
  rw [← infix_intercalate_iff (List.cons_ne_nil _ _) h.lineFeed_notMem, text, Text.join]
  constructor
  · intro hin
    rcases infix_of_infix_append_cons h.lineFeed_notMem hin with hin | hin
    · exact hin
    · exact absurd (List.infix_nil.mp hin) (List.cons_ne_nil _ _)
  · intro hin
    exact hin.trans (List.prefix_append _ _).isInfix

end Writer

namespace Act

/-- The texts that an act writes as literals. -/
def recorded : Act → List Text
  | line pieces => pieces.filterMap Piece.recorded?
  | _ => []

/-- An act whose pieces are guarded, if it writes a line. -/
def IsGuarded : Act → Prop
  | line pieces => ∀ p ∈ pieces, p.IsGuarded
  | _ => True

variable {name unit : Text} {acts : List Act}

/-- A tag stands in a line that tidy acts write exactly if it stands in a literal. -/
theorem infix_written_iff (h : Text.IsTagName name) (hunit : unit.isBlank = true)
    (htidy : AllTidy acts) (hguarded : ∀ a ∈ acts, a.IsGuarded)
    (hacts : ∀ a ∈ acts, a.Completes) (depth : Int) (size : Nat) :
    (∃ l ∈ written unit depth size acts, name.tag <:+: l) ↔
      ∃ u ∈ acts.flatMap recorded, name.tag <:+: Quoted.encode u := by
  constructor
  · rintro ⟨l, hl, hin⟩
    obtain ⟨pieces, size', t, depth', part, hmem, ht, hpart, rfl⟩ :=
      exists_layout_of_mem_written hl
    rw [Writer.infix_layout_iff h hunit] at hin
    obtain ⟨p, hp, u, hu, hencode⟩ := Piece.exists_recorded_of_infix h hunit (htidy _ hmem)
      (hguarded _ hmem) ht ((Text.infix_iff_exists_line h).mpr ⟨part, hpart, hin⟩)
    exact ⟨u, List.mem_flatMap.mpr ⟨_, hmem, List.mem_filterMap.mpr ⟨p, hp, hu⟩⟩, hencode⟩
  · rintro ⟨u, hu, hencode⟩
    obtain ⟨a, ha, hua⟩ := List.mem_flatMap.mp hu
    cases a with
    | line pieces =>
      obtain ⟨p, hp, hrecorded⟩ := List.mem_filterMap.mp hua
      obtain ⟨size', t, depth', ht, hlines⟩ :=
        exists_written_of_mem ha (hacts _ ha) unit depth size
      have hin := Piece.infix_of_recorded h hp hrecorded hencode ht
      obtain ⟨part, hpart, hin⟩ := (Text.infix_iff_exists_line h).mp hin
      exact ⟨_, hlines part hpart, (Writer.infix_layout_iff h hunit depth' part).mpr hin⟩
    | _ => exact absurd hua List.not_mem_nil

theorem isGuarded_of_scanAll {due due' : List CodePoint} (h : scanAll due acts = some due') :
    ∀ a ∈ acts, a.IsGuarded := by
  induction acts generalizing due with
  | nil => exact List.forall_mem_nil _
  | cons a acts ih =>
    obtain ⟨mid, ha, hrest⟩ := Option.bind_eq_some_iff.mp h
    refine List.forall_mem_cons.mpr ⟨?_, ih hrest⟩
    cases a with
    | line pieces =>
      obtain ⟨st, hscan, -⟩ := Option.bind_eq_some_iff.mp ha
      exact Piece.isGuarded_of_scanAll hscan
    | _ => trivial

end Act

namespace Template
open Act

variable {t : Template} {r : Recording} {name unit script : Text} {s' : Session}

/-- A tag stands in a script exactly if it stands in a literal: the comment holds none. -/
theorem infix_script_iff (h : Text.IsTagName name) (hunit : unit.isBlank = true)
    (htidy : t.IsTidy r) (hguarded : ∀ a ∈ t.recordingActs r, a.IsGuarded)
    (hrun : t.renderRecording r (.start unit) = .ok script s') :
    name.tag <:+: script ↔ ∃ u ∈ (t.recordingActs r).flatMap recorded,
      name.tag <:+: Quoted.encode u := by
  obtain ⟨-, rfl⟩ := writer_of_renderRecording hrun
  rw [Writer.infix_text_iff h, writer_lines_of_renderRecording hrun,
    ← infix_written_iff h hunit htidy.recordingActs hguarded (completes_of_renderRecording hrun) 0 0]
  have hcomment (depth : Int) (ns : List Nat) : ¬ name.tag <:+:
      unit.repeated depth.toNat ++ (SourceMap.marker ++ ns.flatMap SourceMap.encodeNat) := by
    have hsymbols : ∀ b < 64, SourceMap.symbol b ≠ ('<' : CodePoint) := by decide
    intro hin
    have hmem : ('<' : CodePoint) ∈ _ := hin.subset List.mem_cons_self
    rw [List.mem_append, List.mem_append] at hmem
    rcases hmem with hmem | hmem | hmem
    · exact Text.bracket_notMem_of_isBlank hunit (Text.mem_of_mem_repeated hmem)
    · exact absurd hmem (by decide)
    · obtain ⟨n, -, hmem⟩ := List.mem_flatMap.mp hmem
      obtain ⟨b, hb, hsymbol⟩ := SourceMap.exists_symbol_of_mem_encodeNat hmem
      exact hsymbols b hb hsymbol.symm
  simp only [List.mem_append, List.mem_singleton, or_and_right, exists_or, exists_eq_left,
    Session.start]
  exact or_iff_left (hcomment _ _)

end Template

end FlowScript
