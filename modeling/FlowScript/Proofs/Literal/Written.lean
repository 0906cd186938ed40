import FlowScript.Proofs.Literal.Image
import FlowScript.Proofs.Literal.Quoted
import FlowScript.Proofs.Text.Lines

/-!
# Values written and read back

A value written as a literal is read as the same value, with the same nesting, order, scalars and
keys, except where a key is lost: a line feed behind a bare key is white space to a script, and a
key in backticks is no key at all.
-/
namespace FlowScript

namespace Quoted

/-- What a script takes for the key that a text is written as. -/
def keyUnits? (t : Text) : Option (List Nat) :=
  if isBareKey t then some (Text.units (t.span isNamePart).1)
  else if quoteFor t = .backtick then none
  else some t.units

/-- A text that is either a name and nothing else, or no name and quoted like any string. -/
def IsKeptKey (t : Text) : Prop :=
  if isBareKey t then CodePoint.lineFeed ∉ t else quoteFor t ≠ .backtick

instance (t : Text) : Decidable (IsKeptKey t) :=
  inferInstanceAs (Decidable (if isBareKey t then _ else _))

section
variable {name tail : Text} (hname : ∀ d ∈ name, isNamePart d = true)
  (htail : tail = [] ∨ tail = [CodePoint.lineFeed])
include hname htail

/-- The name at the start of a bare key ends where the line feed or the next token stands. -/
theorem span_name {t : Text} (ht : ∀ d ∈ t.head?, isNamePart d = false) :
    (name ++ (tail ++ t)).span isNamePart = (name, tail ++ t) := by
  apply Text.span_append hname
  rcases htail with rfl | rfl
  · exact ht
  · rintro d ⟨⟩
    rfl

theorem span_bareKey : ((name ++ tail).span isNamePart).1 = name := by
  have hspan := span_name hname htail (t := []) nofun
  rw [List.append_nil] at hspan
  rw [hspan]

end

theorem keyUnits?_eq_iff (t : Text) : keyUnits? t = some t.units ↔ IsKeptKey t := by
  rw [keyUnits?, IsKeptKey]
  split
  · next h =>
    obtain ⟨c, s, tail, rfl, -, hname, htail⟩ := isBareKey_cases h
    rw [span_bareKey hname htail]
    rcases htail with rfl | rfl
    · rw [List.append_nil]
      exact iff_of_true rfl fun hmem => absurd (hname _ hmem) (by decide)
    · refine iff_of_false (fun hunits => ?_) (by simp)
      simp [Text.units, CodePoint.units, CodePoint.lineFeed] at hunits
  · split <;> simp_all

end Quoted

namespace Piece

variable {unit : Text} {size : Nat}

theorem textAll_cons {p : Piece} {ps : List Piece} {s t : Text}
    (hp : p.text unit size = .ok s) (hps : textAll unit size ps = .ok t) :
    textAll unit size (p :: ps) = .ok (s ++ t) :=
  textAll_cons_eq_ok_iff.mpr ⟨s, t, hp, hps, rfl⟩

theorem textAll_singleton {p : Piece} {s : Text} (hp : p.text unit size = .ok s) :
    textAll unit size [p] = .ok s := by
  rw [textAll_cons hp rfl, List.append_nil]

theorem textAll_append {ps qs : List Piece} {s t : Text}
    (hps : textAll unit size ps = .ok s) (hqs : textAll unit size qs = .ok t) :
    textAll unit size (ps ++ qs) = .ok (s ++ t) := by
  induction ps generalizing s with
  | nil =>
    cases hps
    exact hqs
  | cons p ps ih =>
    obtain ⟨first, rest, hp, hrest, rfl⟩ := textAll_cons_eq_ok_iff.mp hps
    rw [List.append_assoc]
    exact textAll_cons hp (ih hrest)

/-- Entries on lines of their own, a comma behind each but the last. -/
def separated (level : Nat) : List (List Piece) → List Piece
  | [] => []
  | [e] => indent level :: e ++ [lineBreak]
  | e :: f :: es => indent level :: e ++ code "," :: lineBreak :: separated level (f :: es)

/-- A member of an object literal. -/
def member (level : Nat) (m : Text × Json) : List Piece :=
  key m.1 :: code ": " :: literal level m.2

theorem literalItems_eq (level : Nat) (xs : List Json) :
    literalItems level xs = separated (level + 1) (xs.map (literal (level + 1))) := by
  induction xs with
  | nil => rfl
  | cons x xs ih =>
    cases xs with
    | nil => rfl
    | cons y xs => simp [literalItems, separated, ih]

theorem literalMembers_eq (level : Nat) (ms : List (Text × Json)) :
    literalMembers level ms = separated (level + 1) (ms.map (member (level + 1))) := by
  induction ms with
  | nil => rfl
  | cons m ms ih =>
    cases ms with
    | nil => rfl
    | cons n ms => simp [literalMembers, separated, member, ih]

end Piece

namespace Literal
open Piece (textAll_cons textAll_singleton textAll_append)
open Quoted (isNameStart isNamePart keyUnits?)

variable {α β : Type} {unit : Text} {size : Nat}

/-- A text that neither a name nor a numeral goes on with. -/
def IsDelimited (t : Text) : Prop :=
  ∀ c ∈ t.head?, isNamePart c = false ∧ c.isNumeralPart = false

/-- A code point that elements may start with: it is not passed over and closes nothing. -/
def IsOpening (c : CodePoint) : Prop := c.isGap = false ∧ c.val ≠ 93 ∧ c.val ≠ 125

/-- Pieces with the text `s`, which is read as `seen`, or not at all, in front of anything. -/
structure IsWritten (unit : Text) (size : Nat) (pieces : List Piece)
    (read : Nat → Text → Option (α × Text)) (seen : Option α) (s : Text) : Prop where
  text : Piece.textAll unit size pieces = .ok s
  opens : ∃ c t, s = c :: t ∧ IsOpening c
  reads : ∀ n rest, s.length ≤ n → IsDelimited rest →
    read n (s ++ rest) = seen.map fun x => (x, rest)

section
variable {close : CodePoint} (hclose : close.val = 93 ∨ close.val = 125)
  {element : Text → Option (α × Text)} {pad s t rest : Text} {seen : Option α}
  (hpad : ∀ c ∈ pad, c.isGap = true) (hopens : ∃ c u, s = c :: u ∧ IsOpening c)
  (helement : element (s ++ t) = seen.map fun x => (x, t))
include hclose hpad hopens helement

/-- The last element of a list. -/
theorem readElements_last (ht : skipGap t = close :: rest) (fuel : Nat) :
    readElements close element (fuel + 1) (pad ++ (s ++ t)) =
      seen.map fun x => ([x], rest) := by
  obtain ⟨c, u, rfl, hgap, hbracket, hbrace⟩ := hopens
  have hne : c ≠ close := by
    rintro rfl
    omega
  rw [readElements, skipGap_append hpad, List.cons_append, skipGap_cons hgap]
  simp only [if_neg hne]
  rw [← List.cons_append, helement]
  cases seen with
  | none => rfl
  | some x => simp [ht]

/-- An element with a comma behind it. -/
theorem readElements_next (ht : skipGap t = (',' : CodePoint) :: rest) (fuel : Nat) :
    readElements close element (fuel + 1) (pad ++ (s ++ t)) =
      seen.bind fun x =>
        (readElements close element fuel rest).map fun (xs, u) => (x :: xs, u) := by
  obtain ⟨c, u, rfl, hgap, hbracket, hbrace⟩ := hopens
  have hne : c ≠ close := by
    rintro rfl
    omega
  have hcomma : (',' : CodePoint) ≠ close := by
    rintro rfl
    exact absurd hclose (by decide)
  rw [readElements, skipGap_append hpad, List.cons_append, skipGap_cons hgap]
  simp only [if_neg hne]
  rw [← List.cons_append, helement]
  cases seen with
  | none => rfl
  | some x =>
    simp only [Option.map_some, Option.bind_some, Option.bind_eq_bind, ht, if_neg hcomma]
    exact if_pos rfl

end

theorem repeated_isGap (hunit : ∀ c ∈ unit, c.isGap = true) (level : Nat) :
    ∀ c ∈ unit.repeated level, c.isGap = true := fun c hc => hunit c (Text.mem_of_mem_repeated hc)

/-- Written entries make a written list. -/
theorem separated_isWritten (hunit : ∀ c ∈ unit, c.isGap = true) {close : CodePoint}
    (hclose : close.val = 93 ∨ close.val = 125) {pieces : β → List Piece} {seen : β → Option α}
    {read : Nat → Text → Option (α × Text)} (level : Nat) {xs : List β}
    (h : ∀ x ∈ xs, ∃ s, IsWritten unit size (pieces x) read (seen x) s) :
    ∃ s, Piece.textAll unit size (Piece.separated level (xs.map pieces)) = .ok s ∧
      ∀ n fuel t rest, s.length ≤ n → s.length < fuel → skipGap t = close :: rest →
        readElements close (read n) fuel (s ++ t) =
          (xs.mapM seen).map fun xs => (xs, rest) := by
  have hpad := repeated_isGap hunit level
  have hfeed (t : Text) : skipGap ([CodePoint.lineFeed] ++ t) = skipGap t :=
    skipGap_append (by decide) t
  -- Every entry takes a step of the list and at least its line feed, so the text's length is enough
  -- fuel for the list as well as for the depth of its entries.
  induction xs with
  | nil =>
    refine ⟨[], rfl, fun n fuel t rest _ hfuel ht => ?_⟩
    obtain ⟨fuel, rfl⟩ := Nat.exists_eq_succ_of_ne_zero (Nat.ne_of_gt hfuel)
    exact readElements_close ht fuel
  | cons x xs ih =>
    obtain ⟨⟨s, hs⟩, hxs⟩ := List.forall_mem_cons.mp h
    cases xs with
    | nil =>
      refine ⟨unit.repeated level ++ (s ++ [CodePoint.lineFeed]),
        textAll_cons rfl (textAll_append hs.text rfl), fun n fuel t rest hn hfuel ht => ?_⟩
      simp only [List.length_append, List.length_singleton] at hn hfuel
      obtain ⟨fuel, rfl⟩ := Nat.exists_eq_succ_of_ne_zero (Nat.ne_of_gt (Nat.zero_lt_of_lt hfuel))
      have hread := hs.reads n ([CodePoint.lineFeed] ++ t) (by omega) (by rintro c ⟨⟩; decide)
      rw [List.append_assoc, List.append_assoc,
        readElements_last hclose hpad hs.opens hread ((hfeed t).trans ht)]
      cases hx : seen x <;> simp [hx]
    | cons y xs =>
      obtain ⟨u, hu, hrest⟩ := ih hxs
      have hbehind := textAll_cons (p := .code ",") (s := [(',' : CodePoint)]) rfl
        (textAll_cons (p := .lineBreak) (s := [CodePoint.lineFeed]) rfl hu)
      refine ⟨unit.repeated level ++ (s ++ ((',' : CodePoint) :: ([CodePoint.lineFeed] ++ u))),
        textAll_cons rfl (textAll_append hs.text hbehind),
        fun n fuel t rest hn hfuel ht => ?_⟩
      simp only [List.length_append, List.length_cons] at hn hfuel
      obtain ⟨fuel, rfl⟩ := Nat.exists_eq_succ_of_ne_zero (Nat.ne_of_gt (Nat.zero_lt_of_lt hfuel))
      have hread := hs.reads n ((',' : CodePoint) :: ([CodePoint.lineFeed] ++ u) ++ t) (by omega)
        (by rintro c ⟨⟩; decide)
      have hcomma : skipGap ((',' : CodePoint) :: ([CodePoint.lineFeed] ++ u) ++ t) =
          (',' : CodePoint) :: ([CodePoint.lineFeed] ++ (u ++ t)) := skipGap_cons (by decide)
      have hall : (x :: y :: xs).mapM seen = (seen x).bind fun z =>
          ((y :: xs).mapM seen).bind fun zs => some (z :: zs) := List.mapM_cons
      rw [List.append_assoc, List.append_assoc,
        readElements_next hclose hpad hs.opens hread hcomma, readElements_append (by decide),
        hrest n fuel t rest (by omega) (by omega) ht, hall]
      cases seen x with
      | none => rfl
      | some z => cases (y :: xs).mapM seen <;> rfl

/-- Written elements in brackets make a written array or object. -/
theorem brackets_isWritten (hunit : ∀ c ∈ unit, c.isGap = true) {opening close : CodePoint}
    (hopening : IsOpening opening) (hclose : close.val = 93 ∨ close.val = 125)
    {before behind : String} (hbefore : (before : Text) = [opening])
    (hbehind : (behind : Text) = [close]) {pieces : β → List Piece} {seen : β → Option α}
    {read : Nat → Text → Option (α × Text)} {collect : List α → Value}
    (hread : ∀ n t, readValue (n + 1) (opening :: t) =
      (readElements close (read n) t.length t).map fun (xs, t) => (collect xs, t))
    (level : Nat) {xs : List β}
    (h : ∀ x ∈ xs, ∃ s, IsWritten unit size (pieces x) read (seen x) s) :
    ∃ s, IsWritten unit size (.code before :: .lineBreak ::
        Piece.separated (level + 1) (xs.map pieces) ++ [.indent level, .code behind])
      readValue ((xs.mapM seen).map collect) s := by
  obtain ⟨u, hu, hreads⟩ := separated_isWritten hunit hclose (level + 1) h
  have hpad := repeated_isGap hunit level
  refine ⟨opening :: ([CodePoint.lineFeed] ++ (u ++ (unit.repeated level ++ [close]))), ?_,
    ⟨_, _, rfl, hopening⟩, fun n rest hn _ => ?_⟩
  · have hend : Piece.textAll unit size [.indent level, .code behind] =
        .ok (unit.repeated level ++ [close]) :=
      textAll_cons rfl (textAll_singleton (p := .code behind) (congrArg Except.ok hbehind))
    exact textAll_cons (p := .code before) (congrArg Except.ok hbefore)
      (textAll_cons (s := [CodePoint.lineFeed]) rfl (textAll_append hu hend))
  · simp only [List.length_cons, List.length_append, List.length_nil] at hn
    obtain ⟨n, rfl⟩ := Nat.exists_eq_succ_of_ne_zero (Nat.ne_of_gt (Nat.zero_lt_of_lt hn))
    have hfuel (t : Text) : u.length < ([CodePoint.lineFeed] ++ (u ++ t)).length := by
      simp only [List.length_cons, List.length_append, List.length_nil]
      omega
    have hend : skipGap (unit.repeated level ++ ([close] ++ rest)) = close :: rest := by
      rw [skipGap_append hpad]
      exact skipGap_cons (isGap_of_lt (by omega))
    rw [List.cons_append, hread, List.append_assoc, readElements_append (by decide),
      List.append_assoc, List.append_assoc, hreads n _ _ rest (by omega) (hfuel _) hend]
    cases xs.mapM seen <;> rfl

/-- One of the names that are values. -/
theorem word_isWritten {w : String} {v : Value}
    (hword : (words.find? fun x => x.1 = (w : Text)).map Prod.snd = some v)
    (hname : ∀ c ∈ (w : Text), isNamePart c = true)
    (hstart : ∃ c t, (w : Text) = c :: t ∧ isNameStart c = true) :
    IsWritten unit size [.code w] readValue (some v) w := by
  obtain ⟨c, t, hw, hc⟩ := hstart
  have hrange : 32 < c.val ∧ c.val ≠ 91 ∧ c.val ≠ 93 ∧ c.val < 123 := by
    simp only [isNameStart, Bool.or_eq_true, Bool.and_eq_true, decide_eq_true_eq] at hc
    omega
  refine ⟨textAll_singleton rfl,
    ⟨c, t, hw, isGap_of_lt (by omega), by omega⟩, fun n rest hn hrest => ?_⟩
  have hspan := Text.span_append hname fun d hd => (hrest d hd).1
  rw [hw] at hn
  rw [hw, List.cons_append, readValue_scalar (by omega) (Nat.zero_lt_of_lt hn), readScalar,
    if_pos hc, ← List.cons_append, ← hw, readWord, hspan, ← hword, Option.map_map]
  rfl

/-- A number whose numeral is scanned as a number of the same value. -/
theorem number_isWritten {n m : Number} (hscan : Json.scanNumber n.numeral = some (.num m, []))
    (hvalue : m.value = n.value) :
    IsWritten unit size [.number n] readValue (some (.number n.value)) n.numeral := by
  obtain ⟨c, t, hcons, hc⟩ := Json.head_of_scanNumber hscan
  have hrange : c.val = 45 ∨ 48 ≤ c.val ∧ c.val ≤ 57 := by
    simpa [CodePoint.isDigit] using hc
  have hname : isNameStart c = false := by
    simp only [isNameStart, Bool.or_eq_false_iff, Bool.and_eq_false_iff, decide_eq_false_iff_not]
    omega
  have hpart : c.isNumeralPart = true :=
    n.isNumeralText_numeral c (hcons ▸ List.mem_cons_self)
  refine ⟨textAll_singleton rfl,
    ⟨c, t, hcons, isGap_of_lt (by omega), by omega⟩, fun k rest hk hrest => ?_⟩
  have hspan := Text.span_append n.isNumeralText_numeral fun d hd => (hrest d hd).2
  rw [hcons] at hk
  rw [hcons, List.cons_append, readValue_scalar (by omega) (Nat.zero_lt_of_lt hk), readScalar,
    if_neg (by simp [hname]), if_pos hpart, ← List.cons_append, ← hcons, readNumeral, hspan]
  simp only [hscan, hvalue]
  rfl

theorem read_encode_append (t rest : Text) :
    read (Quoted.encode t ++ rest) = some (t.units, rest) := by
  rw [Quoted.encode, List.cons_append, List.cons_append, List.append_assoc, read_quote]
  exact Quoted.readFrom_escapeAll (Quoted.quoteFor_fits t) rest

theorem encode_eq_cons (t : Text) : ∃ s, Quoted.encode t = (Quoted.quoteFor t).codePoint :: s :=
  ⟨_, rfl⟩

/-- A string literal, or a template literal. -/
theorem quoted_isWritten (t : Text) :
    IsWritten unit size [.quoted t] readValue (some (.text t.units)) (Quoted.encode t) := by
  have hquote (q : Quoted.Quote) : (isNameStart q.codePoint = false ∧
      q.codePoint.isNumeralPart = false) ∧ (32 < q.codePoint.val ∧ q.codePoint.val < 127) ∧
      q.codePoint.val ≠ 91 ∧ q.codePoint.val ≠ 93 ∧ q.codePoint.val ≠ 123 ∧
      q.codePoint.val ≠ 125 := by cases q <;> decide
  obtain ⟨hscalar, hgap, hvals⟩ := hquote (Quoted.quoteFor t)
  obtain ⟨s, hcons⟩ := encode_eq_cons t
  refine ⟨textAll_singleton rfl, ⟨_, s, hcons, isGap_of_lt hgap, by omega⟩,
    fun n rest hn hrest => ?_⟩
  rw [hcons] at hn
  rw [hcons, List.cons_append, readValue_scalar (by omega) (Nat.zero_lt_of_lt hn), readScalar,
    if_neg (by simp [hscalar]), if_neg (by simp [hscalar]), ← List.cons_append, ← hcons,
    read_encode_append]
  rfl

/-- A key is read as a script sees it. What is left may have white space before what follows. -/
theorem readKey_encodeKey (k : Text) {t : Text} (ht : ∀ c ∈ t.head?, isNamePart c = false) :
    ∃ u, readKey (Quoted.encodeKey k ++ t) = (keyUnits? k).map (fun units => (units, u)) ∧
      skipGap u = skipGap t := by
  rw [Quoted.encodeKey, keyUnits?]
  split
  · next h =>
    obtain ⟨c, s, tail, rfl, hc, hname, htail⟩ := Quoted.isBareKey_cases h
    refine ⟨tail ++ t, ?_, skipGap_append (by rcases htail with rfl | rfl <;> decide) t⟩
    rw [Quoted.span_bareKey hname htail, List.append_assoc, List.cons_append, readKey, if_pos hc,
      ← List.cons_append, Quoted.span_name hname htail ht]
    rfl
  · have hquote (q : Quoted.Quote) : isNameStart q.codePoint = false := by cases q <;> rfl
    have hbacktick : (Quoted.quoteFor k).codePoint = Quoted.Quote.backtick.codePoint ↔
        Quoted.quoteFor k = .backtick := by cases Quoted.quoteFor k <;> decide
    obtain ⟨s, hcons⟩ := encode_eq_cons k
    refine ⟨t, ?_, rfl⟩
    rw [hcons, List.cons_append, readKey, if_neg (by simp [hquote]), ← List.cons_append, ← hcons,
      read_encode_append]
    simp only [hbacktick]
    split <;> rfl

theorem isOpening_quote (q : Quoted.Quote) : IsOpening q.codePoint := by
  cases q <;> (unfold IsOpening; decide)

theorem isOpening_of_isNameStart {c : CodePoint} (h : isNameStart c = true) : IsOpening c := by
  simp only [isNameStart, Bool.or_eq_true, Bool.and_eq_true, decide_eq_true_eq] at h
  exact ⟨isGap_of_lt (by omega), by omega⟩

/-- A key of either kind starts with a name or with a quote. -/
theorem isOpening_encodeKey (t : Text) : ∃ c s, Quoted.encodeKey t = c :: s ∧ IsOpening c := by
  rw [Quoted.encodeKey]
  split
  · next h =>
    obtain ⟨c, s, tail, rfl, hc, -⟩ := Quoted.isBareKey_cases h
    exact ⟨c, s ++ tail, rfl, isOpening_of_isNameStart hc⟩
  · exact ⟨_, _, rfl, isOpening_quote _⟩

theorem member_isWritten (level : Nat) (m : Text × Json) {s : Text}
    (h : IsWritten unit size (Piece.literal level m.2) readValue (Value.ofJson keyUnits? m.2) s) :
    ∃ s, IsWritten unit size (Piece.member level m) (fun n => readMember (readValue n))
      (Value.ofMember keyUnits? m) s := by
  obtain ⟨c, u, hcons, hc⟩ := isOpening_encodeKey m.1
  obtain ⟨d, v, hd, hgap, -⟩ := h.opens
  refine ⟨Quoted.encodeKey m.1 ++ ((':' : CodePoint) :: ([CodePoint.space] ++ s)),
    textAll_cons rfl
      (textAll_cons (p := .code ": ") (s := [(':' : CodePoint), CodePoint.space]) rfl h.text),
    ⟨c, _, by rw [hcons, List.cons_append], hc⟩, fun n rest hn hrest => ?_⟩
  simp only [List.length_append, List.length_cons] at hn
  obtain ⟨w, hkey, hw⟩ := readKey_encodeKey m.1
    (t := (':' : CodePoint) :: ([CodePoint.space] ++ s) ++ rest) (by rintro c ⟨⟩; rfl)
  have hcolon : skipGap w = (':' : CodePoint) :: ([CodePoint.space] ++ (s ++ rest)) :=
    hw.trans (skipGap_cons (by decide))
  have hvalue : skipGap ([CodePoint.space] ++ (s ++ rest)) = s ++ rest := by
    rw [skipGap_append (by decide), hd, List.cons_append, skipGap_cons hgap]
  have hval : (':' : CodePoint).val = 58 := rfl
  rw [List.append_assoc, readMember, hkey, Value.ofMember]
  cases keyUnits? m.1 with
  | none => rfl
  | some k =>
    -- A line feed left of the key is passed over like any other white space before the colon.
    simp only [Option.map_some, Option.bind_eq_bind, Option.bind_some, hcolon, hvalue]
    rw [if_pos hval, h.reads n rest (by omega) hrest]
    cases Value.ofJson keyUnits? m.2 <;> rfl

end Literal

/-- The text of a double is scanned as that double. -/
def Double.IsReadBack (d : Double) : Prop := Json.scanNumber d.text = some (.num (.double d), [])

/-- The double that equals 1/2. -/
def Double.half : Double := ⟨false, 0x10000000000000, -53, by decide⟩

theorem Double.isReadBack_half : half.IsReadBack := by
  have htext : half.text = ("0.5" : Text) := by decide +kernel
  have hhalf : ofDecimal? false 5 (-1) = some half := by decide
  have hscan : Json.scanNumber "0.5" = some ((ofDecimal? false 5 (-1)).elim
      (.nonFinite (.infinity false)) fun d => .num (.double d), []) := rfl
  rw [IsReadBack, htext, hscan, hhalf, Option.elim_some]

/-- Only the numerals of doubles that are no integers depend on how doubles are written. -/
theorem Number.exists_scanNumber_numeral {n : Number}
    (h : ∀ d, n = .double d → n.toInt? = none → d.IsReadBack) :
    ∃ m, Json.scanNumber n.numeral = some (.num m, []) ∧ m.value = n.value := by
  rw [numeral]
  cases hk : n.toInt? with
  | some k =>
    refine ⟨.int k, Json.scanNumber_intText k, ?_⟩
    rw [toInt?] at hk
    split at hk
    · next hden =>
      rw [← Option.some.inj hk, value, ← hden, Rat.mkRat_self]
    · cases hk
  | none =>
    cases n with
    | int k => simp [toInt?, value, Rat.mkRat_one] at hk
    | double d => exact ⟨.double d, h d rfl hk, rfl⟩

/-- The doubles in a value that are no integers are read back from their texts. -/
def Json.HasReadableDoubles (v : Json) : Prop :=
  ∀ d, num (.double d) ∈ v.subvalues → (Number.double d).toInt? = none → d.IsReadBack

namespace Literal
open Quoted (keyUnits?)

variable {unit : Text} (hunit : ∀ c ∈ unit, c.isGap = true) (size : Nat)
include hunit

/-- A finite value is written, and read as a script sees it. -/
theorem literal_isWritten {v : Json} (hfinite : v.IsFinite) (hdoubles : v.HasReadableDoubles)
    (level : Nat) :
    ∃ s, IsWritten unit size (Piece.literal level v) readValue (Value.ofJson keyUnits? v) s := by
  have hbracket : IsOpening '[' := ⟨rfl, by decide⟩
  have hbrace : IsOpening '\x7b' := ⟨rfl, by decide⟩
  have hcases : Json.Cases fun v => v.IsFinite → v.HasReadableDoubles → ∀ level,
      ∃ s, IsWritten unit size (Piece.literal level v) readValue
        (Value.ofJson keyUnits? v) s := {
    null := fun _ _ _ => ⟨_, word_isWritten rfl (by decide) ⟨_, _, rfl, rfl⟩⟩
    bool := fun b _ _ _ => by
      cases b with
      | false => exact ⟨_, word_isWritten rfl (by decide) ⟨_, _, rfl, rfl⟩⟩
      | true => exact ⟨_, word_isWritten rfl (by decide) ⟨_, _, rfl, rfl⟩⟩
    num := fun n _ hdoubles _ => by
      obtain ⟨m, hscan, hvalue⟩ := Number.exists_scanNumber_numeral (n := n) fun d hd hint =>
        hdoubles d (hd ▸ Json.self_mem_subvalues _) (hd ▸ hint)
      exact ⟨_, number_isWritten hscan hvalue⟩
    nonFinite := fun x hfinite => absurd (Json.self_mem_subvalues _) (hfinite x)
    str := fun t _ _ _ => ⟨_, quoted_isWritten t⟩
    arr := fun xs ih hfinite hdoubles level => by
      rw [Piece.literal, Piece.literalItems_eq, Value.ofJson_arr]
      refine brackets_isWritten hunit hbracket (.inl rfl) rfl rfl (fun _ _ => rfl) level
        fun x hx => ih x hx (hfinite.item hx) ?_ (level + 1)
      exact fun d hd => hdoubles d (Json.subvalues_subset_arr hx hd)
    obj := fun ms ih hfinite hdoubles level => by
      rw [Piece.literal, Piece.literalMembers_eq, Value.ofJson_obj]
      refine brackets_isWritten hunit hbrace (.inr rfl) rfl rfl (fun _ _ => rfl) level
        fun m hm => ?_
      obtain ⟨s, hs⟩ := ih m hm (hfinite.member hm)
        (fun d hd => hdoubles d (Json.subvalues_subset_obj hm hd)) (level + 1)
      exact member_isWritten (level + 1) m hs }
  exact hcases.value v hfinite hdoubles level

end Literal

open Literal in
/-- What is written as a value is read as it is seen. -/
theorem Literal.IsWritten.read {unit : Text} {size : Nat} {pieces : List Piece}
    {seen : Option Value} {s : Text} (h : IsWritten unit size pieces readValue seen s) :
    Value.read s = seen := by
  obtain ⟨c, t, hcons, hgap, -⟩ := h.opens
  have hreads := h.reads s.length [] (Nat.le_refl _) nofun
  have hskip : skipGap s = s := by rw [hcons, skipGap_cons hgap]
  rw [List.append_nil] at hreads
  rw [Value.read, hskip, hreads]
  cases seen <;> rfl

/-- A finite value has a text, from which it is read back as a script sees it. -/
theorem Value.exists_read {unit : Text} (hunit : ∀ c ∈ unit, c.isGap = true) (size : Nat)
    {v : Json} (hfinite : v.IsFinite) (hdoubles : v.HasReadableDoubles) :
    ∃ t, Piece.textAll unit size (Piece.value v) = .ok t ∧
      Value.read t = Value.ofJson Quoted.keyUnits? v := by
  obtain ⟨s, hs⟩ := Literal.literal_isWritten hunit size hfinite hdoubles 0
  exact ⟨s, hs.text, hs.read⟩

/-- A finite value that is printed with blanks for indentation is read back as a script sees it,
with the same nesting, order and scalars. It is read back as itself if no key in it is lost, and
only then. -/
theorem Value.read_printed {unit : Text} (hunit : ∀ c ∈ unit, c.isGap = true) (size : Nat)
    {v : Json} (hfinite : v.IsFinite) (hdoubles : v.HasReadableDoubles) :
    ∃ t, Piece.textAll unit size (Piece.value v) = .ok t ∧
      Value.read t = Value.ofJson Quoted.keyUnits? v ∧
      (Value.read t = Value.ofJson (fun k => some (Text.units k)) v ↔
        ∀ k ∈ v.keys, Quoted.IsKeptKey k) := by
  obtain ⟨t, ht, hread⟩ := Value.exists_read hunit size hfinite hdoubles
  refine ⟨t, ht, hread, ?_⟩
  rw [hread, Value.ofJson_eq_ofJson_iff (fun _ => rfl) hfinite]
  exact forall₂_congr fun k _ => Quoted.keyUnits?_eq_iff k

/-- An object with nested lists, a key that is no name, and a double that is no integer. -/
def Json.halfDelays : Json :=
  .obj [("delays", .arr [.num (.double .half), .arr [], .null]),
    ("data-id", .obj [("$", .str "it's")])]

theorem Value.read_printed_halfDelays :
    ∃ t, Piece.textAll "\t" 0 (Piece.value Json.halfDelays) = .ok t ∧
      Value.read t = Value.ofJson (fun k => some (Text.units k)) Json.halfDelays := by
  have hfinite : Json.halfDelays.IsFinite := by
    simp [Json.IsFinite, Json.halfDelays, Json.subvalues, Json.subvaluesOfItems,
      Json.subvaluesOfMembers]
  have hdoubles : Json.halfDelays.HasReadableDoubles := by
    intro d hd _
    have hhalf : d = .half := by
      simpa [Json.halfDelays, Json.subvalues, Json.subvaluesOfItems,
        Json.subvaluesOfMembers] using hd
    rw [hhalf]
    exact Double.isReadBack_half
  have htab : ∀ c ∈ ("\t" : Text), c.isGap = true := by decide
  obtain ⟨t, ht, -, hiff⟩ := Value.read_printed htab 0 hfinite hdoubles
  exact ⟨t, ht, hiff.mpr (by decide)⟩

/-- A line feed behind a name is lost: the key comes back as the name. -/
theorem Value.not_read_lineFeedKey :
    ¬ ∃ t, Piece.textAll "  " 0 (Piece.value (.obj [("a\n", .num (.int 1))])) = .ok t ∧
      Value.read t = Value.ofJson (fun k => some (Text.units k)) (.obj [("a\n", .num (.int 1))]) := by
  rintro ⟨t, ht, hread⟩
  have hblank : ∀ c ∈ ("  " : Text), c.isGap = true := by decide
  have hfinite : (Json.obj [("a\n", .num (.int 1))]).IsFinite := by
    simp [Json.IsFinite, Json.subvalues, Json.subvaluesOfMembers]
  have hdoubles : (Json.obj [("a\n", .num (.int 1))]).HasReadableDoubles := by
    intro d hd
    simp [Json.subvalues, Json.subvaluesOfMembers] at hd
  obtain ⟨u, hu, hname⟩ := Value.exists_read hblank 0 hfinite hdoubles
  have hseen : Quoted.keyUnits? "a\n" = some [97] := by decide
  have hunits : Text.units "a\n" = [97, 10] := by decide
  cases ht.symm.trans hu
  rw [hname] at hread
  simp [Value.ofJson, Value.ofMembers, hseen, hunits] at hread

-- A key with both plain quotes stands in backticks, and no object can be read with it.
example : Quoted.keyUnits? "it's \"on\"" = none := by decide

end FlowScript
