import Mathlib.Data.List.TakeWhile
import FlowScript.Proofs.Script.Symbols

/-!
# The last comment of a script

A source map comment is a line of its own: spaces and tabs, the marker and symbols. The ranges of a
script are read from the last such line alone, so nothing that stands in front of it matters, other
comments and broken ones included.
-/
namespace FlowScript.SourceMap

/-- A line with a comment that holds these symbols. -/
def IsComment (symbols l : Text) : Prop :=
  ∃ margin : Text, (∀ c ∈ margin, c = (' ' : CodePoint) ∨ c = ('\t' : CodePoint)) ∧
    (∀ c ∈ symbols, c ∈ alphabet) ∧ l = margin ++ (marker ++ symbols)

/-- What may stand on the line of a comment in front of it. -/
def isMargin (c : CodePoint) : Bool := c.val = 32 || c.val = 9

theorem isMargin_iff {c : CodePoint} :
    isMargin c = true ↔ c = (' ' : CodePoint) ∨ c = ('\t' : CodePoint) := by
  obtain ⟨n, hn⟩ := c
  simp [isMargin, CodePoint.ofChar]

theorem payload?_eq (l : Text) :
    let rest := l.dropWhile isMargin
    payload? l =
      if marker.isPrefixOf rest && (rest.drop marker.length).all fun c => (bits? c).isSome then
        some (rest.drop marker.length)
      else none := rfl

theorem all_bits?_iff {t : Text} :
    (t.all fun c => (bits? c).isSome) = true ↔ ∀ c ∈ t, c ∈ alphabet := by
  simp only [List.all_eq_true, Option.isSome_iff_exists, exists_bits?_iff]

theorem payload?_eq_some_iff {symbols l : Text} :
    payload? l = some symbols ↔ IsComment symbols l := by
  constructor
  · intro h
    simp only [payload?_eq, Option.ite_none_right_eq_some, Bool.and_eq_true, all_bits?_iff,
      List.isPrefixOf_iff_prefix] at h
    obtain ⟨⟨⟨rest, hrest⟩, hmem⟩, hdrop⟩ := h
    rw [← hrest, List.drop_left] at hmem hdrop
    obtain rfl := Option.some.inj hdrop
    refine ⟨l.takeWhile isMargin, fun c hc => isMargin_iff.mp (List.mem_takeWhile_imp hc), hmem, ?_⟩
    exact hrest ▸ List.takeWhile_append_dropWhile.symm
  · rintro ⟨margin, hmargin, hmem, rfl⟩
    have hdrop : (margin ++ (marker ++ symbols)).dropWhile isMargin = marker ++ symbols :=
      List.dropWhile_append_of_pos fun c hc => isMargin_iff.mpr (hmargin c hc)
    have hprefix : marker.isPrefixOf (marker ++ symbols) :=
      List.isPrefixOf_iff_prefix.mpr (List.prefix_append _ _)
    rw [payload?_eq, hdrop, hprefix, List.drop_left, all_bits?_iff.mpr hmem]
    rfl

theorem payload?_eq_none_iff {l : Text} : payload? l = none ↔ ∀ symbols, ¬ IsComment symbols l := by
  simp only [Option.eq_none_iff_forall_ne_some, Ne, payload?_eq_some_iff]

theorem pairs?_flatMap (ranges : List (Nat × Nat)) :
    pairs? (ranges.flatMap fun range => [range.1, range.2]) = some ranges := by
  induction ranges with
  | nil => rfl
  | cons range ranges ih => simp [pairs?, ih]

theorem pairs?_eq_some_iff {ns : List Nat} {ranges : List (Nat × Nat)} :
    pairs? ns = some ranges ↔ ns = ranges.flatMap fun range => [range.1, range.2] := by
  refine ⟨fun h => ?_, fun h => h ▸ pairs?_flatMap ranges⟩
  induction ns using pairs?.induct generalizing ranges with
  | case1 =>
    obtain rfl := Option.some.inj h
    rfl
  | case2 n => exact nomatch h
  | case3 first count ns ih =>
    obtain ⟨rest, hrest, rfl⟩ := Option.map_eq_some_iff.mp h
    rw [ih hrest]
    rfl

theorem isComment_symbols {margin : Text}
    (h : ∀ c ∈ margin, c = (' ' : CodePoint) ∨ c = ('\t' : CodePoint)) (ns : List Nat) :
    IsComment (ns.flatMap encodeNat) (margin ++ (marker ++ ns.flatMap encodeNat)) := by
  refine ⟨margin, h, fun c hc => ?_, rfl⟩
  obtain ⟨n, -, hc⟩ := List.mem_flatMap.mp hc
  exact mem_alphabet_of_mem_encodeNat hc

theorem payload?_comment (ns : List Nat) :
    payload? (marker ++ ns.flatMap encodeNat) = some (ns.flatMap encodeNat) :=
  payload?_eq_some_iff.mpr (@isComment_symbols [] nofun ns)

theorem isLine_of_isComment {symbols l : Text} (h : IsComment symbols l) : l.IsLine := by
  obtain ⟨margin, hmargin, hsymbols, rfl⟩ := h
  intro hmem
  rcases List.mem_append.mp hmem with hmem | hmem
  · exact absurd (hmargin _ hmem) (by decide)
  · rcases List.mem_append.mp hmem with hmem | hmem
    · exact absurd hmem (by decide)
    · exact absurd (hsymbols _ hmem) (by decide)

/-- Ranges are read from the symbols of the last comment. -/
theorem extract_eq_ok_iff_payload {script : Text} {ranges : List (Nat × Nat)} :
    extract script = .ok ranges ↔
      ∃ symbols, (script.lines.filterMap payload?).getLast? = some symbols ∧
        decode symbols = .ok (version :: ranges.flatMap fun range => [range.1, range.2]) := by
  rw [extract]
  cases (script.lines.filterMap payload?).getLast? with
  | none => exact ⟨nofun, nofun⟩
  | some symbols =>
    simp only [Option.some.injEq, exists_eq_left', bind_eq_ok_iff]
    constructor
    · rintro ⟨ns, hread, h⟩
      cases ns with
      | nil => exact absurd h throw_ne_ok
      | cons v ns =>
        by_cases hv : v = version
        · simp only [hv, ne_eq, not_true_eq_false, if_false] at h
          split at h
          · next rs hrs =>
            obtain rfl := pure_eq_ok_iff.mp h
            rw [hread, hv, pairs?_eq_some_iff.mp hrs]
          · exact absurd h throw_ne_ok
        · simp only [hv, ne_eq, not_false_eq_true, if_true] at h
          exact nomatch h
    · intro hread
      refine ⟨_, hread, ?_⟩
      simp only [ne_eq, not_true_eq_false, if_false, pairs?_flatMap]
      rfl

/-- A script has the ranges that a comment on a line of its own holds, if no line behind it is a
comment. -/
theorem extract_eq_ok_iff {script : Text} {ranges : List (Nat × Nat)} :
    extract script = .ok ranges ↔ ∃ s l rest after symbols, script = s ++ l ++ rest ∧
      s.StartsLine ∧ rest.EndsLine after ∧ (∀ k ∈ after, ∀ symbols, ¬ IsComment symbols k) ∧
      IsComment symbols l ∧
      decode symbols = .ok (version :: ranges.flatMap fun range => [range.1, range.2]) := by
  rw [extract_eq_ok_iff_payload]
  simp only [List.getLast?_filterMap, List.findSome?_eq_some_iff, payload?_eq_none_iff,
    payload?_eq_some_iff]
  constructor
  · rintro ⟨symbols, ⟨after, l, before, hlines, hcomment, hafter⟩, hread⟩
    have hsplit : script.lines = before.reverse ++ l :: after.reverse := by
      rw [← List.reverse_inj, hlines]
      simp
    obtain ⟨s, rest, rfl, hs, hrest⟩ := Text.exists_of_lines_eq hsplit
    exact ⟨s, l, rest, _, symbols, rfl, hs, hrest, fun k hk => hafter k (List.mem_reverse.mp hk),
      hcomment, hread⟩
  · rintro ⟨s, l, rest, after, symbols, rfl, hs, hrest, hafter, hcomment, hread⟩
    obtain ⟨before, hlines⟩ := Text.exists_lines_eq hs (isLine_of_isComment hcomment) hrest
    refine ⟨symbols, ⟨after.reverse, l, before.reverse, ?_, hcomment, ?_⟩, hread⟩
    · rw [hlines]
      simp
    · exact fun k hk => hafter k (List.mem_reverse.mp hk)

/-- Ranges that are written into a comment, indented or not, are those of the script, whatever
stands in front of its line and unless a comment stands behind it. -/
theorem extract_line {s margin rest : Text} {ranges : List (Nat × Nat)}
    (hs : s = [] ∨ s.getLast? = some CodePoint.lineFeed)
    (hmargin : ∀ c ∈ margin, c = (' ' : CodePoint) ∨ c = ('\t' : CodePoint))
    (hranges : ∀ range ∈ ranges, range.1 ≤ 2 ^ 31 - 1 ∧ range.2 ≤ 2 ^ 31 - 1)
    (hrest : rest = [] ∨ ∃ t : Text, rest = CodePoint.lineFeed :: t ∧
      ∀ l ∈ t.lines, ∀ symbols, ¬ IsComment symbols l) :
    ∃ comment, line ((1 :: ranges.flatMap fun range => [range.1, range.2]).map Nat.cast) =
        .ok comment ∧
      extract (s ++ margin ++ comment ++ rest) = .ok ranges := by
  have hgreatest : ∀ n ∈ 1 :: ranges.flatMap fun range => [range.1, range.2], n ≤ greatest := by
    refine List.forall_mem_cons.mpr ⟨by decide, fun n hn => ?_⟩
    obtain ⟨range, hrange, hn⟩ := List.mem_flatMap.mp hn
    rcases List.mem_pair.mp hn with rfl | rfl
    · exact (hranges range hrange).1
    · exact (hranges range hrange).2
  obtain ⟨after, hends, hafter⟩ : ∃ after, rest.EndsLine after ∧
      ∀ k ∈ after, ∀ symbols, ¬ IsComment symbols k := by
    rcases hrest with rfl | ⟨t, rfl, ht⟩
    · exact ⟨[], .inl ⟨rfl, rfl⟩, nofun⟩
    · exact ⟨t.lines, .inr ⟨t, rfl, rfl⟩, ht⟩
  refine ⟨_, line_natCast hgreatest, extract_eq_ok_iff.mpr ?_⟩
  rw [List.append_assoc s]
  exact ⟨s, _, rest, after, _, rfl, hs, hends, hafter, isComment_symbols hmargin _,
    decode_flatMap_encodeNat _⟩

/-- A broken comment and an older one stand in front, and behind the comment one that is not alone
on its line. -/
theorem extract_line_behindOthers :
    let s : Text := "//# recorderSourceMap=B*\n//# recorderSourceMap=BAB\n"
    let rest : Text := "\n; //# recorderSourceMap=BAC\n"
    ∃ comment, line [1, 0, 2147483647] = .ok comment ∧
      extract (s ++ "\t " ++ comment ++ rest) = .ok [(0, 2147483647)] := by
  intro s rest
  have hlines : Text.lines "; //# recorderSourceMap=BAC\n" =
      [("; //# recorderSourceMap=BAC" : Text), []] := by decide +kernel
  have hrest : ∀ l ∈ Text.lines "; //# recorderSourceMap=BAC\n",
      ∀ symbols, ¬ IsComment symbols l := by
    simp only [hlines, ← payload?_eq_none_iff]
    decide +kernel
  exact @extract_line s "\t " rest [(0, 2147483647)] (.inr (by decide)) (by decide) (by decide)
    (.inr ⟨_, rfl, hrest⟩)

end FlowScript.SourceMap
