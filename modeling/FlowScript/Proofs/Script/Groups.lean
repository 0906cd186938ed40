import Mathlib.Data.Nat.Digits.Defs
import FlowScript.Proofs.Script.Symbols

/-!
# Texts that are read as numbers

A text of symbols falls into groups: in the alphabet the upper half says that the group goes on, and
the lower half ends it. Texts are read if they consist of symbols and their last group is ended;
each group is then a number in base 32. The writer picks the shortest of the groups for a number,
the one that has no zeros for its highest digits.
-/
namespace FlowScript.SourceMap

/-- The symbols after which a group goes on. -/
def continuing : Text := alphabet.drop 32

theorem mem_continuing_iff {c : CodePoint} : c ∈ continuing ↔ ∃ b < 32, symbol (b + 32) = c := by
  have hmap : continuing = (List.range 32).map fun b => symbol (b + 32) := by decide
  simp only [hmap, List.mem_map, List.mem_range]

theorem symbol_injective {a b : Nat} (ha : a < 64) (hb : b < 64) (h : symbol a = symbol b) :
    a = b := by
  have hbits := congrArg bits? h
  rw [bits?_symbol a ha, bits?_symbol b hb] at hbits
  exact Option.some.inj hbits

/-- A symbol ends a group or lets it go on. -/
theorem symbol_cases {c : CodePoint} (h : c ∈ alphabet) :
    (c ∉ continuing ∧ ∃ b < 32, symbol b = c) ∨ c ∈ continuing ∧ ∃ b < 32, symbol (b + 32) = c := by
  obtain ⟨b, hb, rfl⟩ := mem_alphabet_iff.mp h
  by_cases hlow : b < 32
  · refine .inl ⟨fun hmem => ?_, b, hlow, rfl⟩
    obtain ⟨b', hb', hsymbol⟩ := mem_continuing_iff.mp hmem
    have := symbol_injective (by omega) hb hsymbol
    omega
  · have hsub : b - 32 + 32 = b := by omega
    have hhigh : ∃ b' < 32, symbol (b' + 32) = symbol b := ⟨b - 32, by omega, by rw [hsub]⟩
    exact .inr ⟨mem_continuing_iff.mpr hhigh, hhigh⟩

/-- A text cut behind every symbol that does not let a group go on. -/
def groups : Text → List Text
  | [] => []
  | c :: t =>
    if c ∈ continuing then
      match groups t with
      | [] => [[c]]
      | g :: gs => (c :: g) :: gs
    else [c] :: groups t

theorem flatten_groups (t : Text) : (groups t).flatten = t := by
  induction t with
  | nil => rfl
  | cons c t ih =>
    rw [groups]
    split
    · cases hgs : groups t <;> simp_all
    · rw [List.flatten_cons, ih, List.singleton_append]

/-- One group, from the lowest digit to the highest. -/
inductive IsGroup : Text → Prop
  | last {b : Nat} (h : b < 32) : IsGroup [symbol b]
  | more {b : Nat} {g : Text} (h : b < 32) (hg : IsGroup g) : IsGroup (symbol (b + 32) :: g)

/-- The digit of a symbol in base 32. -/
def digit (c : CodePoint) : Nat := (bits? c).getD 0 % 32

/-- The number that a group stands for. -/
def number (g : Text) : Nat := Nat.ofDigits 32 (g.map digit)

theorem number_cons (c : CodePoint) (g : Text) : number (c :: g) = digit c + 32 * number g := rfl

theorem digit_symbol {b : Nat} (h : b < 32) : digit (symbol b) = b := by
  rw [digit, bits?_symbol b (by omega)]
  exact Nat.mod_eq_of_lt h

theorem digit_symbol_add {b : Nat} (h : b < 32) : digit (symbol (b + 32)) = b := by
  rw [digit, bits?_symbol (b + 32) (by omega)]
  exact (Nat.add_mod_right b 32).trans (Nat.mod_eq_of_lt h)

theorem number_last {b : Nat} (h : b < 32) : number [symbol b] = b := by
  rw [number_cons, digit_symbol h]
  rfl

theorem number_more {b : Nat} (h : b < 32) (g : Text) :
    number (symbol (b + 32) :: g) = b + 32 * number g := by
  rw [number_cons, digit_symbol_add h]

/-- The last group of a text is left open. -/
def EndsInside (t : Text) : Prop := ∃ c ∈ t.getLast?, c ∈ continuing

instance (t : Text) : Decidable (EndsInside t) := inferInstanceAs (Decidable (∃ _ ∈ _, _))

theorem EndsInside.cons {t : Text} (h : EndsInside t) (c : CodePoint) : EndsInside (c :: t) := by
  obtain ⟨d, hd, hmem⟩ := h
  exact ⟨d, by rw [List.getLast?_cons, Option.mem_def.mp hd]; rfl, hmem⟩

/-- Symbols whose last one ends a group fall into whole groups. -/
theorem isGroup_of_mem_groups {t : Text} (hsymbols : ∀ c ∈ t, c ∈ alphabet)
    (hlast : ¬ EndsInside t) : ∀ g ∈ groups t, IsGroup g := by
  induction t with
  | nil => exact fun g hg => absurd hg List.not_mem_nil
  | cons c t ih =>
    rw [List.forall_mem_cons] at hsymbols
    have hrest := ih hsymbols.2 fun h => hlast (h.cons c)
    rw [groups]
    rcases symbol_cases hsymbols.1 with ⟨hc, b, hb, rfl⟩ | ⟨hc, b, hb, rfl⟩
    · rw [if_neg hc]
      exact List.forall_mem_cons.mpr ⟨.last hb, hrest⟩
    · rw [if_pos hc]
      cases hgs : groups t with
      | nil =>
        have ht : t = [] := by rw [← flatten_groups t, hgs, List.flatten_nil]
        subst ht
        exact absurd ⟨_, rfl, hc⟩ hlast
      | cons g gs =>
        rw [hgs, List.forall_mem_cons] at hrest
        exact List.forall_mem_cons.mpr ⟨.more hb hrest.1, hrest.2⟩

section Decode
variable {c : CodePoint} (value weight : Nat) (inside : Bool) {t : Text}

/-- A group is read in one go, whatever its first digits are added to; then reading starts anew. -/
theorem decodeFrom_group {g : Text} (hg : IsGroup g) (t : Text) :
    decodeFrom value weight inside (g ++ t) =
      ((value + number g * weight) :: ·) <$> decodeFrom 0 1 false t := by
  induction hg generalizing value weight inside with
  | last hb => rw [List.singleton_append, decodeFrom_last _ _ _ hb, number_last hb]
  | @more b g hb _ ih =>
    have hsum : value + b * weight + number g * (weight * 32) =
        value + (b + 32 * number g) * weight := by ring
    rw [List.cons_append, decodeFrom_more _ _ _ hb, ih, number_more hb, hsum]

/-- The first code point that is no symbol is reported, even inside a group. -/
theorem decodeFrom_of_invalid (h : t.find? (· ∉ alphabet) = some c) :
    decodeFrom value weight inside t = .error (.invalidSymbol c) := by
  induction t generalizing value weight inside with
  | nil => exact nomatch h
  | cons d t ih =>
    rw [List.find?_cons] at h
    by_cases hd : d ∈ alphabet
    · simp only [hd, not_true_eq_false, decide_false] at h
      rcases symbol_cases hd with ⟨-, b, hb, rfl⟩ | ⟨-, b, hb, rfl⟩
      · rw [decodeFrom_last _ _ _ hb, ih _ _ _ h]
        rfl
      · rw [decodeFrom_more _ _ _ hb, ih _ _ _ h]
    · simp only [hd, not_false_eq_true, decide_true, Option.some.injEq] at h
      have hnone : bits? d = none :=
        Option.eq_none_iff_forall_ne_some.mpr fun b hb => hd (exists_bits?_iff.mp ⟨b, hb⟩)
      rw [decodeFrom, hnone, h]
      rfl

/-- Symbols that end inside a group are refused. -/
theorem decodeFrom_of_endsInside (hsymbols : ∀ d ∈ t, d ∈ alphabet) (h : EndsInside t) :
    decodeFrom value weight inside t = .error .truncated := by
  induction t generalizing value weight inside with
  | nil => exact absurd h.choose_spec.1 (by simp)
  | cons d t ih =>
    rw [List.forall_mem_cons] at hsymbols
    by_cases ht : t = []
    · subst ht
      obtain ⟨c, hc, hmem⟩ := h
      cases hc
      obtain ⟨b, hb, rfl⟩ := mem_continuing_iff.mp hmem
      rw [decodeFrom_more _ _ _ hb]
      rfl
    · have hrest : EndsInside t := by
        rwa [EndsInside, List.getLast?_cons_of_ne_nil ht] at h
      rcases symbol_cases hsymbols.1 with ⟨-, b, hb, rfl⟩ | ⟨-, b, hb, rfl⟩
      · rw [decodeFrom_last _ _ _ hb, ih _ _ _ hsymbols.2 hrest]
        rfl
      · rw [decodeFrom_more _ _ _ hb, ih _ _ _ hsymbols.2 hrest]

end Decode

theorem decode_flatten_append {gs : List Text} (hgs : ∀ g ∈ gs, IsGroup g) (t : Text) :
    decode (gs.flatten ++ t) = (gs.map number ++ ·) <$> decode t := by
  induction gs with
  | nil => exact (id_map _).symm
  | cons g gs ih =>
    rw [List.forall_mem_cons] at hgs
    rw [decode] at ih ⊢
    rw [List.flatten_cons, List.append_assoc, decodeFrom_group _ _ _ hgs.1, ih hgs.2, ← comp_map]
    simp only [Nat.zero_add, Nat.mul_one]
    rfl

/-- Whole groups are read as their numbers. -/
theorem decode_of_isGroup {t : Text} (h : ∀ g ∈ groups t, IsGroup g) :
    decode t = .ok ((groups t).map number) := by
  have hread := decode_flatten_append h []
  rw [List.append_nil, flatten_groups] at hread
  rw [hread]
  exact congrArg _ (List.append_nil _)

/-- The outcome of reading a text. -/
theorem decode_eq (t : Text) : decode t = match t.find? (· ∉ alphabet) with
    | some c => .error (.invalidSymbol c)
    | none => if EndsInside t then .error .truncated else .ok ((groups t).map number) := by
  cases hinvalid : t.find? (· ∉ alphabet) with
  | some c => exact decodeFrom_of_invalid _ _ _ hinvalid
  | none =>
    have hsymbols : ∀ c ∈ t, c ∈ alphabet := by simpa using hinvalid
    by_cases h : EndsInside t
    · exact (decodeFrom_of_endsInside _ _ _ hsymbols h).trans (if_pos h).symm
    · exact (decode_of_isGroup (isGroup_of_mem_groups hsymbols h)).trans (if_neg h).symm

theorem find?_eq_none_iff {t : Text} :
    t.find? (· ∉ alphabet) = none ↔ ∀ c ∈ t, c ∈ alphabet := by
  simp

theorem decode_eq_ok_iff {t : Text} {ns : List Nat} : decode t = .ok ns ↔
    (∀ c ∈ t, c ∈ alphabet) ∧ ¬ EndsInside t ∧ ns = (groups t).map number := by
  rw [decode_eq, ← find?_eq_none_iff]
  cases t.find? (· ∉ alphabet) with
  | some c => simp
  | none => by_cases h : EndsInside t <;> simp [h, eq_comm]

theorem decode_eq_error_iff {t : Text} {e : Error} : decode t = .error e ↔
    (∃ c, t.find? (· ∉ alphabet) = some c ∧ e = .invalidSymbol c) ∨
      (∀ c ∈ t, c ∈ alphabet) ∧ EndsInside t ∧ e = .truncated := by
  rw [decode_eq, ← find?_eq_none_iff]
  cases t.find? (· ∉ alphabet) with
  | some c => simp [eq_comm]
  | none => by_cases h : EndsInside t <;> simp [h, eq_comm]

/-- A text that is read may stand in front of any other. -/
theorem decode_append {s t : Text} {ms ns : List Nat} (hs : decode s = .ok ms)
    (ht : decode t = .ok ns) : decode (s ++ t) = .ok (ms ++ ns) := by
  obtain ⟨hsymbols, hlast, rfl⟩ := decode_eq_ok_iff.mp hs
  have hread := decode_flatten_append (isGroup_of_mem_groups hsymbols hlast) t
  rwa [flatten_groups, ht] at hread

section Shortest
variable {g : Text}

theorem IsGroup.ne_nil (hg : IsGroup g) : g ≠ [] := by
  cases hg <;> exact List.cons_ne_nil _ _

/-- A group of zeros only ends in the symbol of zero. -/
theorem IsGroup.getLast?_of_number_eq_zero (hg : IsGroup g) (h : number g = 0) :
    g.getLast? = some (symbol 0) := by
  induction hg with
  | last hb =>
    rw [number_last hb] at h
    rw [h]
    rfl
  | more hb hg ih =>
    rw [number_more hb] at h
    rw [List.getLast?_cons, ih (by omega)]
    rfl

/-- What a single symbol stands for is zero if it is the symbol of zero. -/
theorem IsGroup.number_eq_zero_of_getLast? (hg : IsGroup g) (hlength : g.length ≤ 1)
    (h : g.getLast? = some (symbol 0)) : number g = 0 := by
  cases hg with
  | @last b hb =>
    rw [number_last hb]
    exact symbol_injective (by omega) (by omega) (Option.some.inj h)
  | more _ hg =>
    have := List.length_pos_of_ne_nil hg.ne_nil
    rw [List.length_cons] at hlength
    omega

/-- The writer puts out the group itself, unless its highest digit is a zero but not its only
one. -/
theorem IsGroup.encodeNat_number (hg : IsGroup g) :
    (encodeNat (number g)).length ≤ g.length ∧
      (encodeNat (number g) = g ↔ (1 < g.length → g.getLast? ≠ some (symbol 0))) := by
  induction hg with
  | last hb =>
    rw [number_last hb, encodeNat, if_pos hb]
    simp
  | @more b g hb hg ih =>
    have hne := hg.ne_nil
    have hlength : 1 < (symbol (b + 32) :: g).length :=
      Nat.succ_lt_succ (List.length_pos_of_ne_nil hne)
    have hlast : (symbol (b + 32) :: g).getLast? = g.getLast? := by
      obtain ⟨c, g, rfl⟩ := List.exists_cons_of_ne_nil hne
      rfl
    rw [number_more hb, hlast]
    by_cases hzero : number g = 0
    · have hbits : encodeNat (b + 32 * number g) = [symbol b] := by
        rw [hzero, encodeNat, if_pos (by omega)]
        rfl
      have hlong : [symbol b] ≠ symbol (b + 32) :: g := fun h => hne (List.cons.inj h).2.symm
      have hzeros := hg.getLast?_of_number_eq_zero hzero
      rw [hbits]
      exact ⟨Nat.le_of_lt hlength, fun h => absurd h hlong, fun h => absurd hzeros (h hlength)⟩
    · have hdigit : (b + 32 * number g) % 32 = b := by omega
      have hrest : (b + 32 * number g) / 32 = number g := by omega
      have hshortest : (1 < g.length → g.getLast? ≠ some (symbol 0)) ↔
          (1 < (symbol (b + 32) :: g).length → g.getLast? ≠ some (symbol 0)) := by
        refine ⟨fun h _ hend => ?_, fun h _ => h hlength⟩
        by_cases hshort : g.length ≤ 1
        · exact hzero (hg.number_eq_zero_of_getLast? hshort hend)
        · exact h (Nat.lt_of_not_le hshort) hend
      rw [encodeNat, if_neg (by omega), hdigit, hrest, ← hshortest, ← ih.2]
      exact ⟨Nat.succ_le_succ ih.1, by simp⟩

end Shortest

/-- If no text of a list becomes longer, all of them together stay the same only if each does. -/
theorem flatMap_eq_flatten_iff {f : Text → Text} {gs : List Text}
    (hle : ∀ g ∈ gs, (f g).length ≤ g.length) : (gs.flatMap f).length ≤ gs.flatten.length ∧
      (gs.flatMap f = gs.flatten ↔ ∀ g ∈ gs, f g = g) := by
  induction gs with
  | nil => simp
  | cons g gs ih =>
    rw [List.forall_mem_cons] at hle
    obtain ⟨hlength, hiff⟩ := ih hle.2
    rw [List.flatMap_cons, List.flatten_cons, List.forall_mem_cons, ← hiff, List.length_append,
      List.length_append]
    refine ⟨Nat.add_le_add hle.1 hlength, fun h => List.append_inj h ?_, fun h => by rw [h.1, h.2]⟩
    have htotal := congrArg List.length h
    rw [List.length_append, List.length_append] at htotal
    have := hle.1
    omega

/-- Reading accepts the texts of symbols that do not end inside a group, and reports the first code
point that is no symbol, else the open group. Texts that are read may follow each other. Numbers
that can be written take up no more symbols than they were read from, and the same symbols exactly
if no group of several symbols ends in the one of zero. -/
theorem decode_outcome (t : Text) :
    ((∃ ns, decode t = .ok ns) ↔
        (∀ c ∈ t, c ∈ alphabet) ∧ (t = [] ∨ ∃ c, t.getLast? = some c ∧ c ∉ continuing)) ∧
      (∀ e, decode t = .error e ↔
        (∃ c, t.find? (· ∉ alphabet) = some c ∧ e = .invalidSymbol c) ∨
          (∀ c ∈ t, c ∈ alphabet) ∧ (∃ c, t.getLast? = some c ∧ c ∈ continuing) ∧
            e = .truncated) ∧
      (∀ s ms ns, decode s = .ok ms → decode t = .ok ns → decode (s ++ t) = .ok (ms ++ ns)) ∧
      ∀ ns, decode t = .ok ns → (∀ n ∈ ns, n ≤ 2 ^ 31 - 1) →
        ∃ u, encode (ns.map Nat.cast) = .ok u ∧ u.length ≤ t.length ∧
          (u = t ↔ ∀ g ∈ groups t, 1 < g.length → g.getLast? ≠ some ('A' : CodePoint)) := by
  refine ⟨?accepts, fun e => decode_eq_error_iff, fun s ms ns => decode_append,
    fun ns hns hbound => ?rewritten⟩
  case accepts =>
    have hends : ¬ EndsInside t ↔ t = [] ∨ ∃ c, t.getLast? = some c ∧ c ∉ continuing := by
      rw [EndsInside, ← List.getLast?_eq_none_iff]
      cases t.getLast? <;> simp
    rw [← hends]
    simp only [decode_eq_ok_iff, exists_and_left, exists_eq, and_true]
  case rewritten =>
    obtain ⟨hsymbols, hends, rfl⟩ := decode_eq_ok_iff.mp hns
    have hgroups := isGroup_of_mem_groups hsymbols hends
    have hwritten := encode_natCast_eq_ok_iff.mpr ⟨hbound, rfl⟩
    have hsame := flatMap_eq_flatten_iff fun g hg => (hgroups g hg).encodeNat_number.1
    rw [flatten_groups, ← List.flatMap_map] at hsame
    exact ⟨_, hwritten, hsame.1,
      hsame.2.trans (forall₂_congr fun g hg => (hgroups g hg).encodeNat_number.2)⟩

/-- A zero of two symbols comes back as one; a stray code point counts before an open group. -/
theorem decode_outcome_longZero :
    (∃ u, encode [1, 0, 2] = .ok u ∧ u.length ≤ 4 ∧ u ≠ "BgAC") ∧
      decode ("BgAC" ++ "hB") = .ok [1, 0, 2, 33] ∧
      decode "B*g" = .error (.invalidSymbol '*') ∧ decode "BCg" = .error .truncated := by
  have hread : decode "BgAC" = .ok [1, 0, 2] := rfl
  obtain ⟨-, -, -, hrewritten⟩ := decode_outcome "BgAC"
  obtain ⟨u, hu, hlength, hsame⟩ := hrewritten _ hread (by decide)
  refine ⟨⟨u, hu, hlength, fun h => ?_⟩, (decode_outcome "hB").2.2.1 _ _ _ hread rfl,
    ((decode_outcome _).2.1 _).mpr (.inl ⟨_, rfl, rfl⟩),
    ((decode_outcome _).2.1 _).mpr (.inr ⟨by decide, ⟨_, rfl, by decide⟩, rfl⟩)⟩
  exact hsame.mp h "gA" (by decide) (by decide) rfl

end FlowScript.SourceMap
