import FlowScript.Proofs.Recording.Fields
import FlowScript.Proofs.Script.SourceMap

/-!
# Numbers in symbols

A list of integers is written unless one of them is negative or has more than 31 bits, and the first
such integer is reported. What is written consists of the 64 symbols and is read as the same list,
so no text is that of two lists.
-/
namespace FlowScript.SourceMap

/-- The 64 symbols, each in the place that its bits number. -/
def alphabet : Text := "ABCDEFGHIJKLMNOPQRSTUVWXYZabcdefghijklmnopqrstuvwxyz0123456789+/"

theorem alphabet_eq : alphabet = (List.range 64).map symbol := by decide

theorem mem_alphabet_iff {c : CodePoint} : c ∈ alphabet ↔ ∃ b < 64, symbol b = c := by
  simp only [alphabet_eq, List.mem_map, List.mem_range]

theorem bits?_eq_some_iff {c : CodePoint} {b : Nat} : bits? c = some b ↔ b < 64 ∧ symbol b = c := by
  constructor
  · intro h
    obtain ⟨n, hn⟩ := c
    simp only [bits?] at h
    have hb : b < 64 := by grind
    refine ⟨hb, ?_⟩
    simp only [symbol, CodePoint.ofNat, CodePoint.ofChar]
    grind
  · rintro ⟨hb, rfl⟩
    exact bits?_symbol b hb

theorem exists_bits?_iff {c : CodePoint} : (∃ b, bits? c = some b) ↔ c ∈ alphabet := by
  simp only [bits?_eq_some_iff, mem_alphabet_iff]

/-- The integers that can be written. -/
def IsWritable (n : Int) : Prop := 0 ≤ n ∧ n ≤ 2 ^ 31 - 1

instance (n : Int) : Decidable (IsWritable n) := inferInstanceAs (Decidable (_ ∧ _))

/-- Why an integer is not written. -/
def refusal (n : Int) : Error := if n < 0 then .negative else .tooLarge

theorem isWritable_natCast {n : Nat} : IsWritable n ↔ n ≤ greatest := by
  rw [IsWritable, greatest]
  omega

theorem encodeInt_eq (n : Int) :
    encodeInt n = if IsWritable n then .ok (encodeNat n.toNat) else .error (refusal n) := by
  cases n with
  | ofNat n =>
    have hwritable : IsWritable (.ofNat n) ↔ n ≤ greatest := isWritable_natCast
    have hsign : ¬ Int.ofNat n < 0 := Int.not_lt.mpr (Int.natCast_nonneg n)
    simp only [encodeInt, hwritable, refusal, hsign, if_false]
    rfl
  | negSucc n =>
    have hsign : Int.negSucc n < 0 := Int.negSucc_lt_zero n
    have hwritable : ¬ IsWritable (.negSucc n) := fun h => absurd h.1 (Int.not_le.mpr hsign)
    rw [if_neg hwritable, refusal, if_pos hsign]
    rfl

theorem encode_cons (n : Int) (ns : List Int) :
    encode (n :: ns) = encodeInt n >>= fun t => (t ++ ·) <$> encode ns := by
  rw [encode, List.mapM_cons, encode]
  cases encodeInt n with
  | error e => rfl
  | ok t => cases ns.mapM encodeInt <;> rfl

/-- The first integer that cannot be written is reported; without one, the symbols of the integers
follow each other. -/
theorem encode_eq (ns : List Int) :
    encode ns = match ns.find? (¬ IsWritable ·) with
      | some n => .error (refusal n)
      | none => .ok (ns.flatMap fun n => encodeNat n.toNat) := by
  induction ns with
  | nil => rfl
  | cons n ns ih =>
    rw [encode_cons, encodeInt_eq, ih, List.find?_cons]
    by_cases hn : IsWritable n
    · simp only [hn, not_true_eq_false, decide_false, if_true]
      cases ns.find? (¬ IsWritable ·) <;> rfl
    · simp only [hn, not_false_eq_true, decide_true, if_false]
      rfl

theorem encode_eq_ok_iff {ns : List Int} {t : Text} : encode ns = .ok t ↔
    (∀ n ∈ ns, IsWritable n) ∧ t = ns.flatMap fun n => encodeNat n.toNat := by
  rw [encode_eq]
  cases h : ns.find? (¬ IsWritable ·) with
  | some n =>
    have hn : ¬ IsWritable n := by simpa using List.find?_some h
    exact ⟨nofun, fun hns => absurd (hns.1 n (List.mem_of_find?_eq_some h)) hn⟩
  | none =>
    have hall : ∀ n ∈ ns, IsWritable n := by simpa using h
    rw [and_iff_right hall, Except.ok.injEq, eq_comm]

theorem encode_natCast_eq_ok_iff {ns : List Nat} {t : Text} :
    encode (ns.map Nat.cast) = .ok t ↔ (∀ n ∈ ns, n ≤ greatest) ∧ t = ns.flatMap encodeNat := by
  simp only [encode_eq_ok_iff, List.forall_mem_map, isWritable_natCast, List.flatMap_map,
    Int.toNat_natCast]

/-- A comment holds numbers that can be written only. -/
theorem line_natCast_eq_ok_iff {ns : List Nat} {comment : Text} :
    line (ns.map Nat.cast) = .ok comment ↔
      (∀ n ∈ ns, n ≤ greatest) ∧ comment = marker ++ ns.flatMap encodeNat := by
  simp only [line, map_eq_ok_iff, encode_natCast_eq_ok_iff]
  exact ⟨fun ⟨_, ⟨hns, ht⟩, hcomment⟩ => ⟨hns, ht ▸ hcomment.symm⟩,
    fun ⟨hns, hcomment⟩ => ⟨_, ⟨hns, rfl⟩, hcomment.symm⟩⟩

/-- The comment for numbers that can all be written. -/
theorem line_natCast {ns : List Nat} (h : ∀ n ∈ ns, n ≤ greatest) :
    line (ns.map Nat.cast) = .ok (marker ++ ns.flatMap encodeNat) :=
  line_natCast_eq_ok_iff.mpr ⟨h, rfl⟩

theorem mem_alphabet_of_mem_encodeNat {n : Nat} {c : CodePoint} (h : c ∈ encodeNat n) :
    c ∈ alphabet := by
  obtain ⟨b, hb, rfl⟩ := exists_symbol_of_mem_encodeNat h
  exact mem_alphabet_iff.mpr ⟨b, hb, rfl⟩

/-- What is written for a list is read as this list. -/
theorem read_of_encode {ns : List Int} {t : Text} (h : encode ns = .ok t) :
    List.map Nat.cast <$> decode t = .ok ns := by
  obtain ⟨hns, rfl⟩ := encode_eq_ok_iff.mp h
  have hcast : (ns.map Int.toNat).map Nat.cast = ns := by
    rw [List.map_map, List.map_congr_left (g := id), List.map_id]
    exact fun n hn => Int.toNat_of_nonneg (hns n hn).1
  rw [← List.flatMap_map, decode_flatMap_encodeNat]
  exact congrArg _ hcast

/-- Writing fails exactly on the lists that hold an integer outside of the range. All others are
written in symbols and read back, and no two of them alike. -/
theorem decode_encode (ns : List Int) :
    ((∃ e, encode ns = .error e) ↔ ∃ n ∈ ns, ¬ (0 ≤ n ∧ n ≤ 2 ^ 31 - 1)) ∧
      ((∀ n ∈ ns, 0 ≤ n ∧ n ≤ 2 ^ 31 - 1) → ∃ t, encode ns = .ok t ∧ (∀ c ∈ t, c ∈ alphabet) ∧
        List.map Nat.cast <$> decode t = .ok ns ∧ ∀ ms, encode ms = .ok t → ms = ns) := by
  refine ⟨?fails, fun hns => ?written⟩
  case fails =>
    have hfails : (∃ e, encode ns = .error e) ↔ ¬ ∃ t, encode ns = .ok t := by
      cases encode ns <;> simp
    simp only [hfails, encode_eq_ok_iff, exists_and_left, exists_eq, and_true, not_forall,
      exists_prop]
    rfl
  case written =>
    have hwritten := encode_eq_ok_iff.mpr ⟨hns, rfl⟩
    refine ⟨_, hwritten, fun c hc => ?_, read_of_encode hwritten, fun ms hms => ?_⟩
    · obtain ⟨n, -, hc⟩ := List.mem_flatMap.mp hc
      exact mem_alphabet_of_mem_encodeNat hc
    · exact Except.ok.inj ((read_of_encode hms).symm.trans (read_of_encode hwritten))

/-- The greatest number, zero and a number of two symbols; a number too large between others. -/
theorem decode_encode_greatest :
    encode [2147483647, 0, 32] = .ok "//////BAgB" ∧
      List.map Nat.cast <$> decode "//////BAgB" = .ok [(2147483647 : Int), 0, 32] ∧
      ∃ e, encode [5, 2147483648, -1] = .error e := by
  have hsymbols : encode [2147483647, 0, 32] = .ok "//////BAgB" := by
    refine encode_eq_ok_iff.mpr ⟨by decide, ?_⟩
    cbv
  obtain ⟨t, ht, -, hread, -⟩ := (decode_encode [2147483647, 0, 32]).2 (by decide)
  obtain rfl := Except.ok.inj (ht.symm.trans hsymbols)
  exact ⟨hsymbols, hread, (decode_encode _).1.mpr ⟨2147483648, by decide, by decide⟩⟩

end FlowScript.SourceMap
