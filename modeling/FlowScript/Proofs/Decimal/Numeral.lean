import FlowScript.Script.Piece

/-!
# What numerals are made of

A numeral is written with decimal digits, signs, a point and the letter of an exponent, whatever
number it stands for.
-/
namespace FlowScript

/-- A digit, a sign, the point, or the letter in front of an exponent. -/
def CodePoint.isNumeralPart (c : CodePoint) : Bool :=
  c.isDigit || c.val = 43 || c.val = 45 || c.val = 46 || c.val = 101

namespace Decimal

theorem isNumeralPart_digitChar : ∀ d < 10, (digitChar d).isNumeralPart = true := by decide

theorem lt_of_mem_digits {n d : Nat} (h : d ∈ digits n) : d < 10 := by
  induction n using digits.induct with
  | case1 n hn =>
    rw [digits, if_pos hn, List.mem_singleton] at h
    omega
  | case2 n hn ih =>
    rw [digits, if_neg hn] at h
    rcases List.mem_append.mp h with h | h
    · exact ih h
    · rw [List.mem_singleton.mp h]
      exact Nat.mod_lt n (by decide)

/-- Every code point of a text is a part of a numeral. -/
def IsNumeralText (t : Text) : Prop := ∀ c ∈ t, c.isNumeralPart = true

instance (t : Text) : Decidable (IsNumeralText t) := inferInstanceAs (Decidable (∀ c ∈ t, _))

section
variable {s t : Text}

@[simp] theorem isNumeralText_nil : IsNumeralText [] := by simp [IsNumeralText]

@[simp] theorem isNumeralText_cons {c : CodePoint} :
    IsNumeralText (c :: t) ↔ c.isNumeralPart = true ∧ IsNumeralText t := List.forall_mem_cons

@[simp] theorem isNumeralText_append :
    IsNumeralText (s ++ t) ↔ IsNumeralText s ∧ IsNumeralText t := List.forall_mem_append

theorem isNumeralText_map_digitChar {ds : List Nat} (h : ∀ d ∈ ds, d < 10) :
    IsNumeralText (ds.map digitChar) := by
  intro c hc
  obtain ⟨d, hd, rfl⟩ := List.mem_map.mp hc
  exact isNumeralPart_digitChar d (h d hd)

theorem isNumeralText_replicate {c : CodePoint} (hc : c.isNumeralPart = true) (n : Nat) :
    IsNumeralText (List.replicate n c) := by
  intro d hd
  rwa [List.eq_of_mem_replicate hd]

theorem isNumeralText_natText (n : Nat) : IsNumeralText (natText n) :=
  isNumeralText_map_digitChar fun _ => lt_of_mem_digits

theorem isNumeralText_intText (n : Int) : IsNumeralText (intText n) := by
  cases n with
  | ofNat n => exact isNumeralText_natText n
  | negSucc n => exact isNumeralText_cons.mpr ⟨by decide, isNumeralText_natText (n + 1)⟩

end

theorem lt_of_mem_digits_shortest {mantissa d : Nat} {exponent : Int}
    (h : d ∈ (shortest mantissa exponent).digits) : d < 10 := by
  rw [shortest] at h
  dsimp only at h
  generalize hfound : List.findSome? _ (List.range 17) = found at h
  cases found with
  | none => exact absurd h List.not_mem_nil
  | some s =>
    obtain ⟨n, -, hn⟩ := List.exists_of_findSome?_eq_some hfound
    obtain ⟨m, -, rfl⟩ := Option.map_eq_some_iff.mp hn
    rw [Option.getD_some, Scientific.ofNat, Scientific.stripZeros, List.mem_reverse] at h
    exact lt_of_mem_digits (List.mem_reverse.mp (List.dropWhile_sublist _ |>.subset h))

section
variable {s : Scientific} (h : ∀ d ∈ s.digits, d < 10)
include h

theorem isNumeralText_positional : IsNumeralText (positional s) := by
  have hdigits := isNumeralText_map_digitChar h
  have hzero (n : Nat) : IsNumeralText (List.replicate n ('0' : CodePoint)) :=
    isNumeralText_replicate (by decide) n
  have hlead : IsNumeralText ("0." : Text) := by decide
  have htrail : IsNumeralText (".0" : Text) := by decide
  have hpoint : IsNumeralText ("." : Text) := by decide
  unfold positional
  dsimp only
  split
  · exact isNumeralText_append.mpr ⟨isNumeralText_append.mpr ⟨hlead, hzero _⟩, hdigits⟩
  · exact isNumeralText_append.mpr ⟨hlead, hdigits⟩
  · split
    · refine isNumeralText_append.mpr ⟨isNumeralText_append.mpr ⟨fun c hc => ?_, hpoint⟩,
        fun c hc => ?_⟩
      · exact hdigits c (List.mem_of_mem_take hc)
      · exact hdigits c (List.mem_of_mem_drop hc)
    · exact isNumeralText_append.mpr ⟨isNumeralText_append.mpr ⟨hdigits, hzero _⟩, htrail⟩

theorem isNumeralText_exponential (l : Layout) : IsNumeralText (exponential l s) := by
  have hdigits := isNumeralText_map_digitChar h
  have hpoint : IsNumeralText ("." : Text) := by decide
  have hpower (x : Int) : IsNumeralText ((if x < 0 then "e-" else "e+") ++
      padZeros l.exponentDigits (natText x.natAbs)) := by
    have hminus : IsNumeralText ("e-" : Text) := by decide
    have hplus : IsNumeralText ("e+" : Text) := by decide
    refine isNumeralText_append.mpr ⟨?_, isNumeralText_append.mpr
      ⟨isNumeralText_replicate (by decide) _, isNumeralText_natText _⟩⟩
    split
    · exact hminus
    · exact hplus
  unfold exponential
  dsimp only
  split
  · exact isNumeralText_nil
  · next d hd =>
    rw [hd, isNumeralText_cons] at hdigits
    exact isNumeralText_cons.mpr ⟨hdigits.1, hpower _⟩
  · next d ds _ hd =>
    rw [hd, isNumeralText_cons] at hdigits
    exact isNumeralText_cons.mpr ⟨hdigits.1, isNumeralText_append.mpr
      ⟨isNumeralText_append.mpr ⟨hpoint, hdigits.2⟩, hpower _⟩⟩

end

theorem isNumeralText_layout (l : Layout) (d : Double) : IsNumeralText (l.text d) := by
  have hsign : IsNumeralText (if d.negative then "-" else "") := by
    cases d.negative <;> decide
  have hzero : IsNumeralText ("0.0" : Text) := by decide
  have hdigits : ∀ x ∈ (shortest d.mantissa d.exponent).digits, x < 10 :=
    fun _ => lt_of_mem_digits_shortest
  unfold Layout.text
  dsimp only
  split
  · exact isNumeralText_append.mpr ⟨hsign, hzero⟩
  · refine isNumeralText_append.mpr ⟨hsign, ?_⟩
    split
    · exact isNumeralText_positional hdigits
    · exact isNumeralText_exponential hdigits l

end Decimal

theorem Number.isNumeralText_text (n : Number) : Decimal.IsNumeralText n.text := by
  cases n with
  | int n => exact Decimal.isNumeralText_intText n
  | double d => exact Decimal.isNumeralText_layout _ d

theorem Number.isNumeralText_numeral (n : Number) : Decimal.IsNumeralText n.numeral := by
  rw [numeral]
  split
  · exact Decimal.isNumeralText_intText _
  · exact n.isNumeralText_text

end FlowScript
