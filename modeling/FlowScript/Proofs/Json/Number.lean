import Mathlib.Data.Rat.Lemmas
import FlowScript.Json

/-!
# Numbers that are integers

Which integers a number can equal, and when it equals a natural one.
-/
namespace FlowScript

theorem Double.natAbs_significand (d : Double) : d.significand.natAbs = d.mantissa := by
  rw [significand]
  split <;> simp

/-- The double that equals 1. -/
def Double.one : Double := ⟨false, 0x10000000000000, -52, by decide⟩

/-- The numerator of a double stays below the integers that no double comes near. -/
theorem Double.natAbs_num_value_lt (d : Double) : d.value.num.natAbs < overflowBound := by
  obtain ⟨hmantissa, -, hexponent, -⟩ := d.canonical
  have hdvd {n : Int} {k : Nat} (hk : k ≠ 0) (hn : n.natAbs < overflowBound) :
      (mkRat n k).num.natAbs < overflowBound := by
    by_cases h0 : n = 0
    · subst h0
      rw [Rat.zero_mkRat]
      decide +kernel
    · have hnum : (mkRat n k).num ∣ n := by
        rw [Rat.mkRat_eq_divInt]
        exact Rat.num_dvd n (Int.natCast_ne_zero.mpr hk)
      exact (Nat.le_of_dvd (Int.natAbs_pos.mpr h0) (Int.natAbs_dvd_natAbs.mpr hnum)).trans_lt hn
  rw [value]
  cases he : d.exponent with
  | ofNat k =>
    have hk : k ≤ 971 := by
      rw [he] at hexponent
      exact Int.ofNat_le.mp hexponent
    refine hdvd one_ne_zero ?_
    rw [Int.natAbs_mul, natAbs_significand, Int.natAbs_natCast]
    refine (Nat.mul_le_mul (Nat.le_of_lt_succ hmantissa)
      (Nat.pow_le_pow_right Nat.two_pos hk)).trans_lt ?_
    decide +kernel
  | negSucc k =>
    refine hdvd (Nat.pow_pos Nat.two_pos).ne' ?_
    rw [natAbs_significand]
    exact hmantissa.trans (by decide +kernel)

theorem Number.num_eq_of_toNat? {n : Number} {i : Nat} (h : n.toNat? = some i) :
    n.value.num = i := by
  rw [toNat?, toInt?] at h
  split at h
  · next k hk =>
    split at hk
    · simp only [Option.some.injEq] at h hk
      rw [hk, h]
      rfl
    · exact nomatch hk
  · exact nomatch h

theorem Number.toNat?_int (i : Nat) : (int i).toNat? = some i := by
  simp [toNat?, toInt?, value, Rat.mkRat_one]

/-- A number equals a natural one if it is integral and not negative. -/
theorem Number.exists_toNat?_iff {n : Number} :
    (∃ i, n.toNat? = some i) ↔ n.value.den = 1 ∧ 0 ≤ n.value := by
  rw [← Rat.num_nonneg]
  simp only [toNat?, toInt?]
  by_cases hden : n.value.den = 1
  · rw [if_pos hden]
    cases hnum : n.value.num with
    | ofNat k => simp [hden]
    | negSucc k => simp
  · simp [hden]

end FlowScript
