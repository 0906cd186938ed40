import Mathlib.Data.List.TakeDrop
import FlowScript.Json.Token
import FlowScript.Proofs.Decimal.Numeral

/-!
# Numerals read back

The numeral of an integer is scanned as that integer, up to its end. Whatever a number is scanned
from starts with a minus sign or a digit.
-/
namespace FlowScript

/-- A run ends where a code point that is not part of it follows. -/
theorem Text.span_append {p : CodePoint → Bool} {s t : Text} (hs : ∀ c ∈ s, p c = true)
    (ht : ∀ c ∈ t.head?, p c = false) :
    (s ++ t).span p = (s, t) := by
  rw [List.span_eq_takeWhile_dropWhile, List.takeWhile_append_of_pos hs,
    List.dropWhile_append_of_pos hs]
  cases t with
  | nil => simp
  | cons c t => simp [ht c rfl]

namespace Decimal

theorem isDigit_digitChar : ∀ d < 10, (digitChar d).isDigit = true := by decide

theorem digitValue_digitChar : ∀ d < 10, digitValue (digitChar d) = d := by decide

theorem val_digitChar_ne : ∀ d < 10, d ≠ 0 → (digitChar d).val ≠ 48 := by decide

/-- Only zero has a leading zero. -/
theorem exists_digits_of_ne_zero {n : Nat} (hn : n ≠ 0) :
    ∃ d ds, digits n = d :: ds ∧ d ≠ 0 := by
  induction n using digits.induct with
  | case1 n h => exact ⟨n, [], by rw [digits, if_pos h], hn⟩
  | case2 n h ih =>
    obtain ⟨d, ds, hds, hd⟩ := ih (by omega)
    exact ⟨d, ds ++ [n % 10], by rw [digits, if_neg h, hds, List.cons_append], hd⟩

theorem isDigit_of_mem_natText {n : Nat} {c : CodePoint} (hc : c ∈ natText n) :
    c.isDigit = true := by
  obtain ⟨d, hd, rfl⟩ := List.mem_map.mp hc
  exact isDigit_digitChar d (lt_of_mem_digits hd)

end Decimal

namespace Json
open Decimal

theorem readDigits_natText (n : Nat) : readDigits (natText n) = n := by
  have hvalues : (natText n).map digitValue = digits n := by
    rw [natText, List.map_map]
    exact (List.map_congr_left fun d hd => digitValue_digitChar d (lt_of_mem_digits hd)).trans
      (List.map_id _)
  rw [readDigits, hvalues, ofDigits_digits]

theorem digitRun_natText (n : Nat) : digitRun (natText n) = (natText n, []) := by
  have hspan := Text.span_append (t := []) (fun _ => isDigit_of_mem_natText (n := n)) nofun
  rwa [List.append_nil] at hspan

/-- The digits of a number are its whole part: a zero stands alone, anything else is one run. -/
theorem whole_natText (n : Nat) : ∃ c t, natText n = c :: t ∧ c.val ≠ 45 ∧
    (if c.val = 48 then ([c], t) else digitRun (c :: t)) = (natText n, []) := by
  by_cases hn : n = 0
  · subst hn
    exact ⟨'0', [], by rw [natText, digits]; rfl, by decide, by rw [natText, digits]; rfl⟩
  · obtain ⟨d, ds, hds, hd⟩ := exists_digits_of_ne_zero hn
    have hlt : d < 10 := lt_of_mem_digits (hds ▸ List.mem_cons_self)
    have hdigit := isDigit_digitChar d hlt
    simp only [CodePoint.isDigit, Bool.and_eq_true, decide_eq_true_eq] at hdigit
    have hcons : natText n = digitChar d :: ds.map digitChar := by rw [natText, hds, List.map_cons]
    refine ⟨_, _, hcons, by omega, ?_⟩
    rw [if_neg (val_digitChar_ne d hlt hd), ← hcons, digitRun_natText]

theorem scanNumber_natText (n : Nat) : scanNumber (natText n) = some (int n, []) := by
  obtain ⟨c, t, hcons, hminus, hwhole⟩ := whole_natText n
  have hread := readDigits_natText n
  rw [hcons] at hwhole hread ⊢
  simp [scanNumber, hminus, hwhole, hread, scanFraction, scanExponent]

theorem scanNumber_neg_natText (n : Nat) :
    scanNumber (('-' : CodePoint) :: natText n) = some (int (-n), []) := by
  obtain ⟨c, t, hcons, -, hwhole⟩ := whole_natText n
  have hread := readDigits_natText n
  have hsign : ('-' : CodePoint).val = 45 := rfl
  rw [hcons] at hwhole hread ⊢
  simp [scanNumber, hsign, hwhole, hread, scanFraction, scanExponent]

theorem scanNumber_intText (n : Int) : scanNumber (intText n) = some (int n, []) := by
  cases n with
  | ofNat n => exact scanNumber_natText n
  | negSucc n => exact scanNumber_neg_natText (n + 1)

theorem head_of_scanNumber {t : Text} {r : Json × Text} (h : scanNumber t = some r) :
    ∃ c s, t = c :: s ∧ (c.val = 45 ∨ c.isDigit = true) := by
  cases t with
  | nil => exact nomatch h
  | cons c t =>
    refine ⟨c, t, rfl, ?_⟩
    by_contra hc
    rw [not_or] at hc
    have hzero : c.val ≠ 48 := by
      rintro hval
      exact hc.2 (by simp [CodePoint.isDigit, hval])
    simp [scanNumber, hc.1, hzero, digitRun, List.span_eq_takeWhile_dropWhile, hc.2] at h

end Json

end FlowScript
