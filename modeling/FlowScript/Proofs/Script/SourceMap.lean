import Mathlib.Data.List.Forall2
import Mathlib.Tactic.Ring
import FlowScript.Proofs.Text.Lines
import FlowScript.Script.SourceMap

/-!
# Source maps read back

Groups of five bits add up to the number they were cut from, wherever reading starts, so a list of
numbers is read back from its symbols. The comment line that carries them is never trimmed, and
ranges counted from the lengths of consecutive blocks of lines find these blocks again.
-/
namespace FlowScript.SourceMap

section Decode
variable {b : Nat} (value weight : Nat) (inside : Bool)

theorem decodeFrom_last (h : b < 32) (t : Text) :
    decodeFrom value weight inside (symbol b :: t) =
      ((value + b * weight) :: ·) <$> decodeFrom 0 1 false t := by
  rw [decodeFrom, bits?_symbol b (by omega)]
  simp only [h, if_true]

theorem decodeFrom_more (h : b < 32) (t : Text) :
    decodeFrom value weight inside (symbol (b + 32) :: t) =
      decodeFrom (value + b * weight) (weight * 32) true t := by
  rw [decodeFrom, bits?_symbol (b + 32) (by omega)]
  simp only [show ¬ b + 32 < 32 by omega, if_false, Nat.add_sub_cancel]

/-- A number is read in one go, whatever its first groups are added to; then reading starts anew. -/
theorem decodeFrom_encodeNat (n : Nat) (t : Text) :
    decodeFrom value weight inside (encodeNat n ++ t) =
      ((value + n * weight) :: ·) <$> decodeFrom 0 1 false t := by
  induction n using encodeNat.induct generalizing value weight inside with
  | case1 n h => rw [encodeNat, if_pos h, List.singleton_append, decodeFrom_last _ _ _ h]
  | case2 n h ih =>
    have hsum : value + n % 32 * weight + n / 32 * (weight * 32) = value + n * weight := by
      conv_rhs => rw [← Nat.mod_add_div n 32]
      ring
    rw [encodeNat, if_neg h, List.cons_append, decodeFrom_more _ _ _ (Nat.mod_lt n (by decide)), ih,
      hsum]

end Decode

/-- Symbols of numbers written one after another give these numbers back. -/
theorem decode_flatMap_encodeNat (ns : List Nat) : decode (ns.flatMap encodeNat) = .ok ns := by
  induction ns with
  | nil => rfl
  | cons n ns ih =>
    rw [decode] at ih
    rw [decode, List.flatMap_cons, decodeFrom_encodeNat, ih]
    simp

theorem exists_symbol_of_mem_encodeNat {n : Nat} {c : CodePoint} (h : c ∈ encodeNat n) :
    ∃ b < 64, c = symbol b := by
  induction n using encodeNat.induct with
  | case1 n hn =>
    rw [encodeNat, if_pos hn, List.mem_singleton] at h
    exact ⟨n, by omega, h⟩
  | case2 n hn ih =>
    rw [encodeNat, if_neg hn] at h
    rcases List.mem_cons.mp h with h | h
    · exact ⟨n % 32 + 32, by omega, h⟩
    · exact ih h

theorem symbol_isBlank : ∀ b < 64, (symbol b).isBlank = false := by decide

theorem isBlank_of_mem_symbols {ns : List Nat} {c : CodePoint} (h : c ∈ ns.flatMap encodeNat) :
    c.isBlank = false := by
  obtain ⟨n, -, hc⟩ := List.mem_flatMap.mp h
  obtain ⟨b, hb, rfl⟩ := exists_symbol_of_mem_encodeNat hc
  exact symbol_isBlank b hb

theorem isLine_comment (ns : List Nat) : Text.IsLine (marker ++ ns.flatMap encodeNat) := by
  intro h
  rcases List.mem_append.mp h with h | h
  · exact absurd h (by decide)
  · exact absurd (isBlank_of_mem_symbols h) (by decide)

/-- The comment goes into a writer as it is, behind the indentation in force. -/
theorem layout_comment (unit : Text) (depth : Int) (ns : List Nat) :
    Writer.layout unit depth (marker ++ ns.flatMap encodeNat) =
      unit.repeated depth.toNat ++ (marker ++ ns.flatMap encodeNat) := by
  have htrim : (marker ++ ns.flatMap encodeNat).trimRight = marker ++ ns.flatMap encodeNat := by
    apply Text.trimRight_eq_self
    intro c hc
    rw [List.getLast?_append] at hc
    rcases hsymbols : (ns.flatMap encodeNat).getLast? with _ | d
    · rw [hsymbols] at hc
      have hmarker : marker.getLast? = some ('=' : CodePoint) := by decide
      rw [hmarker] at hc
      cases hc
      decide
    · rw [hsymbols] at hc
      cases hc
      exact isBlank_of_mem_symbols (List.mem_of_getLast? hsymbols)
  rw [Writer.layout, htrim, if_neg (by simp [marker, Text.ofString])]

/-- Ranges of lines that follow each other without a gap, the first of them from line `first` on. -/
def Consecutive (first : Nat) : List (Nat × Nat) → Prop
  | [] => True
  | range :: ranges => range.1 = first ∧ Consecutive (range.1 + range.2) ranges

/-- The ranges of blocks of lines that follow each other from line `first` on. -/
def rangesFrom (first : Nat) : List (List Text) → List (Nat × Nat)
  | [] => []
  | block :: blocks => (first, block.length) :: rangesFrom (first + block.length) blocks

theorem length_rangesFrom (first : Nat) (blocks : List (List Text)) :
    (rangesFrom first blocks).length = blocks.length := by
  induction blocks generalizing first with
  | nil => rfl
  | cons block blocks ih => rw [rangesFrom, List.length_cons, List.length_cons, ih]

theorem consecutive_rangesFrom (first : Nat) (blocks : List (List Text)) :
    Consecutive first (rangesFrom first blocks) := by
  induction blocks generalizing first with
  | nil => trivial
  | cons block blocks ih => exact ⟨rfl, ih _⟩

/-- Each range cuts its own block out of the lines around the blocks. -/
theorem rangesFrom_locate (before after : List Text) (blocks : List (List Text)) :
    List.Forall₂ (fun range block => range.2 = block.length ∧
        ((before ++ blocks.flatten ++ after).drop range.1).take range.2 = block)
      (rangesFrom before.length blocks) blocks := by
  induction blocks generalizing before with
  | nil => exact .nil
  | cons block blocks ih =>
    refine .cons ⟨rfl, ?_⟩ ?_
    · rw [List.flatten_cons, List.append_assoc, List.drop_left, List.append_assoc, List.take_left]
    · have h := ih (before ++ block)
      rwa [List.length_append, List.append_assoc before block, ← List.flatten_cons] at h

theorem le_of_mem_rangesFrom {first : Nat} {blocks : List (List Text)} {range : Nat × Nat}
    (h : range ∈ rangesFrom first blocks) : range.1 + range.2 ≤ first + blocks.flatten.length := by
  induction blocks generalizing first with
  | nil => exact absurd h List.not_mem_nil
  | cons block blocks ih =>
    rw [List.flatten_cons, List.length_append]
    rcases List.mem_cons.mp h with rfl | h
    · exact Nat.add_le_add_left (Nat.le_add_right _ _) first
    · have := ih h
      omega

end FlowScript.SourceMap
