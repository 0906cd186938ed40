import FlowScript.Proofs.Json.Number
import FlowScript.Proofs.Recording.Fields
import FlowScript.Script.Piece

/-!
# Kinds of numbers

An integral number may come as an integer or as a double. Values without kinds have the integer in
the place of either, so values that differ in kinds only are the same without them. What a number is
tested for and how it is written is a matter of its value, so no kind shows in it.
-/
namespace FlowScript

namespace Number

/-- A number that equals an integer, as that integer. -/
def kindless (n : Number) : Number :=
  match n.toInt? with
  | some k => int k
  | none => n

theorem value_int (k : Int) : (int k).value = k := Rat.mkRat_one k

theorem value_eq_of_toInt? {n : Number} {k : Int} (h : n.toInt? = some k) : n.value = k := by
  rw [toInt?] at h
  split at h
  · next hden =>
    rw [← Option.some.inj h]
    exact (Rat.coe_int_num_of_den_eq_one hden).symm
  · cases h

theorem toInt?_int (k : Int) : (int k).toInt? = some k := by
  rw [toInt?, value_int, Rat.den_intCast, if_pos rfl, Rat.num_intCast]

@[simp] theorem kindless_int (k : Int) : (int k).kindless = int k := by
  rw [kindless, toInt?_int]

@[simp] theorem kindless_ofNat (k : Nat) :
    (no_index (OfNat.ofNat k) : Number).kindless = OfNat.ofNat k := kindless_int k

theorem getD_map_kindless (o : Option Number) {default : Number}
    (h : default.kindless = default) :
    (o.map kindless).getD default = (o.getD default).kindless := by
  cases o with
  | none => exact h.symm
  | some n => rfl

@[simp] theorem value_kindless (n : Number) : n.kindless.value = n.value := by
  rw [kindless]
  split
  · next k hk => rw [value_int, value_eq_of_toInt? hk]
  · rfl

/-- Numbers are the same without their kinds if they are the same, or integral and equal. -/
theorem kindless_eq_iff {m n : Number} :
    m.kindless = n.kindless ↔ m = n ∨ m.value = n.value ∧ m.value.den = 1 := by
  constructor
  · intro h
    have hvalue : m.value = n.value := by rw [← value_kindless m, h, value_kindless]
    by_cases hden : m.value.den = 1
    · exact .inr ⟨hvalue, hden⟩
    · left
      rwa [kindless, toInt?, if_neg hden, kindless, toInt?, ← hvalue, if_neg hden] at h
  · rintro (rfl | ⟨hvalue, hden⟩)
    · rfl
    · rw [kindless, kindless, toInt?, toInt?, ← hvalue, if_pos hden]

@[simp] theorem toInt?_kindless (n : Number) : n.kindless.toInt? = n.toInt? := by
  rw [toInt?, value_kindless, toInt?]

@[simp] theorem toNat?_kindless (n : Number) : n.kindless.toNat? = n.toNat? := by
  rw [toNat?, toInt?_kindless, toNat?]

@[simp] theorem isZero_kindless (n : Number) : n.kindless.isZero = n.isZero := by
  rw [isZero, value_kindless, isZero]

@[simp] theorem isTimeout_kindless (n : Number) : n.kindless.isTimeout = n.isTimeout := by
  rw [isTimeout, value_kindless, isTimeout]

/-- A numeral does not show the kind of its number. -/
@[simp] theorem numeral_kindless (n : Number) : n.kindless.numeral = n.numeral := by
  rw [numeral, toInt?_kindless, numeral]
  cases h : n.toInt? with
  | some k => rfl
  | none => rw [kindless, h]

/-- An integer that is a double can be told to be finite, as the double can. -/
theorem IsJudged.kindless {n : Number} (h : n.IsJudged) : n.kindless.IsJudged := by
  cases n with
  | int k => rwa [kindless_int]
  | double d =>
    rw [Number.kindless]
    split
    · next k hk =>
      have hlt := d.natAbs_num_value_lt
      rwa [show d.value = k from value_eq_of_toInt? hk, Rat.num_intCast] at hlt
    · exact h

end Number

namespace Json

mutual

/-- A value whose integral numbers are all integers. -/
def kindless : Json → Json
  | null => null
  | bool b => bool b
  | num n => num n.kindless
  | nonFinite x => nonFinite x
  | str t => str t
  | arr xs => arr (kindlessItems xs)
  | obj ms => obj (kindlessMembers ms)

def kindlessItems : List Json → List Json
  | [] => []
  | x :: xs => kindless x :: kindlessItems xs

def kindlessMembers : List (Text × Json) → List (Text × Json)
  | [] => []
  | (k, v) :: ms => (k, kindless v) :: kindlessMembers ms

end

@[simp] theorem kindless_null : null.kindless = null := rfl

@[simp] theorem kindless_bool (b : Bool) : (bool b).kindless = bool b := rfl

@[simp] theorem kindless_num (n : Number) : (num n).kindless = num n.kindless := rfl

@[simp] theorem kindless_nonFinite (x : NonFinite) : (nonFinite x).kindless = nonFinite x := rfl

@[simp] theorem kindless_str (t : Text) : (str t).kindless = str t := rfl

theorem kindlessItems_eq_map (xs : List Json) : kindlessItems xs = xs.map kindless := by
  induction xs with
  | nil => rfl
  | cons x xs ih => exact congrArg (x.kindless :: ·) ih

theorem kindlessMembers_eq_map (ms : List (Text × Json)) :
    kindlessMembers ms = ms.map fun m => (m.1, m.2.kindless) := by
  induction ms with
  | nil => rfl
  | cons m ms ih => exact congrArg ((m.1, m.2.kindless) :: ·) ih

@[simp] theorem kindless_arr (xs : List Json) : (arr xs).kindless = arr (xs.map kindless) :=
  congrArg arr (kindlessItems_eq_map xs)

@[simp] theorem kindless_obj (ms : List (Text × Json)) :
    (obj ms).kindless = obj (ms.map fun m => (m.1, m.2.kindless)) :=
  congrArg obj (kindlessMembers_eq_map ms)

@[simp] theorem kindless_int (k : Int) : (int k).kindless = int k :=
  congrArg num (Number.kindless_int k)

theorem kindless_ofFields (fs : List (Text × Option Json)) :
    (ofFields fs).kindless = ofFields (fs.map fun f => (f.1, f.2.map kindless)) := by
  rw [ofFields, kindless_obj, ofFields]
  induction fs with
  | nil => rfl
  | cons f fs ih => cases hf : f.2 <;> simp_all

@[simp] theorem isFalsy_kindless (v : Json) : v.kindless.isFalsy = v.isFalsy := by
  cases v <;> simp [isFalsy]

@[simp] theorem nonNull?_kindless (v : Json) : v.kindless.nonNull? = v.nonNull?.map kindless := by
  cases v <;> simp [nonNull?]

theorem find?_map_kindless (name : Text) (ms : List (Text × Json)) :
    find? name (ms.map fun m => (m.1, m.2.kindless)) = (find? name ms).map kindless := by
  induction ms with
  | nil => rfl
  | cons m ms ih =>
    rw [List.map_cons, find?, find?, ih]
    split <;> rfl

end Json

/-- Fields whose integral numbers are all integers. -/
def Fields.kindless (f : Fields) : Fields := fun name => (f name).map Json.kindless

theorem Json.fields_kindless (ms : List (Text × Json)) :
    fields (ms.map fun m => (m.1, m.2.kindless)) = (fields ms).kindless := by
  funext name
  rw [fields, find?_map_kindless, Fields.kindless, fields]
  cases find? name ms with
  | none => rfl
  | some v => exact v.nonNull?_kindless

end FlowScript
