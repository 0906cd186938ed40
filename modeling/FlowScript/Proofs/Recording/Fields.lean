import Mathlib.Data.List.Forall2
import FlowScript.Recording.Reader

/-!
# What a field reads as

For every way of reading a field, the exact condition on the field under which it gives a value.
-/
namespace FlowScript

section Except
variable {ε α β : Type}

theorem bind_eq_ok_iff {x : Except ε α} {f : α → Except ε β} {b : β} :
    x >>= f = .ok b ↔ ∃ a, x = .ok a ∧ f a = .ok b := by
  cases x <;> simp [bind, Except.bind]

theorem map_eq_ok_iff {x : Except ε α} {f : α → β} {b : β} :
    f <$> x = .ok b ↔ ∃ a, x = .ok a ∧ f a = b := by
  cases x <;> simp [Functor.map, Except.map]

theorem pure_eq_ok_iff {a b : α} : (pure a : Except ε α) = .ok b ↔ a = b := by
  simp [pure, Except.pure]

theorem throw_ne_ok {e : ε} {a : α} : (throw e : Except ε α) ≠ .ok a := nofun

theorem mapM_eq_ok_iff {f : α → Except ε β} {xs : List α} {ys : List β} :
    xs.mapM f = .ok ys ↔ List.Forall₂ (fun x y => f x = .ok y) xs ys := by
  induction xs generalizing ys with
  | nil => rw [List.mapM_nil, pure_eq_ok_iff, List.forall₂_nil_left_iff, eq_comm]
  | cons x xs ih =>
    simp only [List.mapM_cons, bind_eq_ok_iff, pure_eq_ok_iff, List.forall₂_cons_left_iff, ih]
    constructor
    · rintro ⟨y, hy, ys', hys, rfl⟩
      exact ⟨y, ys', hy, hys, rfl⟩
    · rintro ⟨y, ys', hy, hys, rfl⟩
      exact ⟨y, hy, ys', hys, rfl⟩

/-- Reading every element undoes writing every element. -/
theorem mapM_eq_ok_iff_map {read : α → Except ε β} {write : β → α}
    (h : ∀ x y, read x = .ok y ↔ x = write y) {xs : List α} {ys : List β} :
    xs.mapM read = .ok ys ↔ xs = ys.map write := by
  rw [mapM_eq_ok_iff]
  constructor
  · intro hread
    induction hread with
    | nil => rfl
    | cons hx _ ih => rw [List.map_cons, (h _ _).mp hx, ih]
  · rintro rfl
    induction ys with
    | nil => exact .nil
    | cons y ys ih => exact .cons ((h _ _).mpr rfl) ih

/-- Lists whose elements are read alike are read alike. -/
theorem mapM_congr {read : α → Except ε β} {R : α → α → Prop}
    (hread : ∀ x y, R x y → read x = read y) {xs ys : List α} (h : List.Forall₂ R xs ys) :
    xs.mapM read = ys.mapM read := by
  induction h with
  | nil => rfl
  | cons hx _ ih => rw [List.mapM_cons, List.mapM_cons, hread _ _ hx, ih]

end Except

/-- A number that can be told to be finite. -/
def Number.IsJudged : Number → Prop
  | int n => n.natAbs < Double.overflowBound
  | double _ => True

namespace Json

theorem finite?_eq_some_iff {v : Json} {n : Number} :
    v.finite? = .ok (some n) ↔ v = .num n ∧ n.IsJudged := by
  cases v with
  | num m =>
    cases m with
    | int k =>
      rw [finite?]
      split
      · next h =>
        constructor
        · exact nofun
        · rintro ⟨hk, hn⟩
          cases hk
          exact absurd h (Nat.not_le.mpr hn)
      · next h =>
        constructor
        · intro hk
          cases hk
          exact ⟨rfl, Nat.not_le.mp h⟩
        · rintro ⟨hk, -⟩
          cases hk
          rfl
    | double d =>
      rw [finite?]
      constructor
      · intro hd
        cases hd
        exact ⟨rfl, trivial⟩
      · rintro ⟨hd, -⟩
        cases hd
        rfl
  | _ => exact ⟨nofun, fun h => nomatch h.1⟩

theorem finite?_eq_none_iff {v : Json} : v.finite? = .ok none ↔ ∀ n, v ≠ .num n := by
  cases v with
  | num m =>
    refine ⟨fun h => ?_, fun h => absurd rfl (h m)⟩
    cases m with
    | int k =>
      rw [finite?] at h
      split at h <;> exact nomatch h
    | double d => exact nomatch h
  | _ => exact ⟨fun _ _ => nofun, fun _ => rfl⟩

end Json

namespace Fields
variable {f : Fields} {name : Text}

/-- A field that holds a finite number, or is absent. -/
def HoldsNumber (f : Fields) (name : Text) (o : Option Number) : Prop :=
  f name = o.map .num ∧ ∀ n ∈ o, n.IsJudged

theorem holdsNumber_some {n : Number} :
    f.HoldsNumber name (some n) ↔ f name = some (.num n) ∧ n.IsJudged := by
  simp [HoldsNumber]

theorem number_eq_ok_iff {n : Number} : f.number name = .ok n ↔ f.HoldsNumber name (some n) := by
  rw [number, holdsNumber_some]
  cases h : f name with
  | none => exact ⟨nofun, fun h => nomatch h.1⟩
  | some v =>
    simp only [bind_eq_ok_iff, Option.some.injEq]
    constructor
    · rintro ⟨o, ho, hn⟩
      cases o with
      | none => exact absurd hn throw_ne_ok
      | some m =>
        obtain rfl := pure_eq_ok_iff.mp hn
        exact Json.finite?_eq_some_iff.mp ho
    · intro hv
      exact ⟨some n, Json.finite?_eq_some_iff.mpr hv, rfl⟩

theorem text_eq_ok_iff {t : Text} : f.text name = .ok t ↔ f name = some (.str t) := by
  rw [text]
  split
  · next h => simp [h, pure_eq_ok_iff]
  · next h => exact ⟨nofun, fun ht => absurd ht (h t)⟩

theorem boolean_eq_ok_iff {b : Bool} : f.boolean name = .ok b ↔ f name = some (.bool b) := by
  rw [boolean]
  split
  · next h => simp [h, pure_eq_ok_iff]
  · next h => exact ⟨nofun, fun hb => absurd hb (h b)⟩

/-- An optional field is absent, or reads as it would if it were required. -/
theorem optional_eq_ok_iff {α : Type} {read : Fields → Text → Except Defect α} {o : Option α} :
    f.optional read name = .ok o ↔
      (f name = none ∧ o = none) ∨ ∃ a, o = some a ∧ (f name).isSome ∧ read f name = .ok a := by
  rw [optional]
  cases h : f name with
  | none =>
    rw [pure_eq_ok_iff]
    simp [eq_comm]
  | some v =>
    rw [map_eq_ok_iff]
    simp [eq_comm, and_comm]

theorem optional_number_eq_ok_iff {o : Option Number} :
    f.optional number name = .ok o ↔ f.HoldsNumber name o := by
  rw [optional_eq_ok_iff]
  cases o with
  | none => simp [HoldsNumber]
  | some n =>
    simp only [number_eq_ok_iff, holdsNumber_some]
    grind

theorem optional_text_eq_ok_iff {o : Option Text} :
    f.optional text name = .ok o ↔ f name = o.map .str := by
  rw [optional_eq_ok_iff]
  cases o with
  | none => simp
  | some t =>
    simp only [text_eq_ok_iff]
    grind

theorem optional_boolean_eq_ok_iff {o : Option Bool} :
    f.optional boolean name = .ok o ↔ f name = o.map .bool := by
  rw [optional_eq_ok_iff]
  cases o with
  | none => simp
  | some b =>
    simp only [boolean_eq_ok_iff]
    grind

/-- A field that names a value; an empty one, like an absent one, names none. -/
def Names {α : Type} (ofName? : Text → Option α) (f : Fields) (name : Text) : Option α → Prop
  | none => f name = none ∨ f name = some (.str [])
  | some a => ∃ t, f name = some (.str t) ∧ t ≠ [] ∧ ofName? t = some a

theorem choice_eq_ok_iff {α : Type} {ofName? : Text → Option α} {defect : Defect} {o : Option α} :
    f.choice ofName? defect name = .ok o ↔ f.Names ofName? name o := by
  rw [choice, bind_eq_ok_iff]
  simp only [optional_text_eq_ok_iff]
  constructor
  · rintro ⟨t?, hfield, h⟩
    cases t? with
    | none =>
      obtain rfl := pure_eq_ok_iff.mp h
      exact .inl hfield
    | some t =>
      cases t with
      | nil =>
        obtain rfl := pure_eq_ok_iff.mp h
        exact .inr hfield
      | cons c t =>
        simp only [List.isEmpty_cons, Bool.false_eq_true, if_false] at h
        split at h
        · next a ha =>
          obtain rfl := pure_eq_ok_iff.mp h
          exact ⟨c :: t, hfield, List.cons_ne_nil c t, ha⟩
        · exact absurd h throw_ne_ok
  · intro h
    cases o with
    | none =>
      rcases h with h | h
      · exact ⟨none, h, rfl⟩
      · exact ⟨some [], h, rfl⟩
    | some a =>
      obtain ⟨t, hfield, hne, ha⟩ := h
      refine ⟨some t, hfield, ?_⟩
      simp only [List.isEmpty_iff, hne, if_false, ha]
      rfl

section Congr
variable {f g : Fields} {name : Text}

/-! What reads one field gives the same where that field is the same. -/

theorem number_congr (h : f name = g name) : f.number name = g.number name := by
  rw [number, h, number]

theorem text_congr (h : f name = g name) : f.text name = g.text name := by
  rw [text, h, text]

theorem boolean_congr (h : f name = g name) : f.boolean name = g.boolean name := by
  rw [boolean, h, boolean]

theorem optional_congr {α : Type} {read : Fields → Text → Except Defect α}
    (hread : read f name = read g name) (h : f name = g name) :
    f.optional read name = g.optional read name := by
  rw [optional, h, hread, optional]

theorem optional_number_congr (h : f name = g name) :
    f.optional number name = g.optional number name :=
  optional_congr (number_congr h) h

theorem optional_text_congr (h : f name = g name) : f.optional text name = g.optional text name :=
  optional_congr (text_congr h) h

theorem optional_boolean_congr (h : f name = g name) :
    f.optional boolean name = g.optional boolean name :=
  optional_congr (boolean_congr h) h

theorem choice_congr {α : Type} {ofName? : Text → Option α} {defect : Defect}
    (h : f name = g name) : f.choice ofName? defect name = g.choice ofName? defect name := by
  rw [choice, optional_text_congr h, choice]

end Congr

end Fields

section Congr
variable {f g : Fields}

theorem Alternatives.ofFields_congr (h : f "selectors" = g "selectors") :
    ofFields f = ofFields g := by
  rw [ofFields, h, ofFields]

theorem ElementWait.attributesOfFields_congr (h : f "attributes" = g "attributes") :
    attributesOfFields f = attributesOfFields g := by
  rw [attributesOfFields, h, attributesOfFields]

theorem ElementWait.propertiesOfFields_congr (h : f "properties" = g "properties") :
    propertiesOfFields f = propertiesOfFields g := by
  rw [propertiesOfFields, h, propertiesOfFields]

end Congr

end FlowScript
