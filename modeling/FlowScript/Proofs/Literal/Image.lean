import FlowScript.Proofs.Literal.Value

/-!
# Values as a script sees them

The value that a script should see in place of a JSON value, for any way of seeing its keys. Two
ways give the same value only if they agree on every key in it, at any depth.
-/
namespace FlowScript

namespace Json

mutual

/-- A value and everything inside it. -/
def subvalues : Json → List Json
  | arr xs => arr xs :: subvaluesOfItems xs
  | obj ms => obj ms :: subvaluesOfMembers ms
  | v => [v]

def subvaluesOfItems : List Json → List Json
  | [] => []
  | x :: xs => subvalues x ++ subvaluesOfItems xs

def subvaluesOfMembers : List (Text × Json) → List Json
  | [] => []
  | (_, v) :: ms => subvalues v ++ subvaluesOfMembers ms

end

@[simp] theorem subvalues_arr (xs : List Json) :
    (arr xs).subvalues = arr xs :: xs.flatMap subvalues := by
  have hitems : subvaluesOfItems xs = xs.flatMap subvalues := by
    induction xs with
    | nil => rfl
    | cons x xs ih => rw [subvaluesOfItems, ih, List.flatMap_cons]
  rw [subvalues, hitems]

@[simp] theorem subvalues_obj (ms : List (Text × Json)) :
    (obj ms).subvalues = obj ms :: ms.flatMap fun m => m.2.subvalues := by
  have hmembers : subvaluesOfMembers ms = ms.flatMap fun m => m.2.subvalues := by
    induction ms with
    | nil => rfl
    | cons m ms ih => rw [subvaluesOfMembers, ih, List.flatMap_cons]
  rw [subvalues, hmembers]

theorem self_mem_subvalues (v : Json) : v ∈ v.subvalues := by
  cases v <;> simp [subvalues]

theorem subvalues_subset_arr {x : Json} {xs : List Json} (h : x ∈ xs) :
    x.subvalues ⊆ (arr xs).subvalues := by
  intro w hw
  rw [subvalues_arr]
  exact List.mem_cons_of_mem _ (List.mem_flatMap.mpr ⟨x, h, hw⟩)

theorem subvalues_subset_obj {m : Text × Json} {ms : List (Text × Json)} (h : m ∈ ms) :
    m.2.subvalues ⊆ (obj ms).subvalues := by
  intro w hw
  rw [subvalues_obj]
  exact List.mem_cons_of_mem _ (List.mem_flatMap.mpr ⟨m, h, hw⟩)

/-- The cases of an induction over values; an array may count on its elements, an object on the
values of its members. -/
structure Cases (P : Json → Prop) : Prop where
  null : P null
  bool : ∀ b, P (bool b)
  num : ∀ n, P (num n)
  nonFinite : ∀ x, P (nonFinite x)
  str : ∀ t, P (str t)
  arr : ∀ xs, (∀ x ∈ xs, P x) → P (arr xs)
  obj : ∀ ms, (∀ m ∈ ms, P m.2) → P (obj ms)

mutual

theorem Cases.value {P : Json → Prop} (h : Cases P) : (v : Json) → P v
  | .null => h.null
  | .bool b => h.bool b
  | .num n => h.num n
  | .nonFinite x => h.nonFinite x
  | .str t => h.str t
  | .arr xs => h.arr xs (h.items xs)
  | .obj ms => h.obj ms (h.members ms)

theorem Cases.items {P : Json → Prop} (h : Cases P) : (xs : List Json) → ∀ x ∈ xs, P x
  | [] => nofun
  | x :: xs => List.forall_mem_cons.mpr ⟨h.value x, h.items xs⟩

theorem Cases.members {P : Json → Prop} (h : Cases P) :
    (ms : List (Text × Json)) → ∀ m ∈ ms, P m.2
  | [] => nofun
  | (_, v) :: ms => List.forall_mem_cons.mpr ⟨h.value v, h.members ms⟩

end

/-- The keys of the objects in a value, at any depth. -/
def keys (v : Json) : List Text :=
  v.subvalues.flatMap fun w => match w with
    | obj ms => ms.map Prod.fst
    | _ => []

theorem keys_arr (xs : List Json) : (arr xs).keys = xs.flatMap keys := by
  rw [keys, subvalues_arr, List.flatMap_cons, List.nil_append, List.flatMap_assoc]
  rfl

theorem keys_obj (ms : List (Text × Json)) :
    (obj ms).keys = ms.map Prod.fst ++ ms.flatMap fun m => m.2.keys := by
  rw [keys, subvalues_obj, List.flatMap_cons, List.flatMap_assoc]
  rfl

/-- No double in the value is not a number, at any depth. -/
def IsFinite (v : Json) : Prop := ∀ x, nonFinite x ∉ v.subvalues

theorem IsFinite.item {xs : List Json} (h : (arr xs).IsFinite) {x : Json} (hx : x ∈ xs) :
    x.IsFinite := fun y hy => h y (subvalues_subset_arr hx hy)

theorem IsFinite.member {ms : List (Text × Json)} (h : (obj ms).IsFinite) {m : Text × Json}
    (hm : m ∈ ms) : m.2.IsFinite := fun y hy => h y (subvalues_subset_obj hm hy)

end Json

namespace Value

mutual

/-- What a script sees of a value when it sees its keys as `key` says. The doubles that are no
number have no literal. -/
def ofJson (key : Text → Option (List Nat)) : Json → Option Value
  | .null => some .null
  | .bool b => some (.bool b)
  | .num n => some (.number n.value)
  | .nonFinite _ => none
  | .str t => some (.text t.units)
  | .arr xs => (ofItems key xs).map .array
  | .obj ms => (ofMembers key ms).map .object

def ofItems (key : Text → Option (List Nat)) : List Json → Option (List Value)
  | [] => some []
  | x :: xs => do
    let x ← ofJson key x
    let xs ← ofItems key xs
    some (x :: xs)

def ofMembers (key : Text → Option (List Nat)) :
    List (Text × Json) → Option (List (List Nat × Value))
  | [] => some []
  | (k, v) :: ms => do
    let k ← key k
    let v ← ofJson key v
    let ms ← ofMembers key ms
    some ((k, v) :: ms)

end

/-- A member as a script sees it. -/
def ofMember (key : Text → Option (List Nat)) (m : Text × Json) : Option (List Nat × Value) := do
  let k ← key m.1
  let v ← ofJson key m.2
  some (k, v)

variable {f g : Text → Option (List Nat)}

theorem ofJson_arr (xs : List Json) :
    ofJson f (.arr xs) = (xs.mapM (ofJson f)).map .array := by
  have hitems : ofItems f xs = xs.mapM (ofJson f) := by
    induction xs with
    | nil => rfl
    | cons x xs ih => rw [ofItems, ih, List.mapM_cons]; rfl
  rw [ofJson, hitems]

theorem ofJson_obj (ms : List (Text × Json)) :
    ofJson f (.obj ms) = (ms.mapM (ofMember f)).map .object := by
  have hmembers : ofMembers f ms = ms.mapM (ofMember f) := by
    induction ms with
    | nil => rfl
    | cons m ms ih =>
      rw [ofMembers, ih, List.mapM_cons, ofMember]
      cases f m.1 with
      | none => rfl
      | some k => cases ofJson f m.2 <;> rfl
  rw [ofJson, hmembers]

theorem isSome_of_mapM {α β : Type} {g : α → Option β} {xs : List α} (h : (xs.mapM g).isSome) :
    ∀ x ∈ xs, (g x).isSome := by
  induction xs with
  | nil => exact nofun
  | cons x xs ih =>
    rw [List.mapM_cons] at h
    cases hx : g x with
    | none =>
      rw [hx] at h
      exact nomatch h
    | some y =>
      cases hxs : xs.mapM g with
      | none =>
        rw [hx, hxs] at h
        exact nomatch h
      | some ys =>
        rw [hxs] at ih
        exact List.forall_mem_cons.mpr ⟨by rw [hx]; rfl, ih rfl⟩

section
variable {α β : Type} {f g : α → Option β} {xs : List α} (hg : ∀ x ∈ xs, (g x).isSome)
include hg

theorem mapM_isSome : (xs.mapM g).isSome := by
  induction xs with
  | nil => rfl
  | cons x xs ih =>
    obtain ⟨hx, hxs⟩ := List.forall_mem_cons.mp hg
    obtain ⟨y, hy⟩ := Option.isSome_iff_exists.mp hx
    obtain ⟨ys, hys⟩ := Option.isSome_iff_exists.mp (ih hxs)
    rw [List.mapM_cons, hy, hys]
    rfl

/-- Lists of results agree only if each result does, once one of the lists exists. -/
theorem mapM_eq_mapM_iff : xs.mapM f = xs.mapM g ↔ ∀ x ∈ xs, f x = g x := by
  induction xs with
  | nil => simp
  | cons x xs ih =>
    obtain ⟨hx, hxs⟩ := List.forall_mem_cons.mp hg
    obtain ⟨y, hy⟩ := Option.isSome_iff_exists.mp hx
    obtain ⟨ys, hys⟩ := Option.isSome_iff_exists.mp (mapM_isSome hxs)
    rw [List.forall_mem_cons, ← ih hxs, List.mapM_cons, List.mapM_cons, hy, hys]
    cases f x <;> cases xs.mapM f <;> simp

end

theorem ofMember_isSome {m : Text × Json} (hkey : (g m.1).isSome) (hvalue : (ofJson g m.2).isSome) :
    (ofMember g m).isSome := by
  obtain ⟨k, hk⟩ := Option.isSome_iff_exists.mp hkey
  obtain ⟨v, hv⟩ := Option.isSome_iff_exists.mp hvalue
  rw [ofMember, hk, hv]
  rfl

/-- A value that is seen is finite. -/
theorem isFinite_of_isSome {v : Json} (h : (ofJson f v).isSome) : v.IsFinite := by
  have hcases : Json.Cases fun v => (ofJson f v).isSome → v.IsFinite := {
    null := fun _ => by simp [Json.IsFinite, Json.subvalues]
    bool := fun _ _ => by simp [Json.IsFinite, Json.subvalues]
    num := fun _ _ => by simp [Json.IsFinite, Json.subvalues]
    nonFinite := fun _ h => nomatch h
    str := fun _ _ => by simp [Json.IsFinite, Json.subvalues]
    arr := fun xs ih h x hx => by
      rw [ofJson_arr, Option.isSome_map] at h
      rw [Json.subvalues_arr, List.mem_cons, List.mem_flatMap] at hx
      obtain ⟨⟨⟩⟩ | ⟨y, hy, hx⟩ := hx
      exact ih y hy (isSome_of_mapM h y hy) x hx
    obj := fun ms ih h x hx => by
      rw [ofJson_obj, Option.isSome_map] at h
      rw [Json.subvalues_obj, List.mem_cons, List.mem_flatMap] at hx
      obtain ⟨⟨⟩⟩ | ⟨m, hm, hx⟩ := hx
      have hmember := isSome_of_mapM h m hm
      rw [ofMember] at hmember
      refine ih m hm ?_ x hx
      cases hv : ofJson f m.2 with
      | some v => rfl
      | none =>
        rw [hv] at hmember
        cases hk : f m.1 <;> simp [hk] at hmember }
  exact hcases.value v h

theorem ofMember_eq_ofMember_iff {m : Text × Json} (hkey : (g m.1).isSome)
    (hvalue : (ofJson g m.2).isSome) :
    ofMember f m = ofMember g m ↔ f m.1 = g m.1 ∧ ofJson f m.2 = ofJson g m.2 := by
  obtain ⟨k, hk⟩ := Option.isSome_iff_exists.mp hkey
  obtain ⟨v, hv⟩ := Option.isSome_iff_exists.mp hvalue
  rw [ofMember, ofMember, hk, hv]
  cases f m.1 <;> cases ofJson f m.2 <;> simp

section
variable (hg : ∀ k, (g k).isSome)
include hg

/-- Only the doubles that are no number are not seen. -/
theorem ofJson_isSome {v : Json} (hv : v.IsFinite) : (ofJson g v).isSome := by
  have hcases : Json.Cases fun v => v.IsFinite → (ofJson g v).isSome := {
    null := fun _ => rfl
    bool := fun _ _ => rfl
    num := fun _ _ => rfl
    nonFinite := fun x hx => absurd (Json.self_mem_subvalues _) (hx x)
    str := fun _ _ => rfl
    arr := fun xs ih hxs => by
      rw [ofJson_arr, Option.isSome_map]
      exact mapM_isSome fun x hx => ih x hx (hxs.item hx)
    obj := fun ms ih hms => by
      rw [ofJson_obj, Option.isSome_map]
      exact mapM_isSome fun m hm => ofMember_isSome (hg m.1) (ih m hm (hms.member hm)) }
  exact hcases.value v hv

/-- A script that sees some key otherwise sees the value otherwise. -/
theorem ofJson_eq_ofJson_iff {v : Json} (hv : v.IsFinite) :
    ofJson f v = ofJson g v ↔ ∀ k ∈ v.keys, f k = g k := by
  have hcases : Json.Cases fun v => v.IsFinite →
      (ofJson f v = ofJson g v ↔ ∀ k ∈ v.keys, f k = g k) := {
    null := fun _ => by simp [ofJson, Json.keys, Json.subvalues]
    bool := fun _ _ => by simp [ofJson, Json.keys, Json.subvalues]
    num := fun _ _ => by simp [ofJson, Json.keys, Json.subvalues]
    nonFinite := fun x hx => absurd (Json.self_mem_subvalues _) (hx x)
    str := fun _ _ => by simp [ofJson, Json.keys, Json.subvalues]
    arr := fun xs ih hxs => by
      have hsome x (hx : x ∈ xs) := ofJson_isSome hg (hxs.item hx)
      rw [ofJson_arr, ofJson_arr, (Option.map_injective fun _ _ => Value.array.inj).eq_iff,
        mapM_eq_mapM_iff hsome, Json.keys_arr, List.forall_mem_flatMap]
      exact forall₂_congr fun x hx => ih x hx (hxs.item hx)
    obj := fun ms ih hms => by
      have hvalue m (hm : m ∈ ms) := ofJson_isSome hg (hms.member hm)
      have hsome m (hm : m ∈ ms) := ofMember_isSome (hg m.1) (hvalue m hm)
      rw [ofJson_obj, ofJson_obj, (Option.map_injective fun _ _ => Value.object.inj).eq_iff,
        mapM_eq_mapM_iff hsome, Json.keys_obj, List.forall_mem_append, List.forall_mem_map,
        List.forall_mem_flatMap, ← forall₂_and]
      refine forall₂_congr fun m hm => ?_
      rw [ofMember_eq_ofMember_iff (hg m.1) (hvalue m hm), ih m hm (hms.member hm)] }
  exact hcases.value v hv

end

end Value

end FlowScript
