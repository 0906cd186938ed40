import FlowScript.Proofs.Recording.Timeout

/-!
# The first defect

A recording is read from its header and then from one step after another. What is wrong first is
reported, whatever comes after it. Where a step stands shows in nothing but the label of a message.
-/
namespace FlowScript

/-- The first of the listed faults that is there is this defect. -/
def IsFirstFault (d : Defect) (faults : List (Defect × Prop)) : Prop :=
  Reaches (fun p => ¬ p.2) (fun p => p.2 ∧ p.1 = d) faults

section Faults
variable {faults : List (Defect × Prop)} {d d' : Defect}

theorem IsFirstFault.unique (h : IsFirstFault d faults) (h' : IsFirstFault d' faults) : d = d' := by
  induction faults with
  | nil => exact h.elim
  | cons p faults ih =>
    rcases h with ⟨hp, rfl⟩ | ⟨hp, h⟩
    · rcases h' with ⟨-, rfl⟩ | ⟨hp', -⟩
      · rfl
      · exact absurd hp hp'
    · rcases h' with ⟨hp', -⟩ | ⟨-, h'⟩
      · exact absurd hp' hp
      · exact ih h h'

theorem not_isFirstFault (h : ∀ p ∈ faults, ¬ p.2) : ¬ IsFirstFault d faults := by
  induction faults with
  | nil => exact id
  | cons p faults ih =>
    obtain ⟨hp, hfaults⟩ := List.forall_mem_cons.mp h
    rintro (⟨hp', -⟩ | ⟨-, h'⟩)
    · exact hp hp'
    · exact ih hfaults h'

end Faults

namespace Step

/-- Reading a list fails as its first element that fails does in its place, whatever comes after. -/
theorem listOfJson_eq_error_iff {index : Nat} {xs : List Json} {d : Defect} :
    listOfJson index xs = .error d ↔ ∃ before x after, xs = before ++ x :: after ∧
      (∀ y ∈ before, ∃ s, ofJson none y = .ok s) ∧
      ofJson (some (index + before.length : Nat)) x = .error d := by
  induction xs generalizing index with
  | nil => simp [listOfJson]
  | cons x xs ih =>
    have hread : (∃ s, ofJson (some (index : Int)) x = .ok s) ↔ ∃ s, ofJson none x = .ok s := by
      simp only [ofJson_eq_ok_iff]
    have hcons : listOfJson index (x :: xs) = .error d ↔ ofJson (some (index : Int)) x = .error d ∨
        (∃ s, ofJson none x = .ok s) ∧ listOfJson (index + 1) xs = .error d := by
      simp only [listOfJson, bind_eq_error_iff, pure_ne_error, and_false, exists_false, or_false,
        exists_and_right, hread]
    rw [hcons, ih]
    constructor
    · rintro (h | ⟨hx, before, y, after, rfl, hbefore, hy⟩)
      · exact ⟨[], x, xs, rfl, List.forall_mem_nil _, h⟩
      · refine ⟨x :: before, y, after, rfl, List.forall_mem_cons.mpr ⟨hx, hbefore⟩, ?_⟩
        rwa [List.length_cons, Nat.add_comm before.length, ← Nat.add_assoc]
    · rintro ⟨before, y, after, hxs, hbefore, hy⟩
      cases before with
      | nil =>
        obtain ⟨rfl, rfl⟩ := List.cons.inj hxs
        exact .inl hy
      | cons x' before =>
        obtain ⟨rfl, rfl⟩ := List.cons.inj hxs
        obtain ⟨hx, hbefore⟩ := List.forall_mem_cons.mp hbefore
        rw [List.length_cons, Nat.add_comm before.length, ← Nat.add_assoc] at hy
        exact .inr ⟨hx, before, y, after, rfl, hbefore, hy⟩

/-- A value is refused in every place with a defect of one kind, whose message tells the place by
its label. -/
def RefusedByLabel (v : Json) : Prop :=
  ∃ kind before after, ∀ index, ∃ d, ofJson index v = .error d ∧ d.kind = kind ∧
    d.message = before ++ (stepLabel index).drop 1 ++ after

theorem stepLabel_eq (index : Option Int) :
    stepLabel index = ("S" : Text) ++ (stepLabel index).drop 1 := by
  cases index <;> rfl

/-- What a value is read as, or what is wrong with it, is the same in every place, but for the label
in a message. -/
theorem ofJson_index (v : Json) : (∃ s, ∀ index, ofJson index v = .ok s) ∨
    (∃ d, ∀ index, ofJson index v = .error d) ∨ RefusedByLabel v := by
  cases v with
  | obj ms =>
    simp only [RefusedByLabel, ofJson]
    split
    · exact .inr (.inr ⟨.shape, "S", " does not have a type", fun index =>
        ⟨.stepWithoutType index, rfl, rfl, congrArg (· ++ _) (stepLabel_eq index)⟩⟩)
    · next name _ =>
      cases StepType.ofName? name with
      | none => exact .inr (.inl ⟨_, fun _ => rfl⟩)
      | some type =>
        dsimp only
        cases ofFields (Json.fields ms) type with
        | ok s => exact .inl ⟨s, fun _ => rfl⟩
        | error d => exact .inr (.inl ⟨d, fun _ => rfl⟩)
    · exact .inr (.inr ⟨.unknownVariant, "Type of s", " is not a string", fun index =>
        ⟨.stepTypeNotText index, rfl, rfl, rfl⟩⟩)
  | _ =>
    exact .inr (.inr ⟨.shape, "S", " is not an object", fun index =>
      ⟨.stepNotObject index, rfl, rfl, congrArg (· ++ _) (stepLabel_eq index)⟩⟩)

end Step

namespace Recording
open Schema
variable {f : Fields} {v : Json} {xs : List Json} {d : Defect}

/-- What may be wrong with a recording apart from its steps, in the order in which it is looked
for. -/
def headerFaults (f : Fields) : List (Defect × Prop) :=
  [(.titleMissing, f "title" = none),
    (.titleNotText, required (fun v => ¬ IsText v) (f "title")),
    (.integerTooLarge, required Json.IsLarge (f "timeout")),
    (.timeoutNotNumber, required (fun v => ¬ IsNumber v) (f "timeout")),
    (.stepsMissing, f "steps" = none),
    (.timeoutOutOfBounds, required (fun v => ¬ IsTimeout v) (f "timeout")),
    (.stepsNotList, required (fun v => ∀ xs, v ≠ .arr xs) (f "steps"))]

/-- What is no object is refused as such, and an object for the first fault of its header. -/
def HeaderFails (d : Defect) : Json → Prop
  | .obj ms => IsFirstFault d (headerFaults (Json.fields ms))
  | _ => d = .recordingNotObject

/-- A title, a timeout within its bounds or none, and a list of anything as steps. -/
structure HeaderHolds (f : Fields) (xs : List Json) : Prop where
  title : required IsText (f "title")
  timeout : optional (fun v => IsNumber v ∧ IsTimeout v) (f "timeout")
  steps : f "steps" = some (.arr xs)

/-- An object with a header that holds and these steps. -/
def HasHeader (v : Json) (xs : List Json) : Prop :=
  ∃ ms, v = .obj ms ∧ HeaderHolds (Json.fields ms) xs

theorem timeoutOfFields_eq_error_iff : timeoutOfFields f = .error d ↔
    (required Json.IsLarge (f "timeout") ∧ d = .integerTooLarge) ∨
      required (fun v => ¬ IsNumber v) (f "timeout") ∧ d = .timeoutNotNumber := by
  rw [timeoutOfFields]
  cases f "timeout" with
  | none => simp [required]
  | some v =>
    simp only [required, Option.some.injEq, exists_eq_left', bind_eq_error_iff,
      Json.finite?_eq_error_iff, IsNumber, not_exists, ← Json.finite?_eq_none_iff]
    apply or_congr_right
    constructor
    · rintro ⟨o, ho, hd⟩
      cases o with
      | none => exact ⟨ho, (throw_eq_error_iff.mp hd).symm⟩
      | some n => exact absurd hd pure_ne_error
    · rintro ⟨hv, rfl⟩
      exact ⟨none, hv, rfl⟩

theorem not_required_iff {shape : Json → Prop} {o : Option Json} :
    ¬ required shape o ↔ Schema.optional (fun v => ¬ shape v) o := by
  rw [required, Schema.optional]
  simp only [not_exists, not_and]

/-- A timeout that was read is a number that can be judged, or absent. -/
theorem optional_of_timeoutOfFields {timeout : Option Number}
    (h : timeoutOfFields f = .ok timeout) :
    optional (fun v => IsNumber v ∧ ¬ v.IsLarge) (f "timeout") := by
  obtain ⟨hvalue, hjudged⟩ := timeoutOfFields_eq_ok_iff.mp h
  rw [hvalue]
  cases timeout with
  | none => exact optional_none
  | some n => exact optional_some.mpr (Check.judged_number_iff.mpr ⟨n, rfl, hjudged n rfl⟩)

/-- The recording with this title and this timeout, and with the steps of a list. -/
def ofSteps (f : Fields) (title : Text) (timeout : Option Number) (xs : List Json) :
    Except Defect Recording :=
  (fun steps => ⟨title, steps, timeout, selectorAttributeOfFields f⟩) <$> Step.listOfJson 0 xs

/-- The bounds of the timeout are judged before it is asked whether the steps are a list. -/
theorem ofFields_of_steps {title : Text} {timeout : Option Number} {steps : Json}
    (htitle : f "title" = some (.str title)) (htimeout : timeoutOfFields f = .ok timeout)
    (hsteps : f "steps" = some steps) :
    ofFields f = if timeout.any fun n => !n.isTimeout then .error .timeoutOutOfBounds else
      match steps with
      | .arr xs => ofSteps f title timeout xs
      | _ => .error .stepsNotList := by
  simp only [ofFields, htitle, htimeout, hsteps]
  cases steps <;> rfl

/-- With a title and a timeout, a recording is refused for its header, or its steps are read. -/
theorem ofFields_outcome_of_timeout {title : Text} {timeout : Option Number}
    (htitle : f "title" = some (.str title)) (htimeout : timeoutOfFields f = .ok timeout) :
    (∃ d, IsFirstFault d ((headerFaults f).drop 4) ∧ ofFields f = .error d) ∨
      ∃ xs, HeaderHolds f xs ∧ ofFields f = ofSteps f title timeout xs := by
  have hbounds := bounded_timeout_iff htimeout
  cases hsteps : f "steps" with
  | none =>
    refine .inl ⟨.stepsMissing, .inl ⟨hsteps, rfl⟩, ?_⟩
    simp only [ofFields, htitle, htimeout, hsteps]
    rfl
  | some steps =>
    rw [ofFields_of_steps htitle htimeout hsteps]
    have hpresent : ¬ f "steps" = none := by simp [hsteps]
    by_cases hany : (timeout.any fun n => !n.isTimeout) = true
    · have hout : required (fun v => ¬ IsTimeout v) (f "timeout") := by
        refine not_not.mp fun h => ?_
        simp only [not_required_iff, not_not] at h
        simp [hbounds.mpr h] at hany
      exact .inl ⟨.timeoutOutOfBounds, .inr ⟨hpresent, .inl ⟨hout, rfl⟩⟩, if_pos hany⟩
    · have hin := hbounds.mp (by simpa using hany)
      have hnotout : ¬ required (fun v => ¬ IsTimeout v) (f "timeout") := by
        rw [not_required_iff]
        simpa only [not_not] using hin
      cases steps with
      | arr xs =>
        have hvalue := optional_of_timeoutOfFields htimeout
        have hheader : HeaderHolds f xs :=
          ⟨⟨_, htitle, title, rfl⟩, fun v hv => ⟨(hvalue v hv).1, hin v hv⟩, hsteps⟩
        exact .inr ⟨xs, hheader, if_neg hany⟩
      | _ =>
        have hnotlist : required (fun v => ∀ xs, v ≠ .arr xs) (f "steps") :=
          ⟨_, hsteps, fun _ => Json.noConfusion⟩
        have hfault : IsFirstFault .stepsNotList ((headerFaults f).drop 4) :=
          .inr ⟨hpresent, .inr ⟨hnotout, .inl ⟨hnotlist, rfl⟩⟩⟩
        exact .inl ⟨.stepsNotList, hfault, if_neg hany⟩

/-- A recording is refused for its header, or its steps are read. -/
theorem ofFields_outcome (f : Fields) :
    (∃ d, IsFirstFault d (headerFaults f) ∧ ofFields f = .error d) ∨
      ∃ xs title timeout, HeaderHolds f xs ∧ ofFields f = ofSteps f title timeout xs := by
  by_cases hmissing : f "title" = none
  · refine .inl ⟨.titleMissing, .inl ⟨hmissing, rfl⟩, ?_⟩
    simp only [ofFields, hmissing]
    rfl
  by_cases htext : required (fun v => ¬ IsText v) (f "title")
  · refine .inl ⟨.titleNotText, .inr ⟨hmissing, .inl ⟨htext, rfl⟩⟩, ?_⟩
    obtain ⟨v, hv, hne⟩ := htext
    simp only [ofFields, hv]
    cases v with
    | str t => exact absurd ⟨t, rfl⟩ hne
    | _ => rfl
  obtain ⟨title, htitle⟩ : ∃ title, f "title" = some (.str title) := by
    obtain ⟨v, hv⟩ := Option.ne_none_iff_exists'.mp hmissing
    obtain ⟨t, rfl⟩ := not_not.mp (not_required_iff.mp htext v hv)
    exact ⟨t, hv⟩
  cases htimeout : timeoutOfFields f with
  | error d =>
    refine .inl ⟨d, .inr ⟨hmissing, .inr ⟨htext, ?_⟩⟩, ?_⟩
    · rcases timeoutOfFields_eq_error_iff.mp htimeout with ⟨hlarge, rfl⟩ | ⟨hnumber, rfl⟩
      · exact .inl ⟨hlarge, rfl⟩
      · refine .inr ⟨?_, .inl ⟨hnumber, rfl⟩⟩
        obtain ⟨v, hv, hn⟩ := hnumber
        rintro ⟨w, hw, n, rfl, -⟩
        exact hn ⟨_, Option.some.inj (hv.symm.trans hw)⟩
    · simp only [ofFields, htitle, htimeout]
      rfl
  | ok timeout =>
    have hvalue := optional_of_timeoutOfFields htimeout
    have hlarge : ¬ required Json.IsLarge (f "timeout") :=
      not_required_iff.mpr fun v hv => (hvalue v hv).2
    have hnumber : ¬ required (fun v => ¬ IsNumber v) (f "timeout") :=
      not_required_iff.mpr fun v hv => not_not.mpr (hvalue v hv).1
    rcases ofFields_outcome_of_timeout htitle htimeout with ⟨d, hd, hread⟩ | ⟨xs, hxs, hread⟩
    · exact .inl ⟨d, .inr ⟨hmissing, .inr ⟨htext, .inr ⟨hlarge, .inr ⟨hnumber, hd⟩⟩⟩⟩, hread⟩
    · exact .inr ⟨xs, title, timeout, hxs, hread⟩

/-- A header that holds has no fault. -/
theorem HeaderHolds.not_isFirstFault (h : HeaderHolds f xs) (d : Defect) :
    ¬ IsFirstFault d (headerFaults f) := by
  have hlarge : ¬ required Json.IsLarge (f "timeout") := by
    rintro ⟨v, hv, hlarge⟩
    obtain ⟨⟨n, rfl⟩, hbounds⟩ := h.timeout v hv
    exact Json.isLarge_num.mp hlarge (Number.isJudged_of_bounds (hbounds n rfl))
  have hnumber : ¬ required (fun v => ¬ IsNumber v) (f "timeout") :=
    not_required_iff.mpr fun v hv => not_not.mpr (h.timeout v hv).1
  have hbounds : ¬ required (fun v => ¬ IsTimeout v) (f "timeout") :=
    not_required_iff.mpr fun v hv => not_not.mpr (h.timeout v hv).2
  obtain ⟨_, htitle, title, rfl⟩ := h.title
  apply FlowScript.not_isFirstFault
  simp only [headerFaults, List.forall_mem_cons]
  refine ⟨by simp [htitle], by simp [htitle, required, IsText], hlarge, hnumber,
    by simp [h.steps], hbounds, by simp [h.steps, required], nofun⟩

theorem HasHeader.not_headerFails (h : HasHeader v xs) (d : Defect) : ¬ HeaderFails d v := by
  obtain ⟨ms, rfl, h⟩ := h
  exact h.not_isFirstFault d

theorem HasHeader.eq {ys : List Json} (h : HasHeader v xs) (h' : HasHeader v ys) : xs = ys := by
  obtain ⟨ms, rfl, h⟩ := h
  obtain ⟨_, hms, h'⟩ := h'
  cases hms
  exact Json.arr.inj (Option.some.inj (h.steps.symm.trans h'.steps))

theorem headerFails_unique {d' : Defect} (h : HeaderFails d v) (h' : HeaderFails d' v) :
    d = d' := by
  cases v with
  | obj ms => exact IsFirstFault.unique h h'
  | _ => exact Eq.trans h (Eq.symm h')

/-- A value is refused for its header, or its steps are read. -/
theorem ofJson_outcome (v : Json) : (∃ d, HeaderFails d v ∧ ofJson v = .error d) ∨
    ∃ xs f title timeout, HasHeader v xs ∧ ofJson v = ofSteps f title timeout xs := by
  cases v with
  | obj ms =>
    rcases ofFields_outcome (Json.fields ms) with h | ⟨xs, title, timeout, hxs, hread⟩
    · exact .inl h
    · exact .inr ⟨xs, _, title, timeout, ⟨ms, rfl, hxs⟩, hread⟩
  | _ => exact .inl ⟨_, rfl, rfl⟩

theorem ofSteps_eq_ok_iff {title : Text} {timeout : Option Number} {r : Recording} :
    ofSteps f title timeout xs = .ok r ↔
      r = ⟨title, r.steps, timeout, selectorAttributeOfFields f⟩ ∧
        List.Forall₂ (fun x s => Step.ofJson none x = .ok s) xs r.steps := by
  simp only [ofSteps, map_eq_ok_iff, Step.listOfJson_eq_ok_iff]
  constructor
  · rintro ⟨ss, hss, rfl⟩
    exact ⟨rfl, hss⟩
  · rintro ⟨hr, hss⟩
    exact ⟨r.steps, hss, hr.symm⟩

/-- Whether a header fails, and how, does not hang on what the list of steps contains. -/
theorem headerFails_insert_steps (ms : List (Text × Json)) (xs ys : List Json) (d : Defect) :
    HeaderFails d (.obj (Json.insert ms "steps" (.arr xs))) ↔
      HeaderFails d (.obj (Json.insert ms "steps" (.arr ys))) := by
  have hsteps (zs : List Json) :
      Json.fields (Json.insert ms "steps" (.arr zs)) "steps" = some (.arr zs) :=
    Json.fields_insert_self ms "steps" (.arr zs)
  simp (disch := decide) only [HeaderFails, headerFaults, Json.fields_insert_of_ne, hsteps]
  simp [required]

/-- A recording is read if and only if its header holds and every step of it is read, and then it
has these steps; otherwise it is refused for its header, whatever the steps are, or for the first
step that is refused, as this is in its place and whatever comes after. In which place a step stands
changes nothing but the label in a message. -/
theorem ofJson_stepwise :
    (∀ v, (∃ r, ofJson v = .ok r) ↔
      ∃ xs, HasHeader v xs ∧ ∀ x ∈ xs, ∃ s, Step.ofJson none x = .ok s) ∧
    (∀ v r, ofJson v = .ok r → ∃ xs, HasHeader v xs ∧
      List.Forall₂ (fun x s => Step.ofJson none x = .ok s) xs r.steps) ∧
    (∀ v d, ofJson v = .error d ↔ HeaderFails d v ∨
      ∃ before x after, HasHeader v (before ++ x :: after) ∧
        (∀ y ∈ before, ∃ s, Step.ofJson none y = .ok s) ∧
        Step.ofJson (some (before.length : Nat)) x = .error d) ∧
    (∀ ms xs ys d, HeaderFails d (.obj (Json.insert ms "steps" (.arr xs))) ↔
      HeaderFails d (.obj (Json.insert ms "steps" (.arr ys)))) ∧
    ∀ v, (∃ s, ∀ index, Step.ofJson index v = .ok s) ∨
      (∃ d, ∀ index, Step.ofJson index v = .error d) ∨ Step.RefusedByLabel v := by
  refine ⟨fun v => ?accepted, fun v r h => ?steps, fun v d => ?refused, headerFails_insert_steps,
    Step.ofJson_index⟩
  case accepted =>
    rcases ofJson_outcome v with ⟨d, hd, hread⟩ | ⟨xs, f, title, timeout, hxs, hread⟩
    · rw [hread]
      constructor
      · rintro ⟨r, hr⟩
        exact nomatch hr
      · rintro ⟨xs, hxs, -⟩
        exact absurd hd (hxs.not_headerFails d)
    · simp only [hread, ofSteps_eq_ok_iff]
      constructor
      · rintro ⟨r, -, hss⟩
        exact ⟨xs, hxs, exists_forall₂_iff.mp ⟨_, hss⟩⟩
      · rintro ⟨ys, hys, hread⟩
        obtain rfl := hxs.eq hys
        obtain ⟨ss, hss⟩ := exists_forall₂_iff.mpr hread
        exact ⟨⟨title, ss, timeout, selectorAttributeOfFields f⟩, rfl, hss⟩
  case steps =>
    rcases ofJson_outcome v with ⟨d, hd, hread⟩ | ⟨xs, f, title, timeout, hxs, hread⟩
    · exact nomatch hread.symm.trans h
    · exact ⟨xs, hxs, (ofSteps_eq_ok_iff.mp (hread.symm.trans h)).2⟩
  case refused =>
    rcases ofJson_outcome v with ⟨d', hd', hread⟩ | ⟨xs, f, title, timeout, hxs, hread⟩
    · rw [hread, Except.error.injEq]
      constructor
      · rintro rfl
        exact .inl hd'
      · rintro (hd | ⟨_, _, _, hxs, -⟩)
        · exact headerFails_unique hd' hd
        · exact absurd hd' (hxs.not_headerFails d')
    · rw [hread, ofSteps, map_eq_error_iff, Step.listOfJson_eq_error_iff,
        or_iff_right (hxs.not_headerFails d)]
      simp only [Nat.zero_add]
      constructor
      · rintro ⟨before, x, after, rfl, hbefore, hx⟩
        exact ⟨before, x, after, hxs, hbefore, hx⟩
      · rintro ⟨before, x, after, hys, hbefore, hx⟩
        exact ⟨before, x, after, hxs.eq hys, hbefore, hx⟩

/-- Of three steps the second is refused, and not the third, which is worse; of two faults of a
header it is the bounds of the timeout, and not the steps, which are no list. -/
theorem ofJson_stepwise_secondStep :
    let close : Json := .obj [("type", .str "close")]
    let untyped : Json := .obj [("type", .num 3)]
    let recording (xs : List Json) : Json :=
      .obj [("title", .str []), ("timeout", .null), ("steps", .arr xs)]
    let late : Json := .obj [("title", .str []), ("timeout", .num 0), ("steps", .num 5)]
    (∃ xs, HasHeader (recording [close]) xs ∧
      List.Forall₂ (fun x s => Step.ofJson none x = .ok s) xs [.close ⟨none, none, none⟩]) ∧
    ofJson (recording [close, untyped, .null]) = .error (.stepTypeNotText (some 1)) ∧
    Defect.message (.stepTypeNotText (some 1)) = "Type of step 1 is not a string" ∧
    HeaderFails .timeoutOutOfBounds late ∧ ofJson late = .error .timeoutOutOfBounds := by
  intro close untyped recording late
  obtain ⟨-, hsteps, hrefused, -⟩ := ofJson_stepwise
  have hheader (xs : List Json) : HasHeader (recording xs) xs :=
    ⟨_, rfl, ⟨_, rfl, [], rfl⟩, optional_none, rfl⟩
  have hlate : HeaderFails .timeoutOutOfBounds late := by
    have hlarge : ¬ Json.IsLarge (.num 0) := by
      rw [Json.isLarge_num, not_not]
      exact (by decide +kernel : (0 : Int).natAbs < Double.overflowBound)
    refine .inr ⟨nofun, .inr ⟨?_, .inr ⟨?_, .inr ⟨?_, .inr ⟨nofun, .inl ⟨?_, rfl⟩⟩⟩⟩⟩⟩
    · exact not_required_iff.mpr (optional_some.mpr (not_not.mpr ⟨[], rfl⟩))
    · exact not_required_iff.mpr (optional_some.mpr hlarge)
    · exact not_required_iff.mpr (optional_some.mpr (not_not.mpr ⟨0, rfl⟩))
    · exact ⟨_, rfl, fun h => absurd (h 0 rfl).1 (by decide)⟩
  refine ⟨hsteps (recording [close]) ⟨[], _, none, none⟩ rfl, ?second, by decide +kernel,
    hlate, (hrefused late _).mpr (.inl hlate)⟩
  case second =>
    refine (hrefused _ _).mpr (.inr ⟨[close], untyped, [.null], hheader _, ?_, rfl⟩)
    exact List.forall_mem_singleton.mpr ⟨_, rfl⟩

end Recording

end FlowScript
