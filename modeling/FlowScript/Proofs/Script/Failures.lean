import FlowScript.Proofs.Script.StepRanges

/-!
# When rendering fails

An act fails for what it is, not for where it is run: a number without a numeral is to be printed,
or a hook gives up. So the failure that a recording ends in is the first one in all acts of its
hooks, and what the acts in front of it did stays. Behind the acts only the source map can fail, and
that does when a number is too large.
-/
namespace FlowScript

namespace Piece

/-- The number without a numeral that a piece is to print. -/
def nonFinite? : Piece → Option NonFinite
  | scalar (.nonFinite x) => some x
  | _ => none

theorem text_of_nonFinite? {p : Piece} {x : NonFinite} (h : p.nonFinite? = some x) (unit : Text)
    (size : Nat) : p.text unit size = .error x := by
  cases p with
  | scalar v =>
    cases v with
    | nonFinite y => exact congrArg _ (Option.some.inj h)
    | _ => exact nomatch h
  | _ => exact nomatch h

theorem hasText_iff {p : Piece} : p.HasText ↔ p.nonFinite? = none := by
  constructor
  · intro h
    by_contra hne
    obtain ⟨x, hx⟩ := Option.ne_none_iff_exists'.mp hne
    obtain ⟨t, ht⟩ := h [] 0
    rw [text_of_nonFinite? hx] at ht
    exact nomatch ht
  · intro h unit size
    cases p with
    | scalar v =>
      cases v with
      | nonFinite x => exact nomatch h
      | _ => exact ⟨_, rfl⟩
    | _ => exact ⟨_, rfl⟩

theorem textAll_of_nonFinite {pieces : List Piece} {x : NonFinite}
    (h : (pieces.filterMap nonFinite?).head? = some x) (unit : Text) (size : Nat) :
    textAll unit size pieces = .error x := by
  induction pieces with
  | nil => exact nomatch h
  | cons p pieces ih =>
    rw [textAll]
    cases hp : p.nonFinite? with
    | some y =>
      have hxy : y = x := by simpa [hp] using h
      rw [text_of_nonFinite? hp, hxy]
      rfl
    | none =>
      obtain ⟨t, ht⟩ := hasText_iff.mpr hp unit size
      rw [ht, ih (by simpa [hp] using h)]
      rfl

end Piece

namespace Act

/-- All that makes an act fail, the cause that it fails with first. -/
def failures : Act → List Failure
  | line pieces => (pieces.filterMap Piece.nonFinite?).map .nonFinite
  | fail f => [f]
  | _ => []

theorem completes_iff {a : Act} : a.Completes ↔ a.failures = [] := by
  cases a <;> simp [Completes, failures, Piece.hasText_iff]

theorem run_of_failures {a : Act} {f : Failure} (h : a.failures.head? = some f) (s : Session) :
    a.run s = .error f s := by
  cases a with
  | line pieces =>
    rw [failures, List.head?_map] at h
    obtain ⟨x, hx, rfl⟩ := Option.map_eq_some_iff.mp h
    simp only [run, Piece.textAll_of_nonFinite hx]
  | fail g =>
    obtain rfl := Option.some.inj h
    rfl
  | _ => contradiction

/-- What acts fail with when they are run one after another. -/
def failure? (acts : List Act) : Option Failure := (acts.flatMap failures).head?

theorem failure?_append (first second : List Act) :
    failure? (first ++ second) = (failure? first).or (failure? second) := by
  rw [failure?, List.flatMap_append, List.head?_append, failure?, failure?]

theorem failure?_eq_none_iff {acts : List Act} :
    failure? acts = none ↔ ∀ a ∈ acts, a.Completes := by
  simp only [failure?, List.head?_eq_none_iff, List.flatMap_eq_nil_iff, completes_iff]

theorem failure?_cons_eq_some_iff {a : Act} {acts : List Act} {f : Failure} :
    failure? (a :: acts) = some f ↔
      a.failures.head? = some f ∨ a.Completes ∧ failure? acts = some f := by
  rw [failure?, List.flatMap_cons, List.head?_append, Option.or_eq_some_iff,
    List.head?_eq_none_iff, completes_iff, failure?]

/-- The acts in front of the first one that fails. -/
def completed (acts : List Act) : List Act := acts.takeWhile fun a => a.failures.isEmpty

theorem completed_cons_of_completes {a : Act} (h : a.Completes) (acts : List Act) :
    completed (a :: acts) = a :: completed acts :=
  List.takeWhile_cons_of_pos (by rw [completes_iff.mp h, List.isEmpty_nil])

theorem completed_append_of_completes {first : List Act} (h : ∀ a ∈ first, a.Completes)
    (second : List Act) : completed (first ++ second) = first ++ completed second := by
  induction first with
  | nil => rfl
  | cons a first ih =>
    rw [List.forall_mem_cons] at h
    rw [List.cons_append, completed_cons_of_completes h.1, ih h.2, List.cons_append]

theorem completed_cons_of_failures {a : Act} {f : Failure} (h : a.failures.head? = some f)
    (acts : List Act) : completed (a :: acts) = [] := by
  refine List.takeWhile_cons_of_neg fun hempty => ?_
  rw [List.isEmpty_iff.mp hempty] at h
  exact nomatch h

theorem completed_append_of_failure {first : List Act} {f : Failure} (h : failure? first = some f)
    (second : List Act) : completed (first ++ second) = completed first := by
  induction first with
  | nil => exact nomatch h
  | cons a first ih =>
    rw [List.cons_append]
    rcases failure?_cons_eq_some_iff.mp h with ha | ⟨ha, h⟩
    · rw [completed_cons_of_failures ha, completed_cons_of_failures ha]
    · rw [completed_cons_of_completes ha, completed_cons_of_completes ha, ih h]

/-- Acts that fail end with an act that does, in front of which all complete. -/
theorem exists_of_failure {acts : List Act} {f : Failure} (h : failure? acts = some f) :
    ∃ a after, acts = completed acts ++ a :: after ∧ (∀ b ∈ completed acts, b.Completes) ∧
      a.failures.head? = some f := by
  induction acts with
  | nil => exact nomatch h
  | cons a acts ih =>
    rcases failure?_cons_eq_some_iff.mp h with ha | ⟨ha, h⟩
    · rw [completed_cons_of_failures ha]
      exact ⟨a, acts, rfl, fun _ hb => absurd hb List.not_mem_nil, ha⟩
    · obtain ⟨b, after, hacts, hcompleted, hb⟩ := ih h
      rw [completed_cons_of_completes ha]
      exact ⟨b, after, congrArg _ hacts, List.forall_mem_cons.mpr ⟨ha, hcompleted⟩, hb⟩

end Act

theorem Rendering.bind_of_error {α β : Type} {x : Rendering α} {g : α → Rendering β} {f : Failure}
    {s s' : Session} (h : x s = .error f s') : (x >>= g) s = .error f s' := by
  simp only [bind, EStateM.bind, h]

/-- Acts that fail leave behind what the acts in front of the failing one did. -/
theorem Act.runAll_of_failure {acts : List Act} {f : Failure} (h : failure? acts = some f)
    (s : Session) : runAll acts s = .error f (s.after (completed acts)) := by
  induction acts generalizing s with
  | nil => exact nomatch h
  | cons a acts ih =>
    rw [runAll]
    rcases failure?_cons_eq_some_iff.mp h with ha | ⟨ha, h⟩
    · rw [completed_cons_of_failures ha, Session.after_nil]
      exact Rendering.bind_of_error (run_of_failures ha s)
    · rw [Rendering.bind_of_ok (run_of_completes ha s), ih h, ← Session.after_append,
        completed_cons_of_completes ha]
      rfl

namespace Template
open Act

variable {t : Template} {r : Recording} {f : Failure} {s s' : Session}

theorem renderRange_of_failure {step : Step}
    (h : failure? (t.stepActs step (some r)) = some f) (s : Session) :
    t.renderRange step r s = .error f (s.after (completed (t.stepActs step (some r)))) := by
  have hget : (get : Rendering Session) s = .ok s s := rfl
  rw [renderRange, Rendering.bind_of_ok hget]
  exact Rendering.bind_of_error (runAll_of_failure h s)

theorem renderRanges_of_failure {steps : List Step}
    (h : failure? (steps.flatMap fun step => t.stepActs step (some r)) = some f) (s : Session) :
    t.renderRanges r steps s =
      .error f (s.after (completed (steps.flatMap fun step => t.stepActs step (some r)))) := by
  induction steps generalizing s with
  | nil => exact nomatch h
  | cons step steps ih =>
    rw [renderRanges]
    rw [List.flatMap_cons] at h ⊢
    rw [failure?_append, Option.or_eq_some_iff] at h
    rcases h with h | ⟨hstep, h⟩
    · rw [completed_append_of_failure h]
      exact Rendering.bind_of_error (renderRange_of_failure h s)
    · rw [failure?_eq_none_iff] at hstep
      rw [Rendering.bind_of_ok (renderRange_of_completes hstep s),
        completed_append_of_completes hstep, Session.after_append]
      exact Rendering.bind_of_error (ih h _)

/-- A recording fails as its acts do, and leaves behind what was done up to the failure. -/
theorem renderRecording_of_failure (h : failure? (t.recordingActs r) = some f) (s : Session) :
    t.renderRecording r s = .error f (s.after (completed (t.recordingActs r))) := by
  rw [renderRecording]
  rw [recordingActs, List.append_assoc] at h ⊢
  rw [failure?_append, Option.or_eq_some_iff] at h
  rcases h with h | ⟨hbefore, h⟩
  · rw [completed_append_of_failure h]
    exact Rendering.bind_of_error (runAll_of_failure h s)
  rw [failure?_eq_none_iff] at hbefore
  rw [completed_append_of_completes hbefore, Session.after_append,
    Rendering.bind_of_ok (runAll_of_completes hbefore s)]
  rw [failure?_append, Option.or_eq_some_iff] at h
  rcases h with h | ⟨hsteps, h⟩
  · rw [completed_append_of_failure h]
    exact Rendering.bind_of_error (renderRanges_of_failure h _)
  · rw [failure?_eq_none_iff] at hsteps
    rw [completed_append_of_completes hsteps, Session.after_append, Rendering.bind_of_ok
      (renderRanges_of_completes (List.forall_mem_flatMap.mp hsteps) _)]
    exact Rendering.bind_of_error (runAll_of_failure h _)

/-- A recording renders if its acts complete and the numbers of its source map can be written. -/
theorem exists_renderRecording (h : failure? (t.recordingActs r) = none)
    (hsize : (s.writer.after (t.recordingActs r)).size < 2 ^ 31) :
    ∃ script s', t.renderRecording r s = .ok script s' := by
  have hline := SourceMap.line_natCast (numbers_le_greatest hsize)
  rw [← sourceMapNumbers_eq_map] at hline
  exact ⟨_, renderRecording_of_completes (failure?_eq_none_iff.mp h) hline⟩

theorem completes_of_renderRecording {script : Text} (h : t.renderRecording r s = .ok script s') :
    ∀ a ∈ t.recordingActs r, a.Completes := by
  rw [← failure?_eq_none_iff]
  by_contra hne
  obtain ⟨f, hf⟩ := Option.ne_none_iff_exists'.mp hne
  rw [renderRecording_of_failure hf s] at h
  exact nomatch h

/-- A recording whose acts complete fails if its source map does. -/
theorem renderRecording_of_lineError (hacts : ∀ a ∈ t.recordingActs r, a.Completes)
    {e : SourceMap.Error}
    (hline : SourceMap.line (sourceMapNumbers (t.ranges r s.writer)) = .error e) :
    t.renderRecording r s = .error (.sourceMap e) (s.after (t.recordingActs r)) := by
  obtain ⟨hbefore, hsteps, hafter⟩ := completes_recordingActs hacts
  have hranges : t.renderRanges r r.steps (s.after (flowActs t.beforeAllSteps r)) =
      .ok (t.ranges r s.writer) _ := renderRanges_of_completes hsteps _
  have hmap (z : Session) : appendSourceMap (t.ranges r s.writer) z = .error (.sourceMap e) z := by
    simp only [appendSourceMap, hline]
  rw [renderRecording, Rendering.bind_of_ok (runAll_of_completes hbefore s),
    Rendering.bind_of_ok hranges, Rendering.bind_of_ok (runAll_of_completes hafter _),
    recordingActs, Session.after_append, Session.after_append]
  exact Rendering.bind_of_error (hmap _)

/-- The comment that a rendered recording ends with, and the writer behind it. -/
theorem exists_comment_of_renderRecording {script : Text}
    (h : t.renderRecording r s = .ok script s') :
    ∃ comment, SourceMap.line (sourceMapNumbers (t.ranges r s.writer)) = .ok comment ∧
      s'.writer = (s.writer.after (t.recordingActs r)).append comment ∧
      script = s'.writer.text := by
  have hacts := completes_of_renderRecording h
  cases hline : SourceMap.line (sourceMapNumbers (t.ranges r s.writer)) with
  | ok comment =>
    rw [renderRecording_eq hacts hline] at h
    cases h
    exact ⟨comment, rfl, rfl, rfl⟩
  | error e =>
    rw [renderRecording_of_lineError hacts hline] at h
    exact nomatch h

/-- Rendering ends in the failure of an act, or behind all acts in that of the source map. -/
theorem renderRecording_error_cases (h : t.renderRecording r s = .error f s') :
    (failure? (t.recordingActs r) = some f ∧ s' = s.after (completed (t.recordingActs r))) ∨
      ∃ e, f = .sourceMap e ∧ s' = s.after (t.recordingActs r) := by
  cases hacts : failure? (t.recordingActs r) with
  | some g =>
    rw [renderRecording_of_failure hacts s] at h
    cases h
    exact .inl ⟨rfl, rfl⟩
  | none =>
    rw [failure?_eq_none_iff] at hacts
    cases hline : SourceMap.line (sourceMapNumbers (t.ranges r s.writer)) with
    | ok comment =>
      rw [renderRecording_eq hacts hline] at h
      exact nomatch h
    | error e =>
      rw [renderRecording_of_lineError hacts hline] at h
      cases h
      exact .inr ⟨e, rfl, rfl⟩

theorem renderStep_error {step : Step} (h : t.renderStep step s = .error f s') :
    failure? (t.stepActs step none) = some f := by
  rw [renderStep] at h
  cases hacts : failure? (t.stepActs step none) with
  | some g =>
    rw [Rendering.bind_of_error (runAll_of_failure hacts s)] at h
    cases h
    rfl
  | none =>
    rw [Rendering.bind_of_ok (runAll_of_completes (failure?_eq_none_iff.mp hacts) s)] at h
    exact nomatch h

end Template

end FlowScript
