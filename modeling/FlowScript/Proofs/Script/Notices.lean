import FlowScript.Proofs.Script.Failures

/-!
# Notices of a rendering

What a template tells beside the script is up to its acts, not to the writer they run on: a step's
hooks give the same notices wherever it stands, and a rendering gives those of its hooks one after
another, up to the failure if there is one.
-/
namespace FlowScript

namespace Act

/-- The notices that acts give. -/
def notices (acts : List Act) : List Notice := acts.filterMap notice?

section
variable (acts : List Act)

@[simp] theorem notices_nil : notices [] = [] := rfl

@[simp] theorem notices_cons_line (pieces : List Piece) :
    notices (line pieces :: acts) = notices acts := rfl

@[simp] theorem notices_cons_code (s : String) : notices (code s :: acts) = notices acts := rfl

@[simp] theorem notices_cons_startBlock : notices (startBlock :: acts) = notices acts := rfl

@[simp] theorem notices_cons_endBlock : notices (endBlock :: acts) = notices acts := rfl

@[simp] theorem notices_cons_notify (n : Notice) :
    notices (notify n :: acts) = n :: notices acts := rfl

@[simp] theorem notices_append (first second : List Act) :
    notices (first ++ second) = notices first ++ notices second := List.filterMap_append

end

@[simp] theorem notices_map_notify (ns : List Notice) : notices (ns.map notify) = ns := by
  rw [notices, List.filterMap_map]
  exact List.filterMap_some

@[simp] theorem notices_map_line {α : Type} (l : List α) (pieces : α → List Piece) :
    notices (l.map fun x => line (pieces x)) = [] := by
  rw [notices, List.filterMap_map]
  exact List.filterMap_eq_nil_iff.mpr fun _ _ => rfl

theorem notices_flatMap {α : Type} (l : List α) (f : α → List Act) :
    notices (l.flatMap f) = l.flatMap fun x => notices (f x) := List.filterMap_flatMap

end Act

namespace Template
open Act

variable {t : Template} {r : Recording} {s s' : Session} {script : Text} {f : Failure}

/-- The notices that the hooks of a step give. -/
def stepNotices (t : Template) (r : Recording) (step : Step) : List Notice :=
  notices (t.stepActs step (some r))

theorem notices_recordingActs (t : Template) (r : Recording) :
    notices (t.recordingActs r) = notices (flowActs t.beforeAllSteps r) ++
      r.steps.flatMap (t.stepNotices r) ++ notices (flowActs t.afterAllSteps r) := by
  rw [recordingActs, notices_append, notices_append, notices_flatMap]
  rfl

/-- A script comes with the notices of all acts. -/
theorem notices_of_renderRecording (h : t.renderRecording r s = .ok script s') :
    s'.notices = s.notices ++ notices (t.recordingActs r) := by
  obtain ⟨comment, hline, -, -⟩ := exists_comment_of_renderRecording h
  rw [renderRecording_eq (completes_of_renderRecording h) hline] at h
  cases h
  rfl

/-- A failure comes with the notices of the acts in front of it. -/
theorem notices_of_renderRecording_error (h : t.renderRecording r s = .error f s') :
    ∃ done, done <+: t.recordingActs r ∧ s'.notices = s.notices ++ notices done := by
  rcases renderRecording_error_cases h with ⟨-, rfl⟩ | ⟨e, -, rfl⟩
  · exact ⟨_, List.takeWhile_prefix _, rfl⟩
  · exact ⟨_, List.prefix_rfl, rfl⟩

end Template

end FlowScript
