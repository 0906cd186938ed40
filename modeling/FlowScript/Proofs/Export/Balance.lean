import FlowScript.Proofs.Export.StepAlone

/-!
# Balanced hooks

Nothing keeps a writer from closing more blocks than were opened, so it is the acts themselves that
have to balance. Acts that close what they open never come below the depth they begin at, whichever
of them fails, and end where they began. The code of a step is made of such acts, and the hooks
around the steps undo each other.
-/
namespace FlowScript

namespace Act

/-- The sessions that acts pass through, from the one they begin in to the one they end or fail
in. -/
def passed : List Act → Session → List Session
  | [], s => [s]
  | a :: acts, s =>
    s :: match a.run s with
      | .ok _ s' => passed acts s'
      | .error _ s' => [s']

theorem run_of_error {a : Act} {f : Failure} {s s' : Session} (h : a.run s = .error f s') :
    s' = s := by
  cases a with
  | line pieces =>
    simp only [run] at h
    split at h
    · cases h
    · cases h
      rfl
  | fail g =>
    cases h
    rfl
  | _ => cases h

/-- An act moves the depth by its shift. -/
theorem depth_of_run {a : Act} {s s' : Session} (h : a.run s = .ok () s') :
    s'.writer.depth = s.writer.depth + a.shift := by
  cases a with
  | line pieces =>
    simp only [run] at h
    split at h
    · cases h
      exact (Int.add_zero _).symm
    · cases h
  | startBlock =>
    cases h
    rfl
  | endBlock =>
    cases h
    exact Int.sub_eq_add_neg
  | notify n =>
    cases h
    exact (Int.add_zero _).symm
  | fail f => cases h

theorem runAll_cons_eq_ok {a : Act} {acts : List Act} {s s' : Session}
    (h : runAll (a :: acts) s = .ok () s') :
    ∃ next, a.run s = .ok () next ∧ runAll acts next = .ok () s' := by
  rw [runAll] at h
  cases ha : a.run s with
  | ok u next => exact ⟨next, rfl, (Rendering.bind_of_ok ha).symm.trans h⟩
  | error f next => cases (Rendering.bind_of_error ha).symm.trans h

/-- A run that completes moves the depth by all shifts together. -/
theorem depth_of_runAll {acts : List Act} {s s' : Session} (h : runAll acts s = .ok () s') :
    s'.writer.depth = s.writer.depth + shiftAll acts := by
  induction acts generalizing s with
  | nil =>
    cases h
    exact (Int.add_zero _).symm
  | cons a acts ih =>
    obtain ⟨next, ha, hacts⟩ := runAll_cons_eq_ok h
    rw [ih hacts, depth_of_run ha, shiftAll, Int.add_assoc]

/-- A session passed through belongs to the first acts, or to the second ones after the first have
completed. -/
theorem mem_passed_append {first second : List Act} {s s' : Session}
    (h : s' ∈ passed (first ++ second) s) :
    s' ∈ passed first s ∨ ∃ next, runAll first s = .ok () next ∧ s' ∈ passed second next := by
  induction first generalizing s with
  | nil => exact .inr ⟨s, rfl, h⟩
  | cons a first ih =>
    rw [List.cons_append, passed, List.mem_cons] at h
    rw [passed, List.mem_cons, or_assoc]
    apply h.imp_right
    intro h
    cases ha : a.run s with
    | ok u next =>
      rw [ha] at h
      rw [runAll, Rendering.bind_of_ok ha]
      exact ih h
    | error f next =>
      rw [ha] at h
      exact .inl h

theorem depth_le_of_passed_single {a : Act} {depth : Int} {s s' : Session}
    (hbefore : depth ≤ s.writer.depth) (hafter : depth ≤ s.writer.depth + a.shift)
    (h : s' ∈ passed [a] s) : depth ≤ s'.writer.depth := by
  rw [passed, List.mem_cons] at h
  rcases h with rfl | h
  · exact hbefore
  cases ha : a.run s with
  | ok u next =>
    rw [ha] at h
    rw [List.mem_singleton.mp h, depth_of_run ha]
    exact hafter
  | error f next =>
    rw [ha] at h
    rw [List.mem_singleton.mp h, run_of_error ha]
    exact hbefore

/-- Acts that close what they open never come below the depth they begin at. -/
theorem Closed.depth_le_of_passed {acts : List Act} (h : Closed acts) {s s' : Session}
    (hs' : s' ∈ passed acts s) : s.writer.depth ≤ s'.writer.depth := by
  induction h generalizing s with
  | nil => rw [List.mem_singleton.mp hs']
  | plain ha =>
    apply depth_le_of_passed_single (Int.le_refl _) _ hs'
    rw [ha.shift_eq, Int.add_zero]
  | append hfirst _ ihfirst ihsecond =>
    rcases mem_passed_append hs' with hmem | ⟨next, hrun, hmem⟩
    · exact ihfirst hmem
    · have hdepth := depth_of_runAll hrun
      rw [hfirst.shiftAll_eq, Int.add_zero] at hdepth
      exact hdepth ▸ ihsecond hmem
  | @block body hbody ih =>
    -- Inside the block there is one level to spare, and closing it costs just that.
    rw [List.cons_append, passed, List.mem_cons] at hs'
    rcases hs' with rfl | hs'
    · exact Int.le_refl _
    have hinside : (s.writer.startBlock).depth = s.writer.depth + 1 := rfl
    rcases mem_passed_append hs' with hmem | ⟨next, hrun, hmem⟩
    · have hle := ih hmem
      simp only [hinside] at hle
      omega
    · have hdepth := depth_of_runAll hrun
      rw [hbody.shiftAll_eq] at hdepth
      simp only [hinside] at hdepth
      apply depth_le_of_passed_single _ _ hmem
      · omega
      · rw [shift]
        omega

end Act

namespace Framework
open Act Template

theorem closed_stepActs (f : Framework) (c : TemplateConfig) (step : Step) (r : Option Recording) :
    Closed ((f.template c).stepActs step r) := by
  cases f with
  | puppeteer =>
    rw [template, Puppeteer.template_stepActs]
    exact Puppeteer.closed_stepActs step
  | playwrightTest =>
    rw [template, Playwright.template_stepActs]
    exact Playwright.closed_stepActs c step r

/-- The hook for a step's code is all there is to a step. -/
theorem requiredActs_eq (f : Framework) (c : TemplateConfig) (step : Step) (r : Option Recording) :
    requiredActs (f.template c).stringifyStep step r = (f.template c).stepActs step r := by
  cases f with
  | puppeteer => exact (Puppeteer.template_stepActs c step r).symm
  | playwrightTest => exact (Playwright.template_stepActs c step r).symm

theorem completes_epilogue (f : Framework) (c : TemplateConfig) (r : Recording) :
    ∀ a ∈ flowActs (f.template c).afterAllSteps r, a.Completes := by
  rw [← failure?_eq_none_iff, failure?]
  cases f with
  | puppeteer => simp [template, Puppeteer.template, flowActs, Puppeteer.failures_epilogue]
  | playwrightTest => rfl

/-- Wherever a writer stands, the hook for a step's code never takes it out of the blocks around the
step, not even on the way to a failure, and leaves it as deep as before. Behind the first hook of a
recording and any number of steps it is as deep as steps stand, so that the next one starts there,
and the last hook takes it back to where the first one began. -/
theorem hooks_balanced (f : Framework) (c : TemplateConfig) (s : Session) :
    (∀ step r, let acts := requiredActs (f.template c).stringifyStep step r
      (∀ s' ∈ passed acts s, s.writer.depth ≤ s'.writer.depth) ∧
        ∀ s', runAll acts s = .ok () s' → s'.writer.depth = s.writer.depth) ∧
    ∀ r opened, runAll (flowActs (f.template c).beforeAllSteps r) s = .ok () opened →
      ∀ (steps : List Step) stepped,
        runAll (steps.flatMap fun step => (f.template c).stepActs step (some r)) opened =
          .ok () stepped →
        stepped.writer.depth = s.writer.depth + f.stepDepth ∧
          ∃ closed, runAll (flowActs (f.template c).afterAllSteps r) stepped = .ok () closed ∧
            closed.writer.depth = s.writer.depth := by
  constructor
  · intro step r acts
    have hclosed : Closed acts := by
      rw [show acts = _ from f.requiredActs_eq c step r]
      exact f.closed_stepActs c step r
    constructor
    · intro s' hs'
      exact hclosed.depth_le_of_passed hs'
    · intro s' hrun
      rw [depth_of_runAll hrun, hclosed.shiftAll_eq, Int.add_zero]
  · intro r opened hopened steps stepped hstepped
    have hmodular := f.isModular c r
    have hdepth : stepped.writer.depth = s.writer.depth + f.stepDepth := by
      rw [depth_of_runAll hstepped, (closed_flatMap hmodular.closed steps).shiftAll_eq,
        Int.add_zero, depth_of_runAll hopened, hmodular.prologue]
    have hclosed := runAll_of_completes (f.completes_epilogue c r) stepped
    refine ⟨hdepth, _, hclosed, ?_⟩
    rw [depth_of_runAll hclosed, hmodular.epilogue, hdepth]
    omega

/-- The writer owes three blocks, and the step opens one of its own. -/
theorem hooks_balanced_inDebt :
    let framed : Step :=
      .hover ⟨⟨⟨none, none, none⟩, some [0]⟩, ⟨.plain "a", []⟩⟩
    let r : Recording := ⟨"menu", [framed, framed], some 1, none⟩
    let t := playwrightTest.template {}
    let s : Session := ⟨⟨"  ", -3, []⟩, []⟩
    ∃ alone opened stepped closed,
      runAll (requiredActs t.stringifyStep framed none) s = .ok () alone ∧
      alone.writer.depth = -3 ∧ (∀ s' ∈ passed (requiredActs t.stringifyStep framed none) s,
        -3 ≤ s'.writer.depth) ∧
      runAll (flowActs t.beforeAllSteps r) s = .ok () opened ∧
      runAll (r.steps.flatMap fun step => t.stepActs step (some r)) opened = .ok () stepped ∧
      stepped.writer.depth = -1 ∧
      runAll (flowActs t.afterAllSteps r) stepped = .ok () closed ∧ closed.writer.depth = -3 := by
  intro framed r t s
  have halone : failure? (requiredActs t.stringifyStep framed none) = none := by decide +kernel
  have hall : ∀ a ∈ t.recordingActs r, a.Completes :=
    failure?_eq_none_iff.mp (Playwright.failure?_recordingActs {} r)
  obtain ⟨hprologue, hsteps, -⟩ := completes_recordingActs hall
  have hopened := runAll_of_completes hprologue s
  have hstepped := runAll_of_completes (List.forall_mem_flatMap.mpr hsteps)
    (s.after (flowActs t.beforeAllSteps r))
  obtain ⟨hstep, hflow⟩ := hooks_balanced playwrightTest {} s
  obtain ⟨hinside, hend⟩ := hstep framed none
  obtain ⟨hdepth, closed, hclosed, hback⟩ := hflow r _ hopened r.steps _ hstepped
  have hrun := runAll_of_completes (failure?_eq_none_iff.mp halone) s
  exact ⟨_, _, _, closed, hrun, hend _ hrun, hinside, hopened, hstepped, hdepth, hclosed, hback⟩

end Framework

end FlowScript
