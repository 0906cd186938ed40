import FlowScript.Proofs.Script.Extraction

/-!
# Hooks in their order

A rendering calls the hooks of its template in a fixed order, once before all steps, three for every
step and once after all steps. It ends with the source map when all of them have completed, and else
in the first that fails: none behind it is called, and what was written up to the failure stays.
-/
namespace FlowScript

/-- A hook, and the step that it is called for. -/
inductive Hook where
  | beforeAllSteps
  | beforeEachStep (step : Step)
  | stringifyStep (step : Step)
  | afterEachStep (step : Step)
  | afterAllSteps

namespace Hook

/-- The hook that no template can do without, once there is a step. -/
def isRequired : Hook → Bool
  | stringifyStep _ => true
  | _ => false

def ofStep (step : Step) : List Hook :=
  [beforeEachStep step, stringifyStep step, afterEachStep step]

/-- All hooks in the order in which a recording calls them. -/
def sequence (r : Recording) : List Hook :=
  beforeAllSteps :: r.steps.flatMap ofStep ++ [afterAllSteps]

end Hook

/-- How calling hooks went: those that were called, what it failed with, and what it left behind. -/
structure HookRun where
  called : List Hook
  failure : Option Failure
  session : Session

namespace Template
open Act

/-- What a hook of the template does, if the template has it. -/
def script? (t : Template) (r : Recording) : Hook → Option (List Act)
  | .beforeAllSteps => t.beforeAllSteps.map fun hook => hook r
  | .beforeEachStep step => t.beforeEachStep.map fun hook => hook step (some r)
  | .stringifyStep step => t.stringifyStep.map fun hook => hook step (some r)
  | .afterEachStep step => t.afterEachStep.map fun hook => hook step (some r)
  | .afterAllSteps => t.afterAllSteps.map fun hook => hook r

/-- Calls hooks one after another, up to the first that fails. A missing one is passed over, or
fails if it is required. -/
def callHooks (t : Template) (r : Recording) : List Hook → Session → HookRun
  | [], s => ⟨[], none, s⟩
  | hook :: hooks, s =>
    match t.script? r hook with
    | none => if hook.isRequired then ⟨[], some .missingHook, s⟩ else callHooks t r hooks s
    | some acts =>
      match runAll acts s with
      | .ok () s' =>
        let rest := callHooks t r hooks s'
        ⟨hook :: rest.called, rest.failure, rest.session⟩
      | .error f s' => ⟨[hook], some f, s'⟩

/-- A hook that is not passed over. -/
def isDue (t : Template) (r : Recording) (hook : Hook) : Bool :=
  hook.isRequired || (t.script? r hook).isSome

/-- The hooks of a recording, without those that the template may lack and does. -/
def hooks (t : Template) (r : Recording) : List Hook := (Hook.sequence r).filter (t.isDue r)

/-- The acts that a hook comes to; a required one that is missing comes to a failure. -/
def hookActs (t : Template) (r : Recording) : Hook → List Act
  | .beforeAllSteps => flowActs t.beforeAllSteps r
  | .beforeEachStep step => optionalActs t.beforeEachStep step (some r)
  | .stringifyStep step => requiredActs t.stringifyStep step (some r)
  | .afterEachStep step => optionalActs t.afterEachStep step (some r)
  | .afterAllSteps => flowActs t.afterAllSteps r

variable {t : Template} {r : Recording} {s : Session} {hook : Hook} {hooks : List Hook}
  {f : Failure}

theorem hookActs_eq (hook : Hook) : t.hookActs r hook =
    (t.script? r hook).getD (if hook.isRequired then [.fail .missingHook] else []) := by
  cases hook <;> simp only [hookActs, script?, flowActs, optionalActs, requiredActs] <;> split <;>
    simp [Hook.isRequired, *]

theorem hookActs_of_some {acts : List Act} (h : t.script? r hook = some acts) :
    t.hookActs r hook = acts := by
  rw [hookActs_eq, h, Option.getD_some]

theorem hookActs_of_none (h : t.script? r hook = none) (hrequired : hook.isRequired = true) :
    t.hookActs r hook = [.fail .missingHook] := by
  rw [hookActs_eq, h, Option.getD_none, if_pos hrequired]

theorem hookActs_of_none_of_failure (h : t.script? r hook = none)
    (hfailure : failure? (t.hookActs r hook) = some f) :
    t.hookActs r hook = [.fail .missingHook] ∧ f = .missingHook := by
  cases hrequired : hook.isRequired with
  | true =>
    rw [hookActs_of_none h hrequired] at hfailure ⊢
    exact ⟨rfl, (Option.some.inj hfailure).symm⟩
  | false =>
    rw [hookActs_eq, h, hrequired] at hfailure
    exact nomatch hfailure

theorem hookActs_of_not_isDue (h : t.isDue r hook = false) : t.hookActs r hook = [] := by
  rw [isDue, Bool.or_eq_false_iff, Option.isSome_eq_false_iff, Option.isNone_iff_eq_none] at h
  rw [hookActs_eq, h.2, Option.getD_none, h.1]
  rfl

/-- Hooks that are passed over do nothing. -/
theorem flatMap_hookActs_filter (hooks : List Hook) :
    (hooks.filter (t.isDue r)).flatMap (t.hookActs r) = hooks.flatMap (t.hookActs r) := by
  induction hooks with
  | nil => rfl
  | cons hook hooks ih =>
    rw [List.filter_cons, List.flatMap_cons]
    split
    · rw [List.flatMap_cons, ih]
    · next h => rw [hookActs_of_not_isDue (by simpa using h), ih, List.nil_append]

/-- A recording runs the acts of its hooks. -/
theorem flatMap_hookActs_sequence (t : Template) (r : Recording) :
    (Hook.sequence r).flatMap (t.hookActs r) = t.recordingActs r := by
  have hstep (step : Step) :
      (Hook.ofStep step).flatMap (t.hookActs r) = t.stepActs step (some r) := by
    simp [Hook.ofStep, hookActs, stepActs]
  simp [Hook.sequence, recordingActs, List.flatMap_assoc, hstep, hookActs]

/-- A hook that completes is called, unless there is none, and then the next one's turn has come. -/
theorem callHooks_cons_of_completes (h : failure? (t.hookActs r hook) = none) (hooks : List Hook)
    (s : Session) :
    let rest := t.callHooks r hooks (s.after (t.hookActs r hook))
    t.callHooks r (hook :: hooks) s =
      ⟨[hook].filter (t.isDue r) ++ rest.called, rest.failure, rest.session⟩ := by
  rw [callHooks]
  cases hscript : t.script? r hook with
  | none =>
    have hdue : t.isDue r hook = hook.isRequired := by
      rw [isDue, hscript, Option.isSome_none, Bool.or_false]
    cases hrequired : hook.isRequired with
    | true =>
      rw [hookActs_of_none hscript hrequired] at h
      exact nomatch h
    | false =>
      rw [hrequired] at hdue
      rw [hookActs_of_not_isDue hdue, Session.after_nil, List.filter_singleton, hdue]
      rfl
  | some acts =>
    have hdue : t.isDue r hook = true := by
      rw [isDue, hscript, Option.isSome_some, Bool.or_true]
    rw [hookActs_of_some hscript] at h ⊢
    simp only [runAll_of_completes (failure?_eq_none_iff.mp h) s, List.filter_singleton, hdue]
    rfl

/-- A hook that fails is the last one called, if it is there at all. -/
theorem callHooks_cons_of_failure (h : failure? (t.hookActs r hook) = some f) (hooks : List Hook)
    (s : Session) : t.callHooks r (hook :: hooks) s =
      ⟨if (t.script? r hook).isSome then [hook] else [], some f,
        s.after (completed (t.hookActs r hook))⟩ := by
  rw [callHooks]
  cases hscript : t.script? r hook with
  | none =>
    cases hrequired : hook.isRequired with
    | true =>
      rw [hookActs_of_none hscript hrequired] at h ⊢
      cases h
      exact congrArg _ s.after_nil.symm
    | false =>
      rw [hookActs_eq, hscript, hrequired] at h
      exact nomatch h
  | some acts =>
    rw [hookActs_of_some hscript] at h ⊢
    simp only [runAll_of_failure h s, Option.isSome_some, if_true]

/-- Hooks that complete are all called, but for those that are passed over. -/
theorem callHooks_of_completes {hooks : List Hook}
    (h : failure? (hooks.flatMap (t.hookActs r)) = none) (s : Session) :
    t.callHooks r hooks s =
      ⟨hooks.filter (t.isDue r), none, s.after (hooks.flatMap (t.hookActs r))⟩ := by
  induction hooks generalizing s with
  | nil => exact congrArg _ s.after_nil.symm
  | cons hook hooks ih =>
    rw [List.flatMap_cons, failure?_append, Option.or_eq_none_iff] at h
    rw [callHooks_cons_of_completes h.1, ih h.2, ← Session.after_append, ← List.filter_append]
    rfl

/-- Hooks that fail are called in order up to the one that does. The hooks in front of it complete,
and of its own acts those in front of the failure are done. -/
theorem callHooks_of_failure {hooks : List Hook}
    (h : failure? (hooks.flatMap (t.hookActs r)) = some f) (s : Session) :
    ∃ done hook rest, hooks.filter (t.isDue r) = done ++ hook :: rest ∧
      failure? (done.flatMap (t.hookActs r)) = none ∧ failure? (t.hookActs r hook) = some f ∧
      t.callHooks r hooks s =
        ⟨done ++ if (t.script? r hook).isSome then [hook] else [], some f,
          s.after (done.flatMap (t.hookActs r) ++ completed (t.hookActs r hook))⟩ := by
  induction hooks generalizing s with
  | nil => exact nomatch h
  | cons hook hooks ih =>
    rw [List.flatMap_cons, failure?_append, Option.or_eq_some_iff] at h
    rcases h with h | ⟨hhook, h⟩
    · have hdue : t.isDue r hook = true := by
        by_contra hdue
        rw [hookActs_of_not_isDue (by simpa using hdue)] at h
        exact nomatch h
      refine ⟨[], hook, hooks.filter (t.isDue r), ?_, rfl, h, callHooks_cons_of_failure h hooks s⟩
      rw [List.filter_cons_of_pos hdue, List.nil_append]
    · obtain ⟨done, failing, rest, hfilter, hdone, hfailing, hcall⟩ :=
        ih h (s.after (t.hookActs r hook))
      have hacts : ([hook].filter (t.isDue r) ++ done).flatMap (t.hookActs r) =
          t.hookActs r hook ++ done.flatMap (t.hookActs r) := by
        rw [List.flatMap_append, flatMap_hookActs_filter, List.flatMap_singleton]
      refine ⟨[hook].filter (t.isDue r) ++ done, failing, rest, ?_, ?_, hfailing, ?_⟩
      · rw [List.append_assoc, ← hfilter, ← List.filter_append, List.singleton_append]
      · rw [hacts, failure?_append, hhook, hdone]
        rfl
      · rw [callHooks_cons_of_completes hhook, hcall, ← Session.after_append, hacts,
          List.append_assoc, List.append_assoc]

/-- The comment is written behind what the hooks left, and nothing else is. -/
def EndsInSourceMap (t : Template) (r : Recording) (s : Session) (run : HookRun) : Prop :=
  ∃ s' payload, t.renderRecording r s = .ok s'.writer.text s' ∧
    s'.notices = run.session.notices ∧
    s'.writer.lines = run.session.writer.lines ++
      [s.writer.unit.repeated run.session.writer.depth.toNat ++ (SourceMap.marker ++ payload)]

/-- A hook fails behind hooks that complete. It is there and one of its acts fails, behind acts that
complete, or it is required and missing. What was done up to then is what is left. -/
def EndsInFailure (t : Template) (r : Recording) (s : Session) (run : HookRun) (f : Failure) :
    Prop :=
  ∃ done hook rest before, t.hooks r = done ++ hook :: rest ∧
    (∀ act ∈ done.flatMap (t.hookActs r) ++ before, act.Completes) ∧
    run.session = s.after (done.flatMap (t.hookActs r) ++ before) ∧
    ((∃ act after, t.script? r hook = some (before ++ act :: after) ∧ run.called = done ++ [hook] ∧
        act.run run.session = .error f run.session) ∨
      t.script? r hook = none ∧ run.called = done ∧ before = [] ∧ f = .missingHook)

theorem endsInSourceMap_or (h : failure? (t.recordingActs r) = none) (s : Session) :
    let run : HookRun := ⟨t.hooks r, none, s.after (t.recordingActs r)⟩
    t.EndsInSourceMap r s run ∨ 2 ^ 31 ≤ run.session.writer.size ∧
      ∃ e, t.renderRecording r s = .error (.sourceMap e) run.session := by
  intro run
  have hacts := failure?_eq_none_iff.mp h
  cases hline : SourceMap.line (sourceMapNumbers (t.ranges r s.writer)) with
  | ok comment =>
    let finish : Session := { s.after (t.recordingActs r) with
      writer := (s.writer.after (t.recordingActs r)).append comment }
    have hrun : t.renderRecording r s = .ok finish.writer.text finish :=
      renderRecording_eq hacts hline
    exact .inl ⟨finish, _, hrun, rfl, writer_lines_of_renderRecording hrun⟩
  | error e =>
    refine .inr ⟨?_, e, renderRecording_of_lineError hacts hline⟩
    by_contra hsize
    have hok := SourceMap.line_natCast (numbers_le_greatest (Nat.not_le.mp hsize))
    rw [← sourceMapNumbers_eq_map, hline] at hok
    exact nomatch hok

theorem endsInFailure (h : failure? (t.recordingActs r) = some f) (s : Session) :
    let run := t.callHooks r (Hook.sequence r) s
    run.failure = some f ∧ run.called <+: t.hooks r ∧
      t.renderRecording r s = .error f run.session ∧ t.EndsInFailure r s run f := by
  have hsequence := h
  rw [← flatMap_hookActs_sequence] at hsequence
  obtain ⟨done, hook, rest, hhooks, hdone, hhook, hrun⟩ := callHooks_of_failure hsequence s
  have hrest : completed (t.recordingActs r) =
      done.flatMap (t.hookActs r) ++ completed (t.hookActs r hook) := by
    rw [← flatMap_hookActs_sequence, ← flatMap_hookActs_filter, hhooks, List.flatMap_append,
      List.flatMap_cons, completed_append_of_completes (failure?_eq_none_iff.mp hdone),
      completed_append_of_failure hhook]
  obtain ⟨act, after, hacts, hcompleted, hact⟩ := exists_of_failure hhook
  rw [hrun]
  refine ⟨rfl, ?called, ?rendered, done, hook, rest, completed (t.hookActs r hook), hhooks,
    List.forall_mem_append.mpr ⟨failure?_eq_none_iff.mp hdone, hcompleted⟩, rfl, ?_⟩
  case called =>
    rw [hooks, hhooks, List.prefix_append_right_inj]
    split
    · exact List.prefix_append [hook] rest
    · exact List.nil_prefix
  case rendered => rw [renderRecording_of_failure h, hrest]
  cases hscript : t.script? r hook with
  | some acts =>
    have hsplit : some acts = some (completed (t.hookActs r hook) ++ act :: after) := by
      rw [← hacts, hookActs_of_some hscript]
    exact .inl ⟨act, after, hsplit, rfl, run_of_failures hact _⟩
  | none =>
    obtain ⟨hfail, rfl⟩ := hookActs_of_none_of_failure hscript hhook
    refine .inr ⟨rfl, List.append_nil done, ?_, rfl⟩
    rw [hfail]
    exact completed_cons_of_failures rfl []

/-- The first step calls for the required hook, once the hook in front of it has completed. -/
theorem callHooks_of_missing (h : t.stringifyStep = none) {step : Step} {steps : List Step}
    (hsteps : r.steps = step :: steps)
    (hbefore : failure? (t.hookActs r .beforeAllSteps ++ t.hookActs r (.beforeEachStep step)) = none)
    (s : Session) : t.callHooks r (Hook.sequence r) s =
      ⟨[.beforeAllSteps, .beforeEachStep step].filter (t.isDue r), some .missingHook,
        s.after (t.hookActs r .beforeAllSteps ++ t.hookActs r (.beforeEachStep step))⟩ := by
  rw [failure?_append, Option.or_eq_none_iff] at hbefore
  have hmissing : t.script? r (.stringifyStep step) = none := by rw [script?, h, Option.map_none]
  have hfail := hookActs_of_none hmissing rfl
  have hsequence : Hook.sequence r = .beforeAllSteps :: .beforeEachStep step ::
      .stringifyStep step :: (.afterEachStep step :: steps.flatMap Hook.ofStep ++
        [.afterAllSteps]) := by
    rw [Hook.sequence, hsteps]
    rfl
  have hfailure : failure? (t.hookActs r (.stringifyStep step)) = some .missingHook := by
    rw [hfail]
    rfl
  have hnone : completed (t.hookActs r (.stringifyStep step)) = [] := by
    rw [hfail]
    exact completed_cons_of_failures rfl []
  rw [hsequence, callHooks_cons_of_completes hbefore.1, callHooks_cons_of_completes hbefore.2,
    callHooks_cons_of_failure hfailure, hnone, Session.after_nil, ← Session.after_append, hmissing]
  simp only [Option.isSome_none, Bool.false_eq_true, if_false, List.append_nil,
    ← List.filter_append, List.singleton_append]

/-- The missing hook for the code of steps is the failure of the first step, unless one of the hooks
in front of it fails. Without steps it is not missed. -/
def MissesHook (t : Template) (r : Recording) (s : Session) (run : HookRun) : Prop :=
  (∀ step steps, r.steps = step :: steps →
    failure? (t.hookActs r .beforeAllSteps ++ t.hookActs r (.beforeEachStep step)) = none →
    run.called = [.beforeAllSteps, .beforeEachStep step].filter (t.isDue r) ∧
      ∃ f, run.failure = some f ∧ f.name = "AttributeError") ∧
  (r.steps = [] → ∀ hook, ({ t with stringifyStep := hook } : Template).renderRecording r s =
    t.renderRecording r s)

theorem missesHook (h : t.stringifyStep = none) (s : Session) :
    t.MissesHook r s (t.callHooks r (Hook.sequence r) s) := by
  refine ⟨fun step steps hsteps hbefore => ?_, fun hsteps hook => ?_⟩
  · rw [callHooks_of_missing h hsteps hbefore s]
    exact ⟨rfl, _, rfl, rfl⟩
  · rw [renderRecording, renderRecording, hsteps]
    rfl

/-- Hooks are called in the order of the recording, those that the template lacks left out, and at
most up to the first that fails. If none does, all are called and the comment is written last, or
cannot be written, behind two to the 31 lines or more. If one does, rendering ends with its failure
and with what was done up to it. -/
theorem renderRecording_protocol (t : Template) (r : Recording) (s : Session) :
    let run := t.callHooks r (Hook.sequence r) s
    run.called <+: t.hooks r ∧
    (run.failure = none → run.called = t.hooks r ∧ run.session = s.after (t.recordingActs r) ∧
      (t.EndsInSourceMap r s run ∨ 2 ^ 31 ≤ run.session.writer.size ∧
        ∃ e, t.renderRecording r s = .error (.sourceMap e) run.session)) ∧
    (∀ f, run.failure = some f →
      t.renderRecording r s = .error f run.session ∧ t.EndsInFailure r s run f) ∧
    (t.stringifyStep = none → t.MissesHook r s run) := by
  intro run
  cases hacts : failure? (t.recordingActs r) with
  | none =>
    have hrun : run = ⟨t.hooks r, none, s.after (t.recordingActs r)⟩ := by
      rw [← flatMap_hookActs_sequence] at hacts ⊢
      exact callHooks_of_completes hacts s
    have hends := endsInSourceMap_or hacts s
    refine ⟨?_, fun _ => ?_, fun f hf => ?_, fun h => missesHook h s⟩
    · have hcalled : run.called = t.hooks r := congrArg HookRun.called hrun
      exact ⟨[], by rw [hcalled, List.append_nil]⟩
    · rw [hrun]
      exact ⟨rfl, rfl, hends⟩
    · rw [hrun] at hf
      exact nomatch hf
  | some f =>
    obtain ⟨hfailure, hcalled, hrender, hends⟩ := endsInFailure hacts s
    refine ⟨hcalled, fun h => ?_, fun g hg => ?_, fun h => missesHook h s⟩
    · exact nomatch hfailure.symm.trans h
    · obtain rfl : f = g := Option.some.inj (hfailure.symm.trans hg)
      exact ⟨hrender, hends⟩

/-- A template that gives up at a key, in the middle of what it writes for it. -/
def keyless : Template where
  beforeAllSteps := some fun _ => [.code "begin", .startBlock]
  stringifyStep := some fun step _ =>
    match step with
    | .keyDown _ key => [.line [.raw key], .fail (.hook "no keys"), .code "never"]
    | _ => [.code "step"]
  afterEachStep := some fun _ _ => [.line []]
  afterAllSteps := some fun _ => [.endBlock, .code "end"]

/-- The second of three steps is a key. -/
theorem renderRecording_protocol_secondStep :
    let close : Step := .close ⟨none, none, none⟩
    let key : Step := .keyDown ⟨none, none, none⟩ "a"
    let r : Recording := ⟨"keys", [close, key, close], none, none⟩
    let run := keyless.callHooks r (Hook.sequence r) (.start "  ")
    keyless.renderRecording r (.start "  ") = .error (.hook "no keys") run.session ∧
      keyless.EndsInFailure r (.start "  ") run (.hook "no keys") ∧
      run.called =
        [.beforeAllSteps, .stringifyStep close, .afterEachStep close, .stringifyStep key] ∧
      run.session.writer.lines = ["begin", "  step", "", "  a"] := by
  intro close key r run
  obtain ⟨hrender, hends⟩ :=
    (renderRecording_protocol keyless r (.start "  ")).2.2.1 (.hook "no keys") rfl
  exact ⟨hrender, hends, rfl, by decide⟩

end Template

end FlowScript
