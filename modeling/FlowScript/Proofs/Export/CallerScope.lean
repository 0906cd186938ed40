import FlowScript.Plugin
import FlowScript.Proofs.Export.Rendering
import FlowScript.Proofs.Log.Blocks

/-!
# The scope of a plugin's caller

A host calls a plugin in a scope of its own. The plugin renders a recording in a block around it, and
however that ends, the caller has its scope back.
-/
namespace FlowScript

namespace Plugin
open ContextVars

/-- The fields of the block that a recording is rendered in. -/
def logContext (p : Plugin) (r : Recording) : LogContext where
  fields := p.context r
  nodup := by
    have hkeys : (p.context r).map Prod.fst = ["recording", "framework"] := rfl
    rw [hkeys]
    decide

/-- Renders a recording, and tells what its template has to tell. -/
def render (V : ContextVars) (p : Plugin) (settings : Settings) (r : Recording) :
    Logging V Failure (Option Text) := fun t =>
  match p.template.renderRecording r (.start (settings.unit p.indentation)) with
  | .ok code s => .ok (some code) (t.tell (Export.noticeEvents s))
  | .error e s => .error e (t.tell (Export.noticeEvents s))

/-- What a plugin does for its caller, wherever that stands. -/
def stringifyFor (V : ContextVars) (p : Plugin) (settings : Settings) (source : RecordingSource) :
    Logging V Failure (Option Text) :=
  if isNothing source then do
    modify fun t => t.tell [nothingFound]
    pure none
  else
    match source.load with
    | .error e => throw e
    | .ok r => block (p.logContext r) (p.render V settings r)

/-- The answer of a computation, and its events with what was bound as they were told. -/
def Reply.ofResult {α : Type} :
    EStateM.Result Failure (Telling LogScope.contextVars) α → Reply α
  | .ok a t => ⟨.ok a, t.events.map fun e => e.1.within e.2⟩
  | .error e t => ⟨.error e, t.events.map fun e => e.1.within e.2⟩

variable (p : Plugin) (settings : Settings) (source : RecordingSource)

/-- A plugin replies as it does to a caller who has bound nothing. -/
theorem stringify_eq : p.stringify settings source =
    .ofResult (p.stringifyFor LogScope.contextVars settings source ⟨[], []⟩) := by
  rw [stringify, stringifyFor]
  split
  · rfl
  cases source.load with
  | error e => rfl
  | ok r =>
    let start : Telling LogScope.contextVars := ⟨[], []⟩
    have hevents (s : Session) :
        (Export.noticeEvents s).map (LogEvent.within (LogScope.enter [] (p.context r)).1) =
          ((start.bind (p.logContext r)).tell (Export.noticeEvents s)).events.map fun e =>
            e.1.within e.2 := by
      rw [Telling.tell, List.map_append, List.map_map]
      rfl
    simp only [block_run, render]
    cases p.template.renderRecording r (.start (settings.unit p.indentation)) with
    | ok code s => exact congrArg (Reply.mk (.ok (some code))) (hevents s)
    | error e s => exact congrArg (Reply.mk (.error e)) (hevents s)

/-- What a plugin answers does not depend on its caller, and the caller keeps what it has bound. -/
theorem stringifyFor_run {V : ContextVars} (hV : V.Restores) (t : Telling V) :
    ∃ t', p.stringifyFor V settings source t = ended (p.stringify settings source).answer t' ∧
      V.bound t'.vars = V.bound t.vars := by
  rw [stringify, stringifyFor]
  split
  · exact ⟨t.tell [nothingFound], rfl, rfl⟩
  cases source.load with
  | error e => exact ⟨t, rfl, rfl⟩
  | ok r =>
    let inside (s : Session) := (t.bind (p.logContext r)).tell (Export.noticeEvents s)
    have hinside (s : Session) := (Telling.follows_tell (t.bind (p.logContext r))
      (Export.noticeEvents s)).reset hV
    simp only
    cases hrun : p.template.renderRecording r (.start (settings.unit p.indentation)) with
    | ok code s =>
      have hbody : p.render V settings r (t.bind (p.logContext r)) =
          ended (.ok (some code)) (inside s) := by
        simp only [render, hrun]
        rfl
      exact ⟨_, block_of_ended hbody, (hinside s).bound⟩
    | error e s =>
      have hbody : p.render V settings r (t.bind (p.logContext r)) =
          ended (.error e) (inside s) := by
        simp only [render, hrun]
        rfl
      exact ⟨_, block_of_ended hbody, (hinside s).bound⟩

/-- Whatever is well nested tells its events in what the blocks around them bind, inner ones over
outer ones, and ends or fails with the variables bound as it found them, if they restore; scopes do.
So a plugin gives its caller back all that was bound, with the answer it gives anyone; its whole reply
is what a caller gets who has bound nothing. -/
theorem scopes_restored :
    LogScope.contextVars.Restores ∧
    (∀ (p : Plugin) settings source, p.stringify settings source =
      .ofResult (p.stringifyFor LogScope.contextVars settings source ⟨[], []⟩)) ∧
    ∀ V : ContextVars, V.Restores →
      (∀ (ε : Type) (course : Course ε) (t : Telling V), ∃ t',
        course.run V t = ended course.outcome t' ∧ t'.Follows t (course.told (V.bound t.vars))) ∧
      ∀ (p : Plugin) settings source t, ∃ t',
        p.stringifyFor V settings source t = ended (p.stringify settings source).answer t' ∧
          V.bound t'.vars = V.bound t.vars := by
  refine ⟨LogScope.restores, stringify_eq, ?_⟩
  intro V hV
  constructor
  · intro ε course t
    exact course.run_follows hV t
  · intro p settings source t
    exact p.stringifyFor_run settings source hV t

/-- A block overrides a field of the block around it and fails, a block without fields follows, and
the caller's own field is back behind both; so it is behind a plugin that fails in its block. -/
theorem scopes_restored_overlapping :
    let vars := LogScope.contextVars
    let caller : LogScope := [("recording", .str "caller")]
    let outer : LogContext := ⟨[("recording", .str "outer")], by decide⟩
    let inner : LogContext := ⟨[("recording", .str "inner"), ("step", .num 2)], by decide⟩
    let course : Course Unit := .block outer (.andThen
      (.attempt (.block inner (.andThen (.tell nothingFound) (.fail ()))))
      (.block ⟨[], by decide⟩ (.tell nothingFound)))
    let meters : Recording :=
      ⟨"meters", [waitForProperties (.arr [.nonFinite .nan])], none, none⟩
    (∃ t', course.run vars ⟨caller, []⟩ = .ok () t' ∧ vars.bound t'.vars = vars.bound caller ∧
      t'.heard.map (fun told => [told.2 "recording", told.2 "step"]) =
        [[some (.str "inner"), some (.num 2)], [some (.str "outer"), none]]) ∧
    ∃ f t', (Plugin.mk .puppeteer none).stringifyFor vars {} (.parsed meters) ⟨caller, []⟩ =
      .error f t' ∧ vars.bound t'.vars = vars.bound caller := by
  intro vars caller outer inner course meters
  obtain ⟨hrestores, -, hall⟩ := scopes_restored
  obtain ⟨hcourses, hplugins⟩ := hall vars hrestores
  obtain ⟨t', hrun, hfollows⟩ := hcourses Unit course ⟨caller, []⟩
  refine ⟨⟨t', hrun, hfollows.bound, ?_⟩, ?_⟩
  · rw [hfollows.heard]
    rfl
  · obtain ⟨t', hrun, hbound⟩ :=
      hplugins ⟨.puppeteer, none⟩ {} (.parsed meters) ⟨caller, []⟩
    have hfails : ((Plugin.mk .puppeteer none).stringify {} (.parsed meters)).answer.isOk = false := by
      decide +kernel
    cases hanswer : ((Plugin.mk .puppeteer none).stringify {} (.parsed meters)).answer with
    | ok a =>
      rw [hanswer] at hfails
      exact nomatch hfails
    | error f =>
      rw [hanswer] at hrun
      exact ⟨f, t', hrun, hbound⟩

end Plugin

end FlowScript
