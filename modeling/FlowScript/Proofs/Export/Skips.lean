import FlowScript.Export.Engine
import FlowScript.Proofs.Export.ClosedScripts
import FlowScript.Proofs.Recording.Fields
import FlowScript.Proofs.Script.Notices

/-!
# Steps that are left out

A specification leaves a step out where there is no statement for it, and says so. No step is lost
unnoticed: those without lines are, one to one and in order, those that are warned of.
-/
namespace FlowScript

def LogEvent.field? (event : LogEvent) (key : Text) : Option Json := Json.find? key event.fields

/-- A warning that this very step was not exported. -/
structure LogEvent.IsSkipOf (event : LogEvent) (step : Step) : Prop where
  severity : event.severity = .warning
  message : event.message = Notice.skippedMessage
  component : event.field? "component" = some (.str "playwright_test_template")
  type : event.field? "step_type" = some (.str step.type.name)

theorem Notice.isSkipOf_skipped (step : Step) (selector : Option Text) (reason : SkipReason) :
    (skipped step.type selector reason).toEvent.IsSkipOf step where
  severity := rfl
  message := rfl
  component := rfl
  type := rfl

/-- What is told of a button is no such warning. -/
theorem Notice.message_buttonIgnored (b : MouseButton) :
    (buttonIgnored b).toEvent.message ≠ skippedMessage := by
  change ("Mouse button is not supported by Playwright" : Text) ≠ skippedMessage
  decide

namespace Template
open Act

/-- The events that the hooks of a step log. -/
def stepEvents (t : Template) (r : Recording) (step : Step) : List LogEvent :=
  (t.stepNotices r step).map Notice.toEvent

/-- How a step goes with its range in the source map. The hooks of a step without lines warn once
that it was not exported and leave the writer as it was, depth included; those of any other step do
not warn. -/
structure Accounts (t : Template) (r : Recording) (step : Step) (range : Nat × Nat) : Prop where
  runs : ∀ s, ∃ s', runAll (t.stepActs step (some r)) s = .ok () s' ∧
    Export.noticeEvents s' = Export.noticeEvents s ++ t.stepEvents r step ∧
    (range.2 = 0 → s'.writer = s.writer)
  skipped : range.2 = 0 → ∃ event, t.stepEvents r step = [event] ∧ event.IsSkipOf step
  exported : range.2 ≠ 0 → ∀ event ∈ t.stepEvents r step, event.message ≠ Notice.skippedMessage
  unsupported : step.type = .emulateNetworkConditions ∨ step.type = .customStep → range.2 = 0

variable {t : Template} {r : Recording} {step : Step}

/-- A step without acts but a warning. -/
theorem accounts_of_skip {selector : Option Text} {reason : SkipReason}
    (h : t.stepActs step (some r) = [.notify (.skipped step.type selector reason)])
    (w : Writer) (first : Nat) :
    t.Accounts r step (first, (w.written (t.stepActs step (some r))).length) := by
  have hevents : t.stepEvents r step = [(Notice.skipped step.type selector reason).toEvent] := by
    rw [stepEvents, stepNotices, h]
    rfl
  have hcount : (w.written (t.stepActs step (some r))).length = 0 := by
    rw [h]
    rfl
  refine ⟨fun s => ?_, fun _ => ?_, fun hne => ?_, fun _ => hcount⟩
  · refine ⟨{ s with notices := s.notices ++ [.skipped step.type selector reason] }, ?_, ?_,
      fun _ => rfl⟩
    · rw [h]
      rfl
    · rw [hevents, Export.noticeEvents, List.map_append]
      rfl
  · exact ⟨_, hevents, Notice.isSkipOf_skipped step selector reason⟩
  · exact absurd hcount hne

/-- A step that appends a line and does not warn. -/
theorem accounts_of_line (hacts : ∀ a ∈ t.stepActs step (some r), a.Completes)
    (hline : 0 < (t.stepActs step (some r)).countP isLine)
    (hnotices : ∀ n ∈ t.stepNotices r step, n.toEvent.message ≠ Notice.skippedMessage)
    (htype : ¬ (step.type = .emulateNetworkConditions ∨ step.type = .customStep))
    (w : Writer) (first : Nat) :
    t.Accounts r step (first, (w.written (t.stepActs step (some r))).length) := by
  have hcount : (w.written (t.stepActs step (some r))).length ≠ 0 :=
    Nat.ne_of_gt (Nat.lt_of_lt_of_le hline (countP_le_length_written hacts _ _))
  refine ⟨fun s => ?_, fun h => absurd h hcount, fun _ => ?_, fun h => absurd h htype⟩
  · refine ⟨_, runAll_of_completes hacts s, ?_, fun h => absurd h hcount⟩
    exact List.map_append
  · exact List.forall_mem_map.mpr hnotices

/-- If every step goes with its own block wherever it stands, all steps go with their ranges. -/
theorem forall₂_accounts {steps : List Step}
    (h : ∀ step ∈ steps, ∀ (w : Writer) first,
      t.Accounts r step (first, (w.written (t.stepActs step (some r))).length))
    (w : Writer) (first : Nat) :
    List.Forall₂ (t.Accounts r) steps (SourceMap.rangesFrom first (t.stepBlocks r w steps)) := by
  induction steps generalizing w first with
  | nil => exact .nil
  | cons step steps ih =>
    exact .cons (h step List.mem_cons_self w first)
      (ih (fun s hs => h s (List.mem_cons_of_mem step hs)) _ _)

/-- The warnings among the events of all steps are those of the steps without lines. -/
theorem forall₂_isSkipOf {steps : List Step} {ranges : List (Nat × Nat)}
    (h : List.Forall₂ (t.Accounts r) steps ranges) :
    List.Forall₂ LogEvent.IsSkipOf
      ((steps.flatMap (t.stepEvents r)).filter fun event => event.message = Notice.skippedMessage)
      (((steps.zip ranges).filter fun step => step.2.2 = 0).map Prod.fst) := by
  induction h with
  | nil => exact .nil
  | @cons step range steps ranges haccounts _ ih =>
    rw [List.flatMap_cons, List.filter_append, List.zip_cons_cons, List.filter_cons]
    by_cases hrange : range.2 = 0
    · obtain ⟨event, hevents, hskip⟩ := haccounts.skipped hrange
      rw [hevents, List.filter_cons_of_pos (by simpa using hskip.message)]
      simpa [hrange] using List.Forall₂.cons hskip ih
    · have hnone : (t.stepEvents r step).filter
          (fun event => event.message = Notice.skippedMessage) = [] := by
        simpa [List.filter_eq_nil_iff] using haccounts.exported hrange
      simpa [hnone, hrange] using ih

end Template

namespace Playwright
open Act

variable {c : TemplateConfig} {s : Step} {st : Statement}

theorem notices_buttonOption (p : Press) : ∀ n ∈ (buttonOption p).2, ∃ b, n = .buttonIgnored b := by
  rw [buttonOption]
  split <;> simp

/-- The only notices that go with a statement are on a button. -/
theorem notices_statement {preferred : Option Text} (h : statement s preferred = .ok st) :
    ∀ n ∈ st.notices, ∃ b, n = .buttonIgnored b := by
  have hcall (receiver : List Piece) (method : String) (arguments : List (List Piece)) :
      ∀ n ∈ (call receiver method arguments).notices, ∃ b, n = .buttonIgnored b :=
    fun _ hn => absurd hn List.not_mem_nil
  cases s with
  | change | hover =>
    obtain ⟨element, -, ⟨⟩⟩ := bind_eq_ok_iff.mp h
    exact hcall _ _ _
  | click _ p | doubleClick _ p =>
    obtain ⟨element, -, ⟨⟩⟩ := bind_eq_ok_iff.mp h
    exact notices_buttonOption p
  | close | navigate | setViewport | waitForExpression =>
    cases h
    exact hcall _ _ _
  | customStep | emulateNetworkConditions => cases h
  | keyDown | keyUp =>
    rw [statement, keyboard] at h
    split at h
    · cases h
      exact hcall _ _ _
    · cases h
  | scroll _ _ _ selectors =>
    cases selectors with
    | none =>
      cases h
      exact hcall _ _ _
    | some alternatives =>
      obtain ⟨element, -, ⟨⟩⟩ := bind_eq_ok_iff.mp h
      exact hcall _ _ _
  | waitForElement e w =>
    rw [statement, waitForElement] at h
    dsimp only at h
    split at h
    · cases h
    split at h
    · obtain ⟨element, -, ⟨⟩⟩ := bind_eq_ok_iff.mp h
      exact fun _ hn => absurd hn List.not_mem_nil
    split at h
    · obtain ⟨element, -, ⟨⟩⟩ := bind_eq_ok_iff.mp h
      exact hcall _ _ _
    · cases h

theorem statement_unsupported {preferred : Option Text}
    (h : s.type = .emulateNetworkConditions ∨ s.type = .customStep) :
    ∃ reason, statement s preferred = .error reason := by
  cases s with
  | customStep | emulateNetworkConditions => exact ⟨_, rfl⟩
  | _ => simp [Step.type] at h

theorem notices_expectationActs (s : Step) : notices (expectationActs s) = [] := by
  rw [expectationActs, notices_flatMap, List.flatMap_eq_nil_iff]
  intro e _
  cases e.url <;> cases e.title <;> rfl

theorem notices_contextActs (s : Step) : notices (contextActs s) = [] := by
  by_cases htarget : s.target = Step.mainTarget <;> by_cases hframe : s.inFrame = true <;>
    simp [contextActs, htarget, hframe, Step.frameActs]

variable {r : Option Recording}

/-- A step with a statement gives the notices of the statement only. -/
theorem notices_stepActs (h : statement s (c.attributeFor r) = .ok st) :
    notices (stepActs c s r) = st.notices := by
  have hbody : notices (.line st.pieces :: expectationActs s) = [] := notices_expectationActs s
  have hblock : notices ([.code "\x7b", .startBlock] ++ contextActs s ++
      (.line st.pieces :: expectationActs s) ++ [.endBlock, .code "\x7d"]) = [] := by
    rw [notices_append, notices_append, notices_append, notices_contextActs, hbody]
    rfl
  rw [stepActs, h]
  dsimp only
  rw [notices_append, notices_map_notify]
  split
  · rw [hblock, List.append_nil]
  · rw [hbody, List.append_nil]

/-- A step with a statement appends a line. -/
theorem countP_isLine_stepActs (h : statement s (c.attributeFor r) = .ok st) :
    0 < (stepActs c s r).countP isLine := by
  refine List.countP_pos_iff.mpr ⟨.line st.pieces, ?_, rfl⟩
  rw [stepActs, h]
  dsimp only
  split <;> simp

theorem completes_stepActs (c : TemplateConfig) (s : Step) (r : Option Recording) :
    ∀ a ∈ stepActs c s r, a.Completes := by
  rw [← failure?_eq_none_iff, failure?, failures_stepActs]
  rfl

/-- Every step is left out with a warning, or comes to a line without one. -/
theorem accounts (c : TemplateConfig) (r : Recording) (s : Step) (w : Writer) (first : Nat) :
    (template c).Accounts r s (first, (w.written ((template c).stepActs s (some r))).length) := by
  cases h : statement s (c.attributeFor (some r)) with
  | error reason =>
    have hacts : (template c).stepActs s (some r) =
        [.notify (.skipped s.type (s.selectors?.map fun a => a.best.first) reason)] := by
      rw [template_stepActs, stepActs, h]
    exact Template.accounts_of_skip hacts w first
  | ok st =>
    refine Template.accounts_of_line ?_ ?_ ?_ ?_ w first
    · rw [template_stepActs]
      exact completes_stepActs c s (some r)
    · rw [template_stepActs]
      exact countP_isLine_stepActs h
    · rw [Template.stepNotices, template_stepActs, notices_stepActs h]
      intro n hn
      obtain ⟨b, rfl⟩ := notices_statement h n hn
      exact Notice.message_buttonIgnored b
    · intro htype
      obtain ⟨reason, herror⟩ := statement_unsupported htype
      cases h.symm.trans herror

theorem notices_recordingActs (c : TemplateConfig) (r : Recording) :
    notices ((template c).recordingActs r) = r.steps.flatMap ((template c).stepNotices r) := by
  have hprologue : notices (prologue r) = [] := by
    cases h : r.timeout <;> simp [prologue, h]
  rw [Template.notices_recordingActs]
  change notices (prologue r) ++ _ ++ notices epilogue = _
  rw [hprologue, List.nil_append]
  exact List.append_nil _

/-- The steps to which the source map of a specification gives no lines are, in order, those that
are warned of, and the hooks of such a step do nothing but warn, whatever its scope is and
whatever is expected of it. Every event is one of a step, and no step with lines is warned of. -/
theorem skips_warned {r : Recording} {unit script : Text} {s' : Session}
    (h : (template c).renderRecording r (.start unit) = .ok script s') :
    ∃ ranges, SourceMap.extract script = .ok ranges ∧
      List.Forall₂ ((template c).Accounts r) r.steps ranges ∧
      Export.noticeEvents s' = r.steps.flatMap ((template c).stepEvents r) ∧
      List.Forall₂ LogEvent.IsSkipOf
        ((Export.noticeEvents s').filter fun event => event.message = Notice.skippedMessage)
        (((r.steps.zip ranges).filter fun step => step.2.2 = 0).map Prod.fst) := by
  have hextract := Framework.extract_script (f := .playwrightTest) h
  have haccounts : List.Forall₂ ((template c).Accounts r) r.steps
      ((template c).ranges r (.empty unit)) :=
    Template.forall₂_accounts (fun step _ => accounts c r step) _ _
  have hevents : Export.noticeEvents s' = r.steps.flatMap ((template c).stepEvents r) := by
    rw [Export.noticeEvents, Template.notices_of_renderRecording h, notices_recordingActs]
    exact List.map_flatMap
  refine ⟨_, hextract, haccounts, hevents, ?_⟩
  rw [hevents]
  exact Template.forall₂_isSkipOf haccounts

/-- Between two steps on the page, two on a popup are left out, the title they expect with them. -/
theorem skips_warned_popup :
    let main : PageScope := ⟨none, none, none⟩
    let popup : PageScope := ⟨some "https://shop/cart", none, some [⟨none, some "Cart"⟩]⟩
    let shot : Step := .customStep ⟨popup, some [0]⟩ "screenshot" .null
    let key : Step := .keyDown popup "F13"
    let r : Recording := ⟨"popup", [.keyDown main "Enter", shot, key, .close main], none, none⟩
    ∃ script s', (template {}).renderRecording r (.start "  ") = .ok script s' ∧
      SourceMap.extract script = .ok [(4, 1), (5, 0), (5, 0), (5, 1)] ∧
      List.Forall₂ LogEvent.IsSkipOf
        ((Export.noticeEvents s').filter fun event => event.message = Notice.skippedMessage)
        [shot, key] := by
  intro main popup shot key r
  obtain ⟨script, s', hrun, hread⟩ := Rendering.exists_ok_of_check
    (x := (template {}).renderRecording r) (s := .start "  ")
    (p := fun script _ =>
      (SourceMap.extract script).toOption = some [(4, 1), (5, 0), (5, 0), (5, 1)])
    (by decide +kernel)
  obtain ⟨ranges, hextract, -, -, hskips⟩ := skips_warned hrun
  rw [hextract, decide_eq_true_iff] at hread
  obtain rfl : ranges = [(4, 1), (5, 0), (5, 0), (5, 1)] := Option.some.inj hread
  exact ⟨script, s', hrun, hextract, hskips⟩

end Playwright

end FlowScript
