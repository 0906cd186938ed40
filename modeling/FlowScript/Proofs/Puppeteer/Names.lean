import FlowScript.Proofs.Puppeteer.Brackets
import FlowScript.Proofs.Puppeteer.Steps
import FlowScript.Proofs.Script.Scopes

/-!
# The names of Puppeteer steps

What every part of a step does with names: the page is declared first, then the frame if there is
one, and what acts on an element finds it in whichever of the two the step acts on.
-/
namespace FlowScript.Puppeteer
open Act Names

def timeoutMentions (s : Step) : List Mention :=
  match s.timeout with
  | some _ => [.declare 0 "timeout"]
  | none => []

def targetMentions (target : Text) : List Mention :=
  if target = Step.mainTarget then [.declare 0 "targetPage"]
  else [.declare 0 "target", .declare 0 "targetPage", .use "target" (some '.'),
    .use "targetPage" (some '.')]

def promiseMentions (s : Step) : List Mention :=
  if s.assertedEvents.isEmpty then []
  else .declare 0 "promises" :: s.assertedEvents.flatMap fun _ =>
    [.use "promises" (some '.'), .use (contextName s) (some '.')]

def awaitMentions (s : Step) : List Mention :=
  if s.assertedEvents.isEmpty then [] else [.use "promises" (some ')')]

def elementMentions (context : Text) : List Mention :=
  [.use "scrollIntoViewIfNeeded" (some '('), .use context (some ','), .declare 0 "element",
    .use "waitForSelectors" (some '('), .use context (some ',')]

def changeMentions : List Mention :=
  [.declare 0 "inputType", .use "element" (some '.'),
    .use "inputType" (some '='), .block, .use "element" (some ','),
    .use "inputType" (some ')'), .block, .use "element" (some ','), .block,
    .use "element" (some ',')]

/-- What the action of a step does with names, `context` being the variable that it acts on. -/
def actionMentions (context : Text) : Step → List Mention
  | .change .. => elementMentions context ++ changeMentions
  | .click .. | .hover .. => elementMentions context ++ [.use "element" (some '.')]
  | .doubleClick .. =>
    elementMentions context ++ [.use "element" (some '.'), .use "element" (some '.')]
  | .customStep .. => []
  | .scroll _ _ _ selectors =>
    if selectors.isSome then elementMentions context ++ [.use "element" (some '.'), .block]
    else [.use context (some '.'), .block]
  | .waitForElement .. => [.use context (some ',')]
  | .waitForExpression .. => [.use context (some '.')]
  | .close .. | .emulateNetworkConditions .. | .keyDown .. | .keyUp .. | .navigate ..
  | .setViewport .. => [.use "targetPage" (some '.')]

/-- The variable that a step acts on is one of two. -/
@[elab_as_elim]
theorem contextName_elim {motive : String → Prop} (s : Step) (page : motive "targetPage")
    (frame : motive "frame") : motive (contextName s) := by
  rw [contextName]
  split
  · exact frame
  · exact page

section
variable (s : Step)

theorem isPart_timeoutActs : IsPart (timeoutActs s) (timeoutMentions s) := by
  refine ⟨?_, isNeutral_timeoutActs s, (settled_timeoutActs s).prints⟩
  cases htimeout : s.timeout with
  | none =>
    simp only [timeoutActs, timeoutMentions, htimeout]
    exact .nil _
  | some t =>
    simp only [timeoutActs, timeoutMentions, htimeout]
    refine reads_of_glanceAll ?_
    simp only [glanceAll, glance, Piece.glanceAll, Piece.glance_code]
    rfl

set_option maxRecDepth 2000 in
theorem isPart_targetActs (target : Text) : IsPart (targetActs target) (targetMentions target) := by
  have hsettled : AllSettled (targetActs target) := by
    by_cases h : target = Step.mainTarget <;> simp [targetActs, h]
  refine ⟨?_, isNeutral_targetActs target, hsettled.prints⟩
  rw [targetActs, targetMentions]
  split
  · refine reads_of_glanceAll ?_
    simp only [Act.code, glanceAll, glance, Piece.glanceAll, Piece.glance_code]
    rfl
  · refine reads_of_glanceAll ?_
    simp only [Act.code, glanceAll, glance, Piece.glanceAll, Piece.glance_code]
    rfl

theorem isPart_promiseActs : IsPart (promiseActs s) (promiseMentions s) := by
  refine ⟨?_, isNeutral_promiseActs s, (settled_promiseActs s).prints⟩
  rw [promiseActs, promiseMentions]
  split
  · exact .nil _
  have hdeclare : Reads .start [Act.code "const promises = [];"] [.declare 0 "promises"] .start := by
    refine reads_of_glanceAll ?_
    simp only [Act.code, glanceAll, glance, Piece.glanceAll, Piece.glance_code]
    rfl
  have hpush : Reads .start
      [line [.code "promises.push(", .code (contextName s), .code ".waitForNavigation());"]]
      [.use "promises" (some '.'), .use (contextName s) (some '.')] .start := by
    refine reads_of_glanceAll (contextName_elim s ?_ ?_)
    · simp only [glanceAll, glance, Piece.glanceAll, Piece.glance_code]
      rfl
    · simp only [glanceAll, glance, Piece.glanceAll, Piece.glance_code]
      rfl
  exact hdeclare.append (reads_map fun _ _ => hpush)

theorem isPart_awaitActs : IsPart (awaitActs s) (awaitMentions s) := by
  refine ⟨?_, isNeutral_awaitActs s, (settled_awaitActs s).prints⟩
  rw [awaitActs, awaitMentions]
  split
  · exact .nil _
  · refine reads_of_glanceAll ?_
    simp only [Act.code, glanceAll, glance, Piece.glanceAll, Piece.glance_code]
    rfl

/-- The variable of a step as the next argument behind a value, and the rest of its line. -/
theorem reads_context {l : List Char}
    (h : ∀ name ∈ ["frame", "targetPage"], Piece.glanceAll (.behind 0)
      [.code ", ", .code name, .code (no_index (String.ofList l))] =
        some ([.use (Text.ofString name) (some ',')], .at .start)) :
    Piece.Reads (.behind 0)
      [.code ", ", .code (contextName s), .code (no_index (String.ofList l))]
      [.use (contextName s) (some ',')] (.at .start) := by
  refine Piece.reads_of_glanceAll (h _ ?_)
  exact contextName_elim s (by simp) (by simp)

theorem reads_context_timeout : Piece.Reads (.behind 0)
    [.code ", ", .code (contextName s), .code ", timeout);"] [.use (contextName s) (some ',')]
    (.at .start) := by
  refine reads_context s ?_
  rw [List.forall_mem_cons, List.forall_mem_singleton]
  simp only [Piece.glanceAll, Piece.glance_code]
  exact ⟨rfl, rfl⟩

/-- A line that calls a function with the selectors of a step, and with its variable next. -/
def elementLine (before behind : String) (selectors : Alternatives) : Act :=
  line (.code before :: Piece.value selectors.toJson ++
    [.code ", ", .code (contextName s), .code behind])

theorem elementActs_eq (selectors : Alternatives) : elementActs s selectors =
    [elementLine s "await scrollIntoViewIfNeeded(" ", timeout);" selectors,
      elementLine s "const element = await waitForSelectors("
        ", \x7b timeout, visible: true \x7d);" selectors] := rfl

theorem isPart_elementLine {before behind : String} (selectors : Alternatives)
    {ms ms' : List Mention}
    (hneutral : Piece.IsNeutral [.code before, .quoted [], .code ", ", .quoted [], .code behind])
    (hbefore : Piece.Reads (.at .start) [.code before] ms (.at (.idle 0 .operand)))
    (hbehind : Piece.Reads (.behind 0) [.code ", ", .code (contextName s), .code behind] ms'
      (.at .start)) : IsPart [elementLine s before behind selectors] (ms ++ ms') where
  reads := reads_line (hbefore.append ((Piece.reads_value selectors.toJson 0).append hbehind)) rfl
  neutral := isNeutral_elementLine s selectors hneutral
  prints := AllSettled.prints (by simp [elementLine])

theorem isPart_scrollLine (selectors : Alternatives) :
    IsPart [elementLine s "await scrollIntoViewIfNeeded(" ", timeout);" selectors]
      [.use "scrollIntoViewIfNeeded" (some '('), .use (contextName s) (some ',')] := by
  have hcall : Piece.Reads (.at .start) [.code "await scrollIntoViewIfNeeded("]
      [.use "scrollIntoViewIfNeeded" (some '(')] (.at (.idle 0 .operand)) := by
    refine Piece.reads_of_glanceAll ?_
    simp only [Piece.glanceAll, Piece.glance_code]
    rfl
  refine isPart_elementLine s selectors (fun due => ?_) hcall (reads_context_timeout s)
  simp only [Piece.scanAll, Piece.scan_code]
  rfl

theorem isPart_findLine (selectors : Alternatives) :
    IsPart [elementLine s "const element = await waitForSelectors("
        ", \x7b timeout, visible: true \x7d);" selectors]
      [.declare 0 "element", .use "waitForSelectors" (some '('),
        .use (contextName s) (some ',')] := by
  have hcall : Piece.Reads (.at .start) [.code "const element = await waitForSelectors("]
      [.declare 0 "element", .use "waitForSelectors" (some '(')] (.at (.idle 0 .operand)) := by
    refine Piece.reads_of_glanceAll ?_
    simp only [Piece.glanceAll, Piece.glance_code]
    rfl
  refine isPart_elementLine s selectors (fun due => ?_) hcall (reads_context s ?_)
  · simp only [Piece.scanAll, Piece.scan_code]
    rfl
  · rw [List.forall_mem_cons, List.forall_mem_singleton]
    simp only [Piece.glanceAll, Piece.glance_code]
    exact ⟨rfl, rfl⟩

theorem isPart_elementActs (selectors : Alternatives) :
    IsPart (elementActs s selectors) (elementMentions (contextName s)) :=
  (isPart_scrollLine s selectors).append (isPart_findLine s selectors)

/-- Options of a click mention nothing. -/
def AreSilent (options : List (List Piece)) : Prop :=
  ∀ option ∈ options, Reads (.idle 1 .entry) [line (.indent 1 :: option)] [] (.idle 1 .entry)

theorem areSilent_delayLines (p : Press) : AreSilent (delayLines p) := by
  have hdelay (d : Number) : Reads (.idle 1 .entry)
      [line (.indent 1 :: [.code "delay: ", .number d, .code ","])] [] (.idle 1 .entry) := by
    refine reads_of_glanceAll ?_
    simp only [glanceAll, glance, Piece.glanceAll, Piece.glance_code]
    rfl
  rw [delayLines]
  split
  · split
    · exact List.forall_mem_nil _
    · exact List.forall_mem_singleton.mpr (hdelay _)
  · exact List.forall_mem_nil _

theorem reads_clickActs (p : Press) {extra : List (List Piece)} (hextra : AreSilent extra) :
    Reads .start (clickActs p extra) [.use "element" (some '.')] .start := by
  have hopen : Reads .start [Act.code "await element.click(\x7b"] [.use "element" (some '.')]
      (.idle 1 .entry) := by
    refine reads_of_glanceAll ?_
    simp only [Act.code, glanceAll, glance, Piece.glanceAll, Piece.glance_code]
    rfl
  have hoptions : Reads (.idle 1 .entry) (extra.map fun option => line (.indent 1 :: option)) []
      (.idle 1 .entry) := by
    have hmap := reads_map (m := fun _ => []) hextra
    rwa [List.flatMap_eq_nil_iff.mpr fun _ _ => rfl] at hmap
  have hbutton (b : MouseButton) : Reads (.idle 1 .entry)
      [line [.indent 1, .code "button: '", .code b.physicalName, .code "',"]] []
      (.idle 1 .entry) := by
    refine reads_of_glanceAll ?_
    cases b <;>
      (simp only [MouseButton.physicalName, glanceAll, glance, Piece.glanceAll, Piece.glance_code]; rfl)
  have hclose : Reads (.idle 1 .entry)
      [line [.indent 1, .code "offset: \x7b"],
        line [.indent 2, .code "x: ", .number p.offsetX, .code ","],
        line [.indent 2, .code "y: ", .number p.offsetY, .code ","],
        line [.indent 1, .code "\x7d,"], Act.code "\x7d);"] [] .start := by
    refine reads_of_glanceAll ?_
    simp only [Act.code, glanceAll, glance, Piece.glanceAll, Piece.glance_code]
    rfl
  have hfront := hopen.append hoptions
  cases hb : p.button with
  | none => simpa [clickActs, hb] using hfront.append hclose
  | some b => simpa [clickActs, hb] using (hfront.append (hbutton b)).append hclose

set_option maxRecDepth 4000 in
theorem reads_changeActs (value : Text) : Reads .start (changeActs value) changeMentions .start := by
  refine reads_of_glanceAll ?_
  simp only [changeActs, Act.code, glanceAll, glance, Piece.glanceAll, Piece.glance_code,
    List.cons_append]
  rfl

theorem reads_networkActs (download upload latency : Number) :
    Reads .start (networkActs download upload latency) [.use "targetPage" (some '.')] .start := by
  refine reads_of_glanceAll ?_
  rw [networkActs]
  split <;>
    (simp only [Act.code, glanceAll, glance, Piece.glanceAll, Piece.glance_code]; rfl)

set_option maxRecDepth 4000 in
theorem isPart_scrollActs (x y : Option Number) (selectors : Option Alternatives) :
    IsPart (scrollActs s x y selectors)
      (if selectors.isSome then
        elementMentions (contextName s) ++ [.use "element" (some '.'), .block]
      else [.use (contextName s) (some '.'), .block]) := by
  refine ⟨?_, isNeutral_scrollActs s x y selectors, (settled_scrollActs s x y selectors).prints⟩
  cases selectors with
  | some alternatives =>
    have hscroll : Reads .start
        [line [.code "await element.evaluate((el, x, y) => \x7b el.scrollTop = y; el.scrollLeft = x; \x7d, ",
          .number (x.getD 0), .code ", ", .number (y.getD 0), .code ");"]]
        [.use "element" (some '.'), .block] .start := by
      refine reads_of_glanceAll ?_
      simp only [glanceAll, glance, Piece.glanceAll, Piece.glance_code]
      rfl
    exact (isPart_elementActs s alternatives).reads.append hscroll
  | none =>
    have hscroll : Reads .start
        [line [.code "await ", .code (contextName s),
          .code ".evaluate((x, y) => \x7b window.scroll(x, y); \x7d, ",
          .number (x.getD 0), .code ", ", .number (y.getD 0), .code ");"]]
        [.use (contextName s) (some '.'), .block] .start := by
      refine reads_of_glanceAll (contextName_elim s ?_ ?_)
      · simp only [glanceAll, glance, Piece.glanceAll, Piece.glance_code]
        rfl
      · simp only [glanceAll, glance, Piece.glanceAll, Piece.glance_code]
        rfl
    exact hscroll

/-- What the action of a step does with names, unless it fails. -/
theorem isPart_actionActs (h : s.nonFinites = []) :
    IsPart (actionActs s) (actionMentions (contextName s) s) := by
  refine ⟨?_, isNeutral_actionActs s, h ▸ prints_actionActs s⟩
  cases s with
  | change e value => exact (isPart_elementActs _ e.selectors).reads.append (reads_changeActs value)
  | click e p =>
    exact (isPart_elementActs _ e.selectors).reads.append
      (reads_clickActs p (areSilent_delayLines p))
  | doubleClick e p =>
    have hcount : AreSilent ([.code "clickCount: 2,"] :: delayLines p) := by
      refine List.forall_mem_cons.mpr ⟨reads_of_glanceAll ?_, areSilent_delayLines p⟩
      simp only [glanceAll, glance, Piece.glanceAll, Piece.glance_code]
      rfl
    exact ((isPart_elementActs _ e.selectors).reads.append
      (reads_clickActs p (List.forall_mem_nil _))).append (reads_clickActs p hcount)
  | hover e =>
    refine (isPart_elementActs _ e.selectors).reads.append (reads_of_glanceAll ?_)
    simp only [Act.code, glanceAll, glance, Piece.glanceAll, Piece.glance_code]
    rfl
  | customStep _ name _ => exact reads_of_glance rfl
  | emulateNetworkConditions _ download upload latency =>
    exact reads_networkActs download upload latency
  | scroll _ x y selectors => exact (isPart_scrollActs _ x y selectors).reads
  | setViewport _ v =>
    have hopen : Piece.Reads (.at .start) [.code "await targetPage.setViewport("]
        [.use "targetPage" (some '.')] (.at (.idle 0 .operand)) := by
      refine Piece.reads_of_glanceAll ?_
      simp only [Piece.glanceAll, Piece.glance_code]
      rfl
    have hclose : Piece.Reads (.behind 0) [.code ");"] [] (.at .start) := by
      refine Piece.reads_of_glanceAll ?_
      simp only [Piece.glanceAll, Piece.glance_code]
      rfl
    have hsize := Piece.reads_value (.obj [("width", .num v.width), ("height", .num v.height)]) 0
    exact reads_line (hopen.append (hsize.append hclose)) rfl
  | waitForElement e w =>
    have hopen : Piece.Reads (.at .start) [.code "await waitForElement("] []
        (.at (.idle 0 .operand)) := by
      refine Piece.reads_of_glanceAll ?_
      simp only [Piece.glanceAll, Piece.glance_code]
      rfl
    have hpayload := Piece.reads_value (Step.waitForElement e w).toJson 0
    exact reads_line (hopen.append (hpayload.append (reads_context_timeout _))) rfl
  | waitForExpression scope expression =>
    have hwait : Reads .start
        [line [.code "await ", .code (contextName (.waitForExpression scope expression)),
          .code ".waitForFunction(", .quoted expression, .code ", \x7b timeout \x7d);"]]
        [.use (contextName (.waitForExpression scope expression)) (some '.')] .start := by
      refine reads_of_glanceAll (contextName_elim (.waitForExpression scope expression) ?_ ?_)
      · simp only [glanceAll, glance, Piece.glanceAll, Piece.glance_code]
        rfl
      · simp only [glanceAll, glance, Piece.glanceAll, Piece.glance_code]
        rfl
    exact hwait
  | close | keyDown | keyUp | navigate =>
    refine reads_of_glanceAll ?_
    simp only [actionActs, Act.code, glanceAll, glance, Piece.glanceAll, Piece.glance_code]
    rfl

end

section
variable (s : Step)

theorem contextName_eq : (contextName s : Text) = s.context := by
  rw [contextName, Step.context]
  split <;> rfl

/-- All that steps declare in front of the walk to their frame. -/
def setupKinds : List (List Mention) :=
  [[.declare 0 "targetPage"], [.declare 0 "timeout", .declare 0 "targetPage"],
    [.declare 0 "target", .declare 0 "targetPage", .use "target" (some '.'),
      .use "targetPage" (some '.')],
    [.declare 0 "timeout", .declare 0 "target", .declare 0 "targetPage", .use "target" (some '.'),
      .use "targetPage" (some '.')]]

theorem setup_mem : timeoutMentions s ++ targetMentions s.target ∈ setupKinds := by
  rw [timeoutMentions, targetMentions]
  cases s.timeout <;> by_cases htarget : s.target = Step.mainTarget <;>
    simp [htarget, setupKinds]

/-- All that the actions do that find an element first. -/
def elementKinds (context : Text) : List (List Mention) :=
  [elementMentions context ++ [.use "element" (some '.')],
    elementMentions context ++ [.use "element" (some '.'), .block],
    elementMentions context ++ [.use "element" (some '.'), .use "element" (some '.')],
    elementMentions context ++ changeMentions]

/-- All that actions do. -/
def actionKinds (context : Text) : List (List Mention) :=
  [[], [.use "targetPage" (some '.')], [.use context (some '.')], [.use context (some ',')],
    [.use context (some '.'), .block]] ++ elementKinds context

theorem action_mem (context : Text) : actionMentions context s ∈ actionKinds context := by
  cases s with
  | scroll _ _ _ selectors => cases selectors <;> simp [actionMentions, actionKinds, elementKinds]
  | _ => simp [actionMentions, actionKinds, elementKinds]

/-- What is declared behind the walk to a frame. -/
def news : List Text := ["promises", "element", "inputType"]

theorem setupKinds_resolve : ∀ ms ∈ setupKinds, Resolves [] ms ∧
    ("targetPage" : Text) ∈ declared ms ∧ ("frame" : Text) ∉ named ms ∧
    ∀ name ∈ news, name ∉ ("frame" : Text) :: declared ms := by
  decide +kernel

theorem actionKinds_fit : ∀ context ∈ Step.contexts, ∀ ms ∈ actionKinds context,
    Fits [context, "targetPage"] news.tail ms ∧
    ∀ name ∈ news.tail, name ∉ [context, "targetPage", "promises"] := by
  decide +kernel

theorem promises_fit : ∀ context ∈ Step.contexts,
    Fits [context, "targetPage"] ["promises"] [.declare 0 "promises"] ∧
    Fits [context, "targetPage", "promises"] []
      [.use "promises" (some '.'), .use context (some '.')] ∧
    Fits ["promises"] [] [.use "promises" (some ')')] := by
  decide +kernel

theorem fits_promiseMentions (h : ¬s.assertedEvents.isEmpty = true) :
    Fits [s.context, "targetPage"] ["promises"] (promiseMentions s) ∧
      ("promises" : Text) ∈ declared (promiseMentions s) := by
  obtain ⟨hdeclare, hpush, -⟩ := promises_fit _ s.context_mem
  rw [promiseMentions, if_neg h, contextName_eq]
  exact ⟨hdeclare.append (.flatMap fun _ _ => hpush) (by simp) nofun, by simp⟩

/-- What a step does behind the walk to its frame. -/
def restMentions : List Mention :=
  promiseMentions s ++ actionMentions s.context s ++ awaitMentions s

/-- The action and the promises around it fit together. -/
theorem fits_restMentions : Fits [s.context, "targetPage"] news (restMentions s) := by
  obtain ⟨haction, hnew⟩ := actionKinds_fit _ s.context_mem _ (action_mem s s.context)
  by_cases hevents : s.assertedEvents.isEmpty = true
  · simp only [restMentions, promiseMentions, awaitMentions, hevents, if_true, List.nil_append,
      List.append_nil]
    exact haction.mono fun name hname => List.mem_cons_of_mem _ hname
  · obtain ⟨hpromises, hdeclared⟩ := fits_promiseMentions s hevents
    have hboth := hpromises.append haction (by simp) hnew
    rw [restMentions, awaitMentions, if_neg hevents]
    exact hboth.append (promises_fit _ s.context_mem).2.2 (by simp [hdeclared]) nofun

theorem isSetUp {ms : List Mention} (h : Fits [s.context, "targetPage"] news ms) :
    Step.IsSetUp s (timeoutMentions s ++ targetMentions s.target) news ms :=
  have hsetup := setupKinds_resolve _ (setup_mem s)
  ⟨hsetup.1, hsetup.2.1, hsetup.2.2.1, h, hsetup.2.2.2⟩

theorem isPart_setup : IsPart (timeoutActs s ++ targetActs s.target)
    (timeoutMentions s ++ targetMentions s.target) :=
  (isPart_timeoutActs s).append (isPart_targetActs s.target)

theorem body_eq : body s = timeoutActs s ++ targetActs s.target ++
    (if s.inFrame then Step.frameActs s.framePath else []) ++
      (promiseActs s ++ actionActs s ++ awaitActs s) := by
  simp [body, contextActs]

theorem stepActs_eq_block :
    stepActs s = [code "\x7b", startBlock] ++ (body s ++ [endBlock, code "\x7d"]) := by
  simp [stepActs_eq]

theorem failure?_stepActs_eq_none_iff : failure? (stepActs s) = none ↔ s.nonFinites = [] := by
  rw [failure?, failures_stepActs, List.head?_eq_none_iff, List.map_eq_nil_iff]

theorem isPart_rest (h : s.nonFinites = []) :
    IsPart (promiseActs s ++ actionActs s ++ awaitActs s) (restMentions s) := by
  rw [restMentions, ← contextName_eq]
  exact ((isPart_promiseActs s).append (isPart_actionActs s h)).append (isPart_awaitActs s)

/-- What stands in the block of a step, unless it fails. -/
theorem isPart_body (h : s.nonFinites = []) : IsPart (body s)
    (timeoutMentions s ++ targetMentions s.target ++ s.walkMentions ++ restMentions s) := by
  rw [body_eq]
  exact ((isPart_setup s).append s.isPart_walk).append (isPart_rest s h)

/-- A step that prints a payload with a double that is no number ends in front of its action. -/
theorem completed_stepActs (h : s.nonFinites ≠ []) : completed (stepActs s) =
    [code "\x7b", startBlock] ++ (timeoutActs s ++ targetActs s.target ++
      (if s.inFrame then Step.frameActs s.framePath else []) ++ promiseActs s) := by
  have hbefore : ∀ a ∈ [code "\x7b", startBlock] ++ (timeoutActs s ++ targetActs s.target ++
      (if s.inFrame then Step.frameActs s.framePath else []) ++ promiseActs s), a.Completes := by
    have hpart := ((isPart_setup s).append s.isPart_walk).append (isPart_promiseActs s)
    refine List.forall_mem_append.mpr ⟨?_, hpart.prints.completes⟩
    simp [completes_iff]
  -- Only a payload goes wrong, and the line that prints it is the whole action.
  have haction : ∃ a f, actionActs s = [a] ∧ a.failures.head? = some f := by
    cases s with
    | waitForElement e w =>
      obtain ⟨x, xs, hx⟩ := List.exists_cons_of_ne_nil h
      refine ⟨_, .nonFinite x, rfl, ?_⟩
      rw [Step.nonFinites] at hx
      simp [Piece.nonFinite?_of_isSettled, Step.nonFinites_toJson, hx]
    | _ => exact absurd rfl h
  obtain ⟨a, f, ha, hf⟩ := haction
  have hsplit : stepActs s = [code "\x7b", startBlock] ++ (timeoutActs s ++ targetActs s.target ++
      (if s.inFrame then Step.frameActs s.framePath else []) ++ promiseActs s) ++
        (a :: (awaitActs s ++ [endBlock, code "\x7d"])) := by
    simp [stepActs, contextActs, ha]
  rw [hsplit, completed_append_of_completes hbefore, completed_cons_of_failures hf, List.append_nil]

variable {unit : Text} (hunit : unit.isBlank = true) (depth : Int) (size : Nat)
include hunit

/-- The lines of a step are a block whose scope is in order, or the start of one, if the payload that
it prints goes wrong. -/
theorem inScope_written : ∃ body ms, Step.InScope unit (depth + 1) s.framePath body ms ∧
    written unit depth size (completed (stepActs s)) =
      braceLine unit depth "\x7b" :: body ++
        if failure? (stepActs s) = none then [braceLine unit depth "\x7d"] else [] := by
  by_cases hfinite : s.nonFinites = []
  · have hnone := (failure?_stepActs_eq_none_iff s).mpr hfinite
    have hscope := Step.inScope_written hunit (isPart_setup s) (isPart_rest s hfinite)
      (isSetUp s (fits_restMentions s)) (depth + 1) (size + 1)
    rw [← body_eq] at hscope
    rw [if_pos hnone, completed_of_completes (failure?_eq_none_iff.mp hnone), stepActs_eq_block,
      (isPart_body s hfinite).written_block]
    exact ⟨_, _, hscope, rfl⟩
  · have hpromises : Fits [s.context, "targetPage"] news (promiseMentions s) := by
      by_cases hevents : s.assertedEvents.isEmpty = true
      · rw [promiseMentions, if_pos hevents]
        exact fits_nil.mono nofun
      · exact (fits_promiseMentions s hevents).1.mono (by simp [news])
    rw [if_neg (mt (failure?_stepActs_eq_none_iff s).mp hfinite), completed_stepActs s hfinite,
      written_opening]
    exact ⟨_, _, Step.inScope_written hunit (isPart_setup s) (isPart_promiseActs s)
      (isSetUp s hpromises) (depth + 1) (size + 1), (List.append_nil _).symm⟩

end

end FlowScript.Puppeteer
