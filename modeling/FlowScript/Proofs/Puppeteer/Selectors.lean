import FlowScript.Proofs.Literal.Deepened
import FlowScript.Proofs.Puppeteer.Names

/-!
# The selectors in Puppeteer scripts

A step that finds an element calls two functions with its selectors. Wherever the step stands, each
call is there once, and what is passed is read back as the selectors, in order and code point by code
point.
-/
namespace FlowScript

namespace Names

/-- The mentions of the functions that find elements. -/
def finds (ms : List Mention) : List Mention :=
  ms.filter fun m => m.name?.any finders.contains

@[simp] theorem finds_append (first rest : List Mention) :
    finds (first ++ rest) = finds first ++ finds rest := List.filter_append ..

theorem finds_flatMap {α : Type} {m : α → List Mention} {xs : List α}
    (h : ∀ x ∈ xs, finds (m x) = []) : finds (xs.flatMap m) = [] := by
  rw [finds, List.filter_flatMap, List.flatMap_eq_nil_iff]
  exact h

/-- Behind `before` a text calls a function, as a word by itself and outside literals. The first
argument, which another one follows, is read as a value. -/
structure Passes (t before name : Text) (v : Value) : Prop where
  call : ∃ argument behind, t = before ++ (name ++ ("(" : Text) ++ argument ++ ("," : Text) ++ behind) ∧
    Value.read argument = some v
  outside : ∃ sk, Scan.run Scan.start before = some (sk, Scan.start)
  apart : ∃ c ∈ before.getLast?, c.isBlank = true

/-- Code brings an element into view once and then finds it once, both times by these selectors. -/
structure FindsBy (t : Text) (selectors : Alternatives) : Prop where
  once : ∃ ms, Tells t ms ∧ finds ms =
    [.use "scrollIntoViewIfNeeded" (some '('), .use "waitForSelectors" (some '(')]
  intact : ∃ first second, Passes t first "scrollIntoViewIfNeeded" selectors.toValue ∧
    Passes t second "waitForSelectors" selectors.toValue ∧ first.length < second.length

end Names

namespace Puppeteer
open Act Names

section
variable (s : Step) {unit : Text} (hunit : unit.IsSpacing) (depth : Int) (size : Nat)
include hunit

/-- A line that calls a function passes the selectors to it, whatever stands around the line. -/
theorem passes_elementLine {call lead name ending : String} (selectors : Alternatives)
    (hcall : (call : Text) = lead ++ ((name : Text) ++ ("(" : Text))) (hline : Text.IsLine call)
    (hlead : ∀ c ∈ (lead : Text), Scan.IsPlain c)
    (hapart : ∃ c ∈ (lead : Text).getLast?, c.isBlank = true) (hending : Text.IsLine ending)
    (hend : ∃ c ∈ (ending : Text).getLast?, c.isBlank = false) {front : Text}
    (hfront : ∃ sk, Scan.run Scan.start front = some (sk, Scan.start)) (tail : Text) :
    Passes (front ++
        (Text.ofLines ((elementLine s call ending selectors).linesAt unit depth size) ++ tail))
      (front ++ (unit.repeated depth.toNat ++ lead)) name selectors.toValue := by
  have hcomma : (", " : Text) = ("," : Text) ++ (" " : Text) := rfl
  have hcontext : Text.IsLine (contextName s) := by
    unfold Text.IsLine
    exact contextName_elim s (by decide) (by decide)
  have hrest : Text.IsLine ((", " : Text) ++ ((contextName s : Text) ++ ending)) := by
    simp only [Text.IsLine, List.mem_append, not_or]
    exact ⟨by decide, hcontext, hending⟩
  have hbehind : Piece.textAll unit size [.code ", ", .code (contextName s), .code ending] =
      .ok ((", " : Text) ++ ((contextName s : Text) ++ ending)) :=
    Piece.textAll_cons rfl (Piece.textAll_cons rfl (Piece.textAll_singleton rfl))
  have hlast : ∃ c ∈ ((", " : Text) ++ ((contextName s : Text) ++ ending)).getLast?,
      c.isBlank = false := by
    obtain ⟨c, hc, hblank⟩ := hend
    exact ⟨c, by simp [List.getLast?_append, Option.mem_def.mp hc], hblank⟩
  obtain ⟨argument, hread, hlines⟩ :=
    exists_ofLines_selectors hunit depth size selectors hline hbehind hrest hlast
  refine ⟨⟨argument, (" " : Text) ++ ((contextName s : Text) ++ ((ending : Text) ++
    CodePoint.lineFeed :: tail)), ?_, hread⟩, ?_, ?_⟩
  · rw [elementLine, hlines, hcall, hcomma]
    simp only [List.append_assoc, List.singleton_append]
  · obtain ⟨sk, hrun⟩ := hfront
    have hpad : ∀ c ∈ unit.repeated depth.toNat ++ (lead : Text), Scan.IsPlain c :=
      List.forall_mem_append.mpr ⟨fun c hc => Scan.isPlain_of_isBlank
        (List.all_eq_true.mp hunit.isBlank c (Text.mem_of_mem_repeated hc)), hlead⟩
    exact ⟨_, Scan.run_append hrun (Scan.run_of_isPlain hpad [])⟩
  · obtain ⟨c, hc, hblank⟩ := hapart
    exact ⟨c, by simp [List.getLast?_append, Option.mem_def.mp hc], hblank⟩

theorem passes_scrollLine (selectors : Alternatives) {front : Text}
    (hfront : ∃ sk, Scan.run Scan.start front = some (sk, Scan.start)) (tail : Text) :
    Passes (front ++ (Text.ofLines ((elementLine s "await scrollIntoViewIfNeeded(" ", timeout);"
        selectors).linesAt unit depth size) ++ tail))
      (front ++ (unit.repeated depth.toNat ++ ("await " : Text))) "scrollIntoViewIfNeeded"
      selectors.toValue := by
  refine passes_elementLine s hunit depth size selectors rfl ?_ ?_ ?_ ?_ ?_ hfront tail
  · rw [Text.IsLine, Text.ofString_ofList]
    decide
  · decide
  · exact ⟨' ', rfl, rfl⟩
  · unfold Text.IsLine
    decide
  · exact ⟨';', rfl, rfl⟩

theorem passes_findLine (selectors : Alternatives) {front : Text}
    (hfront : ∃ sk, Scan.run Scan.start front = some (sk, Scan.start)) (tail : Text) :
    Passes (front ++ (Text.ofLines ((elementLine s "const element = await waitForSelectors("
        ", \x7b timeout, visible: true \x7d);" selectors).linesAt unit depth size) ++ tail))
      (front ++ (unit.repeated depth.toNat ++ ("const element = await " : Text))) "waitForSelectors"
      selectors.toValue := by
  refine passes_elementLine s hunit depth size selectors rfl ?_ ?_ ?_ ?_ ?_ hfront tail
  · rw [Text.IsLine, Text.ofString_ofList]
    decide
  · rw [Text.ofString_ofList]
    decide
  · exact ⟨' ', rfl, rfl⟩
  · rw [Text.IsLine, Text.ofString_ofList]
    decide
  · exact ⟨';', rfl, rfl⟩

/-- Behind a part of a step, both calls are passed the selectors, one after the other. -/
theorem exists_passes {before after : List Act} {ms : List Mention} (hbefore : IsPart before ms)
    (selectors : Alternatives) : ∃ first second,
      Passes (Text.ofLines (written unit depth size (before ++ (elementActs s selectors ++ after))))
        first "scrollIntoViewIfNeeded" selectors.toValue ∧
      Passes (Text.ofLines (written unit depth size (before ++ (elementActs s selectors ++ after))))
        second "waitForSelectors" selectors.toValue ∧ first.length < second.length := by
  have hscroll := isPart_scrollLine s selectors
  have hfind := isPart_findLine s selectors
  obtain ⟨sk, hrun, -⟩ := hbefore.tells hunit.isBlank depth size
  obtain ⟨sk', hrun', -⟩ :=
    hscroll.tells hunit.isBlank depth (size + (written unit depth size before).length)
  have hsingle (a : Act) (size : Nat) : written unit depth size [a] = a.linesAt unit depth size :=
    List.append_nil _
  rw [elementActs_eq, ← List.singleton_append, List.append_assoc, hbefore.written_append,
    hscroll.written_append, hfind.written_append, Text.ofLines_append, Text.ofLines_append,
    Text.ofLines_append, hsingle, hsingle]
  rw [hsingle] at hrun'
  have hsecond (size : Nat) (tail : Text) :=
    passes_findLine s hunit depth size selectors ⟨_, Scan.run_append hrun hrun'⟩ tail
  simp only [List.append_assoc] at hsecond
  refine ⟨_, _, passes_scrollLine s hunit depth _ selectors ⟨sk, hrun⟩ _, hsecond _ _, ?_⟩
  have hleads : ("await " : Text).length < ("const element = await " : Text).length := by decide
  simp only [List.length_append]
  omega

end

section
variable (s : Step)

/-- A step other than a wait finds its element before it does anything else. -/
theorem exists_elementActs {selectors : Alternatives} (h : s.selectors? = some selectors)
    (htype : s.type ≠ .waitForElement) : s.nonFinites = [] ∧
      (∃ more, actionActs s = elementActs s selectors ++ more) ∧
      actionMentions s.context s ∈ elementKinds s.context := by
  cases s with
  | change | click | doubleClick | hover =>
    cases h
    refine ⟨rfl, ⟨_, rfl⟩, ?_⟩
    simp [actionMentions, elementKinds]
  | scroll _ _ _ alternatives =>
    subst h
    refine ⟨rfl, ⟨_, rfl⟩, ?_⟩
    simp [actionMentions, elementKinds]
  | waitForElement => exact absurd rfl htype
  | _ => cases h

theorem finds_kinds : (∀ ms ∈ setupKinds, finds ms = []) ∧
    ∀ context ∈ Step.contexts, finds [.use "promises" (some '.'), .use context (some '.')] = [] ∧
      ∀ ms ∈ elementKinds context, finds ms =
        [.use "scrollIntoViewIfNeeded" (some '('), .use "waitForSelectors" (some '(')] := by
  decide +kernel

theorem finds_walkMentions : finds s.walkMentions = [] := by
  rw [Step.walkMentions]
  split
  · rw [Step.frameMentions, finds_append, finds_flatMap fun _ _ => by decide]
    decide
  · rfl

/-- Behind the walk to its frame, a step calls each of the functions once. -/
theorem finds_restMentions (h : actionMentions s.context s ∈ elementKinds s.context) :
    finds (restMentions s) =
      [.use "scrollIntoViewIfNeeded" (some '('), .use "waitForSelectors" (some '(')] := by
  obtain ⟨hpush, haction⟩ := finds_kinds.2 _ s.context_mem
  have hpromises : finds (promiseMentions s) = [] := by
    rw [promiseMentions, contextName_eq]
    split
    · rfl
    · rw [← List.singleton_append, finds_append, finds_flatMap fun _ _ => hpush]
      decide
  have hawait : finds (awaitMentions s) = [] := by
    rw [awaitMentions]
    split <;> decide
  rw [restMentions, finds_append, finds_append, hpromises, haction _ h, hawait]
  rfl

end

/-- Wherever a step that acts on an element is written, with spaces or tabs for indentation, it
finds the element by its selectors. That is still so in the text, whatever is written behind it. -/
theorem selectors_intact (s : Step) {selectors : Alternatives} (h : s.selectors? = some selectors)
    (htype : s.type ≠ .waitForElement) {σ : Session} (hunit : σ.writer.unit.IsSpacing) :
    ∃ σ' body, runAll (stepActs s) σ = .ok () σ' ∧
      σ'.writer.lines = σ.writer.lines ++ (braceLine σ.writer.unit σ.writer.depth "\x7b" :: body ++
        [braceLine σ.writer.unit σ.writer.depth "\x7d"]) ∧
      FindsBy (Text.ofLines body) selectors ∧
      ∀ more, ∃ front rest, (σ'.writer.after more).text = front ++ Text.ofLines body ++ rest := by
  obtain ⟨hfinite, ⟨rest, hrest⟩, haction⟩ := exists_elementActs s h htype
  have hcompletes := failure?_eq_none_iff.mp ((failure?_stepActs_eq_none_iff s).mpr hfinite)
  have hbody := isPart_body s hfinite
  have hlines : (σ.after (stepActs s)).writer.lines = σ.writer.lines ++
      (braceLine σ.writer.unit σ.writer.depth "\x7b" ::
        written σ.writer.unit (σ.writer.depth + 1) (σ.writer.size + 1) (body s) ++
        [braceLine σ.writer.unit σ.writer.depth "\x7d"]) := by
    rw [← hbody.written_block, ← stepActs_eq_block]
    rfl
  refine ⟨_, _, runAll_of_completes hcompletes σ, hlines, ⟨?once, ?intact⟩, fun more => ?_⟩
  case once =>
    refine ⟨_, hbody.tells hunit.isBlank _ _, ?_⟩
    rw [finds_append, finds_append, finds_kinds.1 _ (setup_mem s), finds_walkMentions,
      finds_restMentions s haction]
    rfl
  case intact =>
    have hacts : body s = (timeoutActs s ++ targetActs s.target ++
        (if s.inFrame then Step.frameActs s.framePath else []) ++ promiseActs s) ++
          (elementActs s selectors ++ (rest ++ awaitActs s)) := by
      simp [body_eq, hrest]
    rw [hacts]
    exact exists_passes s hunit _ _
      (((isPart_setup s).append s.isPart_walk).append (isPart_promiseActs s)) selectors
  have hall : ((σ.after (stepActs s)).writer.after more).lines =
      (σ.after (stepActs s)).writer.lines ++ (σ.after (stepActs s)).writer.written more := rfl
  rw [hlines] at hall
  rw [Writer.text_eq_ofLines (by simp [hall]), hall]
  refine ⟨Text.ofLines (σ.writer.lines ++ [braceLine σ.writer.unit σ.writer.depth "\x7b"]),
    Text.ofLines ([braceLine σ.writer.unit σ.writer.depth "\x7d"] ++
      (σ.after (stepActs s)).writer.written more), ?_⟩
  simp [Text.ofLines]

/-- A chain with quotes in one part, and a selector with a line feed, at a debt of blocks. -/
theorem selectors_intact_chain :
    let selectors : Alternatives :=
      ⟨.chain "#shop" ["[title=\"it's\"]"], [.plain "text/Pay\n", .plain "\\9"]⟩
    let s : Step := .hover ⟨⟨⟨none, none, none⟩, some [1]⟩, selectors⟩
    let σ : Session := ⟨⟨"\t", -2, []⟩, []⟩
    ∃ σ' body, runAll (stepActs s) σ = .ok () σ' ∧
      σ'.writer.lines = braceLine "\t" (-2) "\x7b" :: body ++ [braceLine "\t" (-2) "\x7d"] ∧
      FindsBy (Text.ofLines body) selectors ∧
      ∀ more, ∃ front rest, (σ'.writer.after more).text = front ++ Text.ofLines body ++ rest := by
  intro selectors s σ
  have hunit : σ.writer.unit.IsSpacing := by
    unfold Text.IsSpacing
    decide
  exact selectors_intact s rfl nofun hunit

end Puppeteer

end FlowScript
