import FlowScript.Export.Framework
import FlowScript.Proofs.Puppeteer.ElementWaits

/-!
# Waiting for a number of elements

The two frameworks wait for elements in their own ways: a Playwright test with a condition on a
locator, a Puppeteer script by asking the page again and again. With one selector, and wherever there
is a test at all, both are done with the same numbers of elements.
-/
namespace FlowScript

namespace Playwright
open Act

/-- What a test waits for, of the elements that a locator matches. -/
inductive Condition where
  | hasCount (q : Rat)
  /-- The first element is in the page, so there is one. -/
  | attached
  /-- The first element is not in the page, so there is none. -/
  | detached

namespace Condition

/-- Whether the condition holds of so many elements. -/
def Holds : Condition → Nat → Prop
  | hasCount q, n => n = q
  | attached, n => 1 ≤ n
  | detached, n => n = 0

instance : (condition : Condition) → DecidablePred condition.Holds
  | hasCount q => fun n => inferInstanceAs (Decidable ((n : Rat) = q))
  | attached => fun n => inferInstanceAs (Decidable (1 ≤ n))
  | detached => fun n => inferInstanceAs (Decidable (n = 0))

/-- The states of an element that a test can wait for. -/
def ofState? (option : String) : Option Condition :=
  if option = "state: 'attached'" then some attached
  else if option = "state: 'detached'" then some detached
  else none

/-- The selector of the locator that the code of a line waits for, and the condition. -/
def ofPieces? : List Piece → Option (Text × Condition)
  | .code "await expect(" :: .code _ :: .code ".locator(" :: .quoted selector :: .code ")" ::
      .code ").toHaveCount(" :: .number n :: _ => some (selector, hasCount n.value)
  | .code "await " :: .code _ :: .code ".locator(" :: .quoted selector :: .code ")" ::
      .code ".first()" :: .code "." :: .code "waitFor" :: .code "(" :: .code "\x7b " ::
      .code option :: _ => (ofState? option).map fun condition => (selector, condition)
  | _ => none

end Condition

/-- The conditions that acts wait for, in order, each with the selector of its locator. -/
def conditions : List Act → List (Text × Condition)
  | [] => []
  | line pieces :: acts => (Condition.ofPieces? pieces).toList ++ conditions acts
  | _ :: acts => conditions acts

@[simp] theorem conditions_append (first rest : List Act) :
    conditions (first ++ rest) = conditions first ++ conditions rest := by
  induction first with
  | nil => rfl
  | cons a acts ih => cases a <;> simp [conditions, ih]

section
variable (c : TemplateConfig) (s : Step) (r : Option Recording)

theorem conditions_expectationActs : conditions (expectationActs s) = [] := by
  rw [expectationActs]
  induction s.assertedEvents with
  | nil => rfl
  | cons event events ih =>
    rw [List.flatMap_cons, conditions_append, ih]
    cases event.url <;> cases event.title <;> rfl

theorem conditions_frameActs (path : List Nat) : conditions (Step.frameActs path) = [] := by
  change conditions (path.map _) = []
  induction path with
  | nil => rfl
  | cons i path ih => exact ih

theorem conditions_contextActs : conditions (contextActs s) = [] := by
  have hframe : conditions (if s.inFrame then Step.frameActs s.framePath else []) = [] := by
    split
    · exact conditions_frameActs _
    · rfl
  rw [contextActs, ← List.singleton_append, conditions_append, hframe]
  split <;> rfl

theorem conditions_notices (notices : List Notice) : conditions (notices.map notify) = [] := by
  induction notices with
  | nil => rfl
  | cons n notices ih => exact ih

/-- The only condition of a step is that of its statement. -/
theorem conditions_stepActs {st : Statement} (h : statement s (c.attributeFor r) = .ok st) :
    conditions (stepActs c s r) = (Condition.ofPieces? st.pieces).toList := by
  have hbody : conditions (.line st.pieces :: expectationActs s) =
      (Condition.ofPieces? st.pieces).toList := by
    rw [conditions, conditions_expectationActs, List.append_nil]
  rw [stepActs, h]
  simp only [conditions_append, conditions_notices]
  split
  · simp only [conditions_append, conditions_contextActs, hbody]
    exact List.append_nil _
  · exact hbody

end

section
variable {s : Step} {preferred : Option Text} {e : ElementScope} {w : ElementWait} {st : Statement}

theorem matchesPayload_eq_false_iff : matchesPayload w = false ↔ w.IsPlain := by
  have hattributes : w.attributes.any (fun ms => !ms.isEmpty) = false ↔
      ∀ ms ∈ w.attributes, ms = [] := by
    cases w.attributes <;> simp
  rw [matchesPayload, Bool.or_eq_false_iff, hattributes, Bool.not_eq_false']
  exact ⟨fun h => ⟨h.1, h.2⟩, fun h => ⟨h.1, h.2⟩⟩

theorem exists_of_locator {selectors : Alternatives} {g : List Piece → Except SkipReason Statement}
    (h : locator s preferred selectors >>= g = .ok st) : ∃ selector,
      pickSelector selectors.toList preferred = some selector ∧
        g [.code (rootName s), .code ".locator(", .quoted selector, .code ")"] = .ok st := by
  rw [locator] at h
  cases hpick : pickSelector selectors.toList preferred with
  | none =>
    rw [hpick] at h
    exact nomatch h
  | some selector =>
    rw [hpick] at h
    exact ⟨selector, rfl, h⟩

theorem exists_commaList_cons (entry : List Piece) (entries : List (List Piece)) :
    ∃ rest, commaList (entry :: entries) = entry ++ rest := by
  cases entries with
  | nil => exact ⟨[], by simp [commaList]⟩
  | cons next entries =>
    rw [commaList, List.intercalate_cons_of_ne_nil (List.cons_ne_nil _ _), List.append_assoc]
    exact ⟨_, rfl⟩

theorem ofPieces?_waitFor (root : String) (selector : Text) (state : String)
    (entries : List (List Piece)) :
    Condition.ofPieces? (call ([.code root, .code ".locator(", .quoted selector, .code ")"] ++
      [.code ".first()"]) "waitFor" (options ([.code state] :: entries))).pieces =
      (Condition.ofState? state).map fun condition => (selector, condition) := by
  obtain ⟨rest, hrest⟩ := exists_commaList_cons [.code state] entries
  rw [call, options, hrest]
  rfl

/-- A statement that waits has a condition, which holds of just the numbers that end the wait. -/
theorem exists_condition (h : waitForElement s preferred e w = .ok st) :
    w.IsPlain ∧ ∃ selector condition, pickSelector e.selectors.toList preferred = some selector ∧
      Condition.ofPieces? st.pieces = some (selector, condition) ∧
      ∀ n, w.isOver n = decide (condition.Holds n) := by
  rw [waitForElement] at h
  dsimp only at h
  split at h
  · exact nomatch h
  next hmatches =>
  refine ⟨matchesPayload_eq_false_iff.mp (eq_false_of_ne_true hmatches), ?_⟩
  split at h
  next hexactly =>
    obtain ⟨selector, hpick, ⟨⟩⟩ := exists_of_locator h
    refine ⟨selector, .hasCount (w.count.getD 1).value, hpick, ?_, fun n => ?_⟩
    · obtain ⟨rest, hrest⟩ := exists_commaList_cons [.number (w.count.getD 1)]
        (options (timeoutOption s))
      rw [hrest]
      rfl
    · rw [ElementWait.isOver, hexactly.1, hexactly.2, WaitOperator.holds, beq_true]
      rfl
  split at h
  next hatLeast =>
    obtain ⟨selector, hpick, ⟨⟩⟩ := exists_of_locator h
    have hover (n : Nat) : w.isOver n = (decide (1 ≤ n) == w.visible.getD true) := by
      have hcast : (1 : Rat) ≤ n ↔ 1 ≤ n := by exact_mod_cast Iff.rfl
      rw [ElementWait.isOver, hatLeast.1, hatLeast.2, WaitOperator.holds, decide_eq_decide.mpr hcast]
    cases hvisible : w.visible.getD true with
    | true =>
      refine ⟨selector, .attached, hpick, ofPieces?_waitFor _ selector _ _, fun n => ?_⟩
      rw [hover, hvisible, beq_true]
      rfl
    | false =>
      -- With fewer than one there is none.
      refine ⟨selector, .detached, hpick, ofPieces?_waitFor _ selector _ _, fun n => ?_⟩
      have hnone : decide (n = 0) = decide (¬ 1 ≤ n) := decide_eq_decide.mpr (by omega)
      rw [hover, hvisible, beq_false]
      exact decide_not.symm.trans hnone.symm
  · exact nomatch h

end

end Playwright

namespace Puppeteer
open Quoted (keyUnits?)

/-- A step passes its payload to the function that waits. It is seen as this value, and so it is read
from the text, whatever the indentation, unless a double in it has a text that stands for another. -/
structure PassesPayload (s : Step) (payload : Value) : Prop where
  line : ∃ context, Act.line (.code "await waitForElement(" :: Piece.value s.toJson ++
    [.code ", ", .code context, .code ", timeout);"]) ∈ stepActs s
  seen : Value.ofJson keyUnits? s.toJson = some payload
  read : ∀ unit : Text, (∀ c ∈ unit, c.isGap = true) → s.toJson.HasReadableDoubles → ∀ size,
    ∃ t, Piece.textAll unit size (Piece.value s.toJson) = .ok t ∧ Value.read t = some payload

theorem passesPayload {e : ElementScope} {w : ElementWait} {payload : Value}
    (hseen : Value.ofJson keyUnits? (Step.waitForElement e w).toJson = some payload) :
    PassesPayload (.waitForElement e w) payload where
  line := by
    refine ⟨contextName (.waitForElement e w), ?_⟩
    simp [stepActs, actionActs]
  seen := hseen
  read unit hunit hdoubles size := by
    have hfinite := Value.isFinite_of_isSome (Option.isSome_of_mem hseen)
    obtain ⟨t, ht, hread⟩ := Value.exists_read hunit size hfinite hdoubles
    exact ⟨t, ht, hread.trans hseen⟩

end Puppeteer

namespace Framework

/-- The test has one condition. On any page, it holds of the number of elements that the selector
matches just if the script is done waiting with what it passes on, and the number can be any. -/
def CountsAgree (c : TemplateConfig) (r : Option Recording) (s : Step) (best : Selector) : Prop :=
  ∃ selector condition payload,
    Playwright.conditions (Playwright.stepActs c s r) = [(selector, condition)] ∧
    Playwright.pickSelector [best] (c.attributeFor r) = some selector ∧
    Puppeteer.PassesPayload s payload ∧
    (∀ page : Page, ∃ elements, page.querySelectorAll best.toValue = some elements ∧
      page.isSatisfied? payload = some (decide (condition.Holds elements.length))) ∧
    ∀ n, ∃ (page : Page) (elements : List page.Element),
      page.querySelectorAll best.toValue = some elements ∧ elements.length = n

/-- With one selector, and if there is code for a wait in the test, both frameworks wait for the same
numbers of elements. A step that asks for attributes or properties is left out of the test. -/
theorem elementCounts_agree (c : TemplateConfig) (r : Option Recording) (e : ElementScope)
    (w : ElementWait) :
    (e.selectors.others = [] →
      (∃ pieces, Act.line pieces ∈ Playwright.stepActs c (.waitForElement e w) r) →
      CountsAgree c r (.waitForElement e w) e.selectors.best) ∧
    ((∃ ms ∈ w.attributes, ms ≠ []) ∨ w.properties.isFalsy = false →
      Playwright.stepActs c (.waitForElement e w) r =
        [.notify (.skipped .waitForElement (some e.selectors.best.first) .payloadMatching)]) := by
  refine ⟨fun hothers ⟨pieces, hline⟩ => ?_, fun hmatches => ?_⟩
  · have hlist : e.selectors.toList = [e.selectors.best] := by
      rw [Alternatives.toList, hothers]
    cases hstatement : Playwright.statement (.waitForElement e w) (c.attributeFor r) with
    | error reason =>
      rw [Playwright.stepActs, hstatement] at hline
      exact nomatch List.mem_singleton.mp hline
    | ok st =>
      obtain ⟨hplain, selector, condition, hpick, hpieces, hover⟩ :=
        Playwright.exists_condition hstatement
      obtain ⟨payload, hseen, hsatisfied⟩ := Puppeteer.exists_isSatisfied?_eq e hplain
      refine ⟨selector, condition, payload, ?_, hlist ▸ hpick, Puppeteer.passesPayload hseen,
        fun page => ?_, fun n => ?_⟩
      · rw [Playwright.conditions_stepActs c _ r hstatement, hpieces]
        rfl
      · obtain ⟨elements, helements⟩ :=
          Option.isSome_iff_exists.mp (page.querySelectorAll_isSome e.selectors.best)
        refine ⟨elements, helements, ?_⟩
        rw [hsatisfied, hlist, List.map_singleton, page.querySelectorsAll_singleton, helements,
          Option.map_some, hover]
      · exact ⟨_, _, Page.querySelectorAll_uniform n e.selectors.best, List.length_replicate⟩
  · have hpayload : Playwright.matchesPayload w = true := by
      by_contra h
      obtain ⟨hattributes, hproperties⟩ :=
        Playwright.matchesPayload_eq_false_iff.mp (eq_false_of_ne_true h)
      rcases hmatches with ⟨ms, hms, hne⟩ | hfalsy
      · exact hne (hattributes ms hms)
      · exact Bool.false_ne_true (hfalsy.symm.trans hproperties)
    have hstatement : Playwright.statement (.waitForElement e w) (c.attributeFor r) =
        .error .payloadMatching := by
      rw [Playwright.statement, Playwright.waitForElement]
      exact if_pos hpayload
    rw [Playwright.stepActs, hstatement]
    rfl

/-- One step waits for the last row of a chain to go, with an empty object for properties; another one
asks for an attribute. -/
theorem elementCounts_agree_row :
    let e : ElementScope := ⟨⟨⟨none, none, none⟩, some [0]⟩, ⟨.chain "#list" ["li"], []⟩⟩
    let gone : ElementWait := ⟨none, none, some false, some [], .obj []⟩
    let current : ElementWait := ⟨none, some 2, none, some [("aria-current", "true")], .null⟩
    CountsAgree {} none (.waitForElement e gone) e.selectors.best ∧
    Playwright.stepActs {} (.waitForElement e current) none =
      [.notify (.skipped .waitForElement (some "#list") .payloadMatching)] := by
  intro e gone current
  exact ⟨(elementCounts_agree {} none e gone).1 rfl ⟨[.code "\x7b"], List.mem_cons_self⟩,
    (elementCounts_agree {} none e current).2 (.inl ⟨_, rfl, List.cons_ne_nil _ _⟩)⟩

end Framework

end FlowScript
