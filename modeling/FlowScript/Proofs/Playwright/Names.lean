import FlowScript.Proofs.Playwright.Brackets
import FlowScript.Proofs.Playwright.Steps
import FlowScript.Proofs.Script.Scopes

/-!
# The names of Playwright Test steps

A statement uses one variable, in front of the call that it makes, and expectations use the page. A
step without a scope of its own uses the page of the test, so it mentions no variable of steps.
-/
namespace FlowScript.Playwright
open Names

/-- The variables that stand for what a step acts on. -/
def roots (s : Step) : List String := [rootName s, pageName s]

/-- A root is the page of the test, or a variable that the step itself has declared. -/
theorem roots_cases {s : Step} {name : String} (h : name ∈ roots s) :
    (name = "page" ∧ isScoped s = false) ∨ (name = "targetPage" ∧ isScoped s = true) ∨
      (name = "frame" ∧ isScoped s = true ∧ s.inFrame = true) := by
  simp only [roots, rootName, pageName, List.mem_cons, List.not_mem_nil, or_false] at h
  have hframe : s.inFrame = true → isScoped s = true := fun hframe => by simp [isScoped, hframe]
  cases hinFrame : s.inFrame <;> cases hscoped : isScoped s <;> simp_all [or_comm]

/-- The use of a root in front of a mark. -/
def useMentions (s : Step) (name : String) (behind : CodePoint) : List Mention :=
  if isScoped s then [.use name (some behind)] else []

section Pieces
open Piece

variable {s : Step} {name method : String} {g g' : Glance} {after receiver : List Piece}
  {entries : List (List Piece)} {ms : List Mention} {level : Nat} {place : Place}

/-- Code that starts with a root mentions that variable, if it mentions nothing else. -/
theorem reads_root (h : name ∈ roots s) {behind : CodePoint}
    (hpage : glanceAll g (code "page" :: after) = some ([], g'))
    (hlocal : ∀ name ∈ ["targetPage", "frame"], glanceAll g (code name :: after) =
      some ([.use (Text.ofString name) (some behind)], g')) :
    Reads g (code name :: after) (useMentions s name behind) g' := by
  rw [List.forall_mem_cons, List.forall_mem_singleton] at hlocal
  rw [useMentions]
  rcases roots_cases h with ⟨rfl, hscoped⟩ | ⟨rfl, hscoped⟩ | ⟨rfl, hscoped, -⟩ <;> rw [hscoped]
  · exact reads_of_glanceAll hpage
  · exact reads_of_glanceAll hlocal.1
  · exact reads_of_glanceAll hlocal.2

/-- An argument of a call, or an entry of options, so many braces deep. It mentions nothing. -/
def IsArgument (level : Nat) (entry : List Piece) : Prop :=
  ∀ place, IsValuePlace place → Reads (.at (.idle level place)) entry [] (.behind level)

theorem isArgument_number (n : Number) : IsArgument level [.number n] := by
  intro place hplace
  exact reads_number n (by rcases hplace with rfl | rfl <;> decide)

theorem isArgument_quoted (t : Text) : IsArgument level [.quoted t] := fun _ _ =>
  (reads_quoted t _).behind

/-- The name of an entry in front of its value. -/
theorem IsArgument.named {l : List Char} {entry : List Piece} (h : IsArgument level entry)
    (hname : ∀ place, IsValuePlace place → glanceChars (.at (.idle level place)) l =
      some ([], .at (.idle level .operand))) :
    IsArgument level (.code (no_index (String.ofList l)) :: entry) := by
  intro place hplace
  have hcode : Reads (.at (.idle level place)) [.code (no_index (String.ofList l))] []
      (.at (.idle level .operand)) := reads_code (by rw [glance_code, hname place hplace])
  exact hcode.append (h _ (.inl rfl))

/-- Code that is an argument by itself. -/
theorem isArgument_code {l : List Char}
    (h : ∀ place, IsValuePlace place →
      glanceChars (.at (.idle level place)) l = some ([], .behind level)) :
    IsArgument level [.code (no_index (String.ofList l))] := fun _ hplace =>
  reads_constant h hplace

/-- Code that is no word at its end. -/
theorem isArgument_of_glanceAll {entry : List Piece}
    (h : ∀ place, IsValuePlace place → glanceAll (.at (.idle level place)) entry =
      some ([], .at (.idle level .elsewhere))) : IsArgument level entry := fun place hplace =>
  (reads_of_glanceAll (h place hplace)).behind

theorem reads_comma_entry : Reads (.behind level) [.code ", "] [] (.at (.idle level .entry)) := by
  refine reads_of_glanceAll ?_
  simp only [glanceAll, glance_code]
  rfl

theorem reads_commaList (hne : entries ≠ []) (h : ∀ e ∈ entries, IsArgument level e) :
    IsArgument level (commaList entries) := by
  induction entries with
  | nil => exact absurd rfl hne
  | cons e entries ih =>
    rw [List.forall_mem_cons] at h
    intro place hplace
    cases entries with
    | nil => simpa [commaList] using h.1 place hplace
    | cons e' entries =>
      have hrest := ih (List.cons_ne_nil _ _) h.2 .entry (.inr rfl)
      simpa [commaList, List.intercalate] using
        (h.1 place hplace).append (reads_comma_entry.append hrest)

/-- Arguments and the end of the call. -/
theorem reads_arguments (hplace : IsValuePlace place) (h : ∀ e ∈ entries, IsArgument 0 e) :
    Reads (.at (.idle 0 place)) (commaList entries ++ [.code ");"]) [] (.at .start) := by
  have hend : Reads (.behind 0) [.code ");"] [] (.at .start) := by
    refine reads_of_glanceAll ?_
    simp only [glanceAll, glance_code]
    rfl
  by_cases hne : entries = []
  · subst hne
    refine reads_of_glanceAll ?_
    rcases hplace with rfl | rfl <;>
      (simp only [commaList, List.intercalate_nil, List.nil_append, glanceAll, glance_code]; rfl)
  · exact (reads_commaList hne h place hplace).append hend

theorem isArgument_options (h : ∀ e ∈ entries, IsArgument 1 e) :
    ∀ e ∈ options entries, IsArgument 0 e := by
  have hopen : ∀ place, IsValuePlace place →
      Reads (.at (.idle 0 place)) [.code "\x7b "] [] (.at (.idle 1 .entry)) := by
    intro place hplace
    refine reads_of_glanceAll ?_
    rcases hplace with rfl | rfl <;> (simp only [glanceAll, glance_code]; rfl)
  have hclose : Reads (.behind 1) [.code " \x7d"] [] (.at (.idle 0 .elsewhere)) := by
    refine reads_of_glanceAll ?_
    simp only [glanceAll, glance_code]
    rfl
  rw [options]
  split
  · exact List.forall_mem_nil _
  · next hempty =>
    rw [List.isEmpty_iff] at hempty
    rw [List.forall_mem_singleton]
    intro place hplace
    have hlist := reads_commaList hempty h .entry (.inr rfl)
    simpa using ((hopen place hplace).append (hlist.append hclose)).behind

theorem isArgument_timeoutOption (s : Step) : ∀ e ∈ timeoutOption s, IsArgument 1 e := by
  rw [timeoutOption]
  split
  · exact List.forall_mem_singleton.mpr
      ((isArgument_number _).named (by rintro _ (rfl | rfl) <;> rfl))
  · exact List.forall_mem_nil _

theorem isArgument_limits (s : Step) : ∀ e ∈ options (timeoutOption s), IsArgument 0 e :=
  isArgument_options (isArgument_timeoutOption s)

theorem isArgument_delayOption (p : Press) : ∀ e ∈ delayOption p, IsArgument 1 e := by
  rw [delayOption]
  split
  · split
    · exact List.forall_mem_nil _
    · exact List.forall_mem_singleton.mpr
        ((isArgument_number _).named (by rintro _ (rfl | rfl) <;> rfl))
  · exact List.forall_mem_nil _

theorem isArgument_buttonOption (p : Press) : ∀ e ∈ (buttonOption p).1, IsArgument 1 e := by
  have hmiddle : IsArgument 1 [.code "button: '", .code "middle", .code "'"] :=
    isArgument_of_glanceAll (by rintro _ (rfl | rfl) <;> (simp only [glanceAll, glance_code]; rfl))
  have hright : IsArgument 1 [.code "button: '", .code "right", .code "'"] :=
    isArgument_of_glanceAll (by rintro _ (rfl | rfl) <;> (simp only [glanceAll, glance_code]; rfl))
  rw [buttonOption]
  split
  · exact List.forall_mem_nil _
  · exact List.forall_mem_nil _
  · exact List.forall_mem_singleton.mpr hmiddle
  · exact List.forall_mem_singleton.mpr hright
  · exact List.forall_mem_nil _

/-- What is known behind the word that waits for a call. -/
def awaiting : Glance := .at ⟨0, .elsewhere, "await", true⟩

/-- What is known behind the mark in front of a method. -/
def selecting : Glance := .at (.idle 0 .member)

/-- What stands in front of a method and the dot before it. -/
def IsReceiver (receiver : List Piece) (ms : List Mention) : Prop :=
  Reads awaiting (receiver ++ [.code "."]) ms selecting

/-- The name of a method, of name parts only. -/
def IsMethod (method : String) : Prop := ∀ c ∈ (method : Text), Quoted.isNamePart c = true

instance (method : String) : Decidable (IsMethod method) :=
  inferInstanceAs (Decidable (∀ c ∈ (method : Text), Quoted.isNamePart c = true))

theorem reads_method (h : IsMethod method) :
    Reads selecting [.code method, .code "("] [] (.at (.idle 0 .operand)) := by
  have hname : Reads selecting [.code method] [] (.behind 0) := by
    refine reads_of_isPlain fun unit _ size t ht => ?_
    cases ht
    refine ⟨fun c hc => Scan.isPlain_of_isNamePart (h c hc), ?_⟩
    rintro _ rfl
    rw [read_nameParts rfl h]
    exact ⟨rfl, rfl, fun behind => ite_self _⟩
  have hopen : Reads (.behind 0) [.code "("] [] (.at (.idle 0 .operand)) := by
    refine reads_of_glanceAll ?_
    simp only [glanceAll, glance_code]
    rfl
  exact hname.append hopen

theorem reads_call (hreceiver : IsReceiver receiver ms) (hmethod : IsMethod method)
    (h : ∀ e ∈ entries, IsArgument 0 e) :
    Reads (.at .start) (call receiver method entries).pieces ms (.at .start) := by
  have hawait : Reads (.at .start) [.code "await "] [] awaiting := by
    refine reads_of_glanceAll ?_
    simp only [glanceAll, glance_code]
    rfl
  have hcall := hawait.append (hreceiver.append
    ((reads_method hmethod).append (reads_arguments (.inl rfl) h)))
  simpa [call] using hcall

theorem isReceiver_root (h : name ∈ roots s) : IsReceiver [.code name] (useMentions s name '.') := by
  refine reads_root h ?_ ?_
  · simp only [glanceAll, glance_code]
    rfl
  · rw [List.forall_mem_cons, List.forall_mem_singleton]
    simp only [glanceAll, glance_code]
    exact ⟨rfl, rfl⟩

/-- The parts of a page that take input. -/
theorem isReceiver_input (h : name ∈ roots s) {part : String}
    (hpart : part ∈ [".keyboard", ".mouse"]) :
    IsReceiver [.code name, .code part] (useMentions s name '.') := by
  rw [List.mem_pair] at hpart
  refine reads_root h ?_ ?_
  · rcases hpart with rfl | rfl <;> (simp only [glanceAll, glance_code]; rfl)
  · rw [List.forall_mem_cons, List.forall_mem_singleton]
    rcases hpart with rfl | rfl <;> (simp only [glanceAll, glance_code]; exact ⟨rfl, rfl⟩)

/-- An element, in front of a method or as an argument. -/
theorem reads_element (hg : g = awaiting ∨ g = .at (.idle 0 .operand)) (s : Step) (selector : Text) :
    Reads g [.code (rootName s), .code ".locator(", .quoted selector, .code ")"]
      (useMentions s (rootName s) '.') (.at (.idle 0 .elsewhere)) := by
  refine reads_root List.mem_cons_self ?_ ?_
  · rcases hg with rfl | rfl <;> (simp only [glanceAll, glance_code]; rfl)
  · rw [List.forall_mem_cons, List.forall_mem_singleton]
    rcases hg with rfl | rfl <;>
      (simp only [glanceAll, glance_code]; exact ⟨rfl, rfl⟩)

theorem reads_dot : Reads (.at (.idle 0 .elsewhere)) [.code "."] [] selecting := by
  refine reads_of_glanceAll ?_
  simp only [glanceAll, glance_code]
  rfl

theorem isReceiver_element (s : Step) (selector : Text) :
    IsReceiver [.code (rootName s), .code ".locator(", .quoted selector, .code ")"]
      (useMentions s (rootName s) '.') := by
  simpa [IsReceiver] using (reads_element (.inl rfl) s selector).append reads_dot

theorem isReceiver_first (s : Step) (selector : Text) :
    IsReceiver ([.code (rootName s), .code ".locator(", .quoted selector, .code ")"] ++
      [.code ".first()"]) (useMentions s (rootName s) '.') := by
  have hfirst : Reads (.at (.idle 0 .elsewhere)) [.code ".first()", .code "."] [] selecting := by
    refine reads_of_glanceAll ?_
    simp only [glanceAll, glance_code]
    rfl
  simpa [IsReceiver] using (reads_element (.inl rfl) s selector).append hfirst

end Pieces

/-- If there is a statement, all it mentions is one root of the step, in front of a dot. -/
def UsesRoot (s : Step) (x : Except SkipReason Statement) : Prop :=
  ∀ st, x = .ok st → ∃ name ∈ roots s,
    Piece.Reads (.at .start) st.pieces (useMentions s name '.') (.at .start)

section Statements
open Piece

variable {s : Step} {preferred : Option Text}

theorem usesRoot_pure {st : Statement} {name : String} (hname : name ∈ roots s)
    (h : Reads (.at .start) st.pieces (useMentions s name '.') (.at .start)) :
    UsesRoot s (pure st) := by
  rintro _ ⟨⟩
  exact ⟨name, hname, h⟩

theorem usesRoot_throw (reason : SkipReason) : UsesRoot s (throw reason) := nofun

/-- A statement about an element, for every selector that may be picked. -/
theorem usesRoot_of_locator {selectors : Alternatives} {g : List Piece → Except SkipReason Statement}
    (h : ∀ selector,
      UsesRoot s (g [.code (rootName s), .code ".locator(", .quoted selector, .code ")"])) :
    UsesRoot s (locator s preferred selectors >>= g) := by
  rw [locator]
  cases pickSelector selectors.toList preferred with
  | none => exact usesRoot_throw _
  | some selector => exact h selector

/-- A call of a method of an element. -/
theorem usesRoot_element {selectors : Alternatives} {method : String} {entries : List (List Piece)}
    {notices : List Notice} (hmethod : IsMethod method) (h : ∀ e ∈ entries, IsArgument 0 e) :
    UsesRoot s (locator s preferred selectors >>= fun element =>
      pure { call element method entries with notices := notices }) :=
  usesRoot_of_locator fun selector => usesRoot_pure List.mem_cons_self
    (reads_call (isReceiver_element s selector) hmethod h)

theorem pageName_mem (s : Step) : pageName s ∈ roots s := List.mem_cons_of_mem _ List.mem_cons_self

theorem usesRoot_page {method : String} {entries : List (List Piece)} (hmethod : IsMethod method)
    (h : ∀ e ∈ entries, IsArgument 0 e) :
    UsesRoot s (pure (call [.code (pageName s)] method entries)) :=
  usesRoot_pure (pageName_mem s) (reads_call (isReceiver_root (pageName_mem s)) hmethod h)

theorem usesRoot_click (e : ElementScope) (p : Press) {method : String} (hmethod : IsMethod method) :
    UsesRoot s (click s preferred e p method) := by
  have hentries : ∀ e ∈ (buttonOption p).1 ++ delayOption p ++ timeoutOption s, IsArgument 1 e :=
    List.forall_mem_append.mpr ⟨List.forall_mem_append.mpr
      ⟨isArgument_buttonOption p, isArgument_delayOption p⟩, isArgument_timeoutOption s⟩
  exact usesRoot_element hmethod (isArgument_options hentries)

theorem usesRoot_keyboard (key : Text) {method : String} (hmethod : IsMethod method) :
    UsesRoot s (keyboard s key method) := by
  rw [keyboard]
  split
  · exact usesRoot_pure (pageName_mem s) (reads_call
      (isReceiver_input (pageName_mem s) List.mem_cons_self) hmethod
      (List.forall_mem_singleton.mpr (isArgument_quoted _)))
  · exact usesRoot_throw _

theorem usesRoot_waitForElement (e : ElementScope) (w : ElementWait) :
    UsesRoot s (waitForElement s preferred e w) := by
  rw [waitForElement]
  dsimp only
  split
  · exact usesRoot_throw _
  split
  · refine usesRoot_of_locator fun selector => usesRoot_pure List.mem_cons_self ?_
    have hexpect : Reads (.at .start) [.code "await expect("] [] (.at (.idle 0 .operand)) := by
      refine reads_of_glanceAll ?_
      simp only [glanceAll, glance_code]
      rfl
    have hcount : Reads (.at (.idle 0 .elsewhere)) [.code ").toHaveCount("] []
        (.at (.idle 0 .operand)) := by
      refine reads_of_glanceAll ?_
      simp only [glanceAll, glance_code]
      rfl
    have harguments := reads_arguments (.inl rfl)
      (List.forall_mem_cons.mpr ⟨isArgument_number (w.count.getD 1), isArgument_limits s⟩)
    simpa using hexpect.append
      ((reads_element (.inr rfl) s selector).append (hcount.append harguments))
  split
  · refine usesRoot_of_locator fun selector => usesRoot_pure List.mem_cons_self ?_
    refine reads_call (isReceiver_first s selector) (by decide)
      (isArgument_options (List.forall_mem_cons.mpr ⟨?_, isArgument_timeoutOption s⟩))
    refine isArgument_of_glanceAll ?_
    split <;> rintro _ (rfl | rfl) <;> (simp only [glanceAll, glance_code]; rfl)
  · exact usesRoot_throw _

theorem usesRoot_statement : UsesRoot s (statement s preferred) := by
  cases s with
  | change e value =>
    exact usesRoot_element (by decide)
      (List.forall_mem_cons.mpr ⟨isArgument_quoted value, isArgument_limits _⟩)
  | click e p => exact usesRoot_click e p (by decide)
  | doubleClick e p => exact usesRoot_click e p (by decide)
  | hover e => exact usesRoot_element (by decide) (isArgument_limits _)
  | keyDown _ key => exact usesRoot_keyboard key (by decide)
  | keyUp _ key => exact usesRoot_keyboard key (by decide)
  | customStep | emulateNetworkConditions => exact usesRoot_throw _
  | close => exact usesRoot_page (by decide) (List.forall_mem_nil _)
  | navigate _ url =>
    exact usesRoot_page (by decide)
      (List.forall_mem_cons.mpr ⟨isArgument_quoted url, isArgument_limits _⟩)
  | scroll _ x y selectors =>
    cases selectors with
    | none =>
      exact usesRoot_pure (pageName_mem _) (reads_call
        (isReceiver_input (pageName_mem _) (List.mem_cons_of_mem _ List.mem_cons_self))
        (by decide) (by simp [isArgument_number]))
    | some alternatives => exact usesRoot_element (by decide) (isArgument_limits _)
  | setViewport _ v =>
    have hsize : IsArgument 0 (Piece.value (.obj [("width", .num v.width), ("height", .num v.height)])) :=
      fun _ hplace => reads_literal 0 _ hplace
    exact usesRoot_page (by decide) (List.forall_mem_singleton.mpr hsize)
  | waitForElement e w => exact usesRoot_waitForElement e w
  | waitForExpression _ expression =>
    have hundefined : IsArgument 0 [.code "undefined"] :=
      isArgument_code (by rintro _ (rfl | rfl) <;> rfl)
    refine usesRoot_pure List.mem_cons_self (reads_call (isReceiver_root List.mem_cons_self)
      (by decide) (List.forall_mem_cons.mpr ⟨isArgument_quoted expression, ?_⟩))
    split
    · exact List.forall_mem_nil _
    · exact List.forall_mem_cons.mpr ⟨hundefined, isArgument_limits _⟩

end Statements

/-- What the expectations of a step mention. -/
def expectationMentions (s : Step) : List Mention :=
  s.assertedEvents.flatMap fun e =>
    (if e.url.isSome then useMentions s (pageName s) ')' else []) ++
      if e.title.isSome then useMentions s (pageName s) ')' else []

section Steps
open Act

variable (s : Step)

theorem isPart_expectationActs : IsPart (expectationActs s) (expectationMentions s) := by
  refine ⟨?_, isNeutral_expectationActs s, (settled_expectationActs s).prints⟩
  have hexpect : Piece.Reads (.at .start) [.code "await expect("] [] (.at (.idle 0 .operand)) := by
    refine Piece.reads_of_glanceAll ?_
    simp only [Piece.glanceAll, Piece.glance_code]
    rfl
  have hurl (t : Text) : Piece.Reads (.at (.idle 0 .operand))
      [.code (pageName s), .code ").toHaveURL(", .quoted t, .code ");"]
      (useMentions s (pageName s) ')') (.at .start) := by
    refine reads_root (pageName_mem s) ?_ ?_
    · simp only [Piece.glanceAll, Piece.glance_code]
      rfl
    · rw [List.forall_mem_cons, List.forall_mem_singleton]
      simp only [Piece.glanceAll, Piece.glance_code]
      exact ⟨rfl, rfl⟩
  have htitle (t : Text) : Piece.Reads (.at (.idle 0 .operand))
      [.code (pageName s), .code ").toHaveTitle(", .quoted t, .code ");"]
      (useMentions s (pageName s) ')') (.at .start) := by
    refine reads_root (pageName_mem s) ?_ ?_
    · simp only [Piece.glanceAll, Piece.glance_code]
      rfl
    · rw [List.forall_mem_cons, List.forall_mem_singleton]
      simp only [Piece.glanceAll, Piece.glance_code]
      exact ⟨rfl, rfl⟩
  refine reads_flatMap fun e _ => ?_
  cases e.url with
  | none =>
    cases e.title with
    | none => exact .nil _
    | some title => exact reads_line (hexpect.append (htitle title)) rfl
  | some url =>
    refine (reads_line (hexpect.append (hurl url)) rfl).append ?_
    cases e.title with
    | none => exact .nil _
    | some title => exact reads_line (hexpect.append (htitle title)) rfl

/-- The line that declares the page of a step. -/
def pageAct : Act :=
  if s.target = Step.mainTarget then Act.code "const targetPage = page;"
  else .line (.code "const targetPage = context.pages().find(" ::
    [.code "p => p.url() === ", .quoted s.target] ++
    .code ") || await context.waitForEvent('page', " ::
    commaList (options ((.code "predicate: " :: [.code "p => p.url() === ", .quoted s.target]) ::
      timeoutOption s)) ++ [.code ");"])

theorem contextActs_eq :
    contextActs s = [pageAct s] ++ if s.inFrame then Step.frameActs s.framePath else [] := rfl

theorem isPart_pageAct : IsPart [pageAct s] [.declare 0 "targetPage"] := by
  have hneutral := isNeutral_contextActs s
  have hsettled := settled_contextActs s
  rw [contextActs_eq] at hneutral hsettled
  refine ⟨?_, hneutral.of_append s.isPart_walk.neutral, (allSettled_append.mp hsettled).1.prints⟩
  rw [pageAct]
  split
  · refine reads_of_glanceAll ?_
    simp only [Act.code, glanceAll, glance, Piece.glanceAll, Piece.glance_code]
    rfl
  · have hfind : Piece.Reads (.at .start) [.code "const targetPage = context.pages().find(",
        .code "p => p.url() === ", .quoted s.target,
        .code ") || await context.waitForEvent('page', "]
        [.declare 0 "targetPage"] (.at (.idle 0 .entry)) := by
      refine Piece.reads_of_glanceAll ?_
      simp only [Piece.glanceAll, Piece.glance_code]
      rfl
    have hpredicate : IsArgument 1
        [.code "predicate: ", .code "p => p.url() === ", .quoted s.target] := by
      refine isArgument_of_glanceAll ?_
      rintro _ (rfl | rfl) <;> (simp only [Piece.glanceAll, Piece.glance_code]; rfl)
    have harguments := reads_arguments (.inr rfl) (isArgument_options
      (List.forall_mem_cons.mpr ⟨hpredicate, isArgument_timeoutOption s⟩))
    exact reads_line (by simpa using hfind.append harguments) rfl

theorem uses_fit : ∀ context ∈ Step.contexts, ∀ behind ∈ (['.', ')'] : List CodePoint),
    Fits [context, "targetPage"] [] [.use "targetPage" (some behind)] ∧
      Fits [context, "targetPage"] [] [.use context (some behind)] := by
  decide +kernel

/-- What a step uses, it has declared. -/
theorem fits_useMentions {name : String} (h : name ∈ roots s) {behind : CodePoint}
    (hbehind : behind ∈ (['.', ')'] : List CodePoint)) :
    Fits [s.context, "targetPage"] [] (useMentions s name behind) := by
  obtain ⟨hpage, hcontext⟩ := uses_fit _ s.context_mem behind hbehind
  rw [useMentions]
  rcases roots_cases h with ⟨-, hscoped⟩ | ⟨rfl, hscoped⟩ | ⟨rfl, hscoped, hinFrame⟩ <;> rw [hscoped]
  · exact fits_nil
  · exact hpage
  · have hframe : s.context = Text.ofString "frame" := by rw [Step.context, if_pos hinFrame]
    rw [hframe] at hcontext ⊢
    exact hcontext

theorem fits_expectationMentions :
    Fits [s.context, "targetPage"] [] (expectationMentions s) := by
  have hpage := fits_useMentions s (pageName_mem s) (List.mem_cons_of_mem _ List.mem_cons_self)
  have hite (b : Bool) : Fits [s.context, "targetPage"] []
      (if b then useMentions s (pageName s) ')' else []) := by
    cases b
    · exact fits_nil
    · exact hpage
  exact .flatMap fun e _ => (hite _).append (hite _) (fun _ => List.mem_append_left _) nofun

/-- Notices in front of acts write nothing. -/
theorem written_notices (unit : Text) (depth : Int) (size : Nat) (ns : List Notice)
    (acts : List Act) : written unit depth size (ns.map notify ++ acts) =
      written unit depth size acts := by
  induction ns with
  | nil => rfl
  | cons n ns ih => simpa [written, linesAt, shift] using ih

variable {preferred : Option Text} {st : Statement}

/-- A statement and its expectations are the rest of a step. -/
theorem exists_isPart_body (h : statement s preferred = .ok st) : ∃ ms,
    IsPart (.line st.pieces :: expectationActs s) ms ∧ Fits [s.context, "targetPage"] [] ms ∧
      (isScoped s = false → ms = []) := by
  obtain ⟨name, hname, hreads⟩ := usesRoot_statement st h
  have hline : IsPart [line st.pieces] (useMentions s name '.') :=
    ⟨reads_line hreads rfl, isNeutral_line (balances_statement st h),
      AllSettled.prints (by simpa using settles_statement st h)⟩
  refine ⟨_, hline.append (isPart_expectationActs s),
    (fits_useMentions s hname List.mem_cons_self).append (fits_expectationMentions s)
      (fun _ => List.mem_append_left _) nofun, fun hscoped => ?_⟩
  simp [expectationMentions, useMentions, hscoped]

variable {unit : Text} (hunit : unit.isBlank = true) (depth : Int) (size : Nat)
  (c : TemplateConfig) (r : Option Recording)
include hunit

/-- The lines of a step with a scope of its own are a block whose scope is in order. -/
theorem inScope_written (h : statement s (c.attributeFor r) = .ok st) (hscoped : isScoped s = true) :
    ∃ body ms, Step.InScope unit (depth + 1) s.framePath body ms ∧
      written unit depth size (stepActs c s r) =
        braceLine unit depth "\x7b" :: body ++ [braceLine unit depth "\x7d"] := by
  obtain ⟨ms, hbody, hfits, -⟩ := exists_isPart_body s h
  have hsetup : Step.IsSetUp s [.declare 0 "targetPage"] [] ms :=
    ⟨by decide, by decide, by decide, hfits, nofun⟩
  have hblock := ((isPart_pageAct s).append s.isPart_walk).append hbody
  have hacts : stepActs c s r = st.notices.map notify ++ ([code "\x7b", startBlock] ++
      (([pageAct s] ++ (if s.inFrame then Step.frameActs s.framePath else []) ++
        (line st.pieces :: expectationActs s)) ++ [endBlock, code "\x7d"])) := by
    simp [stepActs, h, hscoped, contextActs_eq]
  rw [hacts, written_notices, hblock.written_block]
  exact ⟨_, _, Step.inScope_written hunit (isPart_pageAct s) hbody hsetup (depth + 1) (size + 1), rfl⟩

/-- The lines of a step without one mention no variable of steps. -/
theorem tells_written (h : statement s (c.attributeFor r) = .ok st) (hscoped : isScoped s = false) :
    Tells (Text.ofLines (written unit depth size (stepActs c s r))) [] := by
  obtain ⟨ms, hbody, -, hnone⟩ := exists_isPart_body s h
  have hacts : stepActs c s r =
      st.notices.map notify ++ (line st.pieces :: expectationActs s) := by
    simp [stepActs, h, hscoped]
  rw [hacts, written_notices, ← hnone hscoped]
  exact hbody.tells hunit depth size

end Steps

end FlowScript.Playwright
