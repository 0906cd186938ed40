import FlowScript.Proofs.Script.NamedActs
import FlowScript.Proofs.Script.Settled

/-!
# The scope of a step

Code resolves its names if it declares each once, in the block itself, and every variable of a step
before it is used. A step in a frame walks down to it before it uses it, one line for each index of
its path, and behind the walk the frame stays what it is.
-/
namespace FlowScript

def Mention.name? : Mention → Option Text
  | declare _ name | use name _ => some name
  | block => none

def Mention.declared? : Mention → Option Text
  | declare _ name => some name
  | _ => none

namespace Names

/-- The names that are mentioned. -/
def named (ms : List Mention) : List Text := ms.filterMap Mention.name?

/-- The names that are declared. -/
def declared (ms : List Mention) : List Text := ms.filterMap Mention.declared?

section
variable (level : Nat) (name : Text) (behind : Option CodePoint) (ms first rest : List Mention)

@[simp] theorem declared_nil : declared [] = [] := rfl

@[simp] theorem declared_declare :
    declared (.declare level name :: ms) = name :: declared ms := rfl

@[simp] theorem declared_use : declared (.use name behind :: ms) = declared ms := rfl

@[simp] theorem declared_block : declared (.block :: ms) = declared ms := rfl

@[simp] theorem declared_append :
    declared (first ++ rest) = declared first ++ declared rest := List.filterMap_append

@[simp] theorem named_append : named (first ++ rest) = named first ++ named rest :=
  List.filterMap_append

end

/-- Every name is declared once, in the block itself, and a variable of steps before it is used. -/
structure IsScoped (ms : List Mention) : Prop where
  once : (declared ms).Nodup
  direct : ∀ level name, .declare level name ∈ ms → level = 0
  before : ∀ name ∈ locals, ∀ first behind rest, ms = first ++ .use name behind :: rest →
    name ∈ declared first

/-- Whether mentions resolve where these names are declared: one after another. -/
def Resolves (scope : List Text) : List Mention → Prop
  | [] => True
  | .declare level name :: ms => level = 0 ∧ name ∉ scope ∧ Resolves (scope ++ [name]) ms
  | .use name _ :: ms => (name ∈ locals → name ∈ scope) ∧ Resolves scope ms
  | .block :: ms => Resolves scope ms

instance : (scope : List Text) → (ms : List Mention) → Decidable (Resolves scope ms)
  | _, [] => inferInstanceAs (Decidable True)
  | scope, .declare level name :: ms =>
    have : Decidable (Resolves (scope ++ [name]) ms) := instDecidableResolves _ ms
    inferInstanceAs (Decidable (level = 0 ∧ name ∉ scope ∧ Resolves (scope ++ [name]) ms))
  | scope, .use name _ :: ms =>
    have : Decidable (Resolves scope ms) := instDecidableResolves _ ms
    inferInstanceAs (Decidable ((name ∈ locals → name ∈ scope) ∧ Resolves scope ms))
  | scope, .block :: ms => instDecidableResolves scope ms

section
variable {scope scope' : List Text} {ms first rest : List Mention}

theorem resolves_append : Resolves scope (first ++ rest) ↔
    Resolves scope first ∧ Resolves (scope ++ declared first) rest := by
  induction first generalizing scope with
  | nil => simp [Resolves]
  | cons m first ih => cases m <;> simp [Resolves, ih, and_assoc]

/-- What resolves declares new names, each of them once. -/
theorem Resolves.nodup (h : Resolves scope ms) :
    (∀ name ∈ declared ms, name ∉ scope) ∧ (declared ms).Nodup := by
  induction ms generalizing scope with
  | nil => simp
  | cons m ms ih =>
    cases m with
    | declare level name =>
      obtain ⟨-, hnew, hrest⟩ := h
      obtain ⟨hout, hnodup⟩ := ih hrest
      simp only [List.mem_append, List.mem_singleton, not_or] at hout
      rw [declared_declare, List.forall_mem_cons, List.nodup_cons]
      exact ⟨⟨hnew, fun other h => (hout other h).1⟩, fun h => (hout name h).2 rfl, hnodup⟩
    | use name behind => exact ih h.2
    | block => exact ih h

/-- More names may be declared around, but for those that are still to be. -/
theorem Resolves.mono (h : Resolves scope ms) (hscope : ∀ name ∈ scope, name ∈ scope')
    (hnew : ∀ name ∈ declared ms, name ∉ scope') : Resolves scope' ms := by
  induction ms generalizing scope scope' with
  | nil => trivial
  | cons m ms ih =>
    cases m with
    | declare level name =>
      obtain ⟨hlevel, -, hrest⟩ := h
      have hother := hrest.nodup.1
      simp only [List.mem_append, List.mem_singleton, not_or] at hother
      rw [declared_declare, List.forall_mem_cons] at hnew
      refine ⟨hlevel, hnew.1, ih hrest ?_ ?_⟩
      · intro v hv
        rw [List.mem_append] at hv ⊢
        exact hv.imp_left (hscope v)
      · intro v hv
        rw [List.mem_append, not_or, List.mem_singleton]
        exact ⟨hnew.2 v hv, (hother v hv).2⟩
    | use name behind => exact ⟨fun hlocal => hscope name (h.1 hlocal), ih h.2 hscope hnew⟩
    | block => exact ih h hscope hnew

/-- Behind other mentions that resolve. -/
theorem Resolves.append (h : Resolves scope first) (h' : Resolves scope' rest)
    (hscope : ∀ name ∈ scope', name ∈ scope ++ declared first)
    (hnew : ∀ name ∈ declared rest, name ∉ scope ++ declared first) :
    Resolves scope (first ++ rest) :=
  resolves_append.mpr ⟨h, h'.mono hscope hnew⟩

/-- What is used is declared around or in the mentions themselves. -/
theorem Resolves.mem_of_use (h : Resolves scope ms) {name : Text} {behind : Option CodePoint}
    (hlocal : name ∈ locals) (hmem : .use name behind ∈ ms) : name ∈ scope ++ declared ms := by
  obtain ⟨first, rest, rfl⟩ := List.append_of_mem hmem
  have hscope := (resolves_append.mp h).2.1 hlocal
  rw [declared_append, ← List.append_assoc]
  exact List.mem_append_left _ hscope

/-- What resolves in a scope, declares no more than these names and does not set the frame. -/
structure Fits (scope news : List Text) (ms : List Mention) : Prop where
  resolves : Resolves scope ms
  news : ∀ name ∈ declared ms, name ∈ news
  unset : .use "frame" (some '=') ∉ ms

instance (scope news : List Text) (ms : List Mention) : Decidable (Fits scope news ms) :=
  decidable_of_iff (Resolves scope ms ∧ (declared ms).all news.contains = true ∧
      ms.contains (.use "frame" (some '=')) = false) (by
    simp only [List.all_eq_true, List.contains_eq_mem, decide_eq_true_eq, decide_eq_false_iff_not]
    exact ⟨fun h => ⟨h.1, h.2.1, h.2.2⟩, fun h => ⟨h.resolves, h.news, h.unset⟩⟩)

theorem fits_nil : Fits scope [] [] := ⟨trivial, nofun, List.not_mem_nil⟩

theorem Fits.mono {news news' : List Text} (h : Fits scope news ms)
    (hnews : ∀ name ∈ news, name ∈ news') : Fits scope news' ms :=
  ⟨h.resolves, fun name hname => hnews name (h.news name hname), h.unset⟩

theorem Fits.append {news news' : List Text} (h : Fits scope news first)
    (h' : Fits scope' news' rest) (hscope : ∀ name ∈ scope', name ∈ scope ++ declared first)
    (hnew : ∀ name ∈ news', name ∉ scope ++ news) :
    Fits scope (news ++ news') (first ++ rest) where
  resolves := h.resolves.append h'.resolves hscope fun name hname hmem =>
    hnew name (h'.news name hname) (List.mem_append.mpr
      ((List.mem_append.mp hmem).imp_right (h.news name)))
  news name hname := by
    rw [declared_append, List.mem_append] at hname
    exact List.mem_append.mpr (hname.imp (h.news name) (h'.news name))
  unset hmem := (List.mem_append.mp hmem).elim h.unset h'.unset

theorem Fits.flatMap {α : Type} {m : α → List Mention} {xs : List α}
    (h : ∀ x ∈ xs, Fits scope [] (m x)) : Fits scope [] (xs.flatMap m) := by
  induction xs with
  | nil => exact fits_nil
  | cons x xs ih =>
    rw [List.forall_mem_cons] at h
    exact h.1.append (ih h.2) (fun name hname => List.mem_append_left _ hname) nofun

theorem Resolves.isScoped (h : Resolves [] ms) : IsScoped ms where
  once := h.nodup.2
  direct level name hmem := by
    obtain ⟨first, rest, rfl⟩ := List.append_of_mem hmem
    exact (resolves_append.mp h).2.1
  before name hlocal first behind rest hms := by
    subst hms
    exact (resolves_append.mp h).2.1 hlocal

end

end Names

namespace Act
open Names

/-- What stands in front of acts that close what they open closes what it opens, if both do. -/
theorem IsNeutral.of_append {first rest : List Act} (h : IsNeutral (first ++ rest))
    (hrest : IsNeutral rest) : IsNeutral first := by
  intro due
  have hdue := h due
  rw [scanAll_append] at hdue
  obtain ⟨mid, hfirst, hmid⟩ := Option.bind_eq_some_iff.mp hdue
  cases (hrest mid).symm.trans hmid
  exact hfirst

theorem Prints.completes {acts : List Act} (h : Prints acts []) : ∀ a ∈ acts, a.Completes :=
  fun a ha => completes_iff.mpr (List.flatMap_eq_nil_iff.mp h.failures a ha)

theorem completed_of_completes {acts : List Act} (h : ∀ a ∈ acts, a.Completes) :
    completed acts = acts := by
  have happend := completed_append_of_completes h []
  rwa [List.append_nil, show completed [] = [] from rfl, List.append_nil] at happend

/-- A text on one line that does not end in a blank is written as it stands, but for the margin. -/
theorem linesAt_of_isLine {pieces : List Piece} {unit t : Text} {size : Nat}
    (ht : Piece.textAll unit size pieces = .ok t) (hline : t.IsLine)
    (hend : ∃ c ∈ t.getLast?, c.isBlank = false) (depth : Int) :
    (line pieces).linesAt unit depth size = [unit.repeated depth.toNat ++ t] := by
  obtain ⟨c, hc, hblank⟩ := hend
  have htrim : t.trimRight = t := Text.trimRight_eq_self fun d hd => by
    rwa [Option.mem_unique hd hc]
  have hne : t ≠ [] := by
    rintro rfl
    exact nomatch hc
  simp [linesAt, ht, Text.lines_of_isLine hline, Writer.layout, htrim, hne]

/-- Lines that each write one line, whatever stands in front of them. -/
theorem written_of_forall₂ {unit : Text} {depth : Int} {lines : List (List Piece)} {ls : List Text}
    (h : List.Forall₂ (fun pieces l => ∀ size, (line pieces).linesAt unit depth size = [l]) lines ls)
    (size : Nat) : written unit depth size (lines.map line) = ls := by
  induction h generalizing size with
  | nil => rfl
  | @cons pieces l lines ls hline _ ih =>
    have hshift : depth + (line pieces).shift = depth := Int.add_zero depth
    rw [List.map_cons, written, hline, hshift, ih, List.singleton_append]

/-- A part of the code of a step: it starts and ends behind a line, closes what it opens and
cannot fail, and this is what it does with names. -/
structure IsPart (acts : List Act) (ms : List Mention) : Prop where
  reads : Reads .start acts ms .start
  neutral : IsNeutral acts
  prints : Prints acts []

section
variable {first rest acts : List Act} {ms ms' : List Mention}

theorem isPart_nil : IsPart [] [] := ⟨.nil _, isNeutral_nil, allSettled_nil.prints⟩

theorem IsPart.append (h : IsPart first ms) (h' : IsPart rest ms') :
    IsPart (first ++ rest) (ms ++ ms') where
  reads := h.reads.append h'.reads
  neutral := h.neutral.append h'.neutral
  prints := h.prints.append h'.prints

theorem IsPart.tells {unit : Text} (hunit : unit.isBlank = true) (h : IsPart acts ms) (depth : Int)
    (size : Nat) : Tells (Text.ofLines (written unit depth size acts)) ms :=
  h.reads.tells hunit h.neutral h.prints.completes depth size

theorem IsPart.shiftAll_eq (h : IsPart acts ms) : shiftAll acts = 0 :=
  (closed_of_isPlain h.prints.plain).shiftAll_eq

theorem IsPart.written_append (h : IsPart first ms) (unit : Text) (depth : Int) (size : Nat)
    (rest : List Act) : written unit depth size (first ++ rest) = written unit depth size first ++
      written unit depth (size + (written unit depth size first).length) rest := by
  rw [Act.written_append, h.shiftAll_eq, Int.add_zero]

/-- A line that opens or closes a block. -/
def braceLine (unit : Text) (depth : Int) (s : String) : Text := unit.repeated depth.toNat ++ (s : Text)

theorem linesAt_brace {s : String} (hs : s = "\x7b" ∨ s = "\x7d") (unit : Text) (depth : Int)
    (size : Nat) : (code s).linesAt unit depth size = [braceLine unit depth s] := by
  rcases hs with rfl | rfl
  · refine linesAt_of_isLine rfl ?_ ⟨_, rfl, rfl⟩ depth
    rw [Text.IsLine, Text.ofString_ofList]
    decide
  · refine linesAt_of_isLine rfl ?_ ⟨_, rfl, rfl⟩ depth
    rw [Text.IsLine, Text.ofString_ofList]
    decide

theorem written_opening (unit : Text) (depth : Int) (size : Nat) (acts : List Act) :
    written unit depth size ([code "\x7b", startBlock] ++ acts) =
      braceLine unit depth "\x7b" :: written unit (depth + 1) (size + 1) acts := by
  have hshift : depth + (code "\x7b").shift = depth := Int.add_zero depth
  have hstart : startBlock.linesAt unit depth (size + 1) = [] := rfl
  simp only [List.cons_append, List.nil_append, written, linesAt_brace (.inl rfl), hshift,
    List.length_cons, List.length_nil, hstart, Nat.add_zero]
  rfl

/-- The lines of a block around a part. -/
theorem IsPart.written_block (h : IsPart acts ms) (unit : Text) (depth : Int) (size : Nat) :
    written unit depth size ([code "\x7b", startBlock] ++ (acts ++ [endBlock, code "\x7d"])) =
      braceLine unit depth "\x7b" :: written unit (depth + 1) (size + 1) acts ++
        [braceLine unit depth "\x7d"] := by
  have hend (size : Nat) : written unit (depth + 1) size [endBlock, code "\x7d"] =
      [braceLine unit depth "\x7d"] := by
    have hshift : depth + 1 + endBlock.shift = depth := Int.add_neg_cancel_right depth 1
    have hlines : endBlock.linesAt unit (depth + 1) size = [] := rfl
    simp only [written, hlines, hshift, linesAt_brace (.inr rfl), List.nil_append, List.append_nil]
  rw [written_opening, h.written_append, hend]
  rfl

end

end Act

namespace Step
open Act Names

/-- A line of the walk down a path of frames. -/
def frameLine (i : Nat) : Text :=
  ("frame = frame.childFrames()[" : Text) ++ Decimal.natText i ++ ("];" : Text)

/-- The lines that walk down a path of frames. -/
def frameLines (path : List Nat) : List Text :=
  "let frame = targetPage.mainFrame();" :: path.map frameLine

def frameMentions (path : List Nat) : List Mention :=
  [.declare 0 "frame", .use "targetPage" (some '.')] ++
    path.flatMap fun _ => [.use "frame" (some '='), .use "frame" (some '.')]

theorem isPart_frameActs (path : List Nat) : IsPart (frameActs path) (frameMentions path) := by
  have hfirst : Reads .start [Act.code "let frame = targetPage.mainFrame();"]
      [.declare 0 "frame", .use "targetPage" (some '.')] .start := by
    refine reads_of_glanceAll ?_
    simp only [Act.code, glanceAll, glance, Piece.glanceAll, Piece.glance_code]
    rfl
  have hnext (i : Nat) : Reads .start
      [line [.code "frame = frame.childFrames()[", .number (.int i), .code "];"]]
      [.use "frame" (some '='), .use "frame" (some '.')] .start := by
    refine reads_of_glanceAll ?_
    simp only [glanceAll, glance, Piece.glanceAll, Piece.glance_code]
    rfl
  exact ⟨hfirst.append (reads_map fun i _ => hnext i), isNeutral_frameActs path,
    AllSettled.prints (by simp [frameActs])⟩

theorem isLine_frameLine (i : Nat) : (frameLine i).IsLine := by
  have hends : Text.IsLine "frame = frame.childFrames()[" ∧ Text.IsLine "];" := by
    rw [Text.IsLine, Text.IsLine, Text.ofString_ofList, Text.ofString_ofList]
    decide
  intro h
  rcases List.mem_append.mp h with h | h
  · rcases List.mem_append.mp h with h | h
    · exact hends.1 h
    · exact absurd (Decimal.isNumeralText_natText i _ h) (by decide)
  · exact hends.2 h

theorem written_frameActs (unit : Text) (depth : Int) (size : Nat) (path : List Nat) :
    written unit depth size (frameActs path) =
      (frameLines path).map (unit.repeated depth.toNat ++ ·) := by
  have hfirst (size : Nat) :
      (line [.code "let frame = targetPage.mainFrame();"]).linesAt unit depth size =
        [unit.repeated depth.toNat ++ ("let frame = targetPage.mainFrame();" : Text)] := by
    refine linesAt_of_isLine rfl ?_ ⟨';', ?_, rfl⟩ depth
    · rw [Text.IsLine, Text.ofString_ofList]
      decide
    · rw [Text.ofString_ofList]
      decide
  have hnext (i size : Nat) :
      (line [.code "frame = frame.childFrames()[", .number (.int i), .code "];"]).linesAt unit depth
        size = [unit.repeated depth.toNat ++ frameLine i] := by
    refine linesAt_of_isLine ?_ (isLine_frameLine i) ⟨';', ?_, rfl⟩ depth
    · have hnumeral : Number.numeral (.int i) = Decimal.natText i := by
        simp [Number.numeral, Number.toInt?, Number.value, Rat.mkRat_one, Decimal.intText]
      rw [frameLine, List.append_assoc, ← hnumeral, ← List.append_nil ("];" : Text)]
      rfl
    · rw [frameLine, List.getLast?_append]
      rfl
  have hacts : frameActs path = ([.code "let frame = targetPage.mainFrame();"] ::
      path.map fun (i : Nat) =>
        [.code "frame = frame.childFrames()[", .number (.int i), .code "];"]).map line := by
    simp [frameActs, Act.code]
  rw [hacts]
  refine written_of_forall₂ (.cons hfirst ?_) size
  rw [List.forall₂_map_left_iff, List.map_map, List.forall₂_map_right_iff]
  exact List.forall₂_same.mpr fun i _ => hnext i

/-- The frame is declared and walked to before it is used, behind the page it belongs to, and stays
what it is behind the walk. -/
structure WalksTo (unit : Text) (depth : Int) (path : List Nat) (body : List Text) : Prop where
  nonempty : path ≠ []
  split : ∃ before after msBefore msAfter,
    body = before ++ (frameLines path).map (unit.repeated depth.toNat ++ ·) ++ after ∧
    Tells (Text.ofLines before) msBefore ∧ Tells (Text.ofLines after) msAfter ∧
    ("targetPage" : Text) ∈ declared msBefore ∧ ("frame" : Text) ∉ named msBefore ∧
    (∀ level, .declare level "frame" ∉ msAfter) ∧
    .use "frame" (some '=') ∉ msAfter

/-- The lines in the block of a step: they close what they open, resolve their names, and walk to the
frame if they mention one. -/
structure InScope (unit : Text) (depth : Int) (path : List Nat) (body : List Text)
    (ms : List Mention) : Prop where
  tells : Tells (Text.ofLines body) ms
  resolved : IsScoped ms
  frame : ("frame" : Text) ∈ named ms → WalksTo unit depth path body

/-- The variable that a step acts on. -/
def context (s : Step) : Text := if s.inFrame then "frame" else "targetPage"

/-- All that steps may act on. -/
def contexts : List Text := ["targetPage", "frame"]

theorem context_mem (s : Step) : s.context ∈ contexts := by
  rw [context]
  split
  · exact List.mem_cons_of_mem _ List.mem_cons_self
  · exact List.mem_cons_self

/-- The walk to the frame of a step, if it has one. -/
def walkMentions (s : Step) : List Mention := if s.inFrame then frameMentions s.framePath else []

theorem isPart_walk (s : Step) :
    IsPart (if s.inFrame then frameActs s.framePath else []) s.walkMentions := by
  rw [walkMentions]
  split
  · exact isPart_frameActs s.framePath
  · exact isPart_nil

theorem declared_frameMentions (path : List Nat) : declared (frameMentions path) = ["frame"] := by
  induction path with
  | nil => rfl
  | cons i path ih => simpa [frameMentions] using ih

theorem resolves_frameMentions (path : List Nat) : Resolves ["targetPage"] (frameMentions path) := by
  have hstep : Resolves ["targetPage", "frame"]
      [.use "frame" (some '='), .use "frame" (some '.')] := by decide
  rw [frameMentions, resolves_append]
  refine ⟨by decide, ?_⟩
  induction path with
  | nil => trivial
  | cons i path ih => exact resolves_append.mpr ⟨hstep, ih⟩

section
variable {unit : Text} {s : Step} {setup rest : List Act} {msSetup msRest : List Mention}
  {news : List Text}

/-- What a step declares in front of the walk to its frame, and does behind it. -/
structure IsSetUp (s : Step) (msSetup : List Mention) (news : List Text) (msRest : List Mention) :
    Prop where
  setup : Resolves [] msSetup
  page : ("targetPage" : Text) ∈ declared msSetup
  frame : ("frame" : Text) ∉ named msSetup
  rest : Fits [s.context, "targetPage"] news msRest
  new : ∀ name ∈ news, name ∉ ("frame" : Text) :: declared msSetup

theorem IsSetUp.resolves (h : IsSetUp s msSetup news msRest) :
    Resolves [] (msSetup ++ s.walkMentions ++ msRest) := by
  have hold : ("frame" : Text) ∉ declared msSetup := fun hmem => by
    obtain ⟨m, hm, hname⟩ := List.mem_filterMap.mp hmem
    cases m <;> cases hname
    exact h.frame (List.mem_filterMap.mpr ⟨_, hm, rfl⟩)
  cases hinFrame : s.inFrame with
  | true =>
    have hrest := h.rest.resolves
    simp only [context, walkMentions, hinFrame, if_true] at hrest ⊢
    refine .append (h.setup.append (resolves_frameMentions _) ?_ ?_) hrest ?_ ?_
    · simpa using h.page
    · simpa [declared_frameMentions] using hold
    · simp [declared_frameMentions, h.page]
    · intro name hname
      simpa [declared_frameMentions, or_comm] using h.new name (h.rest.news name hname)
  | false =>
    have hrest := h.rest.resolves
    simp only [context, walkMentions, hinFrame, Bool.false_eq_true, if_false, List.append_nil]
      at hrest ⊢
    refine h.setup.append hrest ?_ ?_
    · simpa using h.page
    · intro name hname hmem
      exact h.new name (h.rest.news name hname) (List.mem_cons_of_mem _ hmem)

/-- Only a step in a frame mentions one. -/
theorem IsSetUp.inFrame_of_named (h : IsSetUp s msSetup news msRest)
    (hnamed : ("frame" : Text) ∈ named (msSetup ++ s.walkMentions ++ msRest)) :
    s.inFrame = true := by
  by_contra hinFrame
  rw [Bool.not_eq_true] at hinFrame
  have hrest := h.rest.resolves
  simp only [context, walkMentions, hinFrame, Bool.false_eq_true, if_false, named_append,
    List.append_nil, List.mem_append] at hnamed hrest
  obtain ⟨m, hm, hname⟩ := List.mem_filterMap.mp (hnamed.resolve_left h.frame)
  cases m with
  | declare level name =>
    cases hname
    exact h.new _ (h.rest.news _ (List.mem_filterMap.mpr ⟨_, hm, rfl⟩)) List.mem_cons_self
  | use name behind =>
    cases hname
    rcases List.mem_append.mp (hrest.mem_of_use (by decide) hm) with hscope | hdeclared
    · exact absurd hscope (by decide)
    · exact h.new _ (h.rest.news _ hdeclared) List.mem_cons_self
  | block => exact nomatch hname

variable (hunit : unit.isBlank = true) (hsetup : IsPart setup msSetup) (hrest : IsPart rest msRest)
  (h : IsSetUp s msSetup news msRest)
include hunit hsetup hrest h

theorem walksTo_written (hinFrame : s.inFrame = true) (depth : Int) (size : Nat) :
    WalksTo unit depth s.framePath
      (written unit depth size (setup ++ frameActs s.framePath ++ rest)) := by
  have hpath : s.framePath ≠ [] := by
    rintro hnil
    simp [inFrame, hnil] at hinFrame
  have hnew (level : Nat) : .declare level "frame" ∉ msRest := fun hmem =>
    h.new "frame" (h.rest.news _ (List.mem_filterMap.mpr ⟨_, hmem, rfl⟩)) List.mem_cons_self
  rw [(hsetup.append (isPart_frameActs s.framePath)).written_append, hsetup.written_append,
    written_frameActs]
  exact ⟨hpath, _, _, msSetup, msRest, rfl, hsetup.tells hunit depth size,
    hrest.tells hunit depth _, h.page, h.frame, hnew, h.rest.unset⟩

/-- The scope of a step that sets up what it uses is in order. -/
theorem inScope_written (depth : Int) (size : Nat) :
    InScope unit depth s.framePath
      (written unit depth size
        (setup ++ (if s.inFrame then frameActs s.framePath else []) ++ rest))
      (msSetup ++ s.walkMentions ++ msRest) := by
  refine ⟨((hsetup.append s.isPart_walk).append hrest).tells hunit depth size, h.resolves.isScoped,
    fun hnamed => ?_⟩
  have hinFrame := h.inFrame_of_named hnamed
  rw [if_pos hinFrame]
  exact walksTo_written hunit hsetup hrest h hinFrame depth size

end

end Step

end FlowScript
