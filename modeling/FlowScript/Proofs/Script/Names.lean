import FlowScript.Proofs.Script.ScannedLines

/-!
# Names in scripts

What the code of a script does with the names of variables. An automaton over the skeleton of a
script tells declarations from uses: a name behind a dot is one of a member, and a name between a
brace or a comma and a colon is a key. Blanks around lines change nothing of what is read.
-/
namespace FlowScript

/-- What code does with a name. -/
inductive Mention where
  /-- It declares the name, inside so many braces. -/
  | declare (level : Nat) (name : Text)
  /-- It uses the name; a mark may stand behind it. -/
  | use (name : Text) (behind : Option CodePoint)
  /-- It opens a block, and no object literal. -/
  | block
  deriving DecidableEq

namespace Names

/-- The variables that steps declare. -/
def locals : List Text :=
  ["targetPage", "target", "frame", "element", "inputType", "promises"]

/-- The functions that bring an element into view and find it. -/
def finders : List Text := ["scrollIntoViewIfNeeded", "waitForSelectors"]

/-- The names whose uses are told. -/
def tracked : List Text := locals ++ finders

/-- The words that declare the name behind them. -/
def declarators : List Text := ["const", "let"]

/-- What a word stands behind. -/
inductive Place where
  /-- A word that declares. -/
  | declaration
  /-- A dot. -/
  | member
  /-- A brace that opens, or a comma; a key may follow. -/
  | entry
  /-- Any other mark that a value follows. -/
  | operand
  | elsewhere
  deriving DecidableEq

/-- The braces that are open, and the last word as long as no mark stands behind it. It is closed if
a blank does. -/
structure Reader where
  level : Nat
  place : Place
  word : Text
  closed : Bool
  deriving DecidableEq

/-- No word is being read. -/
def Reader.idle (level : Nat) (place : Place) : Reader := ⟨level, place, [], false⟩

def Reader.start : Reader := .idle 0 .elsewhere

/-- What the last word is known to mention once it is known what stands behind it. -/
def Reader.mentions (r : Reader) (behind : Option CodePoint) : List Mention :=
  if r.word = [] then []
  else match r.place with
    | .declaration => [.declare r.level r.word]
    | .member => []
    | .entry =>
      if tracked.contains r.word ∧ behind ≠ some (':' : CodePoint) then [.use r.word behind] else []
    | .operand | .elsewhere => if tracked.contains r.word then [.use r.word behind] else []

/-- What a word behind the last one stands behind. -/
def Reader.follow (r : Reader) : Place :=
  if r.word = [] then r.place
  else if r.place ≠ .member ∧ declarators.contains r.word then .declaration
  else .elsewhere

/-- What a word behind a mark stands behind. -/
def Place.behind (c : CodePoint) : Place :=
  match c.val with
  | 46 => .member
  | 44 | 123 => .entry
  | 40 | 58 | 61 | 91 => .operand
  | _ => .elsewhere

/-- The braces that are open behind a mark. -/
def levelBehind (level : Nat) (c : CodePoint) : Nat :=
  match c.val with
  | 123 => level + 1
  | 125 => level - 1
  | _ => level

/-- One symbol of a skeleton: what is known to be mentioned with it, and the reader behind it. -/
def Reader.next (r : Reader) : Option CodePoint → List Mention × Reader
  | none => (r.mentions none, .idle r.level .elsewhere)
  | some c =>
    if Quoted.isNamePart c then
      if r.closed then (r.mentions none, ⟨r.level, r.follow, [c], false⟩)
      else ([], { r with word := r.word ++ [c] })
    else if c.isBlank then ([], { r with closed := !r.word.isEmpty })
    else
      (r.mentions (some c) ++ (if c.val = 123 ∧ r.follow = .elsewhere then [.block] else []),
        .idle (levelBehind r.level c) (.behind c))

/-- What a skeleton is known to mention, and the reader behind it. -/
def Reader.read : Reader → Skeleton → List Mention × Reader
  | r, [] => ([], r)
  | r, x :: sk => ((r.next x).1 ++ ((r.next x).2.read sk).1, ((r.next x).2.read sk).2)

/-- What a skeleton mentions. -/
def ofSkeleton (sk : Skeleton) : List Mention :=
  (Reader.start.read sk).1 ++ (Reader.start.read sk).2.mentions none

/-- A text that closes what it opens, and what its code does with names, in order. -/
def Tells (t : Text) (ms : List Mention) : Prop :=
  ∃ sk, Scan.run Scan.start t = some (sk, Scan.start) ∧ ofSkeleton sk = ms

namespace Reader
variable (r : Reader)

@[simp] theorem read_nil : r.read [] = ([], r) := rfl

theorem read_append (first rest : Skeleton) : r.read (first ++ rest) =
    ((r.read first).1 ++ ((r.read first).2.read rest).1, ((r.read first).2.read rest).2) := by
  induction first generalizing r with
  | nil => rfl
  | cons x first ih => rw [List.cons_append, read, ih, read, List.append_assoc]

/-- A skeleton is read part by part. -/
theorem read_append_of_eq {r mid r' : Reader} {first rest : Skeleton} {ms ms' : List Mention}
    (h : r.read first = (ms, mid)) (h' : mid.read rest = (ms', r')) :
    r.read (first ++ rest) = (ms ++ ms', r') := by
  rw [read_append, h, h']

/-- The reader behind a blank. -/
def blank : Reader := { r with closed := !r.word.isEmpty }

@[simp] theorem blank_blank : r.blank.blank = r.blank := rfl

@[simp] theorem blank_idle (level : Nat) (place : Place) : (idle level place).blank = idle level place :=
  rfl

theorem next_blank {c : CodePoint} (hc : c.isBlank = true) : r.next (some c) = ([], r.blank) := by
  have hname : Quoted.isNamePart c = false := by
    by_contra hname
    rw [Bool.not_eq_false] at hname
    simp only [Quoted.isNamePart, Quoted.isNameStart, CodePoint.isDigit, Bool.or_eq_true,
      Bool.and_eq_true, decide_eq_true_eq] at hname
    simp only [CodePoint.isBlank, Bool.or_eq_true, Bool.and_eq_true, decide_eq_true_eq] at hc
    omega
  simp [next, hname, hc, blank]

theorem read_blank {c : CodePoint} (hc : c.isBlank = true) : r.read [some c] = ([], r.blank) := by
  rw [read, next_blank r hc]
  rfl

theorem read_lineFeed : r.read [some CodePoint.lineFeed] = ([], r.blank) := r.read_blank rfl

variable {r}

/-- Blanks behind a blank, or behind a mark, are not noticed. -/
theorem read_blanks (hr : r.blank = r) {t : Text} (ht : t.isBlank = true) :
    r.read (t.map some) = ([], r) := by
  induction t with
  | nil => rfl
  | cons c t ih =>
    rw [Text.isBlank, List.all_cons, Bool.and_eq_true] at ht
    rw [List.map_cons, read, next_blank r ht.1, hr, ih ht.2]
    rfl

variable (r)

/-- Blanks close the last word, and that is all. -/
theorem read_eq_of_isBlank {t : Text} (ht : t.isBlank = true) :
    r.read (t.map some) = ([], if t = [] then r else r.blank) := by
  cases t with
  | nil => rfl
  | cons c t =>
    rw [Text.isBlank, List.all_cons, Bool.and_eq_true] at ht
    rw [List.map_cons, read, next_blank r ht.1, read_blanks r.blank_blank ht.2]
    rfl

theorem blank_read_lineFeed (sk : Skeleton) :
    (r.read (sk ++ [some CodePoint.lineFeed])).2.blank =
      (r.read (sk ++ [some CodePoint.lineFeed])).2 := by
  rw [read_append, read_lineFeed, blank_blank]

/-- Blanks at the end of a line are not noticed. -/
theorem read_trim (sk : Skeleton) : r.read (Scan.trim sk ++ [some CodePoint.lineFeed]) =
    r.read (sk ++ [some CodePoint.lineFeed]) := by
  induction sk using List.reverseRecOn with
  | nil => rfl
  | append_singleton sk x ih =>
    by_cases hx : x.any CodePoint.isBlank = true
    · cases x with
      | none => exact nomatch hx
      | some c =>
        rw [Option.any_some] at hx
        have htrim : Scan.trim (sk ++ [some c]) = Scan.trim sk := by simp [Scan.trim, hx]
        rw [htrim, ih, read_append, read_append r (sk ++ [some c]), read_append r sk]
        simp only [read_blank _ hx, read_lineFeed, blank_blank, List.append_nil]
    · have htrim : Scan.trim (sk ++ [x]) = sk ++ [x] := by simp [Scan.trim, hx]
      rw [htrim]

variable {r}

/-- Neither is the indentation of a line. -/
theorem read_layout {unit : Text} (hunit : unit.isBlank = true) (depth : Int) (hr : r.blank = r)
    (sk : Skeleton) : r.read (Scan.layout unit depth sk ++ [some CodePoint.lineFeed]) =
      r.read (sk ++ [some CodePoint.lineFeed]) := by
  have hpad : (unit.repeated depth.toNat).isBlank = true :=
    List.all_eq_true.mpr fun c hc => List.all_eq_true.mp hunit c (Text.mem_of_mem_repeated hc)
  rw [← read_trim r sk, Scan.layout]
  split
  · next hempty => rw [List.isEmpty_iff.mp hempty]
  · rw [List.append_assoc, read_append, read_blanks hr hpad, List.nil_append]

theorem read_layouts {unit : Text} (hunit : unit.isBlank = true) (depth : Int) (hr : r.blank = r)
    (sks : List Skeleton) :
    r.read ((sks.map (Scan.layout unit depth)).flatMap (· ++ [some CodePoint.lineFeed])) =
      r.read (sks.flatMap (· ++ [some CodePoint.lineFeed])) := by
  induction sks generalizing r with
  | nil => rfl
  | cons sk sks ih =>
    rw [List.map_cons, List.flatMap_cons, List.flatMap_cons, read_append, read_append r (sk ++ _),
      read_layout hunit depth hr, ih (blank_read_lineFeed r sk)]

/-- A text that falls into lines is read line by line, wherever they are indented. -/
theorem read_splitOn {unit : Text} (hunit : unit.isBlank = true) (depth : Int) (hr : r.blank = r)
    (sk : Skeleton) :
    r.read (((sk.splitOn (some CodePoint.lineFeed)).map (Scan.layout unit depth)).flatMap
      (· ++ [some CodePoint.lineFeed])) = r.read (sk ++ [some CodePoint.lineFeed]) := by
  have hjoin : (sk.splitOn (some CodePoint.lineFeed)).flatMap (· ++ [some CodePoint.lineFeed]) =
      sk ++ [some CodePoint.lineFeed] := by
    induction sk with
    | nil => rfl
    | cons x sk ih =>
      rw [List.splitOn_cons_eq_if_modifyHead]
      split
      · next hx =>
        rw [List.flatMap_cons, ih, beq_iff_eq.mp hx]
        rfl
      · obtain ⟨first, rest, hsplit⟩ := List.exists_cons_of_ne_nil (List.splitOn_ne_nil _ sk)
        rw [hsplit] at ih ⊢
        simpa using ih
  rw [read_layouts hunit depth hr, hjoin]

end Reader

end Names

end FlowScript
