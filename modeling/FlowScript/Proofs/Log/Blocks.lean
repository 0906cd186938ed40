import FlowScript.Log.Event
import FlowScript.Log.Scope

/-!
# Scoped blocks

A block binds its fields to variables, gets a token for each, and resets them by these tokens when it
is left. There is no snapshot to go back to: that all is as before behind a block rests on its tokens
and on what its body leaves behind, and so holds for whatever is well nested.
-/
namespace FlowScript

/-- What is bound at some point: a value for some keys. -/
abbrev Bound := Text → Option Json

/-- The fields of a block. No key is given twice. -/
structure LogContext where
  fields : List (Text × Json)
  nodup : (fields.map Prod.fst).Nodup

theorem Json.find?_of_notMem {key : Text} {ms : List (Text × Json)} (h : key ∉ ms.map Prod.fst) :
    find? key ms = none := by
  induction ms with
  | nil => rfl
  | cons m ms ih =>
    rw [List.map_cons, List.mem_cons, not_or] at h
    rw [find?, if_neg (Ne.symm h.1), ih h.2]

/-- What is bound inside a block: its fields, and around them what was bound outside. -/
def LogContext.overriding (c : LogContext) (outer : Bound) : Bound := fun key =>
  (Json.find? key c.fields).or (outer key)

theorem LogContext.overriding_of_notMem {c : LogContext} {key : Text}
    (h : key ∉ c.fields.map Prod.fst) (outer : Bound) : c.overriding outer key = outer key := by
  rw [overriding, Json.find?_of_notMem h, Option.none_or]

/-- Variables that a log keeps fields in. Fields are bound together, and reset by the tokens that
this gave. -/
structure ContextVars where
  State : Type
  Token : Type
  bound : State → Bound
  bind : State → List (Text × Json) → State × List Token
  reset : State → List Token → State

namespace ContextVars

/-- Binding overrides, and gives a token for each field. Resetting gives each variable that was bound
its previous value, or none if it had none, and leaves the others alone. -/
structure Restores (V : ContextVars) : Prop where
  bound_bind (s : V.State) (c : LogContext) :
    V.bound (V.bind s c.fields).1 = c.overriding (V.bound s)
  length_tokens (s : V.State) (c : LogContext) :
    (V.bind s c.fields).2.length = c.fields.length
  bound_reset (s later : V.State) (c : LogContext) (key : Text) :
    V.bound (V.reset later (V.bind s c.fields).2) key =
      if key ∈ c.fields.map Prod.fst then V.bound s key else V.bound later key

/-- The variables, and the events so far, each with the variables as it found them. -/
structure Telling (V : ContextVars) where
  vars : V.State
  events : List (LogEvent × V.State)

/-- A computation that logs, and keeps what it logged when it fails. -/
abbrev Logging (V : ContextVars) (ε : Type) := EStateM ε (Telling V)

variable {V : ContextVars} {ε α : Type}

namespace Telling

def tell (t : Telling V) (events : List LogEvent) : Telling V :=
  { t with events := t.events ++ events.map fun e => (e, t.vars) }

def bind (t : Telling V) (c : LogContext) : Telling V :=
  { t with vars := (V.bind t.vars c.fields).1 }

/-- Without tokens nothing is reset. -/
def reset (t : Telling V) (tokens : List V.Token) : Telling V :=
  if tokens.isEmpty then t else { t with vars := V.reset t.vars tokens }

/-- What has been told, with what was bound each time. -/
def heard (t : Telling V) : List (LogEvent × Bound) := t.events.map fun e => (e.1, V.bound e.2)

/-- The variables are bound as before, and this has been told in between. -/
structure Follows (t' t : Telling V) (told : List (LogEvent × Bound)) : Prop where
  bound : V.bound t'.vars = V.bound t.vars
  heard : t'.heard = t.heard ++ told

theorem Follows.refl (t : Telling V) : t.Follows t [] := ⟨rfl, (List.append_nil _).symm⟩

theorem Follows.trans {t t' t'' : Telling V} {first second : List (LogEvent × Bound)}
    (h : t'.Follows t first) (h' : t''.Follows t' second) : t''.Follows t (first ++ second) :=
  ⟨h'.bound.trans h.bound, by rw [h'.heard, h.heard, List.append_assoc]⟩

theorem follows_tell (t : Telling V) (events : List LogEvent) :
    (t.tell events).Follows t (events.map fun e => (e, V.bound t.vars)) := by
  refine ⟨rfl, ?_⟩
  rw [heard, tell, List.map_append, List.map_map]
  rfl

@[simp] theorem events_bind (t : Telling V) (c : LogContext) : (t.bind c).events = t.events := rfl

@[simp] theorem events_reset (t : Telling V) (tokens : List V.Token) :
    (t.reset tokens).events = t.events := by
  rw [reset]
  split <;> rfl

/-- Behind a block the variables are bound as before, if its body leaves them as it found them. -/
theorem Follows.reset (hV : V.Restores) {t inner : Telling V} {c : LogContext}
    {told : List (LogEvent × Bound)} (h : inner.Follows (t.bind c) told) :
    (inner.reset (V.bind t.vars c.fields).2).Follows t told := by
  have hinner : V.bound inner.vars = c.overriding (V.bound t.vars) :=
    h.bound.trans (hV.bound_bind t.vars c)
  refine ⟨?_, (congrArg _ (events_reset _ _)).trans h.heard⟩
  funext key
  rw [Telling.reset]
  by_cases hempty : (V.bind t.vars c.fields).2.isEmpty = true
  · have hnone : c.fields = [] := by
      rw [← List.length_eq_zero_iff, ← hV.length_tokens t.vars c, List.isEmpty_iff.mp hempty]
      rfl
    rw [if_pos hempty, hinner]
    exact LogContext.overriding_of_notMem (by simp [hnone]) _
  · rw [if_neg hempty, hV.bound_reset]
    by_cases hkey : key ∈ c.fields.map Prod.fst
    · rw [if_pos hkey]
    · rw [if_neg hkey, hinner]
      exact LogContext.overriding_of_notMem hkey _

end Telling

/-- A block is left however its body ends. -/
def block (c : LogContext) (body : Logging V ε α) : Logging V ε α := do
  let tokens ← modifyGet fun t => ((V.bind t.vars c.fields).2, t.bind c)
  try body
  finally modify fun t => t.reset tokens

theorem block_run (c : LogContext) (body : Logging V ε α) (t : Telling V) :
    block c body t =
      match body (t.bind c) with
      | .ok a t' => .ok a (t'.reset (V.bind t.vars c.fields).2)
      | .error e t' => .error e (t'.reset (V.bind t.vars c.fields).2) := by
  change (tryFinally (fun _ => body (t.bind c))
    (modify fun t' => t'.reset (V.bind t.vars c.fields).2) : Logging V ε α) (t.bind c) = _
  generalize body (t.bind c) = result
  cases result <;> rfl

/-- A computation that is over, with what it came to and where it ended. -/
def ended (outcome : Except ε α) (t : Telling V) : EStateM.Result ε (Telling V) α :=
  match outcome with
  | .ok a => .ok a t
  | .error e => .error e t

theorem block_of_ended {c : LogContext} {body : Logging V ε α} {outcome : Except ε α}
    {t t' : Telling V} (h : body (t.bind c) = ended outcome t') :
    block c body t = ended outcome (t'.reset (V.bind t.vars c.fields).2) := by
  rw [block_run, h]
  cases outcome <;> rfl

end ContextVars

/-- What happens while blocks are entered and left. A failure leaves every block around it, up to an
attempt that it ends in. -/
inductive Course (ε : Type) where
  | done
  | tell (e : LogEvent)
  | fail (e : ε)
  | block (c : LogContext) (body : Course ε)
  | attempt (body : Course ε)
  | andThen (first second : Course ε)

namespace Course
open ContextVars

variable {V : ContextVars} {ε : Type}

def run (V : ContextVars) : Course ε → Logging V ε Unit
  | done => pure ()
  | tell e => modify fun t => t.tell [e]
  | fail e => throw e
  | block c body => ContextVars.block c (body.run V)
  | attempt body => tryCatch (body.run V) fun _ => pure ()
  | andThen first second => do
    first.run V
    second.run V

/-- Whether a course comes to its end, or to a failure that nothing inside has dealt with. -/
def outcome : Course ε → Except ε Unit
  | fail e => throw e
  | block _ body => body.outcome
  | andThen first second => do
    first.outcome
    second.outcome
  | _ => pure ()

/-- What is told, each time with what the blocks around it bind. -/
def told (outer : Bound) : Course ε → List (LogEvent × Bound)
  | tell e => [(e, outer)]
  | block c body => body.told (c.overriding outer)
  | attempt body => body.told outer
  | andThen first second =>
    match first.outcome with
    | .ok () => first.told outer ++ second.told outer
    | .error _ => first.told outer
  | _ => []

/-- A course tells each event in what the blocks around it bind, and leaves the variables bound as it
found them, also where it fails. -/
theorem run_follows (hV : V.Restores) (p : Course ε) (t : Telling V) :
    ∃ t', p.run V t = ended p.outcome t' ∧ t'.Follows t (p.told (V.bound t.vars)) := by
  induction p generalizing t with
  | done => exact ⟨t, rfl, .refl t⟩
  | tell e => exact ⟨t.tell [e], rfl, t.follows_tell [e]⟩
  | fail e => exact ⟨t, rfl, .refl t⟩
  | block c body ih =>
    obtain ⟨t', hrun, hfollows⟩ := ih (t.bind c)
    have hbound : V.bound (t.bind c).vars = c.overriding (V.bound t.vars) := hV.bound_bind t.vars c
    rw [hbound] at hfollows
    exact ⟨_, block_of_ended hrun, hfollows.reset hV⟩
  | attempt body ih =>
    obtain ⟨t', hrun, hfollows⟩ := ih t
    refine ⟨t', ?_, hfollows⟩
    change (tryCatch (fun _ => body.run V t) fun _ => pure () : Logging V ε Unit) t = _
    rw [hrun]
    cases body.outcome <;> rfl
  | andThen first second ihfirst ihsecond =>
    obtain ⟨t', hfirst, hfollows⟩ := ihfirst t
    simp only [run, Bind.bind, EStateM.bind, hfirst, told, outcome]
    cases first.outcome with
    | error e => exact ⟨t', rfl, hfollows⟩
    | ok u =>
      obtain ⟨t'', hsecond, hfollows'⟩ := ihsecond t'
      rw [hfollows.bound] at hfollows'
      exact ⟨t'', hsecond, hfollows.trans hfollows'⟩

end Course

namespace LogScope

/-- Scopes as variables: each field that was overridden is a token. -/
def contextVars : ContextVars where
  State := LogScope
  Token := Undo
  bound := get?
  bind := enter
  reset := leave

theorem get?_apply (s : LogScope) (u : Undo) (name : Text) :
    (u.apply s).get? name = if name = u.key then u.before else s.get? name := by
  rw [Undo.apply]
  cases u.before with
  | some v => exact get?_set s u.key name v
  | none => exact get?_erase s u.key name

variable {fields : List (Text × Json)}

theorem get?_enter (hnodup : (fields.map Prod.fst).Nodup) (s : LogScope) (name : Text) :
    (s.enter fields).1.get? name = (Json.find? name fields).or (s.get? name) := by
  induction fields generalizing s with
  | nil => rfl
  | cons m fields ih =>
    rw [List.map_cons, List.nodup_cons] at hnodup
    rw [enter]
    rw [ih hnodup.2, get?_set, Json.find?]
    by_cases hname : name = m.1
    · subst hname
      simp [Json.find?_of_notMem hnodup.1]
    · simp [hname, Ne.symm hname]

theorem length_enter (s : LogScope) (fields : List (Text × Json)) :
    (s.enter fields).2.length = fields.length := by
  induction fields generalizing s with
  | nil => rfl
  | cons m fields ih => rw [enter, List.length_cons, List.length_cons, ih]

/-- Each field is put back, whatever the scope has become in between. -/
theorem get?_leave_enter (hnodup : (fields.map Prod.fst).Nodup) (s later : LogScope) (name : Text) :
    (later.leave (s.enter fields).2).get? name =
      if name ∈ fields.map Prod.fst then s.get? name else later.get? name := by
  induction fields generalizing s later with
  | nil => rfl
  | cons m fields ih =>
    rw [List.map_cons, List.nodup_cons] at hnodup
    rw [enter, leave, List.foldl_cons, ← leave, ih hnodup.2, get?_set, get?_apply]
    simp only [List.map_cons, List.mem_cons]
    by_cases hname : name = m.1
    · subst hname
      simp only [hnodup.1, if_false, true_or, if_true]
    · simp only [hname, if_false, false_or]

theorem restores : contextVars.Restores where
  bound_bind s c := funext (get?_enter c.nodup s)
  length_tokens s c := length_enter s c.fields
  bound_reset s later c name := get?_leave_enter c.nodup s later name

end LogScope

end FlowScript
