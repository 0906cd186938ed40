import FlowScript.Log.Event

/-!
# Logged operations

An operation logs one event when it starts and one when it ends, and the latter says how it went.
-/
namespace FlowScript

structure Operation where
  name : Text
  /-- Fields of every event of the operation. -/
  bound : List (Text × Json)

namespace Operation

def fields (o : Operation) : List (Text × Json) := Json.insert o.bound "operation" (.str o.name)

/-- Results reported by the operation itself, on top of those of one that has not succeeded yet. -/
def outcome (results : List (Text × Json)) : List (Text × Json) :=
  Json.merge [("success", .bool false), ("error", .null)] results

def started (o : Operation) : LogEvent :=
  ⟨.info, o.name ++ (" started" : Text), o.fields⟩

def completed (o : Operation) (results : List (Text × Json)) : LogEvent :=
  ⟨.info, o.name ++ (" completed" : Text),
    Json.merge o.fields (Json.insert (outcome results) "success" (.bool true))⟩

def failed (o : Operation) (results : List (Text × Json)) (reason : Text) : LogEvent :=
  ⟨.error, o.name ++ (" failed" : Text),
    Json.merge o.fields (Json.insert (outcome results) "error" (.str reason))⟩

end Operation

end FlowScript
