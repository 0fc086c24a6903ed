import CorridorRank.Value.Arith

/-!
# Places

Where a leg starts or ends: a name and, when the planner knows it, the identifier of a stop
(`<feed>:<code>`). Both are kept as the record gives them. A planner place record may be
missing or false (then the place is `Unknown`); a present record must be an object, and so
must its `stop` when that is present and true.
-/

namespace CorridorRank

namespace Value

/-- The field `key` of a record, or nothing; asking a non-record fails. -/
def get
    (v : Value)
    (key : String) :
    Except Fault Value :=
  match v with
  | .dict fields => .ok ((field? fields key).getD .null)
  | other => .error (Fault.noAttribute other "get")

/-- A value, or an empty record when the value is false. -/
def orEmpty
    (v : Value) :
    Value := if v.truthy then v else .dict []

/-- A value, or a fallback when the value is false. -/
def orElse
    (v : Value)
    (fallback : Value) :
    Value := if v.truthy then v else fallback

end Value

/-- Origin or destination of a leg. -/
structure Place where
  name : Value
  stopId : Value := .null
  deriving Inhabited

namespace Place

/-- A place known only by its name. -/
def named
    (name : String) :
    Place := ⟨.str name, .null⟩

/-- Reads a planner place record: its `stop` is looked up first, then the name (`Unknown`
when false), then the stop's identifier. -/
def ofPlanner
    (data : Value) :
    Except Fault Place := do
  let data := data.orEmpty
  let stop := (← data.get "stop").orEmpty
  let name := (← data.get "name").orElse (.str "Unknown")
  let stopId ← stop.get "gtfsId"
  pure ⟨name, stopId⟩

end Place

end CorridorRank
