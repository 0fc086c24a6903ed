import CorridorRank.Journey.Place

/-!
# Reading parts of a value

Planner replies are read by position and by name without knowing their shape first.
`Value.itemAt v i` is the `i`-th item of a list, tuple or text (negative positions count
from the end); a record is looked up with the integer as its key, which never matches a
text key. `Value.lookup v key` is the field `key` of a record; sequences refuse text keys and
other values cannot be read by key at all. `Value.getOr` reads an optional field with a
fallback for an absent one (a field that is present but empty is kept).
-/

namespace CorridorRank

namespace Value

/-- The position `i` of a sequence of length `n`, negative positions counting from the end. -/
def position
    (n : Nat)
    (i : Int) :
    Option Nat :=
  let j := if i < 0 then i + n else i
  if 0 ≤ j && j < n then some j.toNat else none

/-- The item at position `i`. -/
def itemAt
    (v : Value)
    (i : Int) :
    Except Fault Value :=
  match v with
  | .list items =>
    match position items.length i with
    | some j => .ok (items.getD j .null)
    | none => .error (.indexError "list index out of range")
  | .tuple items =>
    match position items.length i with
    | some j => .ok (items.getD j .null)
    | none => .error (.indexError "tuple index out of range")
  | .str t =>
    match position t.length i with
    | some j => .ok (.str ⟨[t.points.getD j 0]⟩)
    | none => .error (.indexError "string index out of range")
  | .dict _ => .error (.keyError (.int i))
  | other => .error (.typeError ("'" ++ other.typeName ++ "' object is not subscriptable"))

/-- The field `key` of a record; a missing field is a key fault. -/
def lookup
    (v : Value)
    (key : String) :
    Except Fault Value :=
  match v with
  | .dict fields =>
    match field? fields key with
    | some x => .ok x
    | none => .error (.keyError (.str key))
  | .list _ => .error (.typeError "list indices must be integers or slices, not str")
  | .tuple _ => .error (.typeError "tuple indices must be integers or slices, not str")
  | .str _ => .error (.typeError "string indices must be integers, not 'str'")
  | other => .error (.typeError ("'" ++ other.typeName ++ "' object is not subscriptable"))

/-- The field `key` of a record, or `fallback` when the record has no such field. -/
def getOr
    (v : Value)
    (key : String)
    (fallback : Value) :
    Except Fault Value :=
  match v with
  | .dict fields => .ok ((field? fields key).getD fallback)
  | other => .error (Fault.noAttribute other "get")

theorem position_lt
    (n : Nat)
    (i : Int)
    (j : Nat)
    (h : position n i = some j) :
    j < n := by
  unfold position at h
  split at h <;> simp at h <;> omega

end Value

end CorridorRank
