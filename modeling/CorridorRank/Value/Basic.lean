import CorridorRank.Text.Basic

/-!
# Loosely typed values

Planner records, request arguments and policy fields arrive as loosely typed data: the
program reads fields out of them, converts and compares them, and copies some of them to
its output unchanged. `Value` is that data: nothing, a truth value, an integer of any
size, a double, a text, a list, a fixed tuple, or a record of named fields in insertion
order. Booleans take part in arithmetic as the integers 0 and 1.

This file holds the type, the name of each kind (which error texts mention), truthiness,
and field lookup.
-/

namespace CorridorRank

/-- A loosely typed value. Records keep their fields in insertion order, each name once. -/
inductive Value where
  | null
  | bool (b : Bool)
  | int (n : Int)
  | float (x : Float)
  | str (t : Text)
  | list (items : List Value)
  | tuple (items : List Value)
  | dict (fields : List (Text × Value))
  deriving Inhabited

namespace Value

/-- The name of a value's kind, as error texts spell it. -/
def typeName : Value → String
  | .null => "NoneType"
  | .bool _ => "bool"
  | .int _ => "int"
  | .float _ => "float"
  | .str _ => "str"
  | .list _ => "list"
  | .tuple _ => "tuple"
  | .dict _ => "dict"

/-- Whether a value counts as true: nothing, `false`, zero, the empty text and empty
collections are false; everything else (not-a-number too) is true. -/
def truthy : Value → Bool
  | .null => false
  | .bool b => b
  | .int n => n != 0
  | .float x => !(x == 0.0)
  | .str t => !t.isEmpty
  | .list items => !items.isEmpty
  | .tuple items => !items.isEmpty
  | .dict fields => !fields.isEmpty

/-- The value of a named field of a record, if the record has it. -/
def field?
    (fields : List (Text × Value))
    (name : Text) :
    Option Value :=
  (fields.find? (·.1 == name)).map (·.2)

/-- Sets a field of a record: a new name goes last, a known one keeps its place. -/
def setField
    (fields : List (Text × Value))
    (name : Text)
    (v : Value) :
    List (Text × Value) :=
  if fields.any (·.1 == name) then fields.map fun (k, old) => if k == name then (k, v) else (k, old)
  else fields ++ [(name, v)]

/-- A record built from fields, a repeated name keeping its first place and last value. -/
def record
    (fields : List (Text × Value)) :
    Value :=
  .dict (fields.foldl (fun acc (k, v) => setField acc k v) [])

@[simp] theorem truthy_null : truthy .null = false := rfl

@[simp] theorem truthy_str
    (t : Text) :
    truthy (.str t) = !t.isEmpty := rfl

theorem field?_setField_self
    (fields : List (Text × Value))
    (name : Text)
    (v : Value) :
    (field? (setField fields name v) name).isSome = true := by
  unfold setField field?
  split
  · rename_i h
    obtain ⟨⟨k, w⟩, hmem, hk⟩ := List.any_eq_true.1 h
    simp only [beq_iff_eq] at hk
    subst hk
    simp only [Option.isSome_map, List.find?_map, List.find?_isSome]
    exact ⟨(k, w), hmem, by simp⟩
  · simp [List.find?_append]

end Value

end CorridorRank
