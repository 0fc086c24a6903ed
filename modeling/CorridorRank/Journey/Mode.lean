import CorridorRank.Value.Text
import CorridorRank.Text.Upper

/-!
# Leg modes

How a leg travels. A mode is read from any value by the upper case of its display text;
a false value (nothing, the empty text, zero) and a name that no mode has give `other`.
-/

namespace CorridorRank

/-- The kinds of vehicle or movement a leg uses. -/
inductive LegMode where
  | rail
  | bus
  | coach
  | tram
  | subway
  | ferry
  | walk
  | bicycle
  | car
  | other
  deriving Repr, DecidableEq, Inhabited

namespace LegMode

/-- Every mode, in a fixed order. -/
def all : List LegMode := [.rail, .bus, .coach, .tram, .subway, .ferry, .walk, .bicycle, .car, .other]

/-- The name of a mode, as records write it. -/
def name : LegMode → String
  | .rail => "RAIL"
  | .bus => "BUS"
  | .coach => "COACH"
  | .tram => "TRAM"
  | .subway => "SUBWAY"
  | .ferry => "FERRY"
  | .walk => "WALK"
  | .bicycle => "BICYCLE"
  | .car => "CAR"
  | .other => "OTHER"

/-- The mode with the given name, if any. -/
def ofName?
    (t : Text) :
    Option LegMode := all.find? (Text.ofString ·.name == t)

/-- Reads a mode from a value: the upper case of its display text names it; a false value
or an unknown name is `other`. -/
def parse
    (v : Value) :
    LegMode :=
  if !v.truthy then .other
  else (ofName? (Text.upper v.display)).getD .other

theorem ofName?_name
    (m : LegMode) :
    ofName? m.name = some m := by
  cases m <;> rfl

theorem mem_all
    (m : LegMode) :
    m ∈ all := by
  cases m <;> simp [all]

end LegMode

end CorridorRank
