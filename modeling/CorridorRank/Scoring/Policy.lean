import CorridorRank.Value.Arith
import CorridorRank.Text.Upper

/-!
# Scoring policies

The weights of the score, in minutes:

  score = duration + max(0, detour ratio - threshold) · duration · detour weight
        + interchanges · penalty per interchange

with whether legs on the same trip count as one ride, whether overlapping legs are refused,
and how many workers a batch may use. Fields are kept as given, so a policy built from a
record may hold values of any kind; `Policy.validate` checks the four numeric fields in
order and fails with the first that is below its floor (or cannot be compared with it).

Three ready policies exist: the default, a research policy (threshold 1.2, penalty 15) and
one read from environment settings.
-/

namespace CorridorRank

/-- Weights and switches of corridor scoring. -/
structure Policy where
  detourWeight : Value := .float 0.5
  detourThreshold : Value := .float 1.0
  perTransferPenalty : Value := .float 10.0
  mergeSameTrip : Value := .bool false
  strictOrdering : Value := .bool false
  maxWorkers : Value := .int 4
  deriving Inhabited

namespace Policy

/-- The names of the policy fields, in order. -/
def fieldNames : List String :=
  ["detour_weight", "detour_threshold", "per_transfer_penalty_minutes", "merge_same_trip",
   "strict_ordering", "max_workers"]

/-- The policy's fields with their names, in order. -/
def fields
    (p : Policy) :
    List (Text × Value) :=
  [("detour_weight", p.detourWeight), ("detour_threshold", p.detourThreshold),
   ("per_transfer_penalty_minutes", p.perTransferPenalty), ("merge_same_trip", p.mergeSameTrip),
   ("strict_ordering", p.strictOrdering), ("max_workers", p.maxWorkers)]

/-- Sets one named field; `none` for a name that is no field. -/
def setField?
    (p : Policy)
    (name : Text)
    (v : Value) :
    Option Policy :=
  if name == "detour_weight" then some { p with detourWeight := v }
  else if name == "detour_threshold" then some { p with detourThreshold := v }
  else if name == "per_transfer_penalty_minutes" then some { p with perTransferPenalty := v }
  else if name == "merge_same_trip" then some { p with mergeSameTrip := v }
  else if name == "strict_ordering" then some { p with strictOrdering := v }
  else if name == "max_workers" then some { p with maxWorkers := v }
  else none

/-- `p` with the given fields changed, in order; the first unknown name fails. -/
def update
    (p : Policy)
    (changes : List (Text × Value)) :
    Except Fault Policy :=
  changes.foldlM (fun q (name, v) =>
    match q.setField? name v with
    | some q => .ok q
    | none => .error (.typeError
        ("ScoringPolicy.__init__() got an unexpected keyword argument '" ++ name ++ "'"))) p

/-- A policy from named fields, the others at their defaults. -/
def ofFields
    (changes : List (Text × Value)) :
    Except Fault Policy :=
  update {} changes

/-- Fails unless `v` is at least `floor`; the message names the field. -/
def atLeast
    (name : String)
    (v floor : Value)
    (floorText : String) :
    Except Fault Unit := do
  if (← Value.lt v floor) then
    throw (.valueError (name ++ " must be >= " ++ floorText))

/-- Checks, in order: detour weight ≥ 0, threshold ≥ 1.0, penalty ≥ 0, workers ≥ 1. -/
def validate
    (p : Policy) :
    Except Fault Unit := do
  atLeast "detour_weight" p.detourWeight (.int 0) "0"
  atLeast "detour_threshold" p.detourThreshold (.float 1.0) "1.0"
  atLeast "per_transfer_penalty_minutes" p.perTransferPenalty (.int 0) "0"
  atLeast "max_workers" p.maxWorkers (.int 1) "1"

/-- A policy with fields changed, then validated. -/
def withOverrides
    (p : Policy)
    (changes : List (Text × Value)) :
    Except Fault Policy := do
  let q ← p.update changes
  q.validate
  pure q

/-- The default policy. -/
def standard : Policy := {}

/-- A 20% detour allowance and a 15-minute interchange penalty. -/
def research : Policy := { detourThreshold := .float 1.2, perTransferPenalty := .float 15.0 }

/-- Environment settings, by name. -/
abbrev Settings := List (String × String)

/-- A setting as a value, or the fallback when it is not set. -/
def setting
    (env : Settings)
    (name : String)
    (fallback : Value) :
    Value :=
  match env.find? (·.1 == name) with
  | some (_, s) => .str s
  | none => fallback

/-- ASCII lower case of a text; no other character lowers to the letters of the switch
words, so this decides them as full lower-casing would. -/
def lowerAscii
    (s : String) :
    String :=
  String.ofList (s.toList.map fun c =>
    if 'A' ≤ c && c ≤ 'Z' then Char.ofNat (c.toNat + 32) else c)

/-- A switch is on when its setting is `1`, `true` or `yes` in any case. -/
def switchOn
    (env : Settings)
    (name : String) :
    Bool :=
  match env.find? (·.1 == name) with
  | some (_, s) => ["1", "true", "yes"].contains (lowerAscii s)
  | none => false

/-- The policy from environment settings (weights as decimals, workers as an integer),
each read in field order, then validated. -/
def ofSettings
    (env : Settings) :
    Except Fault Policy := do
  let weight ← (setting env "DETOUR_WEIGHT" (.float 0.5)).toFloat
  let threshold ← (setting env "DETOUR_THRESHOLD" (.float 1.0)).toFloat
  let penalty ← (setting env "TRANSFER_PENALTY_MIN" (.float 10.0)).toFloat
  let merge := switchOn env "MERGE_SAME_TRIP"
  let strict := switchOn env "STRICT_LEG_ORDERING"
  let workers ← (setting env "SCORING_MAX_WORKERS" (.int 4)).toInt
  let p : Policy := { detourWeight := .float weight, detourThreshold := .float threshold,
                      perTransferPenalty := .float penalty, mergeSameTrip := .bool merge,
                      strictOrdering := .bool strict, maxWorkers := .int workers }
  p.validate
  pure p

end Policy

end CorridorRank
