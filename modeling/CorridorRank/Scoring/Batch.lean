import CorridorRank.Scoring.FanOut
import CorridorRank.Scoring.Rank

/-!
# Scoring a batch of itineraries

A batch is a list of items, each an itinerary already built or a planner record still to be
read. Scoring a batch validates the policy, then the origin, then the destination, once for
all items (also for an empty batch, which then has nothing to score), and then scores each
item on its own: a scoring fault
of an item (a bad record, a reversed or, under a strict policy, overlapping leg, a missing
distance) becomes that item's `Failure`, while any other fault stops the whole batch at the
first item, in input order, that raises it. The routes that scored are ranked.

The items are scored inline or on a pool of workers, as the policy says (`fanOut`);
`scoreBatchOn` takes the order in which the pool's tasks finished, and `scoreBatch` is the
run whose tasks finish in submission order.
-/

namespace CorridorRank

/-- One input of a batch. -/
inductive BatchItem where
  | built (it : Itinerary)
  | record (raw : Value)
  deriving Inhabited

/-- An item that could not be scored: its position, the item and why. -/
structure Failure where
  index : Nat
  item : BatchItem
  cause : ScoringFault
  deriving Inhabited

/-- What scoring one item gives: a scored route or a failure. -/
inductive Outcome where
  | scored (route : ScoredRoute)
  | failed (failure : Failure)
  deriving Inhabited

/-- The result of a batch: ranked routes and failures in input order. -/
structure BatchResult where
  ranked : List ScoredRoute
  failures : List Failure
  deriving Inhabited

namespace BatchResult

/-- The number of items. -/
def total
    (r : BatchResult) :
    Nat := r.ranked.length + r.failures.length

/-- `All n routes evaluated`, or `f of n routes could not be evaluated`. -/
def summary
    (r : BatchResult) :
    String :=
  if r.failures.isEmpty then "All " ++ toString r.total ++ " routes evaluated"
  else toString r.failures.length ++ " of " ++ toString r.total ++ " routes could not be evaluated"

end BatchResult

namespace BatchItem

/-- The itinerary of an item, reading a planner record. -/
def itinerary : BatchItem → Except Fault Itinerary
  | .built it => .ok it
  | .record raw => Itinerary.ofPlanner raw

end BatchItem

/-- Reads an item (a planner record is parsed) and scores its itinerary. -/
def BatchItem.evaluate
    (origin destination : Value)
    (corridor : Option Value)
    (p : Policy)
    (item : BatchItem) :
    Except Fault (Itinerary × CorridorScore) := do
  let it ← item.itinerary
  let score ← scoreItinerary it origin destination corridor p
  pure (it, score)

/-- Scores one item at position `index`; a scoring fault becomes a failure. -/
def scoreOne
    (origin destination : Value)
    (corridor : Option Value)
    (p : Policy)
    (index : Nat)
    (item : BatchItem) :
    Except Fault Outcome :=
  match item.evaluate origin destination corridor p with
  | .ok (it, score) => .ok (.scored ⟨it, score, index⟩)
  | .error (.scoring cause) => .ok (.failed ⟨index, item, cause⟩)
  | .error e => .error e

/-- The scored routes among outcomes, in order. -/
def Outcome.routes
    (os : List Outcome) :
    List ScoredRoute :=
  os.filterMap fun | .scored r => some r | .failed _ => none

/-- The failures among outcomes, in order. -/
def Outcome.failures
    (os : List Outcome) :
    List Failure :=
  os.filterMap fun | .failed f => some f | .scored _ => none

/-- The double pair that checked endpoints are passed on as. -/
def Coordinates.toValue
    (c : Coordinates) :
    Value := .tuple [.float c.lat, .float c.lon]

/-- Scores a batch whose pooled tasks finished in `order`: policy and endpoints first, then
each item, then the ranking. -/
def scoreBatchOn
    (order : List Nat)
    (items : List BatchItem)
    (origin destination : Value)
    (p : Policy)
    (corridor : Option Value) :
    Except Fault BatchResult := do
  p.validate
  let o ← Coordinates.ofValue origin
  let d ← Coordinates.ofValue destination
  if items.isEmpty then pure ⟨[], []⟩
  else do
    let outcomes ← fanOut p order
      (fun (item, i) => scoreOne o.toValue d.toValue corridor p i item) items.zipIdx
    let ranked ← rankRoutes (Outcome.routes outcomes)
    pure ⟨ranked, Outcome.failures outcomes⟩

/-- Scores a batch, pooled tasks finishing in submission order. -/
def scoreBatch
    (items : List BatchItem)
    (origin destination : Value)
    (p : Policy)
    (corridor : Option Value) :
    Except Fault BatchResult :=
  scoreBatchOn (List.range items.length) items origin destination p corridor

end CorridorRank
