import CorridorRank.Csv.Write
import CorridorRank.Matching.Summary
import CorridorRank.Scoring.Batch
import CorridorRank.Simulation.Load

/-!
# The offline matching run

An offline run scores a leg table against the fixed request from Abergavenny
(51.8241, -3.0175) to Birmingham New Street (52.4778, -1.8996): it loads the itineraries,
reads the scoring policy from the settings, scores them as one batch, and reports the best
route of each corridor, then every itinerary that could not be scored. The report goes to
the printed output and to a results table with one row per reported route.

A `Run` step may print, may write to the results table, and may fail; a failure keeps what
was produced before it (the table file is opened just before the routes are reported). Both
outputs are UTF-8: a line or a row holding a lone surrogate fails to encode, and nothing of it
is written. The run has two phases so that a caller can time the scoring between them:
`score` (load, policy, batch) and `report` (the printed report and the table, given the
elapsed time as text).

The table has the columns `rank`, `itinerary_id`, `corridor`, `score_min`, `duration_min`,
`detour_ratio`, `detour_penalty_min`, `transfers` and `transfer_penalty_min`; minutes are
rounded to one decimal and the ratio to three. A failed itinerary has the row
`FAILED, <id>, <kind>` and six empty cells.
-/

namespace CorridorRank

namespace Simulation

/-- Where the simulated journeys start. -/
def origin : Value := .tuple [.float 51.8241, .float (-3.0175)]

/-- Where the simulated journeys end. -/
def destination : Value := .tuple [.float 52.4778, .float (-1.8996)]

/-- What a run has produced so far: the printed text, and the results table once its file
has been opened. -/
structure Transcript where
  printed : String := ""
  table : Option String := none
  deriving Inhabited

/-- A step of a run: it prints and writes the table (the transcript is the state), and may
fail. -/
abbrev Run := ExceptT Fault (StateM Transcript)

/-- A computation that may fail, as a step that produces nothing. -/
def lift
    {α : Type}
    (r : Except Fault α) :
    Run α := ExceptT.mk (pure r)

/-- Prints one line. -/
def say
    (line : Text) :
    Run Unit := do
  let s ← lift line.encode
  modify fun t => { t with printed := t.printed ++ s ++ "\n" }

/-- Opens the results table with its header row. -/
def openTable
    (header : List Text) :
    Run Unit := do
  let s ← lift (Csv.row header).encode
  modify fun t => { t with table := some s }

/-- Writes one row of values to the results table. -/
def writeRow
    (cells : List Value) :
    Run Unit := do
  let s ← lift (Csv.valueRow cells).encode
  modify fun t => { t with table := t.table.map (· ++ s) }

/-- Runs a step from a transcript: its result and the transcript it leaves. -/
def resume
    {α : Type}
    (r : Run α)
    (t : Transcript) :
    Except Fault α × Transcript :=
  (ExceptT.run r).run t

/-- Runs a step from an empty transcript: its result and what it produced. -/
def execute
    {α : Type}
    (r : Run α) :
    Except Fault α × Transcript := resume r {}

/-- The results file in the input's directory when no output is named. -/
def defaultOutput
    (inputDir : String) :
    String :=
  if inputDir.endsWith "/" then inputDir ++ "matching_results.csv"
  else inputDir ++ "/matching_results.csv"

/-- The first line a run prints, before it loads anything. -/
def banner : String := "=== STARTING OFFLINE CORRIDOR MATCHING SIMULATION ==="

/-- The loaded itineraries and their batch result. -/
structure Scored where
  itineraries : List Value
  result : BatchResult
  deriving Inhabited

/-- What a finished run reports: the best route of each corridor and the failures. -/
structure Outcome where
  best : List ScoredRoute
  failures : List Failure
  deriving Inhabited

/-- The columns of the results table. -/
def columns : List Text :=
  ["rank", "itinerary_id", "corridor", "score_min", "duration_min", "detour_ratio",
   "detour_penalty_min", "transfers", "transfer_penalty_min"]

/-- Phase one: load at most `limit` itineraries, read the policy, score the batch. -/
def score
    (text : String)
    (limit : Value)
    (env : Policy.Settings) :
    Run Scored := do
  say banner
  let itineraries ← lift (loadItineraries text limit)
  say (Text.ofString ("Loaded " ++ toString itineraries.length ++ " Itineraries.\n"))
  let p ← lift (Policy.ofSettings env)
  let result ← lift (scoreBatch (itineraries.map .record) origin destination p none)
  pure ⟨itineraries, result⟩

/-- The id of the itinerary at a batch position (its position when it has none). -/
def sourceId
    (itineraries : List Value)
    (index : Nat) :
    Value :=
  match itineraries[index]? with
  | some (.dict fields) => (Value.field? fields "id").getD (.int index)
  | _ => .int index

/-- A double rounded to a number of decimals, as a value. -/
def rounded
    (x : Float)
    (places : Nat) :
    Value := .float (Decimal.roundPlaces x places)

/-- Reports the ranked best routes, numbered from `rank`: each one's row is written before
its line is printed. -/
def reportBest
    (itineraries : List Value) :
    List ScoredRoute → Nat → Run Unit
  | [], _ => pure ()
  | route :: rest, rank => do
    let s := route.score
    writeRow [.int rank, sourceId itineraries route.index, s.corridorId, rounded s.score 1,
      rounded s.durationMinutes 1, rounded s.detourRatio 3, rounded s.detourPenalty 1,
      .int s.transferCount, rounded s.transferPenalty 1]
    let summary ← lift (RouteSummary.ofRoute route)
    say (toString rank ++ ". " ++ s.corridorId.display ++ " -> score " ++
      Value.floatText summary.score ++ " (" ++ summary.totalDuration ++ ", " ++
      toString s.transferCount ++ " change(s), detour " ++ Decimal.toPlaces s.detourRatio 2 ++ ")")
    reportBest itineraries rest (rank + 1)

/-- Reports the failures, each with its row. -/
def reportFailures
    (itineraries : List Value) :
    List Failure → Run Unit
  | [] => pure ()
  | f :: rest => do
    let id := sourceId itineraries f.index
    writeRow ([.str "FAILED", id, .str f.cause.kind] ++ List.replicate 6 (.str ""))
    say ("[FAILED] " ++ id.display ++ ": " ++ f.cause.message)
    reportFailures itineraries rest

/-- Phase two: the printed report and the results table. -/
def report
    (s : Scored)
    (elapsed : String)
    (outputPath : String) :
    Run Outcome := do
  say (Text.ofString ("Scored " ++ toString s.result.ranked.length ++ " itineraries in " ++
    elapsed ++ "s."))
  say (s.result.summary ++ "\n")
  let best ← lift (bestPerCorridor s.result.ranked)
  openTable columns
  say "--- Best Route Per Corridor ---"
  reportBest s.itineraries best 1
  reportFailures s.itineraries s.result.failures
  say "\n=== SIMULATION COMPLETE ==="
  say (Text.ofString ("Corridors ranked: " ++ toString best.length))
  say (Text.ofString ("Results written to '" ++ outputPath ++ "'."))
  pure ⟨best, s.result.failures⟩

/-- A whole run, with the elapsed scoring time given as text. -/
def run
    (text : String)
    (limit : Value)
    (env : Policy.Settings)
    (elapsed outputPath : String) :
    Run Outcome := do
  let s ← score text limit env
  report s elapsed outputPath

end Simulation

end CorridorRank
