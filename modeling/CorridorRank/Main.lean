import CorridorRank.Simulation.Run

/-!
# The offline matching command

Run in a directory that holds `raw_itineraries_generated.csv`, the command scores every
itinerary of that leg table with the policy read from the environment (`DETOUR_WEIGHT`,
`DETOUR_THRESHOLD`, `TRANSFER_PENALTY_MIN`, `MERGE_SAME_TRIP`, `STRICT_LEG_ORDERING`,
`SCORING_MAX_WORKERS`), prints the report and writes `matching_results.csv` in the same
directory. The report gives the scoring time in seconds to three decimals.

A run that stops still prints what it printed before, still writes the rows of the table
written before (once the table has been opened), and then reports the error class and
message on the error stream, ending with status 1.
-/

namespace CorridorRank.Command

/-- The leg table the command reads, in the working directory. -/
def inputName : String := "raw_itineraries_generated.csv"

/-- The environment settings the scoring policy reads. -/
def settingNames : List String :=
  ["DETOUR_WEIGHT", "DETOUR_THRESHOLD", "TRANSFER_PENALTY_MIN", "MERGE_SAME_TRIP",
   "STRICT_LEG_ORDERING", "SCORING_MAX_WORKERS"]

/-- The settings present in the environment. -/
def readSettings : IO Policy.Settings :=
  settingNames.filterMapM fun name => do
    pure ((← IO.getEnv name).map (name, ·))

/-- A text for the error stream, each lone surrogate written as its escape. -/
def escapedText
    (t : Text) :
    String :=
  String.join (t.points.map fun n =>
    if Text.isSurrogate n then String.ofList (Text.backslash :: 'u' :: Text.hexDigits 4 n)
    else String.singleton (Char.ofNat n))

/-- An error as reported: its class, then its message when it has one. -/
def faultLine
    (f : Fault) :
    String :=
  if f.message.isEmpty then f.className else f.className ++ ": " ++ escapedText f.message

/-- A span of nanoseconds as seconds with three decimals. -/
def seconds
    (nanos : Nat) :
    String :=
  Decimal.toPlaces (nanos.toFloat / 1000000000.0) 3

/-- Reports an error on the error stream; the exit status of a failed run. -/
def fail
    (line : String) :
    IO UInt32 := do
  (← IO.getStdout).flush
  IO.eprintln line
  pure 1

/-- The leg table as text, or the line reporting why it cannot be read. -/
def readInput : IO (Except String String) := do
  match ← (IO.FS.readBinFile inputName).toBaseIO with
  | .ok bytes =>
    match String.fromUTF8? bytes with
    | some text => pure (.ok text)
    | none => pure (.error ("UnicodeDecodeError: " ++ inputName ++ " is not valid UTF-8"))
  | .error (.noFileOrDirectory ..) =>
    pure (.error ("FileNotFoundError: [Errno 2] No such file or directory: '" ++ inputName ++ "'"))
  | .error e => pure (.error ("OSError: " ++ toString e))

/-- Prints a transcript, writes its table when one was opened, and ends the run. -/
def finish
    {α : Type}
    (t : Simulation.Transcript)
    (outputPath : String)
    (result : Except Fault α) :
    IO UInt32 := do
  IO.print t.printed
  if let some table := t.table then
    IO.FS.writeFile outputPath table
  match result with
  | .ok _ => pure 0
  | .error f => fail (faultLine f)

/-- The whole command: read, score (timed), report. -/
def run : IO UInt32 := do
  let dir := (← IO.currentDir).toString
  let outputPath := Simulation.defaultOutput dir
  match ← readInput with
  | .error line =>
    IO.println Simulation.banner
    fail line
  | .ok text =>
    let env ← readSettings
    let started ← IO.monoNanosNow
    let (scored, t) ← IO.lazyPure fun _ =>
      Simulation.execute (Simulation.score text .null env)
    let stopped ← IO.monoNanosNow
    match scored with
    | .error f => finish t outputPath (.error f : Except Fault Unit)
    | .ok s =>
      let (reported, t) := Simulation.resume
        (Simulation.report s (seconds (stopped - started)) outputPath) t
      finish t outputPath reported

end CorridorRank.Command

/-- Runs the offline matching command. -/
def main : IO UInt32 :=
  CorridorRank.Command.run
