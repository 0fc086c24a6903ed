import CorridorRank.Planner.Transport
import CorridorRank.Text.Split

/-!
# The trip planner client

A `PlannerClient` knows the service address (which must be given), how long to wait, the
feed whose stops it asks for, and the HTTP library that checks and reads its replies. It
offers two operations over a `Session`:

* `resolveStop` turns a station code into coordinates: it asks for the stop
  `<feed>:<code>`, fails with the first GraphQL error if the reply lists any, fails when the
  reply has no stop, and reads the stop's `lat` and `lon` as doubles.
* `planJourney` resolves both stations, asks for a plan between their coordinates at the
  given date and time, and returns the itineraries as received with the two coordinate
  pairs. A reply without a plan fails with its first error message (or a generic one); a plan
  without itineraries fails with a no-routes fault.

The reply is read loosely, as a record of records: reading a field of something that is not
a record fails the way the reply's shape dictates (`Value.get`, `Value.lookup`,
`Value.itemAt`).

`stationCode` reads the station code back out of a stop id `<feed>:<code>`.
-/

namespace CorridorRank

/-- A configured planner client. -/
structure PlannerClient where
  url : Value
  timeout : Value
  feed : Value
  http : HttpResponses

/-- What a journey plan is asked for: two station codes, a date, a time and an optional
correlation id that is passed on as a header. -/
structure PlanQuery where
  origin : Value
  destination : Value
  date : Value
  time : Value
  correlation : Value
  deriving Inhabited

/-- A plan: the itineraries as the planner gave them, and the coordinates of both stations. -/
structure PlanResult where
  itineraries : Value
  origin : Float × Float
  destination : Float × Float
  deriving Inhabited

namespace PlannerClient

/-- The feed the national rail stops belong to. -/
def defaultFeed : Value := .str "1"

/-- How long a request waits by default, in seconds. -/
def defaultTimeout : Value := .int 5

/-- A client for a service address; an empty address is refused. -/
def connect
    (http : HttpResponses)
    (url timeout feed : Value) :
    Except Fault PlannerClient :=
  if url.truthy then .ok ⟨url, timeout, feed, http⟩
  else .error (.valueError "OTP router URL not set. Please set OTP_ROUTER_URL in the .env file.")

/-- The stop id of a station code: `<feed>:<code>`. -/
def stopId
    (c : PlannerClient)
    (code : Value) :
    Text :=
  c.feed.display ++ ":" ++ code.display

/-- Reads the coordinates of a stop out of a reply. -/
def stopCoordinates
    (code : Value)
    (data : Value) :
    Except Fault (Float × Float) := do
  let errors := (← data.get "errors").orElse (.list [])
  if errors.truthy then
    let first ← errors.itemAt 0
    let message ← first.get "message"
    throw (.planner .general ("OTP GraphQL error resolving station \"" ++ code.display ++
      "\": " ++ message.display))
  let stop ← (← data.get "data").orEmpty.get "stop"
  if !stop.truthy then
    throw (.planner .general ("Station not found: " ++ code.display))
  let lat ← (← stop.lookup "lat").toFloat
  let lon ← (← stop.lookup "lon").toFloat
  pure (lat, lon)

/-- The coordinates of a station. -/
def resolveStop
    (c : PlannerClient)
    (code correlation : Value) :
    Session (Float × Float) := do
  let data ← post c.http c.url c.timeout .resolveStop [("id", .str (c.stopId code))] correlation
  Session.lift (stopCoordinates code data)

/-- The variables of a plan query. -/
def planVariables
    (origin destination : Float × Float)
    (date time : Value) :
    List (Text × Value) :=
  [("fromLat", .float origin.1), ("fromLon", .float origin.2),
   ("toLat", .float destination.1), ("toLon", .float destination.2),
   ("date", date), ("time", time)]

/-- Reads the itineraries out of a plan reply. -/
def planItineraries
    (data : Value) :
    Except Fault Value := do
  let plan ← (← data.get "data").orEmpty.get "plan"
  if !plan.truthy then
    let errors := (← data.get "errors").orElse (.list [.dict []])
    let first ← errors.itemAt 0
    let message ← first.getOr "message" (.str "Invalid response from OTP")
    throw (.planner .general ("OTP GraphQL error: " ++ message.display))
  let itineraries := (← plan.get "itineraries").orElse (.list [])
  if !itineraries.truthy then
    throw (.planner .noRoutes "No routes found for specified date/time")
  pure itineraries

/-- Plans a journey: both stations first, then the plan between them. -/
def planJourney
    (c : PlannerClient)
    (q : PlanQuery) :
    Session PlanResult := do
  let origin ← c.resolveStop q.origin q.correlation
  let destination ← c.resolveStop q.destination q.correlation
  let data ← post c.http c.url c.timeout .planJourney
    (planVariables origin destination q.date q.time) q.correlation
  let itineraries ← Session.lift (planItineraries data)
  pure ⟨itineraries, origin, destination⟩

end PlannerClient

/-- The station code of a stop id `<feed>:<code>`: exactly one `:` and a non-empty code. -/
def stationCode
    (stopId : Value) :
    Except Fault Text :=
  match stopId with
  | .str s =>
    match Text.splitAt ':' s with
    | [_, code] =>
      if code.isEmpty then .error (.valueError ("Invalid OTP stopId format: " ++ s))
      else .ok code
    | _ => .error (.valueError ("Invalid OTP stopId format: " ++ s))
  | other => .error (Fault.noAttribute other "split")

/-- One operation asked of the planner client. -/
inductive PlannerCall where
  | resolve (code correlation : Value)
  | plan (query : PlanQuery)
  deriving Inhabited

/-- What a planner operation gives back. -/
inductive PlannerAnswer where
  | coordinates (point : Float × Float)
  | plan (result : PlanResult)
  deriving Inhabited

/-- Performs one operation. -/
def PlannerCall.perform
    (c : PlannerClient) :
    PlannerCall → Session PlannerAnswer
  | .resolve code correlation => .coordinates <$> c.resolveStop code correlation
  | .plan q => .plan <$> c.planJourney q

/-- Performs operations in turn on one exchange; a failed operation does not stop the
others, which go on with the replies that are left. -/
def PlannerClient.performAll
    (c : PlannerClient)
    (calls : List PlannerCall) :
    StateM Exchange (List (Except Fault PlannerAnswer)) :=
  calls.mapM fun call => ExceptT.run (call.perform c)

end CorridorRank
