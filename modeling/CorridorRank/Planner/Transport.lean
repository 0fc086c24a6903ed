import CorridorRank.Json.Read
import CorridorRank.Value.Access

/-!
# Talking to the trip planner

The trip planner is a GraphQL service reached by HTTP POST. The library does not do the
network itself: a conversation with the service is an `Exchange`, the replies still to come
and the requests sent so far. Nor does it check statuses or read bodies itself: that is the
work of an HTTP library, `HttpResponses`, which the client is given. `post` sends one request
(it is always recorded, even when the service then fails) and reads the next reply:

* no reply left, a refused connection or another transport failure is a planner fault
  `OTP service unavailable: …`; a timeout is a planner timeout `OTP service timeout: …`;
* a text body travels as UTF-8, so one holding a lone surrogate is an encoding fault, found
  as the reply arrives, before its status is looked at;
* a status of 500 or more is a planner fault `OTP service returned … error`; any other status
  goes to the library's status check, and a reply that passes it has its body read as JSON
  by the library.

`Session` runs such steps: a fault ends the session but keeps the exchange as it was.
-/

namespace CorridorRank

/-- The two planner queries. -/
inductive Query where
  | resolveStop
  | planJourney
  deriving DecidableEq, Inhabited

/-- The name of a query. -/
def Query.name : Query → String
  | .resolveStop => "resolve_stop"
  | .planJourney => "plan_journey"

/-- One request to the planner: where, which query with which variable bindings, which headers,
and how long to wait. -/
structure Sent where
  url : Value
  query : Query
  bindings : List (Text × Value)
  headers : List (Text × Value)
  timeout : Value
  deriving Inhabited

/-- The body of a reply: a JSON value, or raw text to be read as JSON. -/
inductive Body where
  | json (v : Value)
  | text (t : Text)
  deriving Inhabited

/-- How the service answers one request. -/
inductive Reply where
  /-- A response with a status code, a reason phrase and a body. -/
  | answer (status : Value) (reason : Value) (body : Body)
  /-- The service did not answer in time. -/
  | timeout (message : Text)
  /-- The service could not be reached. -/
  | unreachable (message : Text)
  /-- Any other transport failure. -/
  | failed (message : Text)
  deriving Inhabited

/-- A conversation with the planner: replies still to come, requests sent (latest first). -/
structure Exchange where
  replies : List Reply
  sent : List Sent
  deriving Inhabited

/-- A step of a conversation with the planner; a fault keeps the exchange so far. -/
abbrev Session := ExceptT Fault (StateM Exchange)

namespace Session

/-- A computation that may fail, as a session step that leaves the exchange alone. -/
def lift
    {α : Type}
    (r : Except Fault α) :
    Session α :=
  ExceptT.mk (pure r)

/-- Runs a session on an exchange. -/
def run
    {α : Type}
    (s : Session α)
    (e : Exchange) :
    Except Fault α × Exchange :=
  (ExceptT.run s).run e

end Session

namespace Exchange

/-- Records a request and takes the next reply, if any. -/
def deliver
    (sent : Sent)
    (e : Exchange) :
    Option Reply × Exchange :=
  match e.replies with
  | r :: rest => (some r, ⟨rest, sent :: e.sent⟩)
  | [] => (none, ⟨[], sent :: e.sent⟩)

/-- The requests sent, in order. -/
def requests
    (e : Exchange) :
    List Sent := e.sent.reverse

end Exchange

/-- A body as it arrives: a JSON value as it is, a text as its UTF-8 string, which fails for
a lone surrogate. -/
def Body.receive : Body → Except Fault (Sum Value String)
  | .json v => .ok (.inl v)
  | .text t => .inr <$> t.encode

/-- What an HTTP library does with a response once it has arrived: `raiseForStatus` checks
the status, given the request's address, the status and the reason phrase, and `json` reads the
received body as JSON. -/
structure HttpResponses where
  raiseForStatus : Value → Value → Value → Except Fault Unit
  json : Sum Value String → Except Fault Value

/-- Turns a reply into the decoded body or the fault it stands for. -/
def Reply.read
    (http : HttpResponses)
    (url : Value) :
    Option Reply → Except Fault Value
  | none => .error (.planner .general "OTP service unavailable: no scripted response")
  | some (.timeout m) => .error (.planner .timeout ("OTP service timeout: " ++ m))
  | some (.unreachable m) => .error (.planner .general ("OTP service unavailable: " ++ m))
  | some (.failed m) => .error (.planner .general ("OTP service unavailable: " ++ m))
  | some (.answer status reason body) => do
    let received ← body.receive
    if ← Value.compareWith .ge status (.int 500) then
      throw (.planner .general ("OTP service returned " ++ status.display ++ " error"))
    http.raiseForStatus url status reason
    http.json received

/-- The headers of a request: the content type, and the correlation id when it is true. -/
def requestHeaders
    (correlation : Value) :
    List (Text × Value) :=
  [(Text.ofString "Content-Type", Value.str "application/json")] ++
    (if correlation.truthy then [(Text.ofString "X-Correlation-ID", correlation)] else [])

/-- Sends one query and reads the reply. -/
def post
    (http : HttpResponses)
    (url timeout : Value)
    (query : Query)
    (bindings : List (Text × Value))
    (correlation : Value) :
    Session Value := do
  let sent : Sent := ⟨url, query, bindings, requestHeaders correlation, timeout⟩
  let reply ← modifyGet (Exchange.deliver sent)
  Session.lift (Reply.read http url reply)

/-- Every post is recorded, whatever the reply. -/
theorem post_records
    (http : HttpResponses)
    (url timeout : Value)
    (query : Query)
    (bindings : List (Text × Value))
    (correlation : Value)
    (e : Exchange) :
    ((post http url timeout query bindings correlation).run e).2.sent =
      ⟨url, query, bindings, requestHeaders correlation, timeout⟩ :: e.sent := by
  obtain ⟨replies, sent⟩ := e
  cases replies <;> rfl

end CorridorRank
