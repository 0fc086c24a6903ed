import CorridorRank.Planner.Client
import CorridorRank.Proofs.Traversal

/-!
# A plan conversation with the planner

`PlannerClient.planJourney` asks the planner three things in turn over one exchange: the stop
of the origin station, the stop of the destination station, and a plan between the two. Each
question is one request, answered by the next scripted reply. This file states, in the terms
of the service's protocol, what a reply decides and what the whole conversation does.

* `HttpResponses.Documented` is what the client relies on of its HTTP library: a status
  below 400 passes its check, one from 400 to 499 fails it with an HTTP fault, and a body that
  arrived as a JSON value reads as that value. `HttpResponses.clientErrors` is such a library.
* `Delivered` is the rule of the transport: no reply, a timeout or another transport failure
  is a planner fault (a timeout of its own class); a response with a status of 500 or more is
  a planner fault, one from 400 to 499 the library's HTTP fault, and any other delivers its
  JSON body.
* `StopRead` is the rule for the body of a stop reply: one listing GraphQL errors fails with
  the first error's message; else one without a stop fails as not found; else the stop's
  `lat` and `lon`, read as doubles, are the coordinates.
* `PlanRead` is the rule for the body of a plan reply: one without a plan fails with the
  first error's message, or a generic one; one whose plan holds no itineraries, and that
  lists no errors, fails as finding no routes; one whose plan holds itineraries, and that
  lists no errors, yields the itineraries as they are. A body carrying both a plan and
  errors is decided by no rule.
* `Staged` puts the transport and a body rule together: a refused reply fails the stage
  with the transport's fault, a delivered one is decided by the body rule.

Each body rule asks of a payload only the shape the client reads: a record, whose `errors`
are false or a list opening with a record, whose `data` is false or a record, and so on.

Main statement: `planJourney_outcome`, for every library that behaves as documented. The
conversation sends the origin's stop query, and
only if that stage succeeds the destination's, and only if that one succeeds the plan query
between the two coordinate pairs; the first stage that fails ends it with its fault. When
all three succeed it returns the plan's itineraries unchanged with both coordinate pairs.
Every request carries the correlation header exactly when the correlation id is true.
-/

namespace CorridorRank

open Traversal

/-! ## Reading replies loosely -/

namespace Value

/-- The field `key` of a record; nothing when the record lacks it or the value is no record. -/
def field
    (v : Value)
    (key : String) :
    Value :=
  match v with
  | .dict fields => (field? fields key).getD .null
  | _ => .null

/-- A value that is false, or a record. -/
def RecordOrFalse
    (v : Value) :
    Prop :=
  v.truthy = false ∨ ∃ fields, v = .dict fields

/-- A GraphQL error list as the client reads it: false, or a list opening with a record. -/
def ErrorList
    (v : Value) :
    Prop :=
  v.truthy = false ∨ ∃ first rest, v = .list (.dict first :: rest)

/-- The `message` of the first error of a GraphQL error list, `fallback` when the list is
false or its first error has none. -/
def firstMessage
    (errors fallback : Value) :
    Value :=
  match errors with
  | .list (.dict first :: _) => (field? first "message").getD fallback
  | _ => fallback

@[simp] theorem get_dict
    (fields : List (Text × Value))
    (key : String) :
    (Value.dict fields).get key = .ok ((Value.dict fields).field key) := rfl

/-- A record, or a false value, read as a record answers each key with its field: a false value
reads as the empty record. -/
theorem get_of_recordOrFalse
    {v : Value}
    (shape : v.RecordOrFalse)
    (key : String) :
    v.orEmpty.get key = .ok (v.field key) := by
  rcases shape with falsy | ⟨fields, rfl⟩
  · have empty : v.orEmpty = .dict [] := by simp [orEmpty, falsy]
    rw [empty]
    cases v <;> simp_all [truthy, field, field?]
  · cases fields <;> rfl

@[simp] theorem truthy_list
    (items : List Value) :
    (Value.list items).truthy = !items.isEmpty :=
  rfl

@[simp] theorem truthy_dict
    (fields : List (Text × Value)) :
    (Value.dict fields).truthy = !fields.isEmpty :=
  rfl

theorem orElse_truthy
    {v : Value}
    (fallback : Value)
    (truthy : v.truthy = true) :
    v.orElse fallback = v := by
  simp [orElse, truthy]

theorem orElse_falsy
    {v : Value}
    (fallback : Value)
    (falsy : v.truthy = false) :
    v.orElse fallback = fallback := by
  simp [orElse, falsy]

/-- Only a record has a field, so a value holding a record in a field is one. -/
theorem recordOrFalse_of_field
    {v : Value}
    {key : String}
    {fields : List (Text × Value)}
    (found : v.field key = .dict fields) :
    v.RecordOrFalse := by
  revert found
  cases v <;> simp [field, RecordOrFalse]

theorem firstMessage_of_falsy
    {errors : Value}
    (fallback : Value)
    (falsy : errors.truthy = false) :
    firstMessage errors fallback = fallback := by
  unfold firstMessage
  split
  · simp at falsy
  · rfl

theorem compareWith_ints
    (op : Comparison)
    (a b : Int) :
    compareWith op (.int a) (.int b) = .ok (op.holds (compare a b)) := by
  simp [compareWith, num?, Num.order?]

end Value

/-! ## The HTTP library -/

/-- What the client relies on of its HTTP library, for replies from `url`: a status below 400
passes the status check, one from 400 to 499 fails it with an HTTP fault, and a body that
arrived as a JSON value reads as that value. -/
structure HttpResponses.Documented (http : HttpResponses) (url : Value) : Prop where
  passes : ∀ status reason, status < 400 → http.raiseForStatus url (.int status) reason = .ok ()
  clientError : ∀ status reason, 400 ≤ status → status < 500 →
    ∃ message, http.raiseForStatus url (.int status) reason = .error (.httpError message)
  readsJson : ∀ body, http.json (.inl body) = .ok body

/-- A library that fails a status from 400 to 499 with `<status> Client Error: <reason> for
url: <url>`, passes every other, and reads a text body with `Json.parse`. -/
def HttpResponses.clientErrors : HttpResponses where
  raiseForStatus url status reason :=
    match status with
    | .int code =>
      if 400 ≤ code ∧ code < 500 then
        .error (.httpError (status.display ++ " Client Error: " ++ reason.display ++
          " for url: " ++ url.display))
      else .ok ()
    | _ => .ok ()
  json := Sum.elim .ok Json.parse

theorem HttpResponses.clientErrors_documented
    (url : Value) :
    HttpResponses.clientErrors.Documented url where
  passes status reason below := by
    have notClient : ¬ (400 ≤ status ∧ status < 500) := by omega
    simp [clientErrors, notClient]
  clientError status reason atLeast below := by simp [clientErrors, atLeast, below]
  readsJson _ := rfl

/-! ## The rules of the protocol -/

variable {http : HttpResponses}

/-- How the transport decides a reply to one request: a fault, or the JSON body it delivers.
The script running out is a transport failure like any other. -/
inductive Delivered (http : HttpResponses) (url : Value) : Option Reply → Except Fault Value → Prop
  | exhausted :
      Delivered http url none
        (.error (.planner .general "OTP service unavailable: no scripted response"))
  | timedOut (message : Text) :
      Delivered http url (some (.timeout message))
        (.error (.planner .timeout ("OTP service timeout: " ++ message)))
  | unreachable (message : Text) :
      Delivered http url (some (.unreachable message))
        (.error (.planner .general ("OTP service unavailable: " ++ message)))
  | failed (message : Text) :
      Delivered http url (some (.failed message))
        (.error (.planner .general ("OTP service unavailable: " ++ message)))
  | serverError (status : Int) (reason body : Value) (high : 500 ≤ status) :
      Delivered http url (some (.answer (.int status) reason (.json body)))
        (.error (.planner .general ("OTP service returned " ++ (Value.int status).display ++
          " error")))
  | clientError (status : Int) (reason body : Value) (message : Text) (atLeast : 400 ≤ status)
      (below : status < 500)
      (raised : http.raiseForStatus url (.int status) reason = .error (.httpError message)) :
      Delivered http url (some (.answer (.int status) reason (.json body)))
        (.error (.httpError message))
  | accepted (status : Int) (reason body : Value) (below : status < 400) :
      Delivered http url (some (.answer (.int status) reason (.json body))) (.ok body)

/-- How the body of a reply to a stop query decides the station's coordinates. -/
inductive StopRead (code : Value) : Value → Except Fault (Float × Float) → Prop
  | listsErrors (fields first : List (Text × Value)) (rest : List Value)
      (listed : (Value.dict fields).field "errors" = .list (.dict first :: rest)) :
      StopRead code (.dict fields)
        (.error (.planner .general ("OTP GraphQL error resolving station \"" ++ code.display ++
          "\": " ++ (Value.firstMessage (.list (.dict first :: rest)) .null).display)))
  | notFound (fields : List (Text × Value))
      (noErrors : ((Value.dict fields).field "errors").truthy = false)
      (data : ((Value.dict fields).field "data").RecordOrFalse)
      (missing : (((Value.dict fields).field "data").field "stop").truthy = false) :
      StopRead code (.dict fields) (.error (.planner .general ("Station not found: " ++ code.display)))
  | located (fields stop : List (Text × Value)) (lat lon : Float)
      (noErrors : ((Value.dict fields).field "errors").truthy = false)
      (found : ((Value.dict fields).field "data").field "stop" = .dict stop)
      (latRead : ∃ x, Value.field? stop "lat" = some x ∧ x.toFloat = .ok lat)
      (lonRead : ∃ y, Value.field? stop "lon" = some y ∧ y.toFloat = .ok lon) :
      StopRead code (.dict fields) (.ok (lat, lon))

/-- How the body of a reply to a plan query decides the itineraries. -/
inductive PlanRead : Value → Except Fault Value → Prop
  | noPlan (fields : List (Text × Value))
      (data : ((Value.dict fields).field "data").RecordOrFalse)
      (missing : (((Value.dict fields).field "data").field "plan").truthy = false)
      (errors : ((Value.dict fields).field "errors").ErrorList) :
      PlanRead (.dict fields)
        (.error (.planner .general ("OTP GraphQL error: " ++
          (Value.firstMessage ((Value.dict fields).field "errors")
            (.str "Invalid response from OTP")).display)))
  | noRoutes (fields plan : List (Text × Value))
      (found : ((Value.dict fields).field "data").field "plan" = .dict plan) (some : plan ≠ [])
      (noErrors : ((Value.dict fields).field "errors").truthy = false)
      (empty : ((Value.dict plan).field "itineraries").truthy = false) :
      PlanRead (.dict fields) (.error (.planner .noRoutes "No routes found for specified date/time"))
  | routes (fields plan : List (Text × Value))
      (found : ((Value.dict fields).field "data").field "plan" = .dict plan)
      (noErrors : ((Value.dict fields).field "errors").truthy = false)
      (listed : ((Value.dict plan).field "itineraries").truthy = true) :
      PlanRead (.dict fields) (.ok ((Value.dict plan).field "itineraries"))

/-- One stage of a conversation: the reply is refused by the transport, which fails the
stage, or delivered, and its body decided by `rule`. -/
inductive Staged {β : Type} (http : HttpResponses) (url : Value)
    (rule : Value → Except Fault β → Prop) (reply : Option Reply) : Except Fault β → Prop
  | refused {fault : Fault} (delivered : Delivered http url reply (.error fault)) :
      Staged http url rule reply (.error fault)
  | answered {body : Value} {outcome : Except Fault β}
      (delivered : Delivered http url reply (.ok body)) (decided : rule body outcome) :
      Staged http url rule reply outcome

/-! ## The client follows the rules -/

/-- A response with an integer status below 500 and a JSON body goes to the library: its
status check, then its reading of the body. -/
theorem Reply.read_answer_below
    {url reason body : Value}
    {status : Int}
    (below : status < 500) :
    Reply.read http url (some (.answer (.int status) reason (.json body))) =
      (http.raiseForStatus url (.int status) reason >>= fun _ => http.json (.inl body)) := by
  simp [Reply.read, Body.receive, Value.compareWith_ints, Value.Comparison.holds, bind,
    Except.bind, Int.compare_eq_lt, below]

theorem Delivered.read_eq
    {url : Value}
    {reply : Option Reply}
    {outcome : Except Fault Value}
    (documented : http.Documented url)
    (delivered : Delivered http url reply outcome) :
    Reply.read http url reply = outcome := by
  cases delivered with
  | exhausted | timedOut | unreachable | failed => rfl
  | serverError status reason body high =>
      have notBelow : ¬ status < 500 := by omega
      simp [Reply.read, Body.receive, Value.compareWith_ints, Value.Comparison.holds,
        bind, Except.bind, throw, throwThe, MonadExceptOf.throw, Int.compare_eq_lt, notBelow]
  | clientError status reason body message atLeast below raised =>
      rw [Reply.read_answer_below below, raised]
      rfl
  | accepted status reason body below =>
      rw [Reply.read_answer_below (by omega), documented.passes status reason below]
      exact documented.readsJson body

theorem StopRead.coordinates_eq
    {code body : Value}
    {outcome : Except Fault (Float × Float)}
    (decided : StopRead code body outcome) :
    PlannerClient.stopCoordinates code body = outcome := by
  cases decided with
  | listsErrors fields first rest listed =>
      simp only [PlannerClient.stopCoordinates, Value.get_dict, listed, bind, Except.bind]
      simp [Value.orElse, Value.itemAt, Value.position, throw, throwThe, MonadExceptOf.throw,
        Value.firstMessage, Value.field]
  | notFound fields noErrors data missing =>
      simp only [PlannerClient.stopCoordinates, Value.get_dict, bind, Except.bind,
        Value.orElse_falsy _ noErrors, Value.get_of_recordOrFalse data, missing]
      simp [throw, throwThe, MonadExceptOf.throw]
  | located fields stop lat lon noErrors found latRead lonRead =>
      obtain ⟨x, latField, latFloat⟩ := latRead
      obtain ⟨y, lonField, lonFloat⟩ := lonRead
      have stopTrue : (Value.dict stop).truthy = true := by
        cases stop with
        | nil => simp [Value.field?] at latField
        | cons => rfl
      simp only [PlannerClient.stopCoordinates, Value.get_dict, bind, Except.bind,
        Value.orElse_falsy _ noErrors,
        Value.get_of_recordOrFalse (Value.recordOrFalse_of_field found), found, stopTrue]
      simp [Value.lookup, latField, lonField, latFloat, lonFloat, pure, Except.pure]

theorem PlanRead.itineraries_eq
    {body : Value}
    {outcome : Except Fault Value}
    (decided : PlanRead body outcome) :
    PlannerClient.planItineraries body = outcome := by
  cases decided with
  | noPlan fields data missing errors =>
      simp only [PlannerClient.planItineraries, Value.get_dict, bind, Except.bind,
        Value.get_of_recordOrFalse data, missing]
      rcases errors with falsy | ⟨first, rest, listed⟩
      · simp [Value.orElse_falsy _ falsy, Value.firstMessage_of_falsy _ falsy, Value.itemAt,
          Value.position, Value.getOr, Value.field?, throw, throwThe, MonadExceptOf.throw]
      · simp [listed, Value.orElse, Value.itemAt, Value.position, Value.getOr,
          Value.firstMessage, throw, throwThe, MonadExceptOf.throw]
  | noRoutes fields plan found some noErrors empty =>
      have planTrue : (Value.dict plan).truthy = true := by simpa using some
      simp only [PlannerClient.planItineraries, Value.get_dict, bind, Except.bind,
        Value.get_of_recordOrFalse (Value.recordOrFalse_of_field found), found, planTrue,
        Value.orElse_falsy _ empty]
      simp [throw, throwThe, MonadExceptOf.throw]
  | routes fields plan found noErrors listed =>
      have planTrue : (Value.dict plan).truthy = true := by
        cases plan with
        | nil => simp [Value.field, Value.field?] at listed
        | cons => rfl
      simp only [PlannerClient.planItineraries, Value.get_dict, bind, Except.bind,
        Value.get_of_recordOrFalse (Value.recordOrFalse_of_field found), found, planTrue,
        Value.orElse_truthy _ listed, listed]
      rfl

theorem Staged.eq
    {β : Type}
    {url : Value}
    {rule : Value → Except Fault β → Prop}
    {reply : Option Reply}
    {outcome : Except Fault β}
    (documented : http.Documented url)
    (staged : Staged http url rule reply outcome)
    {reader : Value → Except Fault β}
    (sound : ∀ body outcome, rule body outcome → reader body = outcome) :
    (Reply.read http url reply >>= reader) = outcome := by
  cases staged with
  | refused delivered => rw [delivered.read_eq documented]; rfl
  | answered delivered decided => rw [delivered.read_eq documented]; exact sound _ _ decided

/-! ## The conversation -/

namespace Session

theorem run_bind
    {α β : Type}
    (s : Session α)
    (k : α → Session β)
    (e : Exchange) :
    (s >>= k).run e = match s.run e with
      | (.ok a, e') => (k a).run e'
      | (.error fault, e') => (.error fault, e') := by
  simp only [Session.run, ExceptT.run_bind, StateT.run_bind]
  rcases (ExceptT.run s).run e with ⟨_ | a, e'⟩ <;> rfl

end Session

/-- The exchange once `requests` have been sent in order, each answered by the next reply. -/
def Exchange.answered
    (e : Exchange)
    (requests : List Sent) :
    Exchange :=
  ⟨e.replies.drop requests.length, requests.reverse ++ e.sent⟩

/-- The request asking for the stop of a station. -/
def PlannerClient.stopRequest
    (c : PlannerClient)
    (code correlation : Value) :
    Sent :=
  ⟨c.url, .resolveStop, [("id", .str (c.stopId code))], requestHeaders correlation, c.timeout⟩

/-- The request asking for a plan between two coordinate pairs. -/
def PlannerClient.planRequest
    (c : PlannerClient)
    (q : PlanQuery)
    (origin destination : Float × Float) :
    Sent :=
  ⟨c.url, .planJourney, planVariables origin destination q.date q.time, requestHeaders q.correlation,
    c.timeout⟩

/-- The correlation id a request carries in its header, if any. -/
def Sent.correlationId
    (s : Sent) :
    Option Value := Value.field? s.headers "X-Correlation-ID"

/-- The headers of a request name the correlation id exactly when it is true. -/
theorem requestHeaders_correlation
    (correlation : Value) :
    Value.field? (requestHeaders correlation) "X-Correlation-ID" =
      if correlation.truthy then some correlation else none := by
  have distinct : Text.ofString "Content-Type" ≠ Text.ofString "X-Correlation-ID" := by decide
  cases truth : correlation.truthy <;>
    simp [requestHeaders, truth, Value.field?, distinct]

theorem post_run
    (url timeout : Value)
    (query : Query)
    (bindings : List (Text × Value))
    (correlation : Value)
    (e : Exchange) :
    (post http url timeout query bindings correlation).run e =
      (Reply.read http url e.replies.head?,
        e.answered [⟨url, query, bindings, requestHeaders correlation, timeout⟩]) := by
  obtain ⟨replies, sent⟩ := e
  cases replies <;> rfl

theorem Exchange.answered_head
    (e : Exchange)
    (requests : List Sent) :
    (e.answered requests).replies.head? = e.replies[requests.length]? := by
  simp [Exchange.answered, List.head?_drop]

theorem Exchange.answered_answered
    (e : Exchange)
    (earlier later : List Sent) :
    (e.answered earlier).answered later = e.answered (earlier ++ later) := by
  simp [Exchange.answered, List.drop_drop]

theorem PlannerClient.resolveStop_run
    (c : PlannerClient)
    (code correlation : Value)
    (e : Exchange) :
    (c.resolveStop code correlation).run e =
      (Reply.read c.http c.url e.replies.head? >>= PlannerClient.stopCoordinates code,
        e.answered [c.stopRequest code correlation]) := by
  unfold PlannerClient.resolveStop
  rw [Session.run_bind, post_run]
  cases Reply.read c.http c.url e.replies.head? <;> rfl

/-- A plan conversation is its three stages in turn, each answered by the next reply; the
first stage that fails ends it. -/
theorem PlannerClient.planJourney_run
    (c : PlannerClient)
    (q : PlanQuery)
    (e : Exchange) :
    (c.planJourney q).run e =
      match Reply.read c.http c.url e.replies[0]? >>= PlannerClient.stopCoordinates q.origin with
      | .error fault => (.error fault, e.answered [c.stopRequest q.origin q.correlation])
      | .ok origin =>
        match Reply.read c.http c.url e.replies[1]? >>= PlannerClient.stopCoordinates q.destination with
        | .error fault =>
          (.error fault, e.answered [c.stopRequest q.origin q.correlation,
            c.stopRequest q.destination q.correlation])
        | .ok destination =>
          ((fun itineraries => ⟨itineraries, origin, destination⟩) <$>
              (Reply.read c.http c.url e.replies[2]? >>= PlannerClient.planItineraries),
            e.answered [c.stopRequest q.origin q.correlation,
              c.stopRequest q.destination q.correlation, c.planRequest q origin destination]) := by
  unfold PlannerClient.planJourney
  rw [Session.run_bind, PlannerClient.resolveStop_run, List.head?_eq_getElem?]
  cases Reply.read c.http c.url e.replies[0]? >>= PlannerClient.stopCoordinates q.origin with
  | error fault => rfl
  | ok origin =>
    simp only
    rw [Session.run_bind, PlannerClient.resolveStop_run, Exchange.answered_head,
      Exchange.answered_answered]
    cases Reply.read c.http c.url e.replies[1]? >>= PlannerClient.stopCoordinates q.destination with
    | error fault => rfl
    | ok destination =>
      simp only
      rw [Session.run_bind, post_run, Exchange.answered_head, Exchange.answered_answered]
      simp only [List.cons_append, List.nil_append, List.length_cons, List.length_nil]
      cases Reply.read c.http c.url e.replies[2]? with
      | error fault => rfl
      | ok body =>
        show _ = (_ <$> PlannerClient.planItineraries body, _)
        simp only
        cases PlannerClient.planItineraries body <;> rfl

/-- A plan conversation, with an HTTP library that behaves as documented and replies that
follow the protocol's rules: the stop of the origin is asked first, that of the destination only once the origin is located, and the plan only once
both are; the first stage that fails ends the conversation with its fault and no further
request. When all three succeed, the plan's itineraries come back as they were, with the
coordinates of both stops. Every request names the correlation id exactly when it is true. -/
theorem planJourney_outcome
    (c : PlannerClient)
    (q : PlanQuery)
    (e : Exchange)
    {origin destination : Except Fault (Float × Float)}
    {plan : Except Fault Value}
    (documented : c.http.Documented c.url)
    (originStage : Staged c.http c.url (StopRead q.origin) e.replies[0]? origin)
    (destinationStage :
      ∀ o, origin = .ok o → Staged c.http c.url (StopRead q.destination) e.replies[1]? destination)
    (planStage :
      ∀ o d, origin = .ok o → destination = .ok d → Staged c.http c.url PlanRead e.replies[2]? plan) :
    (∀ fault, origin = .error fault →
      (c.planJourney q).run e = (.error fault, e.answered [c.stopRequest q.origin q.correlation])) ∧
    (∀ o fault, origin = .ok o → destination = .error fault →
      (c.planJourney q).run e = (.error fault, e.answered [c.stopRequest q.origin q.correlation,
        c.stopRequest q.destination q.correlation])) ∧
    (∀ o d, origin = .ok o → destination = .ok d →
      (c.planJourney q).run e = ((fun itineraries => ⟨itineraries, o, d⟩) <$> plan,
        e.answered [c.stopRequest q.origin q.correlation,
          c.stopRequest q.destination q.correlation, c.planRequest q o d])) ∧
    (∀ code, (c.stopRequest code q.correlation).correlationId =
      if q.correlation.truthy then some q.correlation else none) ∧
    (∀ o d, (c.planRequest q o d).correlationId =
      if q.correlation.truthy then some q.correlation else none) := by
  have originRead := originStage.eq documented fun _ _ decided => decided.coordinates_eq
  refine ⟨?originFails, ?destinationFails, ?planned, fun _ => requestHeaders_correlation _,
    fun _ _ => requestHeaders_correlation _⟩
  case originFails =>
    intro fault failed
    rw [PlannerClient.planJourney_run, originRead, failed]
  case destinationFails =>
    intro o fault located failed
    have destinationRead :=
      (destinationStage o located).eq documented fun _ _ decided => decided.coordinates_eq
    rw [PlannerClient.planJourney_run, originRead, located]
    simp only
    rw [destinationRead, failed]
  case planned =>
    intro o d located destinationLocated
    have destinationRead :=
      (destinationStage o located).eq documented fun _ _ decided => decided.coordinates_eq
    have planRead := (planStage o d located destinationLocated).eq documented
      fun _ _ decided => decided.itineraries_eq
    rw [PlannerClient.planJourney_run, originRead, located]
    simp only
    rw [destinationRead, destinationLocated]
    simp only
    rw [planRead]

/-- Two stops located and a plan found: the conversation returns the plan's itineraries
with both coordinate pairs, after exactly the three requests. -/
theorem planJourney_outcome_planned :
    let c : PlannerClient :=
      ⟨.str "http://otp.test/graphql", .int 5, .str "1", HttpResponses.clientErrors⟩
    let q : PlanQuery := ⟨.str "AGV", .str "BHM", .str "2024-12-20", .str "09:00", .str "corr-1"⟩
    let e : Exchange := ⟨[
      .answer (.int 200) (.str "OK") (.json (.dict [("data", .dict [("stop",
        .dict [("lat", .float 51.8241), ("lon", .float (-3.0175))])])])),
      .answer (.int 200) (.str "OK") (.json (.dict [("data", .dict [("stop",
        .dict [("lat", .float 52.4778), ("lon", .float (-1.8996))])])])),
      .answer (.int 200) (.str "OK") (.json (.dict [("data", .dict [("plan",
        .dict [("itineraries", .list [.dict []])])])]))], []⟩
    c.http.Documented c.url ∧
      Staged c.http c.url (StopRead q.origin) e.replies[0]? (.ok (51.8241, -3.0175)) ∧
      Staged c.http c.url (StopRead q.destination) e.replies[1]? (.ok (52.4778, -1.8996)) ∧
      Staged c.http c.url PlanRead e.replies[2]? (.ok (.list [.dict []])) ∧
      (c.planJourney q).run e = (.ok ⟨.list [.dict []], (51.8241, -3.0175), (52.4778, -1.8996)⟩,
        e.answered [c.stopRequest q.origin q.correlation, c.stopRequest q.destination q.correlation,
          c.planRequest q (51.8241, -3.0175) (52.4778, -1.8996)]) := by
  intro c q e
  have originStage : Staged c.http c.url (StopRead q.origin) e.replies[0]? (.ok (51.8241, -3.0175)) :=
    .answered (.accepted 200 _ _ (by decide))
      (.located _ _ _ _ rfl rfl ⟨_, rfl, rfl⟩ ⟨_, rfl, rfl⟩)
  have destinationStage :
      Staged c.http c.url (StopRead q.destination) e.replies[1]? (.ok (52.4778, -1.8996)) :=
    .answered (.accepted 200 _ _ (by decide))
      (.located _ _ _ _ rfl rfl ⟨_, rfl, rfl⟩ ⟨_, rfl, rfl⟩)
  have planStage : Staged c.http c.url PlanRead e.replies[2]? (.ok (.list [.dict []])) :=
    .answered (.accepted 200 _ _ (by decide)) (.routes _ [("itineraries", .list [.dict []])] rfl rfl rfl)
  have documented := HttpResponses.clientErrors_documented c.url
  exact ⟨documented, originStage, destinationStage, planStage,
    (planJourney_outcome c q e documented originStage (fun _ _ => destinationStage)
      (fun _ _ _ _ => planStage)).2.2.1 _ _ rfl rfl⟩

/-- A delivered reply whose body is a JSON list holds no stop, yet the conversation does not
fail as not finding one: asking the list for its `errors` fails first, with an attribute
fault and no planner fault. -/
theorem planJourney_list_body_escapes :
    let c : PlannerClient :=
      ⟨.str "http://otp.test/graphql", .int 5, .str "1", HttpResponses.clientErrors⟩
    let q : PlanQuery := ⟨.str "AGV", .str "BHM", .str "2024-12-20", .str "09:00", .null⟩
    ((Value.list []).field "data").field "stop" = .null ∧
      ((c.planJourney q).run ⟨[.answer (.int 200) (.str "OK") (.json (.list []))], []⟩).1 =
        .error (Fault.noAttribute (.list []) "get") :=
  ⟨rfl, rfl⟩

end CorridorRank
