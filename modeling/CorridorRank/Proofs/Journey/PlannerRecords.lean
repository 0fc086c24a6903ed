import CorridorRank.Proofs.Planner.Conversation
import CorridorRank.Proofs.Scoring.Stages

/-!
# Reading planner itineraries

`Itinerary.ofPlanner` reads a planner itinerary record field by field, converting what it
reads as it goes. This file says, in terms of the record's own shape, which records it
accepts and with which fault it refuses the others.

A leg record is accepted (`Value.PlannerLeg`) when it is a record with a distance that is
not nothing, whose places are false or records whose `stop` is false or a record, whose
`startTime` and `endTime` are present and read as integers, whose distance reads as a double
and whose trip and route are false or records (`LegFields`). An itinerary record follows the
grammar (`PlannerGrammar`) when its `legs` is a non-empty list or tuple of accepted leg
records, its own `startTime` and `endTime`, where present, even as nothing, read as integers,
and its `duration` and `generalizedCost`, where they are not nothing, read as doubles
(`OwnFields`).

The grammar is not quite enough. A reported duration is checked against the timestamps:
the reader divides the milliseconds between start and end by a thousand, as a double. That
fails when the timestamps are integers too large for a double, which a record can only give
as texts, since integer conversion reads texts of any length. So a record is accepted
exactly when it follows the grammar and, if it reports a duration, the seconds of its span
are a double (`SpanFits`).

Main statement: `Itinerary.ofPlanner_grammar`. For every record whose conversions cannot
overflow (`Value.PlannerNumbers`), the reader returns exactly on the records above, and
otherwise fails as `ItineraryRejected` says: not a record; else `legs` true but not a list
or tuple; else no legs; else the fault of the first leg that fails, at its position
(`LegRejected`: not a record, else without a distance, checked before anything else, else a
time missing by name, else an invalid field); else an own field that does not convert; else
the overflow of the span. `Itinerary.ofPlanner_text_start_overflows` is a record of the
grammar, a one-leg itinerary starting at `10^312` milliseconds written as a text and
reporting a duration, on which the reader overflows.
-/

namespace CorridorRank

open Traversal

/-! ## Conversions -/

namespace Value

/-- A value whose conversions cannot overflow: no infinite double, and no integer beyond the
doubles. -/
structure Plain (v : Value) : Prop where
  finite : ∀ x, v = .float x → ∀ neg, Binary64.shape x ≠ .infinite neg
  fits : ∀ n, v = .int n → (Binary64.ofInt n).isSome

/-- A value that integer conversion accepts. -/
def ReadsAsInt
    (v : Value) :
    Prop := ∃ n, v.toInt = .ok n

/-- A value that conversion to a double accepts. -/
def ReadsAsFloat
    (v : Value) :
    Prop := ∃ x, v.toFloat = .ok x

end Value

/-- A conversion refusing its value: one of the wrong kind, or of the wrong form. -/
def Fault.Refused
    (fault : Fault) :
    Prop :=
  ∃ message, fault = .typeError message ∨ fault = .valueError message

namespace Value

theorem toInt_refused
    {v : Value}
    (plain : v.Plain)
    {fault : Fault}
    (failed : v.toInt = .error fault) :
    fault.Refused := by
  cases v with
  | str t =>
      simp only [toInt] at failed
      split at failed <;> cases failed <;> exact ⟨_, .inr rfl⟩
  | float x =>
      simp only [toInt, truncFloat] at failed
      split at failed
      · cases failed
        exact ⟨_, .inr rfl⟩
      · rename_i neg infinite
        exact absurd infinite (plain.finite x rfl neg)
      · cases failed
  | null | list _ | tuple _ | dict _ =>
      cases failed
      exact ⟨_, .inl rfl⟩
  | bool _ | int _ => cases failed

theorem toFloat_refused
    {v : Value}
    (plain : v.Plain)
    {fault : Fault}
    (failed : v.toFloat = .error fault) :
    fault.Refused := by
  cases v with
  | str t =>
      simp only [toFloat] at failed
      split at failed
      · cases failed
      · cases failed
        exact ⟨_, .inr rfl⟩
  | int n =>
      obtain ⟨x, fits⟩ := Option.isSome_iff_exists.mp (plain.fits n rfl)
      simp [toFloat, num?, Num.toFloat, fits] at failed
  | bool b => cases b <;> cases failed
  | float x => cases failed
  | null | list _ | tuple _ | dict _ =>
      cases failed
      exact ⟨_, .inl rfl⟩

/-- A field read with a fallback converts as the field does when present; two fallbacks
that convert alike give the same result. -/
theorem toInt_getD_congr
    (found : Option Value)
    {fallback other : Value}
    (alike : fallback.toInt = other.toInt) :
    (found.getD fallback).toInt = (found.getD other).toInt := by
  cases found <;> simp [alike]

theorem toInt_getD_returns
    {found : Option Value}
    {fallback : Value}
    {n : Int}
    (reads : ∀ v, found = some v → v.ReadsAsInt)
    (fallbackReads : fallback.toInt = .ok n) :
    ∃ m, (found.getD fallback).toInt = .ok m := by
  cases found with
  | none => exact ⟨n, fallbackReads⟩
  | some v => exact reads v rfl

theorem toInt_getD_refused
    {found : Option Value}
    {fallback : Value}
    {n : Int}
    (plain : ∀ v, found = some v → v.Plain)
    (fallbackReads : fallback.toInt = .ok n)
    {fault : Fault}
    (failed : (found.getD fallback).toInt = .error fault) :
    fault.Refused := by
  cases found with
  | none =>
      rw [Option.getD_none, fallbackReads] at failed
      cases failed
  | some v => exact toInt_refused (plain v rfl) failed

theorem optional_of_present
    {v : Value}
    {convert : Value → Except Fault Value}
    (present : v ≠ .null) :
    Itinerary.optional v convert = convert v := by
  cases v with
  | null => exact absurd rfl present
  | _ => rfl

theorem optional_asFloat_returns
    {v : Value}
    (reads : v ≠ .null → v.ReadsAsFloat) :
    ∃ w, Itinerary.optional v asFloat = .ok w ∧ (w = .null ↔ v = .null) := by
  by_cases absent : v = .null
  · subst absent
    exact ⟨.null, rfl, Iff.rfl⟩
  · obtain ⟨x, converted⟩ := reads absent
    refine ⟨.float x, ?_, by simp [absent]⟩
    rw [optional_of_present absent, asFloat, converted]
    rfl

theorem optional_asFloat_accepts
    {v w : Value}
    (run : Itinerary.optional v asFloat = .ok w) :
    (v ≠ .null → v.ReadsAsFloat) ∧ (w = .null ↔ v = .null) := by
  by_cases absent : v = .null
  · subst absent
    cases run
    exact ⟨fun present => absurd rfl present, Iff.rfl⟩
  · rw [optional_of_present absent, asFloat] at run
    cases converted : v.toFloat with
    | ok x =>
        rw [converted] at run
        cases run
        exact ⟨fun _ => ⟨x, converted⟩, by simp [absent]⟩
    | error fault =>
        rw [converted] at run
        cases run

theorem optional_asFloat_refused
    {v : Value}
    (plain : v.Plain)
    {fault : Fault}
    (failed : Itinerary.optional v asFloat = .error fault) :
    fault.Refused := by
  by_cases absent : v = .null
  · subst absent
    cases failed
  · rw [optional_of_present absent, asFloat] at failed
    cases converted : v.toFloat with
    | ok x =>
        rw [converted] at failed
        cases failed
    | error refused =>
        rw [converted] at failed
        cases failed
        exact toFloat_refused plain converted

/-- Integers divide by a nonzero integer to a double, or overflow. -/
theorem intQuotient_fault
    {a b : Int}
    (nonzero : b ≠ 0)
    {fault : Fault}
    (failed : intQuotient a b = .error fault) :
    fault = .overflowError "integer division result too large for a float" := by
  unfold intQuotient at failed
  rw [if_neg (by simpa using nonzero)] at failed
  split at failed
  · cases failed
  · cases failed
    rfl

end Value

/-! ## Places -/

namespace Value

/-- A planner place the reader accepts: false or a record, whose `stop` is false or a
record. -/
def PlaceShape
    (v : Value) :
    Prop := v.RecordOrFalse ∧ (v.field "stop").RecordOrFalse

theorem get_of_not_recordOrFalse
    {v : Value}
    (bad : ¬ v.RecordOrFalse)
    (key : String) :
    v.orEmpty.get key = .error (Fault.noAttribute v "get") := by
  have truthy : v.truthy = true := by
    by_contra falsy
    exact bad (Or.inl (by simpa using falsy))
  rw [orEmpty, if_pos truthy]
  cases v with
  | dict fields => exact absurd (Or.inr ⟨fields, rfl⟩) bad
  | _ => rfl

theorem recordOrFalse_of_get
    {v w : Value}
    {key : String}
    (found : v.orEmpty.get key = .ok w) :
    v.RecordOrFalse := by
  by_contra bad
  rw [get_of_not_recordOrFalse bad] at found
  cases found

/-- Asking a value read loosely for a field fails only as a missing attribute. -/
theorem get_fault
    {v : Value}
    {key : String}
    {fault : Fault}
    (failed : v.orEmpty.get key = .error fault) :
    ∃ message, fault = .attributeError message := by
  by_cases record : v.RecordOrFalse
  · rw [get_of_recordOrFalse record] at failed
    cases failed
  · rw [get_of_not_recordOrFalse record] at failed
    cases failed
    exact ⟨_, rfl⟩

end Value

namespace Place

theorem ofPlanner_of_shape
    {v : Value}
    (shape : v.PlaceShape) :
    Place.ofPlanner v =
      .ok ⟨(v.field "name").orElse (.str "Unknown"), (v.field "stop").field "gtfsId"⟩ := by
  simp only [Place.ofPlanner, Value.get_of_recordOrFalse shape.1,
    Value.get_of_recordOrFalse shape.2, ok_bind]
  rfl

theorem ofPlanner_of_not_shape
    {v : Value}
    (bad : ¬ v.PlaceShape) :
    ∃ message, Place.ofPlanner v = .error (.attributeError message) := by
  by_cases record : v.RecordOrFalse
  · have badStop : ¬ (v.field "stop").RecordOrFalse := fun stop => bad ⟨record, stop⟩
    simp only [Place.ofPlanner, Value.get_of_recordOrFalse record,
      Value.get_of_not_recordOrFalse badStop, ok_bind]
    exact ⟨_, rfl⟩
  · simp only [Place.ofPlanner, Value.get_of_not_recordOrFalse record]
    exact ⟨_, rfl⟩

theorem shape_of_ofPlanner
    {v : Value}
    {place : Place}
    (found : Place.ofPlanner v = .ok place) :
    v.PlaceShape := by
  by_contra bad
  obtain ⟨_, failed⟩ := ofPlanner_of_not_shape bad
  rw [failed] at found
  cases found

theorem ofPlanner_fault
    {v : Value}
    {fault : Fault}
    (failed : Place.ofPlanner v = .error fault) :
    ∃ message, fault = .attributeError message := by
  by_cases shape : v.PlaceShape
  · rw [ofPlanner_of_shape shape] at failed
    cases failed
  · obtain ⟨message, refused⟩ := ofPlanner_of_not_shape shape
    rw [refused] at failed
    cases failed
    exact ⟨message, rfl⟩

end Place

/-! ## Legs -/

/-- The fields of a planner leg record that the reader accepts, in the order it reads them:
two places, a start and an end time that are present and read as integers, a distance that
reads as a double, and a trip and a route that are false or records. -/
structure LegFields (fields : List (Text × Value)) : Prop where
  origin : ((Value.dict fields).field "from").PlaceShape
  destination : ((Value.dict fields).field "to").PlaceShape
  start : ∃ time, Value.field? fields "startTime" = some time ∧ time.ReadsAsInt
  stop : ∃ time, Value.field? fields "endTime" = some time ∧ time.ReadsAsInt
  distance : ((Value.dict fields).field "distance").ReadsAsFloat
  trip : ((Value.dict fields).field "trip").RecordOrFalse
  route : ((Value.dict fields).field "route").RecordOrFalse

/-- A planner leg record that the reader accepts: a record with a distance that is not
nothing, and fields as `LegFields` says. -/
def Value.PlannerLeg
    (v : Value) :
    Prop :=
  ∃ fields, v = .dict fields ∧ (Value.dict fields).field "distance" ≠ .null ∧ LegFields fields

/-- The times and distance of a planner leg record cannot overflow when converted. -/
def Value.LegNumbers
    (v : Value) :
    Prop :=
  ∀ key ∈ ["startTime", "endTime", "distance"], (v.field key).Plain

namespace Leg

/-- The faults met reading a leg's fields: a start or end time that is missing, a place,
trip or route that is not a record, or a value that a conversion refuses. -/
def FieldFault
    (fields : List (Text × Value))
    (fault : Fault) :
    Prop :=
  (∃ key : String, (key = "startTime" ∨ key = "endTime") ∧ Value.field? fields key = none ∧
      fault = .keyError (.str key)) ∨
    (∃ message, fault = .attributeError message) ∨ fault.Refused

/-- A leg read from a planner record starts and ends at the record's `startTime` and
`endTime`, read as integers. -/
def TimesOf
    (leg : Leg)
    (raw : Value) :
    Prop :=
  ∃ start stop, (raw.field "startTime").toInt = .ok start ∧
    (raw.field "endTime").toInt = .ok stop ∧ leg.startTime = .int start ∧ leg.endTime = .int stop

theorem require_of_present
    {fields : List (Text × Value)}
    {key : String}
    {v : Value}
    (present : Value.field? fields key = some v) :
    require fields key = .ok v := by
  simp [require, present]

theorem field_of_require
    {fields : List (Text × Value)}
    {key : String}
    {v : Value}
    (found : require fields key = .ok v) :
    Value.field? fields key = some v ∧ (Value.dict fields).field key = v := by
  unfold require at found
  split at found
  · next present =>
    cases found
    exact ⟨present, by simp [Value.field, present]⟩
  · cases found

theorem require_fault
    {fields : List (Text × Value)}
    {key : String}
    {fault : Fault}
    (failed : require fields key = .error fault) :
    Value.field? fields key = none ∧ fault = .keyError (.str key) := by
  unfold require at failed
  split at failed
  · cases failed
  · cases failed
    exact ⟨by assumption, rfl⟩

theorem readFields_returns
    {fields : List (Text × Value)}
    (shape : LegFields fields) :
    ∃ leg, readFields fields ((Value.dict fields).field "distance") = .ok leg := by
  obtain ⟨start, startPresent, n, startRead⟩ := shape.start
  obtain ⟨stop, stopPresent, m, stopRead⟩ := shape.stop
  obtain ⟨metres, distanceRead⟩ := shape.distance
  simp only [readFields, Value.get_dict, ok_bind, Place.ofPlanner_of_shape shape.origin,
    Place.ofPlanner_of_shape shape.destination, require_of_present startPresent, startRead,
    require_of_present stopPresent, stopRead, distanceRead,
    Value.get_of_recordOrFalse shape.trip, Value.get_of_recordOrFalse shape.route]
  exact ⟨_, rfl⟩

/-- A leg whose fields read follows `LegFields`, and carries the record's times. -/
theorem readFields_accepts
    {fields : List (Text × Value)}
    {leg : Leg}
    (run : readFields fields ((Value.dict fields).field "distance") = .ok leg) :
    LegFields fields ∧ leg.TimesOf (.dict fields) := by
  simp only [readFields, Value.get_dict, ok_bind] at run
  obtain ⟨_, originRead, run⟩ := bind_eq_ok.mp run
  obtain ⟨_, destinationRead, run⟩ := bind_eq_ok.mp run
  obtain ⟨start, startPresent, run⟩ := bind_eq_ok.mp run
  obtain ⟨n, startRead, run⟩ := bind_eq_ok.mp run
  obtain ⟨stop, stopPresent, run⟩ := bind_eq_ok.mp run
  obtain ⟨m, stopRead, run⟩ := bind_eq_ok.mp run
  obtain ⟨_, distanceRead, run⟩ := bind_eq_ok.mp run
  obtain ⟨_, tripRead, run⟩ := bind_eq_ok.mp run
  obtain ⟨_, routeRead, run⟩ := bind_eq_ok.mp run
  cases pure_eq_ok.mp run
  obtain ⟨startPresent, startIs⟩ := field_of_require startPresent
  obtain ⟨stopPresent, stopIs⟩ := field_of_require stopPresent
  refine ⟨{ origin := Place.shape_of_ofPlanner originRead
            destination := Place.shape_of_ofPlanner destinationRead
            start := ⟨start, startPresent, _, startRead⟩
            stop := ⟨stop, stopPresent, _, stopRead⟩
            distance := ⟨_, distanceRead⟩
            trip := Value.recordOrFalse_of_get tripRead
            route := Value.recordOrFalse_of_get routeRead }, n, m, ?_, ?_, rfl, rfl⟩
  · rw [startIs, startRead]
  · rw [stopIs, stopRead]

/-- Reading a leg's fields fails only with a `FieldFault`, once its times and distance
cannot overflow. The fields are read in order; each read either fails with its own fault or
hands on to the next. -/
theorem readFields_fault
    {fields : List (Text × Value)}
    (plain : (Value.dict fields).LegNumbers)
    {fault : Fault}
    (failed : readFields fields ((Value.dict fields).field "distance") = .error fault) :
    FieldFault fields fault := by
  simp only [readFields, Value.get_dict, ok_bind] at failed
  rcases bind_eq_error.mp failed with failed | ⟨_, -, failed⟩
  · exact .inr (.inl (Place.ofPlanner_fault failed))
  rcases bind_eq_error.mp failed with failed | ⟨_, -, failed⟩
  · exact .inr (.inl (Place.ofPlanner_fault failed))
  rcases bind_eq_error.mp failed with failed | ⟨start, startPresent, failed⟩
  · obtain ⟨absent, rfl⟩ := require_fault failed
    exact .inl ⟨"startTime", .inl rfl, absent, rfl⟩
  rcases bind_eq_error.mp failed with failed | ⟨_, -, failed⟩
  · have startPlain := (field_of_require startPresent).2 ▸ plain "startTime" (by simp)
    exact .inr (.inr (Value.toInt_refused startPlain failed))
  rcases bind_eq_error.mp failed with failed | ⟨stop, stopPresent, failed⟩
  · obtain ⟨absent, rfl⟩ := require_fault failed
    exact .inl ⟨"endTime", .inr rfl, absent, rfl⟩
  rcases bind_eq_error.mp failed with failed | ⟨_, -, failed⟩
  · have stopPlain := (field_of_require stopPresent).2 ▸ plain "endTime" (by simp)
    exact .inr (.inr (Value.toInt_refused stopPlain failed))
  rcases bind_eq_error.mp failed with failed | ⟨_, -, failed⟩
  · exact .inr (.inr (Value.toFloat_refused (plain "distance" (by simp)) failed))
  rcases bind_eq_error.mp failed with failed | ⟨_, -, failed⟩
  · exact .inr (.inl (Value.get_fault failed))
  rcases bind_eq_error.mp failed with failed | ⟨_, -, failed⟩
  · exact .inr (.inl (Value.get_fault failed))
  · exact absurd failed pure_ne_error

/-- A leg record without a distance fails as such, before any other field is read. -/
theorem ofPlanner_of_no_distance
    {fields : List (Text × Value)}
    (index : Option Value)
    (absent : (Value.dict fields).field "distance" = .null) :
    Leg.ofPlanner (.dict fields) index = .error (.scoring (.legWithoutDistance index)) := by
  simp only [Leg.ofPlanner]
  split
  · rfl
  · rename_i notNull
    exact absurd absent notNull

/-- A leg record with a distance reads as its fields do, a failure reported for the leg. -/
theorem ofPlanner_of_distance
    {fields : List (Text × Value)}
    (index : Option Value)
    (present : (Value.dict fields).field "distance" ≠ .null) :
    Leg.ofPlanner (.dict fields) index =
      (readFields fields ((Value.dict fields).field "distance")).mapError (fieldFault index) := by
  simp only [Leg.ofPlanner]
  split
  · rename_i absent
    exact absurd absent present
  · simp only [Value.field]
    cases readFields fields ((Value.field? fields "distance").getD .null) <;> rfl

theorem ofPlanner_accepts
    {v : Value}
    {index : Option Value}
    {leg : Leg}
    (run : Leg.ofPlanner v index = .ok leg) :
    v.PlannerLeg ∧ leg.TimesOf v := by
  cases v with
  | dict fields =>
      have present : (Value.dict fields).field "distance" ≠ .null := by
        intro absent
        rw [ofPlanner_of_no_distance index absent] at run
        cases run
      rw [ofPlanner_of_distance index present] at run
      cases read : readFields fields ((Value.dict fields).field "distance") with
      | ok read' =>
          rw [read] at run
          cases run
          obtain ⟨shape, times⟩ := readFields_accepts read
          exact ⟨⟨fields, rfl, present, shape⟩, times⟩
      | error fault =>
          rw [read] at run
          cases run
  | _ => cases run

theorem ofPlanner_returns_iff
    (v : Value)
    (index : Option Value) :
    (∃ leg, Leg.ofPlanner v index = .ok leg) ↔ v.PlannerLeg := by
  constructor
  · rintro ⟨leg, run⟩
    exact (ofPlanner_accepts run).1
  · rintro ⟨fields, rfl, present, shape⟩
    obtain ⟨leg, read⟩ := readFields_returns shape
    exact ⟨leg, by rw [ofPlanner_of_distance index present, read]; rfl⟩

end Leg

/-- How the reader rejects a planner leg record at position `index`: not a record; else
without a distance; else a start or end time missing, reported by its name; else a field
that breaks `LegFields`, reported as invalid. -/
inductive LegRejected (index : Nat) : Value → Fault → Prop
  | notRecord {v : Value} (notRecord : ∀ fields, v ≠ .dict fields) :
      LegRejected index v (.scoring (.legNotRecord (some (.int index))))
  | withoutDistance {fields : List (Text × Value)}
      (absent : (Value.dict fields).field "distance" = .null) :
      LegRejected index (.dict fields) (.scoring (.legWithoutDistance (some (.int index))))
  | missing {fields : List (Text × Value)} (key : String)
      (present : (Value.dict fields).field "distance" ≠ .null)
      (time : key = "startTime" ∨ key = "endTime") (absent : Value.field? fields key = none) :
      LegRejected index (.dict fields) (.scoring (.legFieldMissing (some (.int index)) key))
  | invalid {fields : List (Text × Value)} (message : Text)
      (present : (Value.dict fields).field "distance" ≠ .null) (bad : ¬ LegFields fields) :
      LegRejected index (.dict fields) (.scoring (.legFieldInvalid (some (.int index)) message))

/-- A planner leg record the reader fails on is rejected as `LegRejected` says. -/
theorem Leg.ofPlanner_rejected
    {v : Value}
    (index : Nat)
    (plain : v.LegNumbers)
    {fault : Fault}
    (failed : Leg.ofPlanner v (some (.int index)) = .error fault) :
    LegRejected index v fault := by
  cases v with
  | dict fields =>
      by_cases absent : (Value.dict fields).field "distance" = .null
      · rw [Leg.ofPlanner_of_no_distance _ absent] at failed
        cases failed
        exact .withoutDistance absent
      rw [Leg.ofPlanner_of_distance _ absent] at failed
      cases read : Leg.readFields fields ((Value.dict fields).field "distance") with
      | ok leg =>
          rw [read] at failed
          cases failed
      | error readFault =>
          rw [read] at failed
          have bad : ¬ LegFields fields := fun shape => by
            obtain ⟨_, returns⟩ := Leg.readFields_returns shape
            rw [returns] at read
            cases read
          rcases Leg.readFields_fault plain read with
            ⟨key, time, missing, rfl⟩ | ⟨message, rfl⟩ | ⟨message, rfl | rfl⟩
          · cases failed
            exact .missing key absent time missing
          all_goals
            cases failed
            exact .invalid message absent bad
  | _ =>
      cases failed
      exact .notRecord fun _ same => by cases same

/-! ## Traversals with positions -/

namespace Traversal

variable {α β ε : Type}

/-- A traversal over items paired with their positions, each of whose results is related to
its item whatever the position, relates the items to the results one by one. -/
theorem mapM_zipIdx_forall₂
    (task : Nat → α → Except ε β)
    {related : α → β → Prop}
    (each : ∀ position item result, task position item = .ok result → related item result)
    (items : List α)
    (start : Nat)
    {results : List β}
    (run : (items.zipIdx start).mapM (fun (item, position) => task position item) =
      .ok results) :
    List.Forall₂ related items results := by
  induction items generalizing start results with
  | nil =>
      cases pure_eq_ok.mp run
      exact .nil
  | cons head rest ih =>
      rw [List.zipIdx_cons, List.mapM_cons] at run
      obtain ⟨first, headOk, run⟩ := bind_eq_ok.mp run
      obtain ⟨others, restOk, run⟩ := bind_eq_ok.mp run
      cases pure_eq_ok.mp run
      exact .cons (each _ _ _ headOk) (ih (start + 1) restOk)

/-- A traversal over items paired with their positions fails with the fault of its first
failing item, at that item's position. -/
theorem mapM_zipIdx_eq_error
    (task : Nat → α → Except ε β)
    (items : List α)
    (start : Nat)
    {fault : ε}
    (failed : (items.zipIdx start).mapM (fun (item, position) => task position item) =
      .error fault) :
    ∃ before item after, items = before ++ item :: after ∧
      (∀ earlier ∈ before, ∃ position result, task position earlier = .ok result) ∧
      task (start + before.length) item = .error fault := by
  induction items generalizing start with
  | nil => exact absurd failed pure_ne_error
  | cons head rest ih =>
      rw [List.zipIdx_cons, List.mapM_cons, bind_eq_error] at failed
      rcases failed with headFails | ⟨value, headOk, restFails⟩
      · exact ⟨[], head, rest, rfl, by simp, by simpa using headFails⟩
      · have tailFails :
            (rest.zipIdx (start + 1)).mapM (fun (item, position) => task position item) =
              .error fault := by
          rcases bind_eq_error.mp restFails with failed | ⟨_, _, impossible⟩
          · exact failed
          · exact absurd impossible pure_ne_error
        obtain ⟨before, item, after, split, earlierOk, itemFails⟩ := ih (start + 1) tailFails
        refine ⟨head :: before, item, after, by simp [split], ?_, ?_⟩
        · intro earlier member
          rcases List.mem_cons.mp member with rfl | member
          · exact ⟨start, value, headOk⟩
          · exact earlierOk earlier member
        · rwa [List.length_cons, show start + (before.length + 1) = start + 1 + before.length by
            omega]

end Traversal

/-- Related lists have related first items. -/
theorem forall₂_head?_related
    {α β : Type}
    {related : α → β → Prop}
    {xs : List α}
    {ys : List β}
    (both : List.Forall₂ related xs ys)
    {y : β}
    (found : ys.head? = some y) :
    ∃ x, xs.head? = some x ∧ related x y := by
  cases both with
  | nil => cases found
  | cons firstRelated _ =>
      cases found
      exact ⟨_, rfl, firstRelated⟩

/-- Related lists have related last items. -/
theorem forall₂_getLast?_related
    {α β : Type}
    {related : α → β → Prop}
    {xs : List α}
    {ys : List β}
    (both : List.Forall₂ related xs ys)
    {y : β}
    (found : ys.getLast? = some y) :
    ∃ x, xs.getLast? = some x ∧ related x y := by
  rw [List.getLast?_eq_head?_reverse] at found ⊢
  exact forall₂_head?_related (List.forall₂_reverse_iff.mpr both) found

/-! ## Itineraries -/

/-- The legs a planner itinerary record lists: its `legs`, a list or a tuple. -/
def ListsLegs
    (fields : List (Text × Value))
    (legs : List Value) :
    Prop :=
  (Value.dict fields).field "legs" = .list legs ∨ (Value.dict fields).field "legs" = .tuple legs

/-- The own fields of a planner itinerary record that the reader accepts: a `startTime` and
an `endTime` that read as integers where present, even as nothing, and a `duration` and a
`generalizedCost` that read as doubles where they are not nothing. -/
structure OwnFields (fields : List (Text × Value)) : Prop where
  start : ∀ time, Value.field? fields "startTime" = some time → time.ReadsAsInt
  stop : ∀ time, Value.field? fields "endTime" = some time → time.ReadsAsInt
  duration : (Value.dict fields).field "duration" ≠ .null →
    ((Value.dict fields).field "duration").ReadsAsFloat
  cost : (Value.dict fields).field "generalizedCost" ≠ .null →
    ((Value.dict fields).field "generalizedCost").ReadsAsFloat

/-- The grammar of planner itinerary records: legs listed as a non-empty list or tuple of
accepted leg records, and own fields as `OwnFields` says. -/
structure PlannerGrammar (fields : List (Text × Value)) (legs : List Value) : Prop where
  listed : ListsLegs fields legs
  nonempty : legs ≠ []
  eachLeg : ∀ leg ∈ legs, leg.PlannerLeg
  own : OwnFields fields

/-- The start and end, in milliseconds, that a planner itinerary record gives: its own
`startTime` and `endTime` where present, else its first leg's start and its last leg's
end, read as integers. -/
def PlannerSpan
    (fields : List (Text × Value))
    (legs : List Value)
    (start stop : Int) :
    Prop :=
  ((Value.field? fields "startTime").getD ((legs.head?.getD .null).field "startTime")).toInt =
      .ok start ∧
    ((Value.field? fields "endTime").getD ((legs.getLast?.getD .null).field "endTime")).toInt =
      .ok stop

/-- The seconds between the start and the end of a planner itinerary record round to a
double. -/
def SpanFits
    (fields : List (Text × Value))
    (legs : List Value) :
    Prop :=
  ∀ start stop, PlannerSpan fields legs start stop →
    ∃ seconds, Value.intQuotient (stop - start) 1000 = .ok seconds

/-- The conversions of a planner itinerary record cannot overflow: neither those of its own
times, duration and cost nor those of its legs' times and distances. -/
structure Value.PlannerNumbers (d : Value) : Prop where
  own : ∀ key ∈ ["startTime", "endTime", "duration", "generalizedCost"], (d.field key).Plain
  legs : ∀ legs, (d.field "legs" = .list legs ∨ d.field "legs" = .tuple legs) →
    ∀ leg ∈ legs, leg.LegNumbers

/-- How the reader rejects a planner itinerary record, in the order it checks: not a record;
else `legs` true but not a list or tuple; else `legs` false, so no legs; else the first leg
that fails, as `LegRejected` says at its position; else an own field that does not convert;
else a reported duration whose span overflows a double. -/
inductive ItineraryRejected : Value → Fault → Prop
  | notRecord {d : Value} (notRecord : ∀ fields, d ≠ .dict fields) :
      ItineraryRejected d (.scoring .itineraryNotRecord)
  | legsNotList {fields : List (Text × Value)}
      (truthy : ((Value.dict fields).field "legs").truthy = true)
      (notListed : ∀ legs, ¬ ListsLegs fields legs) :
      ItineraryRejected (.dict fields) (.scoring .legsNotList)
  | noLegs {fields : List (Text × Value)}
      (falsy : ((Value.dict fields).field "legs").truthy = false) :
      ItineraryRejected (.dict fields) (.scoring .noLegs)
  | leg {fields : List (Text × Value)} {before after : List Value} {leg : Value} {fault : Fault}
      (listed : ListsLegs fields (before ++ leg :: after))
      (accepted : ∀ earlier ∈ before, earlier.PlannerLeg)
      (rejected : LegRejected before.length leg fault) :
      ItineraryRejected (.dict fields) fault
  | ownField {fields : List (Text × Value)} {legs : List Value} (message : Text)
      (listed : ListsLegs fields legs) (nonempty : legs ≠ [])
      (accepted : ∀ leg ∈ legs, leg.PlannerLeg) (bad : ¬ OwnFields fields) :
      ItineraryRejected (.dict fields) (.scoring (.itineraryFieldInvalid message))
  | span {fields : List (Text × Value)} {legs : List Value} (grammar : PlannerGrammar fields legs)
      (reported : (Value.dict fields).field "duration" ≠ .null)
      (beyond : ¬ SpanFits fields legs) :
      ItineraryRejected (.dict fields) (.overflowError "integer division result too large for a float")

namespace Itinerary

variable {fields : List (Text × Value)} {xs : List Value} {legs : List Leg} {first last : Leg}
  {it : Itinerary}

/-! ### The stages of the reader -/

/-- The `legs` of a record is false, or true but no list or tuple, or a non-empty list or
tuple. -/
theorem legs_cases
    (fields : List (Text × Value)) :
    ((Value.dict fields).field "legs").truthy = false ∨
      (((Value.dict fields).field "legs").truthy = true ∧ ∀ xs, ¬ ListsLegs fields xs) ∨
      ∃ xs, ListsLegs fields xs ∧ xs ≠ [] := by
  by_cases truthy : ((Value.dict fields).field "legs").truthy = true
  · by_cases listed : ∃ xs, ListsLegs fields xs
    · obtain ⟨xs, listed⟩ := listed
      refine .inr (.inr ⟨xs, listed, ?_⟩)
      rintro rfl
      rcases listed with empty | empty <;> simp [empty, Value.truthy] at truthy
    · exact .inr (.inl ⟨truthy, not_exists.mp listed⟩)
  · exact .inl (by simpa using truthy)

/-- The legs value of a record listing legs is read as they are. -/
theorem legsValue_of_listed
    (listed : ListsLegs fields xs)
    (nonempty : xs ≠ []) :
    ((Value.field? fields "legs").getD .null).orElse (.list []) = .list xs ∨
      ((Value.field? fields "legs").getD .null).orElse (.list []) = .tuple xs := by
  rcases listed with listed | listed <;> rw [Value.orElse_truthy] <;>
    simp_all [Value.field, Value.truthy]

theorem ofPlanner_of_not_record
    {d : Value}
    (notRecord : ∀ fields, d ≠ .dict fields) :
    ofPlanner d = .error (.scoring .itineraryNotRecord) := by
  cases d with
  | dict fields => exact absurd rfl (notRecord fields)
  | _ => rfl

/-- A record whose `legs` is false has no legs, whatever it is. -/
theorem ofPlanner_of_no_legs
    (falsy : ((Value.dict fields).field "legs").truthy = false) :
    ofPlanner (.dict fields) = .error (.scoring .noLegs) := by
  have raw : ((Value.field? fields "legs").getD .null).orElse (.list []) = .list [] :=
    Value.orElse_falsy _ falsy
  simp only [ofPlanner, raw]
  rfl

theorem ofPlanner_of_not_listed
    (truthy : ((Value.dict fields).field "legs").truthy = true)
    (notListed : ∀ xs, ¬ ListsLegs fields xs) :
    ofPlanner (.dict fields) = .error (.scoring .legsNotList) := by
  have raw : ((Value.field? fields "legs").getD .null).orElse (.list []) =
      (Value.dict fields).field "legs" :=
    Value.orElse_truthy _ truthy
  simp only [ofPlanner, raw]
  split
  · next xs listed => exact absurd (.inl listed) (notListed xs)
  · next xs listed => exact absurd (.inr listed) (notListed xs)
  · rfl

theorem ofPlanner_of_readLegs_fault
    (listed : ListsLegs fields xs)
    (nonempty : xs ≠ [])
    {fault : Fault}
    (failed : readLegs xs = .error fault) :
    ofPlanner (.dict fields) = .error fault := by
  rcases legsValue_of_listed listed nonempty with raw | raw <;>
    simp only [ofPlanner, raw, pure_bind, failed] <;> rfl

section ReadLegs

variable (listed : ListsLegs fields xs) (nonempty : xs ≠ []) (read : readLegs xs = .ok legs)
  (firstIs : legs.head? = some first) (lastIs : legs.getLast? = some last)
include listed nonempty read firstIs lastIs

theorem ofPlanner_of_own_fault
    {fault : Fault}
    (failed : readOwnFields fields legs first last = .error fault) :
    ofPlanner (.dict fields) = .error (fieldFault fault) := by
  rcases legsValue_of_listed listed nonempty with raw | raw <;>
    simp only [ofPlanner, raw, pure_bind, read, ok_bind, firstIs, lastIs, failed] <;> rfl

theorem ofPlanner_of_span_fault
    {start stop : Int}
    {fault : Fault}
    (own : readOwnFields fields legs first last = .ok it)
    (times : it.startTime = .int start ∧ it.endTime = .int stop)
    (reported : it.durationSeconds ≠ .null)
    (beyond : Value.intQuotient (stop - start) 1000 = .error fault) :
    ofPlanner (.dict fields) = .error fault := by
  rcases legsValue_of_listed listed nonempty with raw | raw <;>
    simp only [ofPlanner, raw, pure_bind, read, ok_bind, firstIs, lastIs, own, times,
      Value.sub_int, Value.div_int, beyond] <;> rfl

/-- A record whose own fields read, with integer timestamps, reads as that itinerary when it reports
no duration or when the span of its timestamps divides into seconds: the check runs only for a
reported duration. -/
theorem ofPlanner_of_checked
    {start stop : Int}
    (own : readOwnFields fields legs first last = .ok it)
    (times : it.startTime = .int start ∧ it.endTime = .int stop)
    (checked : it.durationSeconds = .null ∨
      ∃ seconds, Value.intQuotient (stop - start) 1000 = .ok seconds) :
    ofPlanner (.dict fields) = .ok it := by
  rcases legsValue_of_listed listed nonempty with raw | raw <;>
    simp only [ofPlanner, raw, pure_bind, read, ok_bind, firstIs, lastIs, own, times,
      Value.sub_int, Value.div_int]
  all_goals
    split
    · rfl
    · next reported =>
      rcases checked with unreported | ⟨seconds, fits⟩
      · exact absurd unreported reported
      · rw [fits]
        rfl

end ReadLegs

/-! ### Reading the legs -/

theorem readLegs_accepts
    (read : readLegs xs = .ok legs) :
    List.Forall₂ (fun raw leg => raw.PlannerLeg ∧ leg.TimesOf raw) xs legs :=
  mapM_zipIdx_forall₂ (fun position raw => Leg.ofPlanner raw (some (.int position)))
    (fun _ _ _ run => Leg.ofPlanner_accepts run) xs 0 read

theorem readLegs_returns_iff
    (xs : List Value) :
    (∃ legs, readLegs xs = .ok legs) ↔ ∀ raw ∈ xs, raw.PlannerLeg := by
  constructor
  · rintro ⟨legs, read⟩
    exact ((List.forall₂_and_left xs legs).mp (readLegs_accepts read)).1
  · intro accepted
    refine mapM_returns fun (raw, position) member => ?_
    exact (Leg.ofPlanner_returns_iff raw _).mpr (accepted raw (List.fst_mem_of_mem_zipIdx member))

/-- Reading the legs fails with the fault of the first leg that fails, at its position. -/
theorem readLegs_fault
    (plain : ∀ raw ∈ xs, raw.LegNumbers)
    {fault : Fault}
    (failed : readLegs xs = .error fault) :
    ∃ before leg after, xs = before ++ leg :: after ∧ (∀ earlier ∈ before, earlier.PlannerLeg) ∧
      LegRejected before.length leg fault := by
  obtain ⟨before, leg, after, rfl, earlierOk, legFails⟩ := mapM_zipIdx_eq_error (fun position raw => Leg.ofPlanner raw (some (.int position))) xs 0 failed
  refine ⟨before, leg, after, rfl, fun earlier member => ?_, ?_⟩
  · obtain ⟨position, result, returns⟩ := earlierOk earlier member
    exact (Leg.ofPlanner_returns_iff earlier _).mp ⟨result, returns⟩
  · rw [Nat.zero_add] at legFails
    exact Leg.ofPlanner_rejected _ (plain leg (by simp)) legFails

/-- The legs read from a non-empty list have a first and a last, read from the first and the
last record. -/
theorem readLegs_ends
    (read : readLegs xs = .ok legs)
    (nonempty : xs ≠ []) :
    ∃ x y first last, xs.head? = some x ∧ xs.getLast? = some y ∧ legs.head? = some first ∧
      legs.getLast? = some last ∧ first.TimesOf x ∧ last.TimesOf y := by
  have both := readLegs_accepts read
  have legsNonempty : legs ≠ [] := fun empty => nonempty (by
    simpa [empty] using both.length_eq)
  obtain ⟨first, firstIs⟩ := List.isSome_head?.mpr legsNonempty |> Option.isSome_iff_exists.mp
  obtain ⟨last, lastIs⟩ := List.getLast?_isSome.mpr legsNonempty |> Option.isSome_iff_exists.mp
  obtain ⟨x, xIs, -, firstTimes⟩ := forall₂_head?_related both firstIs
  obtain ⟨y, yIs, -, lastTimes⟩ := forall₂_getLast?_related both lastIs
  exact ⟨x, y, first, last, xIs, yIs, firstIs, lastIs, firstTimes, lastTimes⟩

/-! ### Reading the own fields -/

theorem readOwnFields_returns
    (own : OwnFields fields)
    {x y : Value}
    (firstTimes : first.TimesOf x)
    (lastTimes : last.TimesOf y) :
    ∃ it, readOwnFields fields legs first last = .ok it := by
  obtain ⟨a, -, -, -, firstStart, -⟩ := firstTimes
  obtain ⟨-, b, -, -, -, lastEnd⟩ := lastTimes
  have firstReads : first.startTime.toInt = .ok a := by rw [firstStart]; rfl
  have lastReads : last.endTime.toInt = .ok b := by rw [lastEnd]; rfl
  obtain ⟨s, startRead⟩ := Value.toInt_getD_returns own.start firstReads
  obtain ⟨t, stopRead⟩ := Value.toInt_getD_returns own.stop lastReads
  obtain ⟨duration, durationRead, -⟩ := Value.optional_asFloat_returns own.duration
  obtain ⟨cost, costRead, -⟩ := Value.optional_asFloat_returns own.cost
  simp only [Value.field] at durationRead costRead
  simp only [readOwnFields, startRead, stopRead, durationRead, costRead, ok_bind]
  exact ⟨_, rfl⟩

/-- Own fields that read follow `OwnFields`; the itinerary holds the times read and reports
a duration exactly when the record does. -/
theorem readOwnFields_accepts
    (run : readOwnFields fields legs first last = .ok it) :
    OwnFields fields ∧
      (∃ start stop, ((Value.field? fields "startTime").getD first.startTime).toInt = .ok start ∧
        ((Value.field? fields "endTime").getD last.endTime).toInt = .ok stop ∧
        it.startTime = .int start ∧ it.endTime = .int stop) ∧
      (it.durationSeconds = .null ↔ (Value.dict fields).field "duration" = .null) := by
  unfold readOwnFields at run
  obtain ⟨start, startRead, run⟩ := bind_eq_ok.mp run
  obtain ⟨stop, stopRead, run⟩ := bind_eq_ok.mp run
  obtain ⟨duration, durationRead, run⟩ := bind_eq_ok.mp run
  obtain ⟨cost, costRead, run⟩ := bind_eq_ok.mp run
  cases pure_eq_ok.mp run
  have durationAccepted := Value.optional_asFloat_accepts durationRead
  have costAccepted := Value.optional_asFloat_accepts costRead
  refine ⟨{ start := ?_, stop := ?_, duration := durationAccepted.1, cost := costAccepted.1 },
    ⟨start, stop, startRead, stopRead, rfl, rfl⟩, durationAccepted.2⟩
  · rintro time present
    rw [present, Option.getD_some] at startRead
    exact ⟨start, startRead⟩
  · rintro time present
    rw [present, Option.getD_some] at stopRead
    exact ⟨stop, stopRead⟩

/-- Reading the own fields fails only with a conversion refusing a value, once those cannot
overflow. -/
theorem readOwnFields_fault
    (plain : ∀ key ∈ ["startTime", "endTime", "duration", "generalizedCost"],
      ((Value.dict fields).field key).Plain)
    {x y : Value}
    (firstTimes : first.TimesOf x)
    (lastTimes : last.TimesOf y)
    {fault : Fault}
    (failed : readOwnFields fields legs first last = .error fault) :
    fault.Refused := by
  obtain ⟨a, -, -, -, firstStart, -⟩ := firstTimes
  obtain ⟨-, b, -, -, -, lastEnd⟩ := lastTimes
  have present : ∀ key ∈ ["startTime", "endTime", "duration", "generalizedCost"],
      ∀ v, Value.field? fields key = some v → v.Plain := by
    intro key member v found
    simpa [Value.field, found] using plain key member
  unfold readOwnFields at failed
  rcases bind_eq_error.mp failed with failed | ⟨_, -, failed⟩
  · exact Value.toInt_getD_refused (present "startTime" (by simp)) (by rw [firstStart]; rfl) failed
  rcases bind_eq_error.mp failed with failed | ⟨_, -, failed⟩
  · exact Value.toInt_getD_refused (present "endTime" (by simp)) (by rw [lastEnd]; rfl) failed
  rcases bind_eq_error.mp failed with failed | ⟨_, -, failed⟩
  · exact Value.optional_asFloat_refused (plain "duration" (by simp)) failed
  rcases bind_eq_error.mp failed with failed | ⟨_, -, failed⟩
  · exact Value.optional_asFloat_refused (plain "generalizedCost" (by simp)) failed
  · exact absurd failed pure_ne_error

/-! ### The span -/

/-- The span a record gives is the one the reader takes, its first and last leg standing in
for absent times. -/
theorem plannerSpan_iff
    {x y : Value}
    (xIs : xs.head? = some x)
    (yIs : xs.getLast? = some y)
    (firstTimes : first.TimesOf x)
    (lastTimes : last.TimesOf y)
    {start stop : Int} :
    PlannerSpan fields xs start stop ↔
      ((Value.field? fields "startTime").getD first.startTime).toInt = .ok start ∧
        ((Value.field? fields "endTime").getD last.endTime).toInt = .ok stop := by
  obtain ⟨a, -, aRead, -, firstStart, -⟩ := firstTimes
  obtain ⟨-, b, -, bRead, -, lastEnd⟩ := lastTimes
  have startAlike := Value.toInt_getD_congr (Value.field? fields "startTime")
    (show ((xs.head?.getD .null).field "startTime").toInt = first.startTime.toInt by
      rw [xIs, Option.getD_some, aRead, firstStart]; rfl)
  have stopAlike := Value.toInt_getD_congr (Value.field? fields "endTime")
    (show ((xs.getLast?.getD .null).field "endTime").toInt = last.endTime.toInt by
      rw [yIs, Option.getD_some, bRead, lastEnd]; rfl)
  rw [PlannerSpan, startAlike, stopAlike]

/-- The span of a record fits exactly when the quotient of the ends the reader takes divides into
seconds: the span is read once, from those ends. -/
theorem spanFits_iff
    {x y : Value}
    (xIs : xs.head? = some x)
    (yIs : xs.getLast? = some y)
    (firstTimes : first.TimesOf x)
    (lastTimes : last.TimesOf y)
    {start stop : Int}
    (startRead : ((Value.field? fields "startTime").getD first.startTime).toInt = .ok start)
    (stopRead : ((Value.field? fields "endTime").getD last.endTime).toInt = .ok stop) :
    SpanFits fields xs ↔ ∃ seconds, Value.intQuotient (stop - start) 1000 = .ok seconds := by
  constructor
  · intro fits
    exact fits start stop ((plannerSpan_iff xIs yIs firstTimes lastTimes).mpr ⟨startRead, stopRead⟩)
  · rintro quotient start' stop' span
    obtain ⟨startRead', stopRead'⟩ := (plannerSpan_iff xIs yIs firstTimes lastTimes).mp span
    rw [startRead] at startRead'
    rw [stopRead] at stopRead'
    cases startRead'
    cases stopRead'
    exact quotient

/-! ### What the reader accepts and rejects -/

/-- The reader returns exactly on records of the grammar whose span, when they report a
duration, is a double. -/
theorem ofPlanner_returns_iff
    (d : Value) :
    (∃ it, ofPlanner d = .ok it) ↔
      ∃ fields legs, d = .dict fields ∧ PlannerGrammar fields legs ∧
        ((Value.dict fields).field "duration" ≠ .null → SpanFits fields legs) := by
  constructor
  · rintro ⟨it, run⟩
    cases d with
    | dict fields =>
        rcases legs_cases fields with falsy | ⟨truthy, notListed⟩ | ⟨xs, listed, nonempty⟩
        · rw [ofPlanner_of_no_legs falsy] at run
          cases run
        · rw [ofPlanner_of_not_listed truthy notListed] at run
          cases run
        cases read : readLegs xs with
        | error fault =>
            rw [ofPlanner_of_readLegs_fault listed nonempty read] at run
            cases run
        | ok legs =>
            obtain ⟨x, y, first, last, xIs, yIs, firstIs, lastIs, firstTimes, lastTimes⟩ :=
              readLegs_ends read nonempty
            cases own : readOwnFields fields legs first last with
            | error fault =>
                rw [ofPlanner_of_own_fault listed nonempty read firstIs lastIs own] at run
                cases run
            | ok read' =>
                obtain ⟨ownFields, ⟨start, stop, startRead, stopRead, times⟩, unreported⟩ :=
                  readOwnFields_accepts own
                refine ⟨fields, xs, rfl,
                  ⟨listed, nonempty, (readLegs_returns_iff xs).mp ⟨legs, read⟩, ownFields⟩,
                  fun reported => ?_⟩
                refine (spanFits_iff xIs yIs firstTimes lastTimes startRead stopRead).mpr ?_
                cases fits : Value.intQuotient (stop - start) 1000 with
                | ok seconds => exact ⟨seconds, rfl⟩
                | error fault =>
                    rw [ofPlanner_of_span_fault listed nonempty read firstIs lastIs own times
                      (fun unreported' => reported (unreported.mp unreported')) fits] at run
                    cases run
    | _ =>
        rw [ofPlanner_of_not_record fun _ same => by cases same] at run
        cases run
  · rintro ⟨fields, xs, rfl, grammar, spanFits⟩
    obtain ⟨legs, read⟩ := (readLegs_returns_iff xs).mpr grammar.eachLeg
    obtain ⟨x, y, first, last, xIs, yIs, firstIs, lastIs, firstTimes, lastTimes⟩ :=
      readLegs_ends read grammar.nonempty
    obtain ⟨it, own⟩ := readOwnFields_returns grammar.own firstTimes lastTimes
    obtain ⟨-, ⟨start, stop, startRead, stopRead, times⟩, unreported⟩ := readOwnFields_accepts own
    refine ⟨it, ofPlanner_of_checked grammar.listed grammar.nonempty read firstIs lastIs own
      times ?_⟩
    by_cases reported : (Value.dict fields).field "duration" = .null
    · exact .inl (unreported.mpr reported)
    · exact .inr ((spanFits_iff xIs yIs firstTimes lastTimes startRead stopRead).mp
        (spanFits reported))

/-- A record the reader fails on, whose conversions cannot overflow, is rejected as
`ItineraryRejected` says. -/
theorem ofPlanner_rejected
    {d : Value}
    (numbers : d.PlannerNumbers)
    {fault : Fault}
    (failed : ofPlanner d = .error fault) :
    ItineraryRejected d fault := by
  cases d with
  | dict fields =>
      rcases legs_cases fields with falsy | ⟨truthy, notListed⟩ | ⟨xs, listed, nonempty⟩
      · rw [ofPlanner_of_no_legs falsy] at failed
        cases failed
        exact .noLegs falsy
      · rw [ofPlanner_of_not_listed truthy notListed] at failed
        cases failed
        exact .legsNotList truthy notListed
      cases read : readLegs xs with
      | error legFault =>
          rw [ofPlanner_of_readLegs_fault listed nonempty read] at failed
          cases failed
          obtain ⟨before, leg, after, rfl, accepted, rejected⟩ :=
            readLegs_fault (numbers.legs _ listed) read
          exact .leg listed accepted rejected
      | ok legs =>
          obtain ⟨x, y, first, last, xIs, yIs, firstIs, lastIs, firstTimes, lastTimes⟩ :=
            readLegs_ends read nonempty
          have eachLeg := (readLegs_returns_iff xs).mp ⟨legs, read⟩
          cases own : readOwnFields fields legs first last with
          | error ownFault =>
              rw [ofPlanner_of_own_fault listed nonempty read firstIs lastIs own] at failed
              cases failed
              have bad : ¬ OwnFields fields := fun ownFields => by
                obtain ⟨_, returns⟩ := readOwnFields_returns ownFields firstTimes lastTimes
                rw [returns] at own
                cases own
              obtain ⟨message, rfl | rfl⟩ := readOwnFields_fault numbers.own firstTimes lastTimes own
              all_goals exact .ownField message listed nonempty eachLeg bad
          | ok it =>
              obtain ⟨ownFields, ⟨start, stop, startRead, stopRead, times⟩, unreported⟩ :=
                readOwnFields_accepts own
              have grammar : PlannerGrammar fields xs := ⟨listed, nonempty, eachLeg, ownFields⟩
              by_cases reported : (Value.dict fields).field "duration" = .null
              · rw [ofPlanner_of_checked listed nonempty read firstIs lastIs own times
                  (.inl (unreported.mpr reported))] at failed
                cases failed
              cases fits : Value.intQuotient (stop - start) 1000 with
              | ok seconds =>
                  rw [ofPlanner_of_checked listed nonempty read firstIs lastIs own times
                    (.inr ⟨seconds, fits⟩)] at failed
                  cases failed
              | error spanFault =>
                  rw [ofPlanner_of_span_fault listed nonempty read firstIs lastIs own times
                    (fun unreported' => reported (unreported.mp unreported')) fits] at failed
                  cases failed
                  rw [Value.intQuotient_fault (by decide) fits]
                  refine .span grammar reported fun spanFits => ?_
                  obtain ⟨_, quotient⟩ :=
                    (spanFits_iff xIs yIs firstTimes lastTimes startRead stopRead).mp spanFits
                  rw [quotient] at fits
                  cases fits
  | _ =>
      rw [ofPlanner_of_not_record fun _ same => by cases same] at failed
      cases failed
      exact .notRecord fun _ same => by cases same

/-- On a record of the grammar reporting a duration, the reader fails exactly as the
division of its span does. -/
theorem ofPlanner_of_span_overflow
    {xs : List Value}
    (grammar : PlannerGrammar fields xs)
    (reported : (Value.dict fields).field "duration" ≠ .null)
    {start stop : Int}
    (span : PlannerSpan fields xs start stop)
    {fault : Fault}
    (beyond : Value.intQuotient (stop - start) 1000 = .error fault) :
    ofPlanner (.dict fields) = .error fault := by
  obtain ⟨legs, read⟩ := (readLegs_returns_iff xs).mpr grammar.eachLeg
  obtain ⟨x, y, first, last, xIs, yIs, firstIs, lastIs, firstTimes, lastTimes⟩ :=
    readLegs_ends read grammar.nonempty
  obtain ⟨it, own⟩ := readOwnFields_returns grammar.own firstTimes lastTimes
  obtain ⟨-, ⟨start', stop', startRead, stopRead, times⟩, unreported⟩ := readOwnFields_accepts own
  obtain ⟨startRead', stopRead'⟩ := (plannerSpan_iff xIs yIs firstTimes lastTimes).mp span
  rw [startRead] at startRead'
  rw [stopRead] at stopRead'
  cases startRead'
  cases stopRead'
  exact ofPlanner_of_span_fault grammar.listed grammar.nonempty read firstIs lastIs own times
    (fun unreported' => reported (unreported.mp unreported')) beyond

/-- The reader returns exactly on records of the grammar whose span, when they report a
duration, is a double; on every other record whose conversions cannot overflow it fails as
`ItineraryRejected` says. -/
theorem ofPlanner_grammar
    (d : Value)
    (numbers : d.PlannerNumbers) :
    ((∃ it, ofPlanner d = .ok it) ↔
      ∃ fields legs, d = .dict fields ∧ PlannerGrammar fields legs ∧
        ((Value.dict fields).field "duration" ≠ .null → SpanFits fields legs)) ∧
    ∀ fault, ofPlanner d = .error fault → ItineraryRejected d fault :=
  ⟨ofPlanner_returns_iff d, fun _ failed => ofPlanner_rejected numbers failed⟩

/-- A one-leg planner itinerary record: a leg of one metre from `start` to 0 milliseconds,
with places, trip and route left out, reporting a duration of 0 seconds. -/
def oneLegFields
    (start : Value) :
    List (Text × Value) :=
  [("legs", .list [.dict [("distance", .int 1), ("startTime", start), ("endTime", .int 0)]]),
    ("duration", .int 0)]

theorem plain_null : Value.null.Plain := ⟨nofun, nofun⟩

theorem plain_str
    (t : Text) :
    (Value.str t).Plain := ⟨nofun, nofun⟩

theorem plain_int
    {n : Int}
    (fits : (Binary64.ofInt n).isSome) :
    (Value.int n).Plain :=
  ⟨nofun, fun _ same => by cases same; exact fits⟩

/-- The conversions of a one-leg record starting at a text cannot overflow. -/
theorem oneLegFields_numbers
    (start : Text) :
    (Value.dict (oneLegFields (.str start))).PlannerNumbers := by
  refine ⟨fun key member => ?_, fun legs listed leg member => ?_⟩
  · simp only [List.mem_cons, List.not_mem_nil, or_false] at member
    rcases member with rfl | rfl | rfl | rfl
    · exact plain_null
    · exact plain_null
    · exact plain_int (by decide)
    · exact plain_null
  · rcases listed with listed | listed <;> cases listed
    rw [List.mem_singleton] at member
    subst member
    intro key member
    simp only [List.mem_cons, List.not_mem_nil, or_false] at member
    rcases member with rfl | rfl | rfl
    · exact plain_str start
    · exact plain_int (by decide)
    · exact plain_int (by decide)

/-- A one-leg record starting at a text that reads as an integer follows the grammar. -/
theorem oneLegFields_grammar
    {start : Text}
    (reads : (Value.str start).ReadsAsInt) :
    PlannerGrammar (oneLegFields (.str start))
      [.dict [("distance", .int 1), ("startTime", .str start), ("endTime", .int 0)]] := by
  refine ⟨.inl rfl, List.cons_ne_nil _ _, fun leg member => ?_, ?_⟩
  · rw [List.mem_singleton] at member
    subst member
    refine ⟨_, rfl, nofun, ?_⟩
    exact { origin := ⟨.inl rfl, .inl rfl⟩
            destination := ⟨.inl rfl, .inl rfl⟩
            start := ⟨_, rfl, reads⟩
            stop := ⟨_, rfl, _, rfl⟩
            distance := ⟨_, rfl⟩
            trip := .inl rfl
            route := .inl rfl }
  · exact { start := fun _ absent => by cases absent
            stop := fun _ absent => by cases absent
            duration := fun _ => ⟨_, rfl⟩
            cost := fun present => absurd rfl present }

/-- The text of `10^312`. -/
def hugeText : Text := ⟨49 :: List.replicate 312 48⟩

theorem hugeText_toInt : (Value.str hugeText).toInt = .ok (Int.pow 10 312) := by
  have read : ((Value.str hugeText).toInt).toOption = some (Int.pow 10 312) := by decide +kernel
  cases converted : (Value.str hugeText).toInt with
  | ok n =>
      rw [converted] at read
      cases read
      rfl
  | error fault =>
      rw [converted] at read
      cases read

/-- The record starting at the text of `10^312` milliseconds fails to read: the seconds of its span
are beyond the largest double. -/
theorem ofPlanner_huge_text_start :
    ofPlanner (.dict (oneLegFields (.str hugeText))) =
      .error (.overflowError "integer division result too large for a float") := by
  have span : PlannerSpan (oneLegFields (.str hugeText))
      [.dict [("distance", .int 1), ("startTime", .str hugeText), ("endTime", .int 0)]]
      (Int.pow 10 312) 0 :=
    ⟨hugeText_toInt, rfl⟩
  exact ofPlanner_of_span_overflow (oneLegFields_grammar ⟨_, hugeText_toInt⟩) nofun span
    (Value.intQuotient_overflow (by decide) (by decide +kernel))

/-- The grammar at a record the reader overflows on: the record starting at the text of
`10^312` milliseconds is rejected for its span. -/
theorem ofPlanner_huge_text_start_rejected :
    (Value.dict (oneLegFields (.str hugeText))).PlannerNumbers ∧
      ItineraryRejected (.dict (oneLegFields (.str hugeText)))
        (.overflowError "integer division result too large for a float") :=
  ⟨oneLegFields_numbers hugeText,
    (ofPlanner_grammar _ (oneLegFields_numbers hugeText)).2 _ ofPlanner_huge_text_start⟩

/-- A record of the grammar whose conversions cannot overflow, on which the reader still
fails: one leg starting at the text of `10^312` milliseconds, and a reported duration. -/
theorem ofPlanner_text_start_overflows :
    PlannerGrammar (oneLegFields (.str hugeText))
        [.dict [("distance", .int 1), ("startTime", .str hugeText), ("endTime", .int 0)]] ∧
      (Value.dict (oneLegFields (.str hugeText))).PlannerNumbers ∧
      ofPlanner (.dict (oneLegFields (.str hugeText))) =
        .error (.overflowError "integer division result too large for a float") :=
  ⟨oneLegFields_grammar ⟨_, hugeText_toInt⟩, oneLegFields_numbers hugeText,
    ofPlanner_huge_text_start⟩

end Itinerary

end CorridorRank
