import CorridorRank.Value.Text

/-!
# Why a computation stops

`ScoringFault` lists the reasons one itinerary cannot be scored; each knows its kind, the
leg it concerns, its error class and its message. A batch records these per itinerary
instead of stopping. `Fault` is every reason a computation of the library stops: a scoring
fault, a value of the wrong kind or out of range, a missing field, an arithmetic overflow, a
clock out of range, or a failed exchange with the planner. Each constructor is one error
class; `Fault.className` and `Fault.message` give the texts an answer carries.
-/

namespace CorridorRank

/-- Reasons an itinerary cannot be scored. `leg` is the position of the leg concerned; a
planner leg read on its own may have been given any position value, or none. -/
inductive ScoringFault where
  /-- The endpoint is not a pair of numbers; `shown` is its literal. -/
  | malformedCoordinates (shown : String)
  | latitudeOutOfRange (lat : Float)
  | longitudeOutOfRange (lon : Float)
  /-- A planner leg has no distance. -/
  | legWithoutDistance (leg : Option Value)
  /-- A leg reached the aggregation without a distance. -/
  | distanceMissing (leg : Nat)
  /-- A planner itinerary has no legs. -/
  | noLegs
  /-- The aggregation was given no legs. -/
  | nothingToAggregate
  /-- Leg `leg` ends before it starts. -/
  | legReversed (leg : Nat)
  /-- Leg `leg` ends after leg `leg + 1` starts; the fault concerns leg `leg + 1`. -/
  | legsOverlap (leg : Nat)
  | legNotRecord (leg : Option Value)
  | legFieldMissing (leg : Option Value) (name : Text)
  /-- A leg field could not be converted; `detail` says why. -/
  | legFieldInvalid (leg : Option Value) (detail : Text)
  | itineraryNotRecord
  | legsNotList
  | itineraryFieldInvalid (detail : Text)
  deriving Inhabited

namespace ScoringFault

/-- The kind of a scoring fault, as failures report it. -/
def kind : ScoringFault → String
  | .malformedCoordinates _ | .latitudeOutOfRange _ | .longitudeOutOfRange _ => "invalid_coordinate"
  | .legWithoutDistance _ | .distanceMissing _ => "missing_distance"
  | .noLegs | .nothingToAggregate => "empty_itinerary"
  | .legReversed _ | .legsOverlap _ => "invalid_ordering"
  | _ => "malformed_itinerary"

/-- The error class of a scoring fault. -/
def className : ScoringFault → String
  | .malformedCoordinates _ | .latitudeOutOfRange _ | .longitudeOutOfRange _ =>
    "InvalidCoordinateError"
  | .legWithoutDistance _ | .distanceMissing _ => "MissingDistanceError"
  | .noLegs | .nothingToAggregate => "EmptyItineraryError"
  | .legReversed _ | .legsOverlap _ => "InvalidItineraryOrderingError"
  | _ => "MalformedItineraryError"

/-- Whether the fault's class records a leg position (possibly unknown). -/
def recordsLeg : ScoringFault → Bool
  | .malformedCoordinates _ | .latitudeOutOfRange _ | .longitudeOutOfRange _ => false
  | .noLegs | .nothingToAggregate => false
  | _ => true

/-- The leg position a fault records, if known. -/
def legIndex? : ScoringFault → Option Value
  | .legWithoutDistance leg | .legNotRecord leg | .legFieldMissing leg _
  | .legFieldInvalid leg _ => leg
  | .distanceMissing i | .legReversed i => some (.int i)
  | .legsOverlap i => some (.int (i + 1))
  | _ => none

/-- ` (leg i)` when the position is known, nothing otherwise. -/
def legPlace : Option Value → Text
  | some i => " (leg " ++ i.display ++ ")"
  | none => Text.empty

/-- The message of a scoring fault. -/
def message : ScoringFault → Text
  | .malformedCoordinates shown => "Malformed coordinates: " ++ shown
  | .latitudeOutOfRange x => "Latitude out of range [-90, 90]: " ++ Value.floatText x
  | .longitudeOutOfRange x => "Longitude out of range [-180, 180]: " ++ Value.floatText x
  | .legWithoutDistance leg => "Leg" ++ legPlace leg ++ " has no distance value"
  | .distanceMissing i => "Leg " ++ Value.intText i ++ " has no distance value"
  | .noLegs => "Itinerary has no legs"
  | .nothingToAggregate => "Cannot aggregate an itinerary with no legs"
  | .legReversed i => "Leg " ++ Value.intText i ++ " ends before it starts"
  | .legsOverlap i =>
    "Leg " ++ Value.intText i ++ " ends after leg " ++ Value.intText (i + 1) ++ " starts"
  | .legNotRecord leg => "Leg" ++ legPlace leg ++ " is not an object"
  | .legFieldMissing leg name => "Leg" ++ legPlace leg ++ " is missing " ++ Text.quote name
  | .legFieldInvalid leg detail => "Leg" ++ legPlace leg ++ " has an invalid value: " ++ detail
  | .itineraryNotRecord => "Itinerary is not an object"
  | .legsNotList => "Itinerary legs is not a list"
  | .itineraryFieldInvalid detail => "Itinerary has an invalid value: " ++ detail

end ScoringFault

/-- The classes of planner failure. -/
inductive PlannerFailure where
  | general
  | timeout
  | noRoutes
  deriving Inhabited, DecidableEq

/-- Every reason a computation of the library stops, by error class. -/
inductive Fault where
  | scoring (cause : ScoringFault)
  | valueError (message : Text)
  | typeError (message : Text)
  | attributeError (message : Text)
  /-- A missing key; the message is the key's literal. -/
  | keyError (key : Value)
  | indexError (message : Text)
  | overflowError (message : Text)
  /-- A result too large to hold. -/
  | memoryError
  | osError (message : Text)
  | zeroDivision (message : Text)
  | planner (failure : PlannerFailure) (message : Text)
  | httpError (message : Text)
  | jsonDecode (message : Text)
  /-- Reading nested too deep. -/
  | recursionError (message : Text)
  /-- A text that cannot be encoded as UTF-8. -/
  | unicodeEncode (message : Text)
  deriving Inhabited

namespace Fault

/-- The error class of a fault. -/
def className : Fault → String
  | .scoring cause => cause.className
  | .valueError _ => "ValueError"
  | .typeError _ => "TypeError"
  | .attributeError _ => "AttributeError"
  | .keyError _ => "KeyError"
  | .indexError _ => "IndexError"
  | .overflowError _ => "OverflowError"
  | .memoryError => "MemoryError"
  | .osError _ => "OSError"
  | .zeroDivision _ => "ZeroDivisionError"
  | .planner .general _ => "OTPError"
  | .planner .timeout _ => "OTPTimeoutError"
  | .planner .noRoutes _ => "NoRoutesFoundError"
  | .httpError _ => "HTTPError"
  | .jsonDecode _ => "JSONDecodeError"
  | .recursionError _ => "RecursionError"
  | .unicodeEncode _ => "UnicodeEncodeError"

/-- The message of a fault. -/
def message : Fault → Text
  | .scoring cause => cause.message
  | .keyError key => key.literal
  | .memoryError => Text.empty
  | .valueError m | .typeError m | .attributeError m | .indexError m | .overflowError m
  | .osError m | .zeroDivision m | .planner _ m | .httpError m | .jsonDecode m
  | .recursionError m | .unicodeEncode m => m

/-- A value of kind `v` has no method or field `name`. -/
def noAttribute
    (v : Value)
    (name : String) :
    Fault :=
  .attributeError ("'" ++ v.typeName ++ "' object has no attribute '" ++ name ++ "'")

/-- An operator that does not apply to values of these two kinds. -/
def unsupported
    (symbol : String)
    (a b : Value) :
    Fault :=
  .typeError ("unsupported operand type(s) for " ++ symbol ++ ": '" ++ a.typeName ++ "' and '" ++
    b.typeName ++ "'")

/-- An order comparison between values of two kinds that have none. -/
def notComparable
    (symbol : String)
    (a b : Value) :
    Fault :=
  .typeError ("'" ++ symbol ++ "' not supported between instances of '" ++ a.typeName ++
    "' and '" ++ b.typeName ++ "'")

/-- An integer too large for a double. -/
def intTooLarge : Fault := .overflowError "int too large to convert to float"

end Fault

/-- A text as a UTF-8 string, or the fault of its first run of lone surrogates (one
character, or a range of positions). -/
def Text.encode
    (t : Text) :
    Except Fault String :=
  match t.encodeFailure? with
  | none => .ok (t.withStand ' ')
  | some (i, 1, n) =>
    .error (.unicodeEncode ("'utf-8' codec can't encode character '" ++
      String.ofList (Text.backslash :: 'u' :: Text.hexDigits 4 n) ++ "' in position " ++
      toString i ++ ": surrogates not allowed"))
  | some (i, k, _) =>
    .error (.unicodeEncode ("'utf-8' codec can't encode characters in position " ++
      toString i ++ "-" ++ toString (i + k - 1) ++ ": surrogates not allowed"))

end CorridorRank
