import CorridorRank.Journey.Itinerary

/-!
# Corridor keys

A corridor key names the line an itinerary takes: its interchange stations (the
destinations of all legs but the last) and its route identifiers in order, a missing or
empty identifier counting as `Unknown`:

  `Hereford:TFW-1,WMT-2`, or `Direct:GW-EXPRESS` for at most one leg.

Route identifiers are joined before the interchange names, so a bad identifier is reported
first; joining anything but texts fails naming the first bad item.
-/

namespace CorridorRank

/-- Joins texts with a separator; an item that is no text fails with its position. -/
def joinTexts
    (sep : Text)
    (items : List Value) :
    Except Fault Text := do
  let texts ← items.zipIdx.mapM fun (v, i) =>
    match v with
    | .str t => pure t
    | other => throw (.typeError ("sequence item " ++ Value.intText i ++
        ": expected str instance, " ++ other.typeName ++ " found"))
  pure (Text.join sep texts)

namespace Itinerary

/-- The corridor key of an itinerary. -/
def corridorKey
    (it : Itinerary) :
    Except Fault Text := do
  let routes ← joinTexts "," (it.legs.map fun leg => leg.routeId.orElse (.str "Unknown"))
  if it.legs.length ≤ 1 then pure ("Direct:" ++ routes)
  else
    let stations ← joinTexts "," (it.legs.dropLast.map (·.destination.name))
    pure (stations ++ ":" ++ routes)

end Itinerary

end CorridorRank
