import Mathlib
import CorridorRank.Scoring.Corridor
import CorridorRank.Proofs.Traversal

/-!
# Corridor keys tell corridors apart

A corridor key writes an itinerary's interchange names joined by commas (`Direct` for at most
one leg), a colon, and its route labels joined by commas, a missing or empty route id labelled
`Unknown`. When no interchange name holds a comma or a colon and no route id holds a comma
(`Itinerary.KeyReadable`), the key can be read back: the first colon ends the interchanges,
and cutting at the commas gives the items of each part back (`Text.splitOn_join`). Route
labels are never empty, so the second part also tells how many legs there are.

So two such itineraries have the same key exactly when they have as many legs, the same
interchange names and the same route labels (`Itinerary.corridorKey_eq_iff`). In particular a
one-leg itinerary never shares its key with a longer one whose interchange is named `Direct`.
-/

namespace CorridorRank

open Traversal

namespace Text

/-- The code points of joined texts: the separator's points between each two. -/
theorem points_join
    (sep : Text)
    (ts : List Text) :
    (join sep ts).points = sep.points.intercalate (ts.map points) := by
  induction ts with
  | nil => rfl
  | cons t rest ih =>
      cases rest with
      | nil => simp [join]
      | cons u rest => simp [join, List.intercalate_cons_cons, ih]

theorem points_injective : Function.Injective Text.points := by
  intro a b same
  cases a
  cases b
  cases same
  rfl

/-- Cutting joined texts at a separator none of them holds gives them back; no texts at all
read back as one empty piece. -/
theorem splitOn_join
    {sep : Nat}
    {ts : List Text}
    (free : ∀ t ∈ ts, sep ∉ t.points) :
    (join ⟨[sep]⟩ ts).points.splitOn sep = if ts = [] then [[]] else ts.map points := by
  rw [points_join]
  split
  next none =>
    subst none
    rfl
  next some =>
    exact List.splitOn_intercalate sep (by simpa using free) (by simpa using some)

theorem points_colon
    (a b : Text) :
    (a ++ ":" ++ b).points = a.points ++ ':'.toNat :: b.points := by
  rw [points_append, points_append]
  show a.points ++ [':'.toNat] ++ b.points = _
  simp

/-- Joined texts, one at least, none of which holds the separator, are told apart by their
join. -/
theorem join_inj_of_ne_nil
    {sep : Nat}
    {ts us : List Text}
    (someT : ts ≠ [])
    (someU : us ≠ [])
    (freeT : ∀ t ∈ ts, sep ∉ t.points)
    (freeU : ∀ u ∈ us, sep ∉ u.points)
    (same : join ⟨[sep]⟩ ts = join ⟨[sep]⟩ us) :
    ts = us := by
  have read := congrArg (fun t => t.points.splitOn sep) same
  simp only [splitOn_join freeT, splitOn_join freeU, someT, someU, if_false] at read
  exact (List.map_injective_iff.mpr points_injective) read

/-- Joined nonempty texts none of which holds the separator are told apart by their join: no
texts at all join to the empty text, which no nonempty text does. The join of some nonempty texts
starts with the first of them, so it is not empty. -/
theorem join_inj
    {sep : Nat}
    {ts us : List Text}
    (freeT : ∀ t ∈ ts, t.points ≠ [] ∧ sep ∉ t.points)
    (freeU : ∀ u ∈ us, u.points ≠ [] ∧ sep ∉ u.points)
    (same : join ⟨[sep]⟩ ts = join ⟨[sep]⟩ us) :
    ts = us := by
  have filled : ∀ vs : List Text, (∀ v ∈ vs, v.points ≠ [] ∧ sep ∉ v.points) → vs ≠ [] →
      (join ⟨[sep]⟩ vs).points ≠ [] := by
    intro vs free nonempty empty
    have read := congrArg (List.splitOn sep) empty
    rw [splitOn_join (fun v member => (free v member).2), if_neg nonempty] at read
    obtain ⟨v, rest, rfl⟩ := List.exists_cons_of_ne_nil nonempty
    simp only [List.map_cons, List.splitOn_nil, List.cons.injEq] at read
    exact (free v List.mem_cons_self).1 read.1
  by_cases noneT : ts = [] <;> by_cases noneU : us = []
  · rw [noneT, noneU]
  · exact absurd (congrArg points same).symm (by rw [noneT]; exact filled us freeU noneU)
  · exact absurd (congrArg points same) (by rw [noneU]; exact filled ts freeT noneT)
  · exact join_inj_of_ne_nil noneT noneU (fun t member => (freeT t member).2)
      (fun u member => (freeU u member).2) same

/-- A code point that is neither in the separator nor in any of the texts is not in their
join. -/
theorem not_mem_join
    {c : Nat}
    {sep : Text}
    {ts : List Text}
    (notSep : c ∉ sep.points)
    (free : ∀ t ∈ ts, c ∉ t.points) :
    c ∉ (join sep ts).points := by
  induction ts with
  | nil => simp [join, empty]
  | cons t rest ih =>
      cases rest with
      | nil => simpa [join] using free t List.mem_cons_self
      | cons u rest =>
          have restFree := ih fun v member => free v (List.mem_cons_of_mem _ member)
          simp only [join, points_append, List.mem_append, not_or]
          exact ⟨⟨free t List.mem_cons_self, notSep⟩, restFree⟩

end Text

/-- Joining texts given as values returns their join. Each item is read as the text it holds,
whatever its position. -/
theorem joinTexts_str
    (sep : Text)
    (ts : List Text) :
    joinTexts sep (ts.map .str) = .ok (Text.join sep ts) := by
  have parts : ∀ (task : Value × Nat → Except Fault Text), (∀ t i, task (.str t, i) = .ok t) →
      ∀ (k : Nat) (us : List Text), ((us.map Value.str).zipIdx k).mapM task = .ok us := by
    intro task reads k us
    induction us generalizing k with
    | nil => rfl
    | cons u us ih =>
        simp only [List.map_cons, List.zipIdx_cons, List.mapM_cons, reads, ih]
        rfl
  unfold joinTexts
  rw [parts _ (fun t i => rfl) 0 ts]
  rfl

/-- Of two lists that each run up to their first `c`, equal wholes have equal parts before and
after it. -/
theorem append_cons_inj
    {c : Nat}
    {a b a' b' : List Nat}
    (freeA : c ∉ a)
    (freeA' : c ∉ a')
    (same : a ++ c :: b = a' ++ c :: b') :
    a = a' ∧ b = b' := by
  rcases List.append_eq_append_iff.mp same with ⟨between, longer, rest⟩ | ⟨between, longer, rest⟩
  · cases between with
    | nil => simp_all
    | cons x between =>
        obtain ⟨rfl, -⟩ := List.cons.inj rest
        exact absurd (longer ▸ by simp) freeA'
  · cases between with
    | nil => simp_all
    | cons x between =>
        obtain ⟨rfl, -⟩ := List.cons.inj rest
        exact absurd (longer ▸ by simp) freeA

/-- Values that are each a text with a property are the values of a list of such texts. -/
theorem exists_texts
    {β : Type}
    {xs : List β}
    {f : β → Value}
    {P : Text → Prop}
    (each : ∀ x ∈ xs, ∃ t, f x = .str t ∧ P t) :
    ∃ ts : List Text, xs.map f = ts.map .str ∧ ∀ t ∈ ts, P t := by
  induction xs with
  | nil => exact ⟨[], rfl, by simp⟩
  | cons x xs ih =>
      obtain ⟨t, image, holds⟩ := each x List.mem_cons_self
      obtain ⟨ts, images, hold⟩ := ih fun y member => each y (List.mem_cons_of_mem _ member)
      exact ⟨t :: ts, by simp [image, images], List.forall_mem_cons.mpr ⟨holds, hold⟩⟩

namespace Itinerary

/-- The names of an itinerary's interchanges: the destinations of all legs but the last. -/
def interchanges
    (it : Itinerary) :
    List Value := it.legs.dropLast.map (·.destination.name)

/-- The route labels of an itinerary's legs, a missing or empty route id labelled
`Unknown`. -/
def routeLabels
    (it : Itinerary) :
    List Value :=
  it.legs.map (·.routeId.orElse (.str "Unknown"))

/-- An itinerary whose corridor key can be read back: every interchange is named by a text
with neither a comma nor a colon, and every route id is missing or a text with no comma. -/
structure KeyReadable (it : Itinerary) : Prop where
  names : ∀ leg ∈ it.legs.dropLast, ∃ t, leg.destination.name = .str t ∧
    ','.toNat ∉ t.points ∧ ':'.toNat ∉ t.points
  routes : ∀ leg ∈ it.legs, leg.routeId = .null ∨
    ∃ t, leg.routeId = .str t ∧ ','.toNat ∉ t.points

/-- The corridor key is made of the number of legs, the interchanges and the route labels. -/
theorem corridorKey_eq
    (it : Itinerary) :
    it.corridorKey = (do
      let routes ← joinTexts "," it.routeLabels
      if it.legs.length ≤ 1 then pure ("Direct:" ++ routes)
      else
        let stations ← joinTexts "," it.interchanges
        pure (stations ++ ":" ++ routes)) :=
  rfl

namespace KeyReadable

variable {it : Itinerary}

/-- The route labels are texts, none empty and none holding a comma. An empty id is labelled
`Unknown` too. -/
theorem labelTexts
    (readable : it.KeyReadable) :
    ∃ labels : List Text, it.routeLabels = labels.map .str ∧
      ∀ l ∈ labels, l.points ≠ [] ∧ ','.toNat ∉ l.points := by
  refine exists_texts fun leg member => ?_
  unfold Value.orElse
  rcases readable.routes leg member with missing | ⟨t, text, free⟩
  · rw [missing]
    exact ⟨"Unknown", rfl, by decide, by decide⟩
  · rw [text]
    cases empty : t.isEmpty
    · refine ⟨t, by simp [empty], ?_, free⟩
      simpa [Text.isEmpty] using empty
    · exact ⟨"Unknown", by simp [empty], by decide, by decide⟩

/-- The interchanges are texts holding neither a comma nor a colon. -/
theorem nameTexts
    (readable : it.KeyReadable) :
    ∃ names : List Text, it.interchanges = names.map .str ∧
      ∀ n ∈ names, ','.toNat ∉ n.points ∧ ':'.toNat ∉ n.points :=
  exists_texts readable.names

/-- The key of an itinerary whose interchanges and route labels are texts: `Direct` or its
interchanges, then a colon, then its route labels. The part before the colon holds no colon
when no interchange name does. -/
theorem key_points
    {names labels : List Text}
    (namesEq : it.interchanges = names.map .str)
    (labelsEq : it.routeLabels = labels.map .str)
    (namesFree : ∀ n ∈ names, ':'.toNat ∉ n.points) :
    ∃ front : List Nat,
      it.corridorKey = .ok ⟨front ++ ':'.toNat :: (Text.join "," labels).points⟩ ∧
      ':'.toNat ∉ front ∧
      (it.legs.length ≤ 1 → front = ("Direct" : Text).points) ∧
      (1 < it.legs.length → front = (Text.join "," names).points) := by
  have routes : joinTexts "," it.routeLabels = .ok (Text.join "," labels) := by
    rw [labelsEq, joinTexts_str]
  by_cases short : it.legs.length ≤ 1
  · refine ⟨("Direct" : Text).points, ?_, by decide, fun _ => rfl, fun long => absurd long (by omega)⟩
    rw [corridorKey_eq, routes, ok_bind, if_pos short]
    rfl
  · refine ⟨(Text.join "," names).points, ?_, Text.not_mem_join (by decide) namesFree,
      fun atMostOne => absurd atMostOne short, fun _ => rfl⟩
    rw [corridorKey_eq, routes, ok_bind, if_neg short, namesEq, joinTexts_str, ok_bind]
    exact congrArg Except.ok (Text.points_injective (Text.points_colon _ _))

end KeyReadable

/-- An itinerary of at most one leg has no interchanges. -/
theorem interchanges_eq_nil
    {it : Itinerary}
    (short : it.legs.length ≤ 1) :
    it.interchanges = [] :=
  List.eq_nil_of_length_eq_zero (by simp [interchanges]; omega)

/-- An itinerary of more than one leg changes somewhere. -/
theorem interchanges_ne_nil
    {it : Itinerary}
    (long : 1 < it.legs.length) :
    it.interchanges ≠ [] := by
  intro empty
  have counted := congrArg List.length empty
  simp [interchanges] at counted
  omega

/-- Corridor keys tell readable itineraries apart: two have the same key exactly when they have
as many legs, the same interchange names and the same route labels, in order. The first colon ends
the interchanges, which are read back from before it, and the route labels, none of them empty, from
what follows it. -/
theorem corridorKey_eq_iff
    {x y : Itinerary}
    (readX : x.KeyReadable)
    (readY : y.KeyReadable) :
    x.corridorKey = y.corridorKey ↔
      x.legs.length = y.legs.length ∧ x.interchanges = y.interchanges ∧
        x.routeLabels = y.routeLabels := by
  constructor
  · intro same
    obtain ⟨labelsX, routesX, labelsFreeX⟩ := readX.labelTexts
    obtain ⟨labelsY, routesY, labelsFreeY⟩ := readY.labelTexts
    obtain ⟨namesX, interX, namesFreeX⟩ := readX.nameTexts
    obtain ⟨namesY, interY, namesFreeY⟩ := readY.nameTexts
    obtain ⟨frontX, keyX, colonFreeX, -, joinedX⟩ :=
      KeyReadable.key_points interX routesX fun n member => (namesFreeX n member).2
    obtain ⟨frontY, keyY, colonFreeY, -, joinedY⟩ :=
      KeyReadable.key_points interY routesY fun n member => (namesFreeY n member).2
    rw [keyX, keyY, Except.ok.injEq, Text.mk.injEq] at same
    obtain ⟨fronts, rests⟩ := append_cons_inj colonFreeX colonFreeY same
    have labels : labelsX = labelsY :=
      @Text.join_inj ','.toNat labelsX labelsY labelsFreeX labelsFreeY (Text.points_injective rests)
    have sameRoutes : x.routeLabels = y.routeLabels := by rw [routesX, routesY, labels]
    have lengths : x.legs.length = y.legs.length := by
      simpa [routeLabels] using congrArg List.length sameRoutes
    refine ⟨lengths, ?_, sameRoutes⟩
    by_cases short : x.legs.length ≤ 1
    · rw [interchanges_eq_nil short, interchanges_eq_nil (lengths ▸ short)]
    · have long : 1 < x.legs.length := by omega
      have someX : namesX ≠ [] := fun empty =>
        interchanges_ne_nil long (by rw [interX, empty, List.map_nil])
      have someY : namesY ≠ [] := fun empty =>
        interchanges_ne_nil (lengths ▸ long) (by rw [interY, empty, List.map_nil])
      have names : namesX = namesY := @Text.join_inj_of_ne_nil ','.toNat namesX namesY someX someY
        (fun n member => (namesFreeX n member).1) (fun n member => (namesFreeY n member).1)
        (Text.points_injective ((joinedX long).symm.trans (fronts.trans (joinedY (lengths ▸ long)))))
      rw [interX, interY, names]
  · rintro ⟨lengths, interchangesSame, routesSame⟩
    rw [corridorKey_eq x, corridorKey_eq y, lengths, interchangesSame, routesSame]

/-- A one-leg itinerary and a two-leg one changing at `Direct`, no route given: their keys
`Direct:Unknown` and `Direct:Unknown,Unknown` differ. -/
theorem corridorKey_one_leg_apart_from_direct_change :
    ({ legs := [{ mode := .rail, origin := Place.named "A", destination := Place.named "B",
                  startTime := .int 0, endTime := .int 0 }],
       startTime := .int 0, endTime := .int 0 } : Itinerary).corridorKey ≠
      ({ legs := [{ mode := .rail, origin := Place.named "A", destination := Place.named "Direct",
                    startTime := .int 0, endTime := .int 0 },
                  { mode := .rail, origin := Place.named "Direct", destination := Place.named "B",
                    startTime := .int 0, endTime := .int 0 }],
         startTime := .int 0, endTime := .int 0 } : Itinerary).corridorKey := fun same =>
  absurd ((corridorKey_eq_iff ⟨by simp, by simp⟩
    ⟨by simp [Place.named], by simp⟩).mp same).1 (by decide)

end Itinerary

end CorridorRank
