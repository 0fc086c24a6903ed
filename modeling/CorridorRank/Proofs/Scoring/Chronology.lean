import CorridorRank.Proofs.Scoring.Duration

/-!
# Legs in chronological order

The order check reads legs timed in whole milliseconds in two passes: every leg is first
checked to run forward, and only then is each leg checked to end no later than the next one
starts. Its verdict is therefore the first reversed leg whenever there is one, even behind an
earlier overlap, and otherwise the first overlap, which is reported at the later of its two
legs (`checkLegOrder_eq_firstFaults`). Both positions are `List.findIdx?`, over the legs and
over their adjacent pairs.

The check passes exactly the chronological legs (`checkLegOrder_eq_ok_iff`), and legs are
chronological exactly when their timestamps, start then end of each leg in turn, never go
back (`timeline_isChain_iff`); so the last leg ends no earlier than the first starts.
`checkLegOrder_chronology` puts the three together.
-/

namespace CorridorRank

/-- Legs in chronological order: each starts no later than it ends, and ends no later than
the next one starts. -/
def Chronological
    (legs : List Leg) :
    Prop :=
  (∀ l ∈ legs, l.startMs ≤ l.endMs) ∧ legs.IsChain fun a b => a.endMs ≤ b.startMs

/-- The legs' timestamps in travel order: each leg's start, then its end. -/
def timeline
    (legs : List Leg) :
    List Int :=
  legs.flatMap fun l => [l.startMs, l.endMs]

/-- The position of the first leg that ends after the next one starts. -/
def firstOverlap?
    (legs : List Leg) :
    Option Nat :=
  (legs.zip legs.tail).findIdx? fun pair => pair.1.overlaps pair.2

section Chronology

variable {legs : List Leg}

@[simp] theorem timeline_nil : timeline [] = [] := rfl

theorem timeline_cons
    (leg : Leg)
    (rest : List Leg) :
    timeline (leg :: rest) = leg.startMs :: leg.endMs :: timeline rest := rfl

theorem chronological_cons_cons
    (prev next : Leg)
    (rest : List Leg) :
    Chronological (prev :: next :: rest) ↔
      prev.startMs ≤ prev.endMs ∧ prev.endMs ≤ next.startMs ∧ Chronological (next :: rest) := by
  simp only [Chronological, List.forall_mem_cons, List.isChain_cons_cons]
  constructor
  · rintro ⟨⟨forwardPrev, forwardNext, forwardRest⟩, gap, chain⟩
    exact ⟨forwardPrev, gap, ⟨forwardNext, forwardRest⟩, chain⟩
  · rintro ⟨forwardPrev, gap, ⟨forwardNext, forwardRest⟩, chain⟩
    exact ⟨⟨forwardPrev, forwardNext, forwardRest⟩, gap, chain⟩

@[simp] theorem firstOverlap?_nil : firstOverlap? [] = none := rfl

@[simp] theorem firstOverlap?_singleton
    (leg : Leg) :
    firstOverlap? [leg] = none := rfl

theorem firstOverlap?_cons_cons
    (prev next : Leg)
    (rest : List Leg) :
    firstOverlap? (prev :: next :: rest) =
      if prev.overlaps next then some 0 else (firstOverlap? (next :: rest)).map (· + 1) := by
  simp only [firstOverlap?, List.tail_cons, List.zip_cons_cons, List.findIdx?_cons]

/-- No leg is reversed exactly when every leg starts no later than it ends. -/
theorem findIdx?_reversed_eq_none_iff :
    legs.findIdx? Leg.reversed = none ↔ ∀ l ∈ legs, l.startMs ≤ l.endMs := by
  simp [List.findIdx?_eq_none_iff, Leg.reversed]

/-- No two legs overlap exactly when each leg ends no later than the next one starts. -/
theorem firstOverlap?_eq_none_iff :
    firstOverlap? legs = none ↔ legs.IsChain fun a b => a.endMs ≤ b.startMs := by
  induction legs with
  | nil => simp
  | cons prev rest ih =>
      cases rest with
      | nil => simp
      | cons next rest =>
          rw [firstOverlap?_cons_cons, List.isChain_cons_cons, ← ih]
          cases overlapping : prev.overlaps next with
          | true =>
              simp only [Leg.overlaps, decide_eq_true_eq] at overlapping
              simp only [if_true, reduceCtorEq, false_iff, not_and]
              omega
          | false =>
              simp only [Leg.overlaps, decide_eq_false_iff_not, Int.not_lt] at overlapping
              simp [overlapping]

/-- The time check fails at the first reversed leg, and passes legs with none. The legs before
position `i` are its first `i` legs, none of them reversed. -/
theorem checkLegTimes_eq_firstReversed
    (timed : ∀ l ∈ legs, l.Timed) :
    checkLegTimes legs = match legs.findIdx? Leg.reversed with
      | some i => .error (.scoring (.legReversed i))
      | none => .ok () := by
  cases found : legs.findIdx? Leg.reversed with
  | none => exact checkLegTimes_eq_ok timed (List.findIdx?_eq_none_iff.mp found)
  | some i =>
      obtain ⟨bound, reversed, forwardBefore⟩ := List.findIdx?_eq_some_iff_getElem.mp found
      have split : legs = legs.take i ++ legs[i] :: legs.drop (i + 1) := by simp
      have forwardTaken : ∀ l ∈ legs.take i, l.reversed = false := by
        intro l member
        obtain ⟨j, below, rfl⟩ := List.mem_take_iff_getElem.mp member
        simpa using forwardBefore j (by omega)
      have fails := checkLegTimes_first_reversed timed split forwardTaken reversed
      rwa [List.length_take, Nat.min_eq_left bound.le] at fails

/-- The overlap check, counting from `i`, fails at the first overlap and passes legs with
none. Past a junction that is no overlap, the check goes on one position later. -/
theorem checkOverlaps_eq_firstOverlap
    (timed : ∀ l ∈ legs, l.Timed)
    (i : Nat) :
    checkOverlaps legs i = match firstOverlap? legs with
      | some j => .error (.scoring (.legsOverlap (i + j)))
      | none => .ok () := by
  induction legs generalizing i with
  | nil => rfl
  | cons prev rest ih =>
      cases rest with
      | nil => rfl
      | cons next rest =>
          have timedRest : ∀ l ∈ next :: rest, l.Timed :=
            fun l member => timed l (List.mem_cons_of_mem prev member)
          rw [checkOverlaps, Leg.gt_times (timed prev (by simp)) (timed next (by simp)),
            firstOverlap?_cons_cons]
          cases prev.overlaps next with
          | true => rfl
          | false =>
              refine (ih timedRest (i + 1)).trans ?_
              cases firstOverlap? (next :: rest) with
              | none => rfl
              | some j => simp [Nat.add_assoc, Nat.add_comm 1 j]

/-- The order check fails at the first reversed leg, wherever an overlap stands; otherwise at
the first overlap; and passes legs with neither. -/
theorem checkLegOrder_eq_firstFaults
    (timed : ∀ l ∈ legs, l.Timed) :
    checkLegOrder legs = match legs.findIdx? Leg.reversed, firstOverlap? legs with
      | some i, _ => .error (.scoring (.legReversed i))
      | none, some i => .error (.scoring (.legsOverlap i))
      | none, none => .ok () := by
  have times := checkLegTimes_eq_firstReversed timed
  cases reversedAt : legs.findIdx? Leg.reversed with
  | some i =>
      rw [reversedAt] at times
      rw [checkLegOrder, times]
      rfl
  | none =>
      rw [reversedAt] at times
      rw [checkLegOrder_of_times times, checkOverlaps_eq_firstOverlap timed 0]
      cases firstOverlap? legs <;> simp

/-- The order check passes exactly the chronological legs. -/
theorem checkLegOrder_eq_ok_iff
    (timed : ∀ l ∈ legs, l.Timed) :
    checkLegOrder legs = .ok () ↔ Chronological legs := by
  rw [checkLegOrder_eq_firstFaults timed, Chronological, ← findIdx?_reversed_eq_none_iff,
    ← firstOverlap?_eq_none_iff]
  cases legs.findIdx? Leg.reversed <;> cases firstOverlap? legs <;> simp

/-- Legs are chronological exactly when their timestamps, the start then the end of each leg
in turn, never go back. -/
theorem timeline_isChain_iff : (timeline legs).IsChain (· ≤ ·) ↔ Chronological legs := by
  induction legs with
  | nil => simp [Chronological]
  | cons prev rest ih =>
      cases rest with
      | nil => simp [timeline_cons, Chronological]
      | cons next rest =>
          rw [chronological_cons_cons, ← ih, timeline_cons, timeline_cons,
            List.isChain_cons_cons, List.isChain_cons_cons]

/-- On legs timed in whole milliseconds, the order check passes exactly the chronological
legs, whose timestamps then never go back, so that the last leg ends no earlier than the first
starts. When it fails, it fails with an ordering fault at the first reversed leg if any leg is
reversed, and otherwise at the later leg of the first overlap. -/
theorem checkLegOrder_chronology
    (timed : ∀ l ∈ legs, l.Timed) :
    (checkLegOrder legs = .ok () ↔ Chronological legs) ∧
    (Chronological legs → (timeline legs).Pairwise (· ≤ ·) ∧
      ∀ first last, legs.head? = some first → legs.getLast? = some last →
        first.startMs ≤ last.endMs) ∧
    ∀ e, checkLegOrder legs = .error e → ∃ f, e = .scoring f ∧
      f.className = "InvalidItineraryOrderingError" ∧
      (∀ i, legs.findIdx? Leg.reversed = some i → f.legIndex? = some (.int i)) ∧
      (legs.findIdx? Leg.reversed = none →
        ∃ i, firstOverlap? legs = some i ∧ f.legIndex? = some (.int (i + 1))) := by
  refine ⟨checkLegOrder_eq_ok_iff timed, fun chrono => ⟨?sorted, ?span⟩, fun e failed => ?fault⟩
  case sorted => exact List.isChain_iff_pairwise.mp (timeline_isChain_iff.mpr chrono)
  case span =>
    intro first last heads lasts
    have forward : ∀ l ∈ legs, l.reversed = false := fun l member => by
      simpa [Leg.reversed] using chrono.1 l member
    have apart : legs.IsChain fun a b => a.overlaps b = false :=
      chrono.2.imp fun a b gap => by simpa [Leg.overlaps] using gap
    exact startMs_le_endMs_of_chain forward apart heads lasts
  case fault =>
    rw [checkLegOrder_eq_firstFaults timed] at failed
    cases reversedAt : legs.findIdx? Leg.reversed with
    | some i =>
        rw [reversedAt] at failed
        cases failed
        refine ⟨_, rfl, rfl, fun j found => ?_, fun noneReversed => by cases noneReversed⟩
        cases Option.some.inj found
        rfl
    | none =>
        cases overlapAt : firstOverlap? legs with
        | none =>
            rw [reversedAt, overlapAt] at failed
            cases failed
        | some i =>
            rw [reversedAt, overlapAt] at failed
            cases failed
            exact ⟨_, rfl, rfl, fun j found => (by cases found), fun _ => ⟨i, rfl, rfl⟩⟩

/-- Three legs, the first two overlapping and the third running backward: the order check
reports the backward leg, though the overlap comes first. -/
theorem checkLegOrder_reversed_behind_overlap :
    let legs := [(0, 30), (20, 40), (50, 45)].map fun (start, stop) =>
      ({ mode := .rail, origin := Place.named "A", destination := Place.named "B",
         startTime := .int start, endTime := .int stop } : Leg)
    (∀ l ∈ legs, l.Timed) ∧
      ∃ f, checkLegOrder legs = .error (.scoring f) ∧ f.legIndex? = some (.int 2) := by
  intro legs
  have timed : ∀ l ∈ legs, l.Timed := by
    simp only [legs, List.map_cons, List.map_nil, List.forall_mem_cons]
    exact ⟨⟨rfl, rfl⟩, ⟨rfl, rfl⟩, ⟨rfl, rfl⟩, fun l member => by cases member⟩
  have failed : checkLegOrder legs = .error (.scoring (.legReversed 2)) := rfl
  obtain ⟨-, -, report⟩ := checkLegOrder_chronology timed
  obtain ⟨f, same, -, atReversed, -⟩ := report _ failed
  exact ⟨timed, f, same ▸ failed, atReversed 2 (by decide)⟩

end Chronology

end CorridorRank
