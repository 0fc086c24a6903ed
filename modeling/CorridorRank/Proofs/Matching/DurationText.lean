import Mathlib
import CorridorRank.Matching.Summary
import CorridorRank.Proofs.Traversal

/-!
# Reading a duration text back

A route's total duration is shown as `<m>m`, `<h>h` or `<h>h <m>m`. Its whole minutes are
counted by floor division and split by `divmod` into hours and minutes: the hours round toward
minus infinity and the minutes are the remainder, never negative. So the sign of a negative
duration stands on its hours alone.

`readMinutes?` reads such a text as a rider does, a leading minus sign making the whole
duration negative. Every text the summary writes reads back (`readMinutes?_minutesText`): a
duration of zero or more minutes, or a negative whole number of hours, as itself, and any
other negative duration as twice its minutes part fewer; one minute before zero is written
`-1h 59m` and read as 119 minutes before zero (`durationText_minute_before_zero`). Distinct
minute counts still have distinct texts (`minutesText_injective`). A route summary shows the
text of its itinerary's span, below zero when the planner's end time precedes its start time
(`RouteSummary.ofRoute_totalDuration`).
-/

namespace CorridorRank

namespace Summary

/-- A nonempty run of decimal digits as the number it spells. -/
def digitsValue?
    (cs : List Char) :
    Option Nat :=
  if !cs.isEmpty && cs.all Char.isDigit then some (Nat.ofDigitChars 10 cs 0) else none

/-- The minutes an unsigned duration text spells: `<m>m`, `<h>h` or `<h>h <m>m`. -/
def unsignedMinutes?
    (cs : List Char) :
    Option Nat :=
  match cs.span Char.isDigit with
  | (minutes, ['m']) => digitsValue? minutes
  | (hours, ['h']) => (digitsValue? hours).map (60 * ·)
  | (hours, 'h' :: ' ' :: more) =>
    match more.span Char.isDigit with
    | (minutes, ['m']) => do
      let h ← digitsValue? hours
      let m ← digitsValue? minutes
      pure (60 * h + m)
    | _ => none
  | _ => none

/-- The minutes a duration text spells, read as a rider reads it: a leading minus sign makes
the whole duration negative. -/
def readMinutes?
    (text : String) :
    Option Int :=
  match text.toList with
  | c :: rest =>
    if c = '-' then (unsignedMinutes? rest).map fun (n : Nat) => -(n : Int)
    else (unsignedMinutes? (c :: rest)).map fun (n : Nat) => (n : Int)
  | [] => none

section Reading

theorem digitsValue?_toDigits
    (n : Nat) :
    digitsValue? (Nat.toDigits 10 n) = some n := by
  have digits : (Nat.toDigits 10 n).all Char.isDigit = true :=
    List.all_eq_true.mpr fun _ member => Nat.isDigit_of_mem_toDigits (by decide) (by decide) member
  simp [digitsValue?, digits, Nat.ofDigitChars_ten_toDigits]

/-- Printed digits followed by a character that is no digit end at that character. -/
theorem span_toDigits_append
    (n : Nat)
    {c : Char}
    (stop : c.isDigit = false)
    (rest : List Char) :
    (Nat.toDigits 10 n ++ c :: rest).span Char.isDigit = (Nat.toDigits 10 n, c :: rest) := by
  have digits : ∀ d ∈ Nat.toDigits 10 n, d.isDigit = true :=
    fun _ member => Nat.isDigit_of_mem_toDigits (by decide) (by decide) member
  rw [List.span_eq_takeWhile_dropWhile, List.takeWhile_append_of_pos digits,
    List.dropWhile_append_of_pos digits]
  simp [stop]

theorem unsignedMinutes?_minutes
    (m : Nat) :
    unsignedMinutes? (Nat.toDigits 10 m ++ ['m']) = some m := by
  rw [unsignedMinutes?, span_toDigits_append m (by decide) []]
  simp [digitsValue?_toDigits]

theorem unsignedMinutes?_hours
    (h : Nat) :
    unsignedMinutes? (Nat.toDigits 10 h ++ ['h']) = some (60 * h) := by
  rw [unsignedMinutes?, span_toDigits_append h (by decide) []]
  simp [digitsValue?_toDigits]

theorem unsignedMinutes?_hours_minutes
    (h m : Nat) :
    unsignedMinutes? (Nat.toDigits 10 h ++ 'h' :: ' ' :: (Nat.toDigits 10 m ++ ['m'])) =
      some (60 * h + m) := by
  rw [unsignedMinutes?, span_toDigits_append h (by decide)]
  simp only [span_toDigits_append m (show 'm'.isDigit = false by decide) []]
  simp [digitsValue?_toDigits]

/-- The characters of an integer's text: a minus sign when it is negative, then the digits of
its size. -/
theorem intText_toList
    (k : Int) :
    (Value.intText k).toList = (if k < 0 then ['-'] else []) ++ Nat.toDigits 10 k.natAbs := by
  unfold Value.intText
  split <;> simp [*]

/-- An integer's text followed by `rest` reads as the integer's digits followed by `rest`,
negated when the integer is negative. The digits start with a digit, which is no minus sign. -/
theorem readMinutes?_intText_append
    {text : String}
    (k : Int)
    (rest : List Char)
    (spelled : text.toList = (Value.intText k).toList ++ rest) :
    readMinutes? text = (unsignedMinutes? (Nat.toDigits 10 k.natAbs ++ rest)).map
      fun (u : Nat) => if k < 0 then -(u : Int) else (u : Int) := by
  obtain ⟨d, ds, first⟩ :=
    List.exists_cons_of_ne_nil (Nat.toDigits_ne_nil (b := 10) (n := k.natAbs))
  have notMinus : d ≠ '-' := by
    have digit : d.isDigit = true :=
      Nat.isDigit_of_mem_toDigits (by decide) (by decide) (first ▸ List.mem_cons_self)
    rintro rfl
    exact absurd digit (by decide)
  rw [intText_toList] at spelled
  unfold readMinutes?
  by_cases negative : k < 0
  · simp [spelled, negative]
  · rw [spelled, if_neg negative, List.nil_append, first]
    simp [notMinus, negative]

/-- Minutes alone read back as themselves, whatever their sign. -/
theorem readMinutes?_minutesForm
    (m : Int) :
    readMinutes? (Value.intText m ++ "m") = some m := by
  rw [readMinutes?_intText_append m ['m'] (by rw [String.toList_append]; rfl),
    unsignedMinutes?_minutes, Option.map_some]
  congr 1
  split <;> omega

/-- Hours alone read back as sixty minutes each, whatever their sign. -/
theorem readMinutes?_hoursForm
    (h : Int) :
    readMinutes? (Value.intText h ++ "h") = some (60 * h) := by
  rw [readMinutes?_intText_append h ['h'] (by rw [String.toList_append]; rfl),
    unsignedMinutes?_hours, Option.map_some]
  congr 1
  split <;> omega

/-- Hours and minutes read back with the sign of the hours on the whole: negative hours take
the minutes away rather than add them. -/
theorem readMinutes?_hoursMinutesForm
    (h m : Int)
    (minutesNonneg : 0 ≤ m) :
    readMinutes? (Value.intText h ++ "h " ++ Value.intText m ++ "m") =
      some (if 0 ≤ h then 60 * h + m else 60 * h - m) := by
  have spelled : (Value.intText h ++ "h " ++ Value.intText m ++ "m").toList =
      (Value.intText h).toList ++ 'h' :: ' ' :: (Nat.toDigits 10 m.natAbs ++ ['m']) := by
    simp [String.toList_append, intText_toList m, Int.not_lt.mpr minutesNonneg]
  rw [readMinutes?_intText_append h _ spelled, unsignedMinutes?_hours_minutes, Option.map_some]
  congr 1
  split <;> split <;> omega

/-- Every minute count's text reads back: as itself when it is at least zero, and otherwise
as twice its minutes part fewer, which is itself for a whole number of hours. -/
theorem readMinutes?_minutesText
    (n : Int) :
    readMinutes? (minutesText n) = some (if 0 ≤ n then n else n - 2 * (n % 60)) := by
  have remainderNonneg : 0 ≤ n % 60 := Int.emod_nonneg n (by decide)
  unfold minutesText
  dsimp only
  by_cases noHours : n / 60 = 0
  · rw [if_pos (beq_iff_eq.mpr noHours), readMinutes?_minutesForm]
    congr 1
    split <;> omega
  · rw [if_neg (by simpa using noHours)]
    by_cases noMinutes : n % 60 = 0
    · rw [if_pos (beq_iff_eq.mpr noMinutes), readMinutes?_hoursForm]
      congr 1
      split <;> omega
    · rw [if_neg (by simpa using noMinutes), readMinutes?_hoursMinutesForm _ _ remainderNonneg]
      congr 1
      split <;> split <;> omega

/-- Distinct minute counts have distinct texts. The reading back is one to one: negative counts read
below zero, and the counts of each hour apart. -/
theorem minutesText_injective : Function.Injective minutesText := by
  intro a b same
  have readBack := readMinutes?_minutesText a
  rw [same, readMinutes?_minutesText b] at readBack
  have values := Option.some.inj readBack
  split at values <;> split at values <;> omega

end Reading

/-- A duration in whole milliseconds is shown by its whole minutes, counted by floor
division. -/
theorem durationText_int
    (d : Int) :
    durationText (.int d) = .ok (minutesText (Int.fdiv d 60000)) := rfl

/-- A duration in whole milliseconds is shown by its whole minutes, counted by floor division
and split into hours and minutes by `divmod`, a part that is zero left out. Read back with
its sign on the whole, the text gives those minutes when they are at least zero, and
otherwise twice the minutes part fewer; distinct minute counts give distinct texts. By a positive
divisor, `divmod` is Euclidean division. -/
theorem durationText_reads_back
    (d : Int) :
    let total := Int.fdiv d 60000
    let hours := Int.fdiv total 60
    let minutes := Int.fmod total 60
    durationText (.int d) = .ok
        (if hours = 0 then Value.intText minutes ++ "m"
         else if minutes = 0 then Value.intText hours ++ "h"
         else Value.intText hours ++ "h " ++ Value.intText minutes ++ "m") ∧
      0 ≤ minutes ∧ minutes < 60 ∧
      (∀ text, durationText (.int d) = .ok text →
        readMinutes? text = some (if 0 ≤ total then total else total - 2 * minutes)) ∧
      ∀ d', Int.fdiv d' 60000 ≠ total → durationText (.int d') ≠ durationText (.int d) := by
  intro total hours minutes
  have floorHours : hours = total / 60 := by simp [hours, Int.fdiv_eq_ediv]
  have floorMinutes : minutes = total % 60 := by simp [minutes, Int.fmod_eq_emod]
  refine ⟨?shown, ?low, ?high, fun text shown => ?read, fun d' apart same => ?distinct⟩
  case shown =>
    rw [durationText_int, floorHours, floorMinutes]
    simp only [minutesText, beq_iff_eq]
    rfl
  case low => exact floorMinutes ▸ Int.emod_nonneg total (by decide)
  case high => exact floorMinutes ▸ Int.emod_lt_of_pos total (by decide)
  case read =>
    rw [durationText_int] at shown
    cases shown
    rw [readMinutes?_minutesText, floorMinutes]
  case distinct =>
    rw [durationText_int, durationText_int] at same
    exact apart (minutesText_injective (Except.ok.inj same))

/-- One minute before zero is written `-1h 59m`, which reads as 119 minutes before zero. -/
theorem durationText_minute_before_zero :
    durationText (.int (-60000)) = .ok "-1h 59m" ∧ Int.fdiv (-60000) 60000 = -1 ∧
      readMinutes? "-1h 59m" = some (-119) := by
  refine ⟨?_, by decide, by decide⟩
  rw [durationText_int]
  exact congrArg Except.ok (by decide)

end Summary

open Traversal in
/-- A route's summary shows the duration from its itinerary's start to its end, which is below
zero when the end comes first. The interchange is named in a join point, which builds the summary
around the same text. -/
theorem RouteSummary.ofRoute_totalDuration
    {route : ScoredRoute}
    {summary : RouteSummary}
    {start stop : Int}
    (starts : route.itinerary.startTime = .int start)
    (stops : route.itinerary.endTime = .int stop)
    (summarised : RouteSummary.ofRoute route = .ok summary) :
    summary.totalDuration = Summary.minutesText (Int.fdiv (stop - start) 60000) := by
  unfold RouteSummary.ofRoute at summarised
  obtain ⟨legs, -, rest⟩ := bind_eq_ok.mp summarised
  rw [starts, stops, show Value.sub (.int stop) (.int start) = .ok (.int (stop - start)) from rfl,
    ok_bind, Summary.durationText_int, ok_bind] at rest
  simp only [bind, Except.bind, pure, Except.pure, throw, throwThe, MonadExceptOf.throw] at rest
  split at rest
  · cases rest
    rfl
  · split at rest
    · cases rest
      rfl
    · cases rest

end CorridorRank
