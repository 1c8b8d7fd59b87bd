/-!
# Instants

A clock shows an instant: the time since the start of the year 1970, and how far the local time is
ahead of UTC. The days of the Gregorian calendar are counted from the first of the year 1, and the
calendar goes on before it.
-/

namespace ConfTree

/-- What a clock shows. -/
structure Instant where
  /-- The whole seconds since the start of 1970. -/
  seconds : Int
  /-- The part of a second behind them. -/
  nanoseconds : Nat
  /-- The seconds that the local time is ahead of UTC. -/
  offset : Int
  deriving DecidableEq, Repr

/-- The start of 1970. -/
def Instant.epoch : Instant := ⟨0, 0, 0⟩

namespace Calendar

/-- The days before a year. Every fourth year has one more, but only every fourth of the
centuries. -/
def daysBefore (year : Int) : Int :=
  let past := year - 1
  365 * past + past / 4 - past / 100 + past / 400

/-- The year of a day. The mean length of the years leads to it, or to the year next to it. -/
def yearOf (day : Int) : Int :=
  let year := day * 400 / 146097 + 1
  if day < daysBefore year then year - 1
  else if daysBefore (year + 1) ≤ day then year + 1
  else year

/-- A day lies behind those before its year, and in front of the next year. -/
theorem yearOf_spec (day : Int) :
    daysBefore (yearOf day) ≤ day ∧ day < daysBefore (yearOf day + 1) := by
  unfold yearOf daysBefore
  dsimp only
  split
  · omega
  · split <;> omega

/-- The lengths of the months of a year. -/
def monthLengths (year : Int) : List Nat :=
  let february := if daysBefore (year + 1) - daysBefore year = 366 then 29 else 28
  [31, february, 31, 30, 31, 30, 31, 31, 30, 31, 30, 31]

/-- The month and its day that a day falls on, with so many months before it. Both count from
one. -/
def monthAndDay (months : Nat) : List Nat → Nat → Nat × Nat
  | [], day => (months + 1, day + 1)
  | length :: lengths, day =>
    if day < length then (months + 1, day + 1) else monthAndDay (months + 1) lengths (day - length)

end Calendar

/-- An instant as the calendar and the clock of a place show it. -/
structure Moment where
  /-- The days since the first of the year 1. -/
  days : Int
  /-- The seconds since midnight. -/
  seconds : Nat
  nanoseconds : Nat
  /-- The seconds that the place is ahead of UTC. -/
  offset : Int
  deriving DecidableEq, Repr

/-- An instant at a place that is so many seconds ahead of UTC. -/
def Instant.momentAt (instant : Instant) (offset : Int) : Moment :=
  let seconds := instant.seconds + offset
  ⟨Calendar.daysBefore 1970 + seconds / 86400, (seconds % 86400).toNat, instant.nanoseconds, offset⟩

namespace Moment

variable (m : Moment)

/-- The year. -/
def year : Int := Calendar.yearOf m.days

/-- The day of the year, the first one is 0. -/
def dayOfYear : Nat := (m.days - Calendar.daysBefore m.year).toNat

/-- The month and its day, both from one. -/
def monthAndDay : Nat × Nat := Calendar.monthAndDay 0 (Calendar.monthLengths m.year) m.dayOfYear

/-- The day of the week, Monday is 0. -/
def weekday : Nat := (m.days % 7).toNat

/-- The Thursday of the week, which starts on Monday. A week belongs to the year of its Thursday. -/
def thursday : Int := m.days - m.weekday + 3

/-- The year that the week belongs to. -/
def weekYear : Int := Calendar.yearOf m.thursday

/-- The number of the week in its year. -/
def week : Nat := ((m.thursday - Calendar.daysBefore m.weekYear) / 7).toNat + 1

/-- The seconds since the start of 1970, at any place. -/
def timestamp : Int := (m.days - Calendar.daysBefore 1970) * 86400 + m.seconds - m.offset

end Moment

end ConfTree
