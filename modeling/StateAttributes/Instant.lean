namespace StateAttributes

def isLeapYear (year : Int) : Bool := year % 4 = 0 && (year % 100 ≠ 0 || year % 400 = 0)

def daysInMonth (year : Int) (month : Nat) : Nat :=
  if month = 2 then if isLeapYear year then 29 else 28
  else if month = 4 ∨ month = 6 ∨ month = 9 ∨ month = 11 then 30
  else 31

def isDate (year : Int) (month day : Nat) : Bool :=
  -262143 ≤ year && year ≤ 262142 && 1 ≤ month && month ≤ 12
    && 1 ≤ day && day ≤ daysInMonth year month

-- The times of a day. Only a last second of a minute may be followed by a leap second.
def isTimeOfDay (hour minute second nano : Nat) : Bool :=
  hour < 24 && minute < 60 && second < 60
    && nano < (if second = 59 then 2000000000 else 1000000000)

-- The fields are those of universal time. A leap second is kept as a second billion of nanoseconds in the second
-- before it.
structure Instant where
  year : Int
  month : Nat
  day : Nat
  hour : Nat
  minute : Nat
  second : Nat
  nano : Nat
  date : isDate year month day = true
  time : isTimeOfDay hour minute second nano = true
deriving DecidableEq, Repr

instance : Inhabited Instant := ⟨⟨1970, 1, 1, 0, 0, 0, 0, by decide, by decide⟩⟩

namespace Instant

def of? (year : Int) (month day hour minute second nano : Nat) : Option Instant :=
  if date : isDate year month day = true then
    if time : isTimeOfDay hour minute second nano = true then
      some { year, month, day, hour, minute, second, nano, date, time }
    else none
  else none

def dayBefore (year : Int) (month day : Nat) : Int × Nat × Nat :=
  if 1 < day then (year, month, day - 1)
  else if 1 < month then (year, month - 1, daysInMonth year (month - 1))
  else (year - 1, 12, 31)

def dayAfter (year : Int) (month day : Nat) : Int × Nat × Nat :=
  if day < daysInMonth year month then (year, month, day + 1)
  else if month < 12 then (year, month + 1, 1)
  else (year + 1, 1, 1)

-- The instant that is `offset` minutes before this one, where `offset` is less than a day.
def earlier? (instant : Instant) (offset : Int) : Option Instant :=
  let minutes : Int := 60 * instant.hour + instant.minute - offset
  let (year, month, day) :=
    if minutes < 0 then dayBefore instant.year instant.month instant.day
    else if 1440 ≤ minutes then dayAfter instant.year instant.month instant.day
    else (instant.year, instant.month, instant.day)
  let minutes := (minutes % 1440).toNat
  of? year month day (minutes / 60) (minutes % 60) instant.second instant.nano

-- Days since the first day of year one.
def dayNumber (instant : Instant) : Int :=
  let past := instant.year - 1
  365 * past + past / 4 - past / 100 + past / 400
    + (List.range (instant.month - 1)).foldl
        (fun (days : Nat) m => days + daysInMonth instant.year (m + 1)) 0
    + (instant.day - 1)

def secondOfDay (instant : Instant) : Nat :=
  3600 * instant.hour + 60 * instant.minute + instant.second

def isLeapSecond (instant : Instant) : Bool := 1000000000 ≤ instant.nano

-- Nanoseconds from `start` to `stop`, negative when `stop` comes first. A leap second counts when the
-- later time of day lies beyond it.
def nanosBetween (start stop : Instant) : Int :=
  let leap : Int :=
    if start.secondOfDay < stop.secondOfDay ∧ start.isLeapSecond then 1
    else if stop.secondOfDay < start.secondOfDay ∧ stop.isLeapSecond then -1
    else 0
  let days := stop.dayNumber - start.dayNumber
  let seconds := 86400 * days + stop.secondOfDay - start.secondOfDay + leap
  1000000000 * seconds + stop.nano - start.nano

end Instant

structure Elapsed where
  seconds : Nat
  nanos : Nat
deriving DecidableEq, Repr, Inhabited

-- Time runs forward: there is no stretch from a later instant to an earlier one.
def Instant.elapsed? (start stop : Instant) : Option Elapsed :=
  let nanos := start.nanosBetween stop
  if nanos < 0 then none
  else some ⟨nanos.toNat / 1000000000, nanos.toNat % 1000000000⟩

end StateAttributes
