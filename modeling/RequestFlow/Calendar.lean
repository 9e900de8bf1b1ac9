import RequestFlow.Text.Column

/-!
# The calendar

Moments are seconds of Unix time, and days follow the Gregorian calendar also
before its introduction. A year is counted from March on, so that a leap day is
the last day of its year; then four hundred years always have the same number of
days.
-/

namespace RequestFlow.Calendar

/-- A day. -/
structure Date where
  year : Int
  /-- The month, from one. -/
  month : Nat
  /-- The day of the month, from one. -/
  day : Nat
  deriving DecidableEq

/-- The number of days in four hundred years. -/
def eraDays : Nat := 146097

/-- The number of days from the first of March of the year zero to the first day
of Unix time. -/
def epochDays : Nat := 719468

/-- The number of days before a year of an era. -/
def daysBeforeYear (year : Nat) : Nat :=
  365 * year + year / 4 - year / 100

/-- The year of an era in which a day of the era is. -/
def yearOfEra (day : Nat) : Nat :=
  (day - day / 1460 + day / 36524 - day / 146096) / 365

/-- The number of days before a month, the months being counted from March on. -/
def daysBeforeMonth (month : Nat) : Nat :=
  (153 * month + 2) / 5

/-- The month in which a day of a year is, the months being counted from March
on. -/
def monthOfYear (day : Nat) : Nat :=
  (5 * day + 2) / 153

/-- The date of a day, the days being counted from the first one of Unix time. -/
def Date.ofDay (day : Int) : Date :=
  let shifted := day + epochDays
  let ofEra := (shifted.fmod eraDays).toNat
  let year := yearOfEra ofEra
  let ofYear := ofEra - daysBeforeYear year
  let month := monthOfYear ofYear
  { year := shifted.fdiv eraDays * 400 + year + if month < 10 then 0 else 1
    month := if month < 10 then month + 3 else month - 9
    day := ofYear - daysBeforeMonth month + 1 }

/-- The number of seconds of a day. -/
def daySeconds : Nat := 86400

/-- A moment of a day. -/
structure Moment where
  date : Date
  second : Nat
  deriving DecidableEq

/-- The moment of a number of seconds. -/
def Moment.ofSeconds (seconds : Int) : Moment :=
  ⟨.ofDay (seconds.fdiv daySeconds), (seconds.fmod daySeconds).toNat⟩

theorem Moment.second_lt (seconds : Int) :
    (Moment.ofSeconds seconds).second < daySeconds := by
  have := Int.fmod_lt_of_pos seconds (b := (daySeconds : Int)) (by decide)
  have := Int.fmod_nonneg_of_pos seconds (b := (daySeconds : Int)) (by decide)
  simp only [Moment.ofSeconds]
  omega

/-- The text of a year: four digits, and more or a sign only where they are
needed. -/
def yearText (year : Int) : String :=
  let digits := Text.zeroFilled 4 year.natAbs
  if year < 0 then "-" ++ digits
  else if 9999 < year then "+" ++ digits
  else digits

/-- The text of a date. -/
def Date.text (date : Date) : String :=
  s!"{yearText date.year}-{Text.zeroFilled 2 date.month}-{
    Text.zeroFilled 2 date.day}"

/-- The text of a moment of a day. -/
def Moment.clock (moment : Moment) : String :=
  let part (value : Nat) := Text.zeroFilled 2 value
  s!"{part (moment.second / 3600)}:{part (moment.second / 60 % 60)}:{
    part (moment.second % 60)}"

/-- The text of a moment. -/
def Moment.text (moment : Moment) : String :=
  s!"{moment.date.text} {moment.clock}"

/-- The text of a moment given in milliseconds, as it is written in data. -/
def stamp (milliseconds : Int) : String :=
  let moment := Moment.ofSeconds (milliseconds.fdiv 1000)
  let fraction := (milliseconds.fmod 1000).toNat
  s!"{moment.date.text}T{moment.clock}" ++
    (if fraction = 0 then "" else s!".{Text.zeroFilled 3 fraction}") ++ "Z"

example : (Moment.ofSeconds (-1)).text = "1969-12-31 23:59:59" := by decide +kernel

example : (Moment.ofSeconds 951782400).text = "2000-02-29 00:00:00" := by
  decide +kernel

example : stamp 1740787199007 = "2025-02-28T23:59:59.007Z" := by decide +kernel

end RequestFlow.Calendar
