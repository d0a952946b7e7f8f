import Mathlib.Order.Monotone.Basic

/-!
This module contains the proleptic Gregorian calendar: dates and their numbers, counted in days from
January 1st 1970, and points in time, counted in seconds.
-/

namespace Calendar

def isLeap (year : Int) : Bool :=
  year % 4 = 0 && (year % 100 ≠ 0 || year % 400 = 0)

def daysInYear (year : Int) : Nat :=
  if isLeap year then 366 else 365

def daysInMonth (year : Int) (month : Nat) : Nat :=
  -- January is the month `0`
  match month with
  | 1 => if isLeap year then 29 else 28
  | 3 | 5 | 8 | 10 => 30
  | _ => 31

def daysBeforeYear (year : Int) : Int :=
  -- from January 1st 1970 on
  365 * (year - 1970) + (year - 1969) / 4 - (year - 1901) / 100 + (year - 1601) / 400

def daysBeforeMonth (year : Int) (month : Nat) : Nat :=
  match month with
  | 0 => 0
  | month + 1 => daysBeforeMonth year month + daysInMonth year month

structure Date where
  year : Int
  month : Nat
  day : Nat
  month_lt : month < 12
  day_pos : 0 < day
  day_le : day ≤ daysInMonth year month

namespace Date

def dayNumber (d : Date) : Int :=
  daysBeforeYear d.year + daysBeforeMonth d.year d.month + d.day - 1

end Date

/--
The year of a day. The mean length of a year is `146097 / 400` days, which gives a year that is wrong
by one at most.
-/
def yearOf (n : Int) : Int :=
  let year := 1970 + n * 400 / 146097
  if n < daysBeforeYear year then
    year - 1
  else if daysBeforeYear (year + 1) ≤ n then
    year + 1
  else
    year

def lastMonth (year : Int) (r : Nat) (month : Nat) : Nat :=
  match month with
  | 0 => 0
  | month + 1 =>
    if daysBeforeMonth year (month + 1) ≤ r then month + 1 else lastMonth year r month

structure Clock where
  hour : Nat
  minute : Nat
  second : Nat
  hour_lt : hour < 24
  minute_lt : minute < 60
  second_lt : second < 60

namespace Clock

def secondNumber (c : Clock) : Nat :=
  3600 * c.hour + 60 * c.minute + c.second

def ofSecondNumber (n : Nat) : Clock where
  hour := n / 3600 % 24
  minute := n / 60 % 60
  second := n % 60
  hour_lt := Nat.mod_lt _ (by omega)
  minute_lt := Nat.mod_lt _ (by omega)
  second_lt := Nat.mod_lt _ (by omega)

end Clock

/--
The number of seconds from January 1st 1970 to a time of day on a date. There are no leap seconds.
-/
def timestamp (d : Date) (c : Clock) : Int :=
  86400 * d.dayNumber + c.secondNumber

def normalized (year month day hour minute second : Int) : Int :=
  86400 * (daysBeforeYear (year + month / 12)
      + daysBeforeMonth (year + month / 12) (month % 12).toNat + day - 1)
    + 3600 * hour + 60 * minute + second

end Calendar
