import DocTags.Error

/-!
# Dates and times

Schema files may hold dates, with or without a time of day.  A date is a day of the calendar from
year 1 to year 9999.  A time that is written with an offset is moved by it, so that all times are
told in the same zone.
-/

namespace DocTags

/-- A time of day, down to millionths of a second. -/
structure TimeOfDay where
  hour : Nat
  minute : Nat
  second : Nat
  micro : Nat := 0
  deriving DecidableEq, Repr

/-- A date, and a time on it if one was given. -/
structure Moment where
  year : Nat
  month : Nat
  day : Nat
  time : Option TimeOfDay := none
  deriving DecidableEq, Repr

namespace Moment

/-! ## The calendar -/

def isLeap (year : Nat) : Bool :=
  year % 4 == 0 && (year % 100 != 0 || year % 400 == 0)

/-- The number of days in a month. -/
def daysIn (year month : Nat) : Nat :=
  if month = 2 then (if isLeap year then 29 else 28)
  else if [4, 6, 9, 11].contains month then 30
  else 31

/-- The number of days before the first of January of a year. -/
def daysBefore (year : Nat) : Nat :=
  let n := year - 1
  365 * n + n / 4 - n / 100 + n / 400

/-- The number of a day, where the first day of year 1 is day 0. -/
def dayNumber (year month day : Nat) : Nat :=
  daysBefore year + (List.range (month - 1)).foldl (fun n m => n + daysIn year (m + 1)) 0 +
    (day - 1)

/-- The month and the day in a year, from the number of days since its start. -/
def monthAndDay (year : Nat) : Nat → Nat → Nat → Nat × Nat
  | 0, month, days => (month, days + 1)
  | n + 1, month, days =>
    if days < daysIn year month then (month, days + 1)
    else monthAndDay year n (month + 1) (days - daysIn year month)

/-- The day with a number. -/
def ofDayNumber (n : Nat) : Moment :=
  -- a year has at least 365 days, so the guess is never too early
  let guess := n / 365 + 1
  let early := ((List.range (guess / 365 + 2)).find? fun k => daysBefore (guess - k) ≤ n).getD 0
  let year := guess - early
  let (month, day) := monthAndDay year 12 1 (n - daysBefore year)
  { year, month, day }

/-- A date, if the calendar has it. -/
def date (year month day : Nat) : Except Error Moment :=
  if year = 0 then .error (.illegible (.year year))
  else if month = 0 || 12 < month then .error (.illegible .month)
  else if day = 0 || daysIn year month < day then .error (.illegible .day)
  else .ok { year, month, day }

/-- A date with a time, if the calendar and the clock have it. -/
def dateTime (year month day : Nat) (t : TimeOfDay) : Except Error Moment := do
  let d ← date year month day
  if 23 < t.hour then throw (.illegible .hour)
  else if 59 < t.minute then throw (.illegible .minute)
  else if 59 < t.second then throw (.illegible .second)
  else return { d with time := some t }

/-- The moment some seconds earlier, or later if there are less than none. -/
def back (m : Moment) (seconds : Int) : Except Error Moment :=
  match m.time with
  | none => .ok m
  | some t =>
    let day : Int := dayNumber m.year m.month m.day
    let total := ((day * 24 + t.hour) * 60 + t.minute) * 60 + t.second - seconds
    let number := total / 86400
    if number < 0 || (daysBefore 10000 : Int) ≤ number then .error (.misuse .overflow)
    else
      let rest := (total % 86400).toNat
      .ok { ofDayNumber number.toNat with
        time := some
          { hour := rest / 3600, minute := rest / 60 % 60, second := rest % 60, micro := t.micro } }

/-! ## The text of a moment -/

/-- A number with zeros in front, up to the given width. -/
def padded (width n : Nat) : String :=
  let ds := Nat.toDigits 10 n
  String.ofList (List.replicate (width - ds.length) '0' ++ ds)

/-- A moment on its own, as in `2001-12-14 21:59:43`. -/
def display (m : Moment) : String :=
  padded 4 m.year ++ "-" ++ padded 2 m.month ++ "-" ++ padded 2 m.day ++
    match m.time with
    | none => ""
    | some t =>
      " " ++ padded 2 t.hour ++ ":" ++ padded 2 t.minute ++ ":" ++ padded 2 t.second ++
        (if t.micro = 0 then "" else "." ++ padded 6 t.micro)

/-- The name of the sort of a moment. -/
def sortName (m : Moment) : String :=
  if m.time.isSome then "datetime" else "date"

/-- A moment in listings: the call that makes it, without the parts at its end that are zero. -/
def render (m : Moment) : String :=
  let time := match m.time with
    | none => []
    | some t =>
      [t.hour, t.minute] ++
        if t.micro != 0 then [t.second, t.micro]
        else if t.second != 0 then [t.second]
        else []
  "datetime." ++ m.sortName ++ "(" ++
    ", ".intercalate (([m.year, m.month, m.day] ++ time).map toString) ++ ")"

end Moment
end DocTags
