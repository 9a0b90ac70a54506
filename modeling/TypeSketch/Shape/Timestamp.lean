import TypeSketch.Error

/-!
# Timestamps

Points in time counted from the beginning of 1970, in seconds, milliseconds, microseconds or
nanoseconds.
-/

namespace TypeSketch.Timestamp

/-- How many seconds a unit lasts. -/
def secondsPer (unit : String) : Except Error Binary64 :=
  if unit == "sec" || unit == "s" then .ok (.ofRatio false 1 1)
  else if unit == "ms" then .ok (.ofRatio false 1 1000)
  else if unit == "us" then .ok (.ofRatio false 1 1000000)
  else if unit == "ns" then .ok (.ofRatio false 1 1000000000)
  else .error (.invalidArgument ("cannot convert " ++ unit ++ " to seconds"))

/-- `|x| < 1`. -/
def isTiny (x : Binary64) : Bool :=
  match x with
  | .finite _ m e => !(Binary64.finite false m e).atLeast 1
  | _ => false

/-- The unit that a count is likely in, by its size. A count of seconds that lies in the seventies
is more likely one of milliseconds that lost digits, and no unit is guessed for it. -/
def unitOf (x : Binary64) : Except Error String :=
  if isTiny x then .ok "ms"
  else if x.atLeast 100000000 && !x.atLeast 180000000 then .error (.ambiguousTimestamp x)
  else if x.atLeast 10000000000000000 || x.atMost (-10000000000000000) then .ok "ns"
  else if x.atLeast 100000000000000 || x.atMost (-100000000000000) then .ok "us"
  else if x.atLeast 100000000000 || x.atMost (-30000000000) then .ok "ms"
  else .ok "sec"

/-! ### Dates -/

/-- The year, month and day that are `days` days after the first of January 1970. Years begin in
March and are counted in cycles of 400, so that a leap day comes last. -/
def civil (days : Int) : Int × Nat × Nat :=
  let z := days + 719468
  let cycle := z / 146097
  let day := (z % 146097).toNat
  let yearOfCycle := (day - day / 1460 + day / 36524 - day / 146096) / 365
  let dayOfYear := day - (365 * yearOfCycle + yearOfCycle / 4 - yearOfCycle / 100)
  let monthFromMarch := (5 * dayOfYear + 2) / 153
  let dayOfMonth := dayOfYear - (153 * monthFromMarch + 2) / 5 + 1
  let month := if monthFromMarch < 10 then monthFromMarch + 3 else monthFromMarch - 9
  let year : Int := yearOfCycle + cycle * 400 + (if month ≤ 2 then 1 else 0)
  (year, month, dayOfMonth)

/-- A number with zeros before it up to a width. -/
def padded (width n : Nat) : String :=
  let digits := toString n
  String.ofList (List.replicate (width - digits.length) '0') ++ digits

/-- A year, with a sign if it has not just four digits. -/
def yearText (year : Int) : String :=
  if year < 0 then "-" ++ padded 4 year.natAbs
  else if year > 9999 then "+" ++ toString year
  else padded 4 year.natAbs

/-- The date and time of day of a second. -/
def dateText (second : Int) : String :=
  let (year, month, day) := civil (second / 86400)
  let rest := (second % 86400).toNat
  yearText year ++ "-" ++ padded 2 month ++ "-" ++ padded 2 day ++ "T" ++ padded 2 (rest / 3600) ++
    ":" ++ padded 2 (rest / 60 % 60) ++ ":" ++ padded 2 (rest % 60) ++ "Z"

/-- The first second of the calendar, which begins with the year -262143. -/
def firstSecond : Int := -8334601228800

/-- The last second of the calendar, which ends with the year 262142. -/
def lastSecond : Int := 8210266876799

/-- The date of a count in some unit; nothing for other units and outside the calendar. -/
def sampleDate? (unit : String) (count : Int) : Option String :=
  let second? : Option Int :=
    if unit == "sec" || unit == "s" then some count
    else if unit == "ms" then some (count / 1000)
    else if unit == "us" then some (count / 1000000)
    else if unit == "ns" then some (count / 1000000000)
    else none
  (second?.filter fun second => firstSecond ≤ second && second ≤ lastSecond).map dateText

end TypeSketch.Timestamp
