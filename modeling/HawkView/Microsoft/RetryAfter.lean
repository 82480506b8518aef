import HawkView.Changes.ChangeEvidence
import HawkView.Lib.UtcMonth

/-!
# The header `Retry-After`

A delay in seconds, or a date in one of the three forms that HTTP has for dates. A
date is read field by field and then compared with the date that its fields make.
-/

namespace RetryAfter

open JsString IsoTime
open ChangeEvidence (Date)

/-! ## Dates of UTC -/

def millisPerDay : Int := 86400000

/-- `MakeDay`: the calendar repeats itself every 400 years. -/
def dayNumber (year : Int) (month day : Nat) : Int :=
  monthStart (12 * (year % 400).toNat + month) + 146097 * (year / 400) + day - 1

def timeClip (t : Int) : Option Int := if InDateRange t then some t else none

def dayOf (t : Int) : Int := t / millisPerDay

def getUTCFullYear (t : Int) : Int := civilYear (dayOf t + 719468)

/-- From 0 for January. -/
def getUTCMonth (t : Int) : Nat := civilMonth ((dayOf t + 719468) % 146097).toNat - 1

def getUTCDate (t : Int) : Nat := civilDay ((dayOf t + 719468) % 146097).toNat

/-- From 0 for Sunday. -/
def getUTCDay (t : Int) : Nat := ((dayOf t + 4) % 7).toNat

def getUTCHours (t : Int) : Nat := (t % millisPerDay).toNat / 3600000

def getUTCMinutes (t : Int) : Nat := (t % millisPerDay).toNat / 60000 % 60

def getUTCSeconds (t : Int) : Nat := (t % millisPerDay).toNat / 1000 % 60

/-- `setUTCFullYear(year)`, with the month, the day and the time of day as they are. -/
def setUTCFullYear (t year : Int) : Option Int :=
  timeClip (dayNumber year (getUTCMonth t) (getUTCDate t) * millisPerDay + t % millisPerDay)

/-! ## The three forms -/

def HTTP_WEEKDAYS : List JsString :=
  [js "Sun", js "Mon", js "Tue", js "Wed", js "Thu", js "Fri", js "Sat"]

def HTTP_LONG_WEEKDAYS : List JsString :=
  [js "Sunday", js "Monday", js "Tuesday", js "Wednesday", js "Thursday", js "Friday",
    js "Saturday"]

def HTTP_MONTHS : List JsString :=
  [js "Jan", js "Feb", js "Mar", js "Apr", js "May", js "Jun", js "Jul", js "Aug", js "Sep",
    js "Oct", js "Nov", js "Dec"]

/-- The groups of a date, names by their index. -/
structure Parts where
  weekday : Nat
  day : Nat
  month : Nat
  year : Nat
  hour : Nat
  minute : Nat
  second : Nat

/-- What is left after a literal text. -/
def token (text s : JsString) : Option JsString :=
  if text.isPrefixOf s then some (s.drop text.length) else none

/-- Which of the names comes first, and what is left after it. -/
def oneOf : List JsString → JsString → Option (Nat × JsString)
  | [], _ => none
  | name :: names, s =>
    match token name s with
    | some rest => some (0, rest)
    | none => (oneOf names s).map fun (i, rest) => (i + 1, rest)

/-- `hh:mm:ss`. -/
def timeOfDay (s : JsString) : Option ((Nat × Nat × Nat) × JsString) := do
  let (hour, s) ← readDigits 2 s
  let s ← token [0x3A] s
  let (minute, s) ← readDigits 2 s
  let s ← token [0x3A] s
  let (second, s) ← readDigits 2 s
  some ((hour, minute, second), s)

/-- `Sun, 06 Nov 1994 08:49:37 GMT`. -/
def preferred (s : JsString) : Option Parts := do
  let (weekday, s) ← oneOf HTTP_WEEKDAYS s
  let s ← token (js ", ") s
  let (day, s) ← readDigits 2 s
  let s ← token (js " ") s
  let (month, s) ← oneOf HTTP_MONTHS s
  let s ← token (js " ") s
  let (year, s) ← readDigits 4 s
  let s ← token (js " ") s
  let ((hour, minute, second), s) ← timeOfDay s
  if s = js " GMT" then some { weekday, day, month, year, hour, minute, second } else none

/-- `Sunday, 06-Nov-94 08:49:37 GMT`. -/
def obsolete (s : JsString) : Option Parts := do
  let (weekday, s) ← oneOf HTTP_LONG_WEEKDAYS s
  let s ← token (js ", ") s
  let (day, s) ← readDigits 2 s
  let s ← token (js "-") s
  let (month, s) ← oneOf HTTP_MONTHS s
  let s ← token (js "-") s
  let (year, s) ← readDigits 2 s
  let s ← token (js " ") s
  let ((hour, minute, second), s) ← timeOfDay s
  if s = js " GMT" then some { weekday, day, month, year, hour, minute, second } else none

/-- A day of two digits, or of a blank and a digit. -/
def blankDay (s : JsString) : Option (Nat × JsString) :=
  match token (js " ") s with
  | some rest => readDigits 1 rest
  | none => readDigits 2 s

/-- `Sun Nov  6 08:49:37 1994`. -/
def asctime (s : JsString) : Option Parts := do
  let (weekday, s) ← oneOf HTTP_WEEKDAYS s
  let s ← token (js " ") s
  let (month, s) ← oneOf HTTP_MONTHS s
  let s ← token (js " ") s
  let (day, s) ← blankDay s
  let s ← token (js " ") s
  let ((hour, minute, second), s) ← timeOfDay s
  let s ← token (js " ") s
  let (year, s) ← readDigits 4 s
  if s = [] then some { weekday, day, month, year, hour, minute, second } else none

/-! ## Reading a date -/

def timeMillis (parts : Parts) : Int :=
  ((parts.hour * 60 + parts.minute) * 60 + parts.second) * 1000

/-- The date that the fields make in a year. -/
def atYear (parts : Parts) (year : Int) : Option Int :=
  (timeClip (dayNumber year parts.month parts.day * millisPerDay)).bind fun t =>
    timeClip (t + timeMillis parts)

/-- `a > b`, where nothing exceeds an invalid date. -/
def exceeds (a b : Option Int) : Bool :=
  match a, b with
  | some a, some b => decide (b < a)
  | _, _ => false

/-- The year of two digits, which is at most fifty years ahead. -/
def obsoleteYear (parts : Parts) (now : Date) : Int :=
  let currentYear := getUTCFullYear now.val
  let year := currentYear + (parts.year - currentYear.tmod 100 + 100).tmod 100
  let latest := setUTCFullYear now.val (currentYear + 50)
  if exceeds (atYear parts year) latest then year - 100 else year

/-- The date of the fields, if it has these fields. -/
def checkedDate (parts : Parts) (year : Int) : Option Int :=
  (atYear parts year).bind fun date =>
    if getUTCFullYear date ≠ year ∨ getUTCMonth date ≠ parts.month ∨
        getUTCDate date ≠ parts.day ∨ getUTCHours date ≠ parts.hour ∨
        getUTCMinutes date ≠ parts.minute ∨ getUTCSeconds date ≠ parts.second ∨
        getUTCDay date ≠ parts.weekday then none
    else some date

def httpDateMilliseconds (raw : JsString) (now : Date) : Option Int :=
  match preferred raw, obsolete raw, asctime raw with
  | some parts, _, _ => checkedDate parts parts.year
  | none, some parts, _ => checkedDate parts (obsoleteYear parts now)
  | none, none, some parts => checkedDate parts parts.year
  | none, none, none => none

/-- `Number(raw)` of decimal digits, before it is rounded. -/
def digitsValue (raw : JsString) : Nat := raw.foldl (fun n c => n * 10 + (c.toNat - 0x30)) 0

/-- A delay or a date. A product that is not safe is rounded to one that is not. -/
def retryAfterMilliseconds (value : Option JsString) (now : Date) : Option Int :=
  value.bind fun value =>
    let raw := trim value
    if raw ≠ [] ∧ raw.all isDigit then
      let milliseconds := digitsValue raw * 1000
      if milliseconds ≤ 9007199254740991 ∧ now.val + milliseconds ≤ 8640000000000000 then
        some milliseconds
      else none
    else (httpDateMilliseconds raw now).map fun date => max 0 (date - now.val)

end RetryAfter
