import HawkView.Lib.IsoTime
import Mathlib.Tactic.IntervalCases

/-!
# Months

Days are counted from 1970 and months from January of year 0. Every day lies in
its month, and the months follow each other without a gap.
-/

namespace IsoTime

/-- `Date.UTC(year, month, 1)`, in days. -/
def monthStart (month : Nat) : Int :=
  ((daysBeforeYear (month / 12) + daysBeforeMonth (month / 12) (month % 12 + 1) + 1 : Nat) : Int) -
    Clock.epochDays

/-- The month that a day falls in. -/
def monthOf (day : Nat) : Nat :=
  12 * (civilYear (day + 719468)).toNat + (civilMonth ((day + 719468) % 146097) - 1)

theorem daysBeforeMonth_twelve (year : Nat) :
    daysBeforeMonth year 12 + 31 = if leap year then 366 else 365 := by
  cases hleap : leap year <;> simp [daysBeforeMonth, daysInMonth, hleap]

theorem monthStart_succ (month : Nat) :
    monthStart (month + 1) = monthStart month + daysInMonth (month / 12) (month % 12 + 1) := by
  unfold monthStart
  by_cases hlast : month % 12 = 11
  · have hyear : (month + 1) / 12 = month / 12 + 1 := by omega
    have hmonth : (month + 1) % 12 = 0 := by omega
    have hfill : daysBeforeMonth (month / 12) (11 + 1) + 31 = _ := daysBeforeMonth_twelve _
    have hdecember : daysInMonth (month / 12) 12 = 31 := by simp [daysInMonth]
    have hjanuary : daysBeforeMonth (month / 12 + 1) 1 = 0 := rfl
    rw [hyear, hmonth, hlast, daysBeforeYear_succ, hdecember, Nat.zero_add, hjanuary]
    omega
  · have hyear : (month + 1) / 12 = month / 12 := by omega
    have hmonth : (month + 1) % 12 = month % 12 + 1 := by omega
    rw [hyear, hmonth, daysBeforeMonth, if_neg (by omega)]
    omega

theorem monthStart_mono {m n : Nat} (h : m ≤ n) : monthStart m ≤ monthStart n := by
  induction n with
  | zero =>
    have : m = 0 := by omega
    rw [this]
  | succ n ih =>
    by_cases heq : m = n + 1
    · rw [heq]
    · have := ih (by omega)
      rw [monthStart_succ]
      omega

/-! ## The day of the month -/

theorem plainDays_next : ∀ y < 399,
    365 * (y + 1) ≤ plainDays (365 * (y + 1) + (y + 1) / 4 - (y + 1) / 100) := by
  decide +kernel

/-- A day of an era comes before the next year from March, or it is a leap day in the last. -/
theorem yearDay_next {d : Nat} (hd : d < 146097) (hy : eraYear d < 399) :
    d < 365 * (eraYear d + 1) + (eraYear d + 1) / 4 - (eraYear d + 1) / 100 := by
  have hyear : eraYear d = plainDays d / 365 := rfl
  have hnext := plainDays_next (eraYear d) hy
  by_contra hge
  have hmono := plainDays_mono (Nat.le_of_not_lt hge) hd
  omega

theorem civilYear_nat (n : Nat) : (civilYear n).toNat = eraYear (n % 146097) + n / 146097 * 400 +
    if civilMonth (n % 146097) ≤ 2 then 1 else 0 := by
  have hmod : ((n : Int) % 146097).toNat = n % 146097 := by omega
  rw [civilYear, hmod]
  split <;> omega

/-- The leap days of a year from March are those before the next January. -/
theorem daysBeforeYear_era (era : Nat) {y : Nat} (hy : y < 400) :
    daysBeforeYear (y + era * 400 + 1) = 146097 * era + (365 * y + y / 4 - y / 100) + 366 := by
  have h4 : (y + era * 400 + 1 + 3) / 4 = y / 4 + 100 * era + 1 := by omega
  have h100 : (y + era * 400 + 1 + 99) / 100 = y / 100 + 4 * era + 1 := by omega
  have h400 : (y + era * 400 + 1 + 399) / 400 = era + 1 := by omega
  have hle : y / 100 ≤ y / 4 := by omega
  rw [daysBeforeYear, h4, h100, h400]
  omega

/-- The days before a month of the year that begins in March. -/
theorem daysBeforeMonth_march {year m : Nat} (h : m < 10) :
    daysBeforeMonth year (m + 3) = (153 * m + 2) / 5 + 59 + if leap year then 1 else 0 := by
  cases hleap : leap year <;> interval_cases m <;> simp [daysBeforeMonth, daysInMonth, hleap]

/-- A year from March has 366 days only when the February at its end has 29. -/
theorem yearDay_lt_leap {d era : Nat} (hd : d < 146097)
    (hleap : leap (eraYear d + era * 400 + 1) = false) : yearDay d < 365 := by
  obtain ⟨hlt, heq⟩ := yearDay_lt hd
  obtain ⟨hera, _⟩ := yearStart_le hd (y := eraYear d) rfl
  have hnext := yearDay_next hd
  generalize eraYear d = y at *
  have hrare : ¬((y + era * 400 + 1) % 4 = 0 ∧
      ((y + era * 400 + 1) % 100 ≠ 0 ∨ (y + era * 400 + 1) % 400 = 0)) := by
    simpa [leap] using hleap
  have hlast : y ≠ 399 := by
    rintro rfl
    omega
  have hbound := hnext (by omega)
  have h4 : (y + 1) / 4 = y / 4 + if (y + 1) % 4 = 0 then 1 else 0 := by
    split <;> omega
  have h100 : (y + 1) / 100 = y / 100 + if (y + 1) % 100 = 0 then 1 else 0 := by
    split <;> omega
  have hle : y / 100 ≤ y / 4 := by omega
  rw [h4, h100] at hbound
  split at hbound <;> split at hbound <;> omega

/-- The month with a number from March, in a year of an era. -/
def marchIndex (year m : Nat) : Nat :=
  12 * (year + if m < 10 then 0 else 1) + ((if m < 10 then m + 3 else m - 9) - 1)

theorem marchIndex_split (year : Nat) {m : Nat} (h : m < 12) :
    marchIndex year m / 12 = (year + if m < 10 then 0 else 1) ∧
      marchIndex year m % 12 + 1 = if m < 10 then m + 3 else m - 9 := by
  unfold marchIndex
  split <;> omega

theorem monthStart_march {y era m : Nat} (hy : y < 400) (hm : m < 12) :
    monthStart (marchIndex (y + era * 400) m) =
      ((146097 * era + (365 * y + y / 4 - y / 100) + (153 * m + 2) / 5 : Nat) : Int) - 719468 := by
  obtain ⟨hyear, hmonth⟩ := marchIndex_split (y + era * 400) hm
  have hera := daysBeforeYear_era era hy
  rw [monthStart, hyear, hmonth, Clock.epochDays]
  by_cases hten : m < 10
  · rw [if_pos hten, if_pos hten, Nat.add_zero (y + era * 400), daysBeforeMonth_march hten]
    rw [daysBeforeYear_succ] at hera
    by_cases hl : leap (y + era * 400) = true
    · rw [if_pos hl] at hera ⊢
      omega
    · rw [if_neg hl] at hera ⊢
      omega
  · rw [if_neg hten, if_neg hten, hera]
    have htwo : m = 10 ∨ m = 11 := by omega
    rcases htwo with rfl | rfl <;> simp only [daysBeforeMonth, daysInMonth] <;> simp <;> omega

/-- The days of a month that begins a year in March, or ends it. -/
theorem monthLength_march {year m q : Nat} (hm : m < 12) (hmarch : m = (5 * q + 2) / 153)
    (hq : q < 366) (hleap : leap (year + 1) = false → q < 365) :
    q - (153 * m + 2) / 5 + 1 ≤
      daysInMonth (marchIndex year m / 12) (marchIndex year m % 12 + 1) := by
  obtain ⟨hyear, hmonth⟩ := marchIndex_split year hm
  rw [hyear, hmonth]
  unfold daysInMonth
  interval_cases m <;> simp <;> try omega
  split
  · omega
  · rename_i hl
    have := hleap (by simpa using hl)
    omega

theorem monthOf_march (day : Nat) : monthOf day =
    marchIndex (eraYear ((day + 719468) % 146097) + (day + 719468) / 146097 * 400)
      (marchMonth ((day + 719468) % 146097)) := by
  have hcast : ((day : Int) + 719468) = ((day + 719468 : Nat) : Int) := by omega
  have hbound := marchMonth_lt (Nat.mod_lt (day + 719468) (show 0 < 146097 by omega))
  rw [monthOf, hcast, civilYear_nat, marchIndex, civilMonth]
  split
  · rw [if_neg (by omega)]
  · rw [if_pos (by omega)]

/-- A day is the day of its month. -/
theorem monthOf_day (day : Nat) :
    monthStart (monthOf day) + civilDay ((day + 719468) % 146097) = day + 1 ∧
      1 ≤ civilDay ((day + 719468) % 146097) ∧
      civilDay ((day + 719468) % 146097) ≤
        daysInMonth (monthOf day / 12) (monthOf day % 12 + 1) := by
  have hd : (day + 719468) % 146097 < 146097 := Nat.mod_lt _ (by omega)
  have hsplit := Nat.div_add_mod (day + 719468) 146097
  obtain ⟨hlt, heq⟩ := yearDay_lt hd
  obtain ⟨hy, _⟩ := yearStart_le hd (y := eraYear ((day + 719468) % 146097)) rfl
  have hm := marchMonth_lt hd
  have hmarch : marchMonth ((day + 719468) % 146097) =
    (5 * yearDay ((day + 719468) % 146097) + 2) / 153 := rfl
  rw [monthOf_march, monthStart_march hy hm]
  refine ⟨?_, Nat.le_add_left _ _, ?_⟩
  · unfold civilDay
    omega
  · exact monthLength_march hm hmarch hlt (yearDay_lt_leap hd)

/-- A day lies in a month exactly when it is that of the day. -/
theorem monthOf_eq_iff {day other : Nat} :
    monthOf other = monthOf day ↔
      monthStart (monthOf day) ≤ other ∧ other < monthStart (monthOf day + 1) := by
  obtain ⟨hday, hlow, hhigh⟩ := monthOf_day day
  obtain ⟨hother, hlow', hhigh'⟩ := monthOf_day other
  have hnext := monthStart_succ (monthOf day)
  have hnext' := monthStart_succ (monthOf other)
  constructor
  · intro heq
    rw [← heq]
    constructor <;> omega
  · rintro ⟨hstart, hend⟩
    rcases Nat.lt_trichotomy (monthOf other) (monthOf day) with hlt | heq | hgt
    · have := monthStart_mono (show monthOf other + 1 ≤ monthOf day from hlt)
      omega
    · exact heq
    · have := monthStart_mono (show monthOf day + 1 ≤ monthOf other from hgt)
      omega

example : (monthOf 19782, monthStart (monthOf 19782), monthStart (monthOf 19782 + 1)) =
    (24289, 19754, 19783) := by decide

/-! ## Years and eras -/

theorem leap_era (year : Nat) : leap (year + 400) = leap year := by
  have h4 : (year + 400) % 4 = year % 4 := by omega
  have h100 : (year + 400) % 100 = year % 100 := by omega
  have h400 : (year + 400) % 400 = year % 400 := by omega
  rw [leap, leap, h4, h100, h400]

theorem daysBeforeMonth_era (year month : Nat) :
    daysBeforeMonth (year + 400) month = daysBeforeMonth year month := by
  induction month with
  | zero => rfl
  | succ month ih => rw [daysBeforeMonth, daysBeforeMonth, ih, daysInMonth, daysInMonth, leap_era]

/-- The months of an era take as many days as those of any other. -/
theorem monthStart_eras (month k : Nat) :
    monthStart (month + 4800 * k) = monthStart month + 146097 * k := by
  induction k with
  | zero => simp
  | succ k ih =>
    have hyear : (month + 4800 * (k + 1)) / 12 = (month + 4800 * k) / 12 + 400 := by omega
    have hmonth : (month + 4800 * (k + 1)) % 12 = (month + 4800 * k) % 12 := by omega
    have hdays : daysBeforeYear ((month + 4800 * k) / 12 + 400) =
        daysBeforeYear ((month + 4800 * k) / 12) + 146097 := by
      unfold daysBeforeYear
      omega
    rw [monthStart] at ih ⊢
    rw [hyear, hmonth, hdays, daysBeforeMonth_era]
    omega

/-- The months of a year come before the next year, each with 31 days to spare. -/
theorem monthStart_within {year month : Nat} (h : month < 12) :
    monthStart (12 * year) ≤ monthStart (12 * year + month) ∧
      monthStart (12 * year + month) + 31 ≤ monthStart (12 * (year + 1)) := by
  constructor
  · exact monthStart_mono (Nat.le_add_right _ _)
  · have hlast := monthStart_mono (show 12 * year + month ≤ 12 * year + 11 by omega)
    have hnext := monthStart_succ (12 * year + 11)
    have hdecember : daysInMonth ((12 * year + 11) / 12) ((12 * year + 11) % 12 + 1) = 31 := by
      have hmonth : (12 * year + 11) % 12 = 11 := by omega
      rw [hmonth]
      rfl
    rw [hdecember] at hnext
    have hsucc : 12 * year + 11 + 1 = 12 * (year + 1) := by omega
    rw [hsucc] at hnext
    omega

/-! ## Writing a clock -/

/-- A day lies in one month only. -/
theorem monthOf_unique {month day : Nat} (first : monthStart month ≤ day)
    (last : (day : Int) < monthStart (month + 1)) : monthOf day = month := by
  obtain ⟨hday, hlow, hhigh⟩ := monthOf_day day
  have hnext := monthStart_succ (monthOf day)
  rcases Nat.lt_trichotomy (monthOf day) month with hlt | heq | hgt
  · have := monthStart_mono (show monthOf day + 1 ≤ month from hlt)
    omega
  · exact heq
  · have := monthStart_mono (show month + 1 ≤ monthOf day from hgt)
    omega

theorem civilMonth_pos (d : Nat) : 1 ≤ civilMonth d := by
  rw [civilMonth]
  split <;> omega

theorem daysInMonth_eras (year month k : Nat) :
    daysInMonth (year + 400 * k) month = daysInMonth year month := by
  induction k with
  | zero => rfl
  | succ k ih =>
    rw [← ih, Nat.mul_succ, ← Nat.add_assoc, daysInMonth, daysInMonth, leap_era]

/-- The day of a clock has its year, its month and its day. -/
theorem civil_clock {c : Clock} (h : c.valid = true) {day : Int}
    (hday : day = (c.days : Int) - Clock.epochDays) :
    civilYear (day + 719468) = c.year ∧
      civilMonth ((day + 719468) % 146097).toNat = c.month ∧
      civilDay ((day + 719468) % 146097).toNat = c.day := by
  obtain ⟨-, hm, hm', hd, hd', -⟩ := c.valid_iff.mp h
  rw [Clock.days, Clock.epochDays] at hday
  -- the same day of a later era, so that it has a natural number
  obtain ⟨later, hlater⟩ : ∃ later : Nat, (later : Int) = day + 146097 * 5 :=
    ⟨(day + 146097 * 5).toNat, by omega⟩
  have hstart := monthStart_eras (12 * c.year + (c.month - 1)) 5
  have hindex : 12 * c.year + (c.month - 1) + 4800 * 5 =
      12 * (c.year + 400 * 5) + (c.month - 1) := by omega
  have hyear : (12 * c.year + (c.month - 1)) / 12 = c.year := by omega
  have hmonth : (12 * c.year + (c.month - 1)) % 12 + 1 = c.month := by omega
  have hfirst : monthStart (12 * c.year + (c.month - 1)) =
      ((daysBeforeYear c.year + daysBeforeMonth c.year c.month + 1 : Nat) : Int) - 719529 := by
    rw [monthStart, hyear, hmonth, Clock.epochDays]
    rfl
  rw [hindex, hfirst] at hstart
  have hnext := monthStart_succ (12 * (c.year + 400 * 5) + (c.month - 1))
  have hyear' : (12 * (c.year + 400 * 5) + (c.month - 1)) / 12 = c.year + 400 * 5 := by omega
  have hmonth' : (12 * (c.year + 400 * 5) + (c.month - 1)) % 12 + 1 = c.month := by omega
  rw [hyear', hmonth', daysInMonth_eras] at hnext
  have hunique : monthOf later = 12 * (c.year + 400 * 5) + (c.month - 1) :=
    monthOf_unique (by omega) (by omega)
  obtain ⟨hof, -, -⟩ := monthOf_day later
  rw [hunique] at hof
  rw [monthOf] at hunique
  have hcast : (later : Int) + 719468 = (day + 719468) + 146097 * 5 := by omega
  have hcount : ((later + 719468 : Nat) : Int) = (day + 719468) + 146097 * 5 := by omega
  generalize later + 719468 = later' at hof hunique hcount
  generalize day + 719468 = day' at hcast hcount ⊢
  have hera : later' % 146097 = (day' % 146097).toNat := by omega
  have hcivil : civilYear ((later : Int) + 719468) = civilYear day' + 400 * 5 := by
    rw [hcast, civilYear, civilYear, Int.add_mul_emod_self_left,
      Int.add_mul_ediv_left _ _ (by omega)]
    omega
  rw [hera] at hof
  rw [hera, hcivil] at hunique
  have hlow := civilMonth_pos (day' % 146097).toNat
  have hhigh := @civilMonth_lt (day' % 146097).toNat (by omega)
  refine ⟨?_, by omega, by omega⟩
  omega

/-- `toISOString` writes the text of a clock. -/
theorem toISOString_text {c : Clock} (h : c.valid = true) : toISOString c.millis = c.text := by
  obtain ⟨hyear, -, -, -, -, hhour, hminute, hsecond, hmilli⟩ := c.valid_iff.mp h
  have hday : c.millis / 86400000 = (c.days : Int) - Clock.epochDays := by
    rw [Clock.millis]
    omega
  obtain ⟨hcivilYear, hcivilMonth, hcivilDay⟩ := civil_clock h hday
  have htime : (c.millis % 86400000).toNat =
      ((c.hour * 60 + c.minute) * 60 + c.second) * 1000 + c.milli := by
    rw [Clock.millis]
    omega
  have hh : (((c.hour * 60 + c.minute) * 60 + c.second) * 1000 + c.milli) / 3600000 = c.hour := by
    omega
  have hm : (((c.hour * 60 + c.minute) * 60 + c.second) * 1000 + c.milli) / 60000 % 60 =
      c.minute := by omega
  have hs : (((c.hour * 60 + c.minute) * 60 + c.second) * 1000 + c.milli) / 1000 % 60 =
      c.second := by omega
  have hms : (((c.hour * 60 + c.minute) * 60 + c.second) * 1000 + c.milli) % 1000 = c.milli := by
    omega
  have htext : yearText (c.year : Int) = pad 4 c.year := by
    rw [yearText, if_pos (by omega), Int.toNat_natCast]
  rw [toISOString_eq, hcivilYear, hcivilMonth, hcivilDay, htime, hh, hm, hs, hms, htext, Clock.text]

/-- What `utcTime` reads comes from a clock. -/
theorem clock_of_utcTime {s : JsString} {t : Int} (h : utcTime s = some t) :
    ∃ c : Clock, c.valid = true ∧ c.millis = t := by
  rw [utcTime] at h
  obtain ⟨c, hc, rfl⟩ := Option.map_eq_some_iff.mp h
  exact ⟨c, (Option.filter_eq_some_iff.mp hc).2, rfl⟩

end IsoTime
