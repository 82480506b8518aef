import HawkView.Microsoft.RetryAfter

/-!
# The dates of the header `Retry-After`

The date that the fields make has these fields exactly when the calendar has such a
date. The year of two digits is the last one that lies at most fifty years ahead,
unless there are no more dates a century after the date.
-/

namespace RetryAfter

open JsString IsoTime
open ChangeEvidence (Date)

/-! ## The calendar -/

theorem dayNumber_era (year : Nat) (era : Int) (month day : Nat) :
    dayNumber (year + 400 * era) month day =
      monthStart (12 * year + month) + 146097 * era + day - 1 := by
  have hmod : ((year + 400 * era : Int) % 400).toNat = year % 400 := by omega
  have hdiv : (year + 400 * era : Int) / 400 = ((year / 400 : Nat) : Int) + era := by omega
  have hsplit : 12 * year + month = 12 * (year % 400) + month + 4800 * (year / 400) := by omega
  have heras := monthStart_eras (12 * (year % 400) + month) (year / 400)
  rw [dayNumber, hmod, hdiv, hsplit, heras]
  omega

/-- A day is the one that its year, its month and its day of the month make. -/
theorem dayNumber_civil (t : Int) :
    dayNumber (getUTCFullYear t) (getUTCMonth t) (getUTCDate t) = dayOf t := by
  rw [getUTCFullYear, getUTCMonth, getUTCDate]
  have hsplit : dayOf t + 719468 = ((dayOf t + 719468) % 146097).toNat +
      146097 * ((dayOf t + 719468) / 146097) := by omega
  have hlt : ((dayOf t + 719468) % 146097).toNat < 146097 := by omega
  rw [civilYear]
  generalize (dayOf t + 719468) / 146097 = era at *
  generalize ((dayOf t + 719468) % 146097).toNat = n at *
  -- the same day of a later era, which has a natural number
  obtain ⟨day, hshift⟩ : ∃ day : Nat, day + 719468 = n + 146097 * 5 := ⟨n + 11017, by omega⟩
  have hday := (monthOf_day day).1
  have hcast : (day : Int) + 719468 = ((n + 146097 * 5 : Nat) : Int) := by omega
  rw [monthOf, hcast, hshift, Nat.add_mul_mod_self_left, Nat.mod_eq_of_lt hlt, civilYear_nat,
    Nat.add_mul_mod_self_left, Nat.mod_eq_of_lt hlt, Nat.add_mul_div_left _ _ (by omega),
    Nat.div_eq_of_lt hlt] at hday
  generalize hyear : eraYear n + (0 + 5) * 400 + (if civilMonth n ≤ 2 then 1 else 0) = year at hday
  have hcivil : (eraYear n : Int) + era * 400 + (if civilMonth n ≤ 2 then 1 else 0) =
      (year : Int) + 400 * (era - 5) := by
    rw [← hyear]
    split <;> omega
  rw [hcivil, dayNumber_era]
  omega

theorem getUTCMonth_lt (t : Int) : getUTCMonth t < 12 := by
  have hlt : ((dayOf t + 719468) % 146097).toNat < 146097 := by omega
  have := civilMonth_lt hlt
  rw [getUTCMonth]
  omega

theorem getUTCDate_range (t : Int) : 1 ≤ getUTCDate t ∧ getUTCDate t ≤ 31 := by
  have hlt : ((dayOf t + 719468) % 146097).toNat < 146097 := by omega
  rw [getUTCDate]
  generalize ((dayOf t + 719468) % 146097).toNat = n at *
  obtain ⟨day, hshift⟩ : ∃ day : Nat, day + 719468 = n + 146097 * 5 := ⟨n + 11017, by omega⟩
  obtain ⟨-, hlow, hhigh⟩ := monthOf_day day
  have hlength : daysInMonth (monthOf day / 12) (monthOf day % 12 + 1) ≤ 31 := by
    unfold daysInMonth
    split
    · split <;> omega
    · split <;> omega
  rw [hshift, Nat.add_mul_mod_self_left, Nat.mod_eq_of_lt hlt] at hlow hhigh
  omega

/-- A day of a year comes before every day of a later one. -/
theorem dayNumber_lt {year year' : Int} {month month' day day' : Nat} (h : year < year')
    (hmonth : month < 12) (hday : day ≤ 31) (hday' : 1 ≤ day') :
    dayNumber year month day < dayNumber year' month' day' := by
  have hyear : year = ((year % 400).toNat : Int) + 400 * (year / 400) := by omega
  have hyear' : year' = ((year' - 400 * (year / 400)).toNat : Int) + 400 * (year / 400) := by omega
  have hlt : (year % 400).toNat + 1 ≤ (year' - 400 * (year / 400)).toNat := by omega
  rw [hyear, hyear']
  generalize (year % 400).toNat = a at *
  generalize (year' - 400 * (year / 400)).toNat = b at *
  have hwithin := (@monthStart_within a month hmonth).2
  have hmono := monthStart_mono (show 12 * (a + 1) ≤ 12 * b + month' by omega)
  have ha := dayNumber_era a (year / 400) month day
  have hb := dayNumber_era b (year / 400) month' day'
  generalize year / 400 = era at *
  omega

/-- The month, the day and the time of an instant, in another year. -/
def inYear (t year : Int) : Int :=
  dayNumber year (getUTCMonth t) (getUTCDate t) * millisPerDay + t % millisPerDay

theorem inYear_self (t : Int) : inYear t (getUTCFullYear t) = t := by
  rw [inYear, dayNumber_civil, dayOf, millisPerDay]
  omega

theorem inYear_lt {t u year year' : Int} (h : year < year') : inYear t year < inYear u year' := by
  have hdays := @dayNumber_lt year year' (getUTCMonth t) (getUTCMonth u) (getUTCDate t)
    (getUTCDate u) h (getUTCMonth_lt t) (getUTCDate_range t).2 (getUTCDate_range u).1
  rw [inYear, inYear, millisPerDay]
  omega

/-! ## The date of the fields -/

/-- The instant has the fields, whatever its year is. -/
structure HasFields (t : Int) (parts : Parts) : Prop where
  month : getUTCMonth t = parts.month
  day : getUTCDate t = parts.day
  hour : getUTCHours t = parts.hour
  minute : getUTCMinutes t = parts.minute
  second : getUTCSeconds t = parts.second
  weekday : getUTCDay t = parts.weekday

/-- A date that HTTP can name. -/
def WholeSecond (t : Int) : Prop := InDateRange t ∧ t % 1000 = 0

theorem timeMillis_of_fields {t : Int} {parts : Parts} (h : HasFields t parts)
    (whole : t % 1000 = 0) : timeMillis parts = t % millisPerDay := by
  rw [timeMillis, ← h.hour, ← h.minute, ← h.second, getUTCHours, getUTCMinutes, getUTCSeconds,
    millisPerDay]
  omega

theorem timeClip_some {t u : Int} : timeClip t = some u ↔ InDateRange t ∧ t = u := by
  rw [timeClip]
  split
  · rename_i h
    simp [h]
  · rename_i h
    simp [h]

/-- The fields in another year make the same month, day and time there, if there is a date. -/
theorem atYear_of_fields {t year u : Int} {parts : Parts} (h : HasFields t parts)
    (whole : t % 1000 = 0) :
    atYear parts year = some u ↔ InDateRange (inYear t year) ∧ inYear t year = u := by
  rw [atYear, timeMillis_of_fields h whole, ← h.month, ← h.day, inYear]
  simp only [Option.bind_eq_some_iff, timeClip_some]
  constructor
  · rintro ⟨_, ⟨_, rfl⟩, hrange, rfl⟩
    exact ⟨hrange, rfl⟩
  · rintro ⟨hrange, rfl⟩
    refine ⟨_, ⟨?_, rfl⟩, hrange, rfl⟩
    rw [InDateRange, millisPerDay] at hrange ⊢
    omega

theorem checkedDate_iff {parts : Parts} {year t : Int} :
    checkedDate parts year = some t ↔
      WholeSecond t ∧ HasFields t parts ∧ getUTCFullYear t = year := by
  rw [checkedDate, Option.bind_eq_some_iff]
  constructor
  · rintro ⟨date, hdate, hchecked⟩
    split at hchecked
    · cases hchecked
    · rename_i hfields
      cases hchecked
      simp only [not_or, not_not] at hfields
      obtain ⟨hyear, hmonth, hday, hhour, hminute, hsecond, hweekday⟩ := hfields
      refine ⟨?_, ⟨hmonth, hday, hhour, hminute, hsecond, hweekday⟩, hyear⟩
      obtain ⟨start, hstart, hdate⟩ := Option.bind_eq_some_iff.mp hdate
      obtain ⟨hrange, rfl⟩ := timeClip_some.mp hdate
      obtain ⟨-, rfl⟩ := timeClip_some.mp hstart
      refine ⟨hrange, ?_⟩
      rw [timeMillis, millisPerDay]
      omega
  · rintro ⟨⟨hrange, hwhole⟩, hfields, rfl⟩
    refine ⟨t, (atYear_of_fields hfields hwhole).mpr ?_, ?_⟩
    · rw [inYear_self]
      exact ⟨hrange, rfl⟩
    · rw [if_neg]
      simp only [not_or, not_not]
      exact ⟨trivial, hfields.month, hfields.day, hfields.hour, hfields.minute, hfields.second,
        hfields.weekday⟩

/-! ## The year of two digits -/

/-- The last date with the same fields and two digits that is at most fifty years ahead. -/
def InWindow (now t : Int) : Prop :=
  t ≤ inYear now (getUTCFullYear now + 50) ∧
    inYear now (getUTCFullYear now + 50) < inYear t (getUTCFullYear t + 100)

/-- A date of an earlier year a century after which there are no more dates. -/
def Stranded (now t : Int) : Prop :=
  getUTCFullYear t < getUTCFullYear now ∧
    8640000000000000 < inYear t (getUTCFullYear t + 100)

theorem InWindow.near {now t : Int} (h : InWindow now t) :
    getUTCFullYear now - 50 ≤ getUTCFullYear t ∧
      getUTCFullYear t ≤ getUTCFullYear now + 50 := by
  obtain ⟨hbefore, hafter⟩ := h
  constructor
  · by_contra hlt
    have := @inYear_lt t now (getUTCFullYear t + 100) (getUTCFullYear now + 50) (by omega)
    omega
  · by_contra hgt
    have hlater := @inYear_lt now t (getUTCFullYear now + 50) (getUTCFullYear t) (by omega)
    rw [inYear_self] at hlater
    omega

/-- The first year with the two digits, from the current one on. -/
def nextYear (parts : Parts) (now : Int) : Int :=
  getUTCFullYear now + (parts.year - (getUTCFullYear now).tmod 100 + 100).tmod 100

theorem nextYear_range {parts : Parts} (h : parts.year < 100) (now : Int) :
    getUTCFullYear now ≤ nextYear parts now ∧
      nextYear parts now < getUTCFullYear now + 100 ∧
      nextYear parts now % 100 = parts.year := by
  rw [nextYear]
  generalize getUTCFullYear now = current
  have hlow := Int.lt_tmod_of_pos current (show (0 : Int) < 100 by omega)
  have hhigh := Int.tmod_lt_of_pos current (show (0 : Int) < 100 by omega)
  have hsplit := Int.mul_tdiv_add_tmod current 100
  generalize current.tmod 100 = digits at *
  rw [Int.tmod_eq_emod_of_nonneg (by omega)]
  omega

/-- What the two digits are read as. -/
theorem obsoleteYear_cases (parts : Parts) (now : Date) :
    (∃ a, atYear parts (nextYear parts now.val) = some a ∧
      InDateRange (inYear now.val (getUTCFullYear now.val + 50)) ∧
      inYear now.val (getUTCFullYear now.val + 50) < a ∧
      obsoleteYear parts now = nextYear parts now.val - 100) ∨
    (∀ a, atYear parts (nextYear parts now.val) = some a →
      InDateRange (inYear now.val (getUTCFullYear now.val + 50)) →
      a ≤ inYear now.val (getUTCFullYear now.val + 50)) ∧
    obsoleteYear parts now = nextYear parts now.val := by
  have hyear : obsoleteYear parts now =
      if exceeds (atYear parts (nextYear parts now.val))
          (timeClip (inYear now.val (getUTCFullYear now.val + 50))) then
        nextYear parts now.val - 100
      else nextYear parts now.val := rfl
  rw [hyear]
  cases hat : atYear parts (nextYear parts now.val) with
  | none =>
    right
    exact ⟨nofun, rfl⟩
  | some a =>
    by_cases hrange : InDateRange (inYear now.val (getUTCFullYear now.val + 50))
    · rw [timeClip, if_pos hrange]
      by_cases hlt : inYear now.val (getUTCFullYear now.val + 50) < a
      · left
        exact ⟨a, rfl, hrange, hlt, by simp [exceeds, hlt]⟩
      · right
        refine ⟨fun b hb _ => ?_, by simp [exceeds, hlt]⟩
        cases hb
        omega
    · right
      rw [timeClip, if_neg hrange]
      exact ⟨fun _ _ h => absurd h hrange, rfl⟩

theorem checkedDate_obsolete {parts : Parts} (h : parts.year < 100) {now : Date} {t : Int} :
    checkedDate parts (obsoleteYear parts now) = some t ↔
      (WholeSecond t ∧ HasFields t parts ∧ getUTCFullYear t % 100 = parts.year) ∧
        InWindow now.val t ∧ ¬Stranded now.val t := by
  obtain ⟨hfrom, hbelow, hdigits⟩ := nextYear_range h now.val
  have hnow := now.property
  have hlater := @inYear_lt now.val now.val (getUTCFullYear now.val)
    (getUTCFullYear now.val + 50) (by omega)
  rw [inYear_self] at hlater
  rw [checkedDate_iff]
  constructor
  · rintro ⟨hwhole, hfields, hyear⟩
    have hat : ∀ {year u}, atYear parts year = some u ↔
        InDateRange (inYear t year) ∧ inYear t year = u :=
      fun {_ _} => atYear_of_fields hfields hwhole.2
    rcases obsoleteYear_cases parts now with ⟨a, ha, hrange, hlt, hpast⟩ | ⟨hle, hsame⟩
    · obtain ⟨harange, rfl⟩ := hat.mp ha
      have hyear' : getUTCFullYear t = nextYear parts now.val - 100 := hyear.trans hpast
      have hnext : getUTCFullYear t + 100 = nextYear parts now.val := by omega
      have hbefore := @inYear_lt t now.val (getUTCFullYear t) (getUTCFullYear now.val + 50)
        (by omega)
      rw [inYear_self] at hbefore
      refine ⟨⟨hwhole, hfields, by omega⟩, ⟨Int.le_of_lt hbefore, ?_⟩, ?_⟩
      · rw [hnext]
        exact hlt
      · rintro ⟨-, hlost⟩
        rw [hnext] at hlost
        have := harange.2
        omega
    · have hyear' : getUTCFullYear t = nextYear parts now.val := hyear.trans hsame
      have hself := inYear_self t
      rw [hyear'] at hself
      have hreached := hle t (hat.mpr ⟨by rw [hself]; exact hwhole.1, hself⟩)
      refine ⟨⟨hwhole, hfields, by omega⟩, ⟨?_, inYear_lt (by omega)⟩, ?_⟩
      · by_cases hrange : InDateRange (inYear now.val (getUTCFullYear now.val + 50))
        · exact hreached hrange
        · have htop := hwhole.1.2
          have hbottom := hnow.1
          by_contra hgt
          exact hrange ⟨by omega, by omega⟩
      · rintro ⟨hearlier, -⟩
        omega
  · rintro ⟨⟨hwhole, hfields, hyear⟩, hwindow, hkept⟩
    refine ⟨hwhole, hfields, ?_⟩
    have hat : ∀ {year u}, atYear parts year = some u ↔
        InDateRange (inYear t year) ∧ inYear t year = u :=
      fun {_ _} => atYear_of_fields hfields hwhole.2
    obtain ⟨hnear, hnear'⟩ := hwindow.near
    rcases obsoleteYear_cases parts now with ⟨a, ha, hrange, hlt, hpast⟩ | ⟨hle, hsame⟩
    · rw [hpast]
      by_contra hne
      have hsame : nextYear parts now.val = getUTCFullYear t := by omega
      obtain ⟨-, rfl⟩ := hat.mp ha
      rw [hsame, inYear_self] at hlt
      have := hwindow.1
      omega
    · rw [hsame]
      by_contra hne
      have hnext : nextYear parts now.val = getUTCFullYear t + 100 := by omega
      have hlate : inYear t (getUTCFullYear t + 100) ≤ 8640000000000000 := by
        by_contra hgt
        exact hkept ⟨by omega, by omega⟩
      have hgrows := hwindow.2
      have hbottom := hnow.1
      have hreached := hle (inYear t (getUTCFullYear t + 100))
        (hat.mpr (by rw [hnext]; exact ⟨⟨by omega, hlate⟩, rfl⟩)) ⟨by omega, by omega⟩
      omega

end RetryAfter
