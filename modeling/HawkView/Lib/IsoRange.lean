import HawkView.Lib.UtcMonth

/-!
# Instants of four-digit years

The texts with three fraction digits and a year of four digits are those that `toISOString`
writes of the instants of the years from 0 to 9999, and reading such a text gives the instant
back.
-/

namespace IsoTime

open List Option

def FourDigitYear (t : Int) : Prop := -62167219200000 ≤ t ∧ t < 253402300800000

instance (t : Int) : Decidable (FourDigitYear t) :=
  inferInstanceAs (Decidable (-62167219200000 ≤ t ∧ t < 253402300800000))

/-! ## Reading a written text -/

theorem field_pad {w n : Nat} {sep : UInt16} (h : n < 10 ^ w) (rest : JsString) :
    field w sep (pad w n ++ sep :: rest) = some (n, rest) := by
  rw [field, readDigits_pad h, bind_some]
  simp

theorem pad_isDigit (w n : Nat) : ∀ c ∈ pad w n, isDigit c = true := by
  induction w generalizing n with
  | zero => exact fun c hc => absurd hc not_mem_nil
  | succ w ih =>
    intro c hc
    rcases mem_cons.mp hc with rfl | hc
    · exact isDigit_digitUnit (Nat.mod_lt _ (by omega))
    · exact ih _ c hc

theorem fraction_pad {n : Nat} (h : n < 1000) : fraction (0x2E :: (pad 3 n ++ [0x5A])) = some n := by
  have htake : (pad 3 n ++ [0x5A]).takeWhile isDigit = pad 3 n := by
    rw [takeWhile_append_of_pos (pad_isDigit 3 n)]
    simp [isDigit]
  have hlength : (pad 3 n).length = 3 := length_pad 3 n
  have hread : readDigits 3 (pad 3 n) = some (n, []) := by
    simpa using readDigits_pad (w := 3) h []
  simp only [fraction, htake, hlength, drop_left' hlength, take_of_length_le hlength.le,
    Nat.sub_self, replicate_zero, append_nil, hread]
  simp

theorem utcTime_text {c : Clock} (h : c.valid = true) : utcTime c.text = some c.millis := by
  obtain ⟨hyear, hmonth, hmonth', hday, hday', hhour, hminute, hsecond, hmilli⟩ :=
    c.valid_iff.mp h
  have hbound : daysInMonth c.year c.month < 100 := by
    unfold daysInMonth
    split_ifs <;> omega
  have hread : readClock c.text = some c := by
    simp only [readClock, Clock.text, bind_eq_bind,
      field_pad (show c.year < 10 ^ 4 by omega), field_pad (show c.month < 10 ^ 2 by omega),
      field_pad (show c.day < 10 ^ 2 by omega), field_pad (show c.hour < 10 ^ 2 by omega),
      field_pad (show c.minute < 10 ^ 2 by omega), readDigits_pad (show c.second < 10 ^ 2 by omega),
      fraction_pad hmilli, bind_some]
    rfl
  rw [utcTime, hread, filter_some, if_pos h, map_some]

theorem canonical_text (c : Clock) : Canonical c.text := by
  simp [Canonical, Clock.text, length_pad]

/-! ## The clock of an instant -/

/-- Every day from the first of year 0 to the last of year 9999 has a date. -/
theorem exists_date (n : Nat) (h : n < daysBeforeYear 10000) :
    ∃ y m d, y < 10000 ∧ (1 ≤ m ∧ m ≤ 12) ∧ (1 ≤ d ∧ d ≤ daysInMonth y m) ∧
      daysBeforeYear y + daysBeforeMonth y m + d = n + 1 := by
  induction n with
  | zero => exact ⟨0, 1, 1, by decide, by decide, by decide, by decide⟩
  | succ n ih =>
    obtain ⟨y, m, d, hy, ⟨hm, hm'⟩, ⟨hd, hd'⟩, hdays⟩ := ih (by omega)
    by_cases hmore : d < daysInMonth y m
    · exact ⟨y, m, d + 1, hy, ⟨hm, hm'⟩, ⟨by omega, hmore⟩, by omega⟩
    · by_cases hmonth : m < 12
      · have hnext : daysBeforeMonth y (m + 1) = daysBeforeMonth y m + daysInMonth y m := by
          rw [daysBeforeMonth, if_neg (by omega)]
        have hlong : 1 ≤ daysInMonth y (m + 1) := by
          unfold daysInMonth
          split_ifs <;> omega
        exact ⟨y, m + 1, 1, hy, ⟨by omega, hmonth⟩, ⟨le_rfl, hlong⟩, by omega⟩
      · obtain rfl : m = 12 := by omega
        have hfull : daysBeforeMonth y 12 + daysInMonth y 12 = if leap y then 366 else 365 := by
          cases hleap : leap y <;> simp [daysBeforeMonth, daysInMonth, hleap]
        have hsucc := daysBeforeYear_succ y
        have hyear : y + 1 < 10000 := by
          by_contra hlast
          have heq : y + 1 = 10000 := by omega
          rw [heq] at hsucc
          omega
        have hfirst : daysBeforeMonth (y + 1) 1 = 0 := rfl
        exact ⟨y + 1, 1, 1, hyear, by omega, ⟨le_rfl, by simp [daysInMonth]⟩, by omega⟩

variable {t : Int}

theorem exists_clock (h : FourDigitYear t) :
    ∃ c : Clock, c.valid = true ∧ c.millis = t := by
  obtain ⟨hlow, hhigh⟩ := h
  have hlast : daysBeforeYear 10000 = 3652425 := by decide
  obtain ⟨y, m, d, hy, hm, hd, hdays⟩ := exists_date (t / 86400000 + 719528).toNat (by omega)
  have hms : t % 86400000 < 86400000 := Int.emod_lt_of_pos t (by omega)
  refine ⟨⟨y, m, d, (t % 86400000).toNat / 3600000, (t % 86400000).toNat / 60000 % 60,
    (t % 86400000).toNat / 1000 % 60, (t % 86400000).toNat % 1000⟩, ?_, ?_⟩
  · rw [Clock.valid_iff]
    refine ⟨hy, hm.1, hm.2, hd.1, hd.2, ?_, ?_, ?_, ?_⟩ <;> simp only <;> omega
  · simp only [Clock.millis, Clock.days, Clock.epochDays]
    rw [hdays]
    omega

theorem fourDigitYear_clock {c : Clock} (h : c.valid = true) : FourDigitYear c.millis := by
  obtain ⟨hyear, hmonth, hmonth', hday, hday', hhour, hminute, hsecond, hmilli⟩ :=
    c.valid_iff.mp h
  have hfull := days_of_year hmonth hmonth' hday'
  have hlast : daysBeforeYear 10000 = 3652425 := by decide
  have hyears : daysBeforeYear c.year + (if leap c.year then 366 else 365) ≤ 3652425 := by
    rw [← hlast]
    exact daysBeforeYear_mono hyear
  simp only [FourDigitYear, Clock.millis, Clock.days, Clock.epochDays]
  constructor <;> omega

/-! ## Both ways -/

theorem fourDigitYear_of_utcTime {s : JsString} (h : utcTime s = some t) :
    FourDigitYear t := by
  obtain ⟨c, hc, rfl⟩ := clock_of_utcTime h
  exact fourDigitYear_clock hc

theorem utcTime_toISOString (h : FourDigitYear t) :
    utcTime (toISOString t) = some t ∧ Canonical (toISOString t) := by
  obtain ⟨c, hc, rfl⟩ := exists_clock h
  rw [toISOString_text hc]
  exact ⟨utcTime_text hc, canonical_text c⟩

/-! ## Years of more or fewer digits -/

/-- The first of January of year 0 is day -60 from the first of March. -/
theorem civilYear_neg {day : Int} (h : day < -60) : civilYear day < 0 := by
  have hd : (day % 146097).toNat < 146097 := by omega
  obtain ⟨hlt, hstart⟩ := yearDay_lt hd
  obtain ⟨hyear, _⟩ := yearStart_le hd (y := eraYear (day % 146097).toNat) rfl
  have hmonth : civilMonth (day % 146097).toNat ≤ 2 → 306 ≤ yearDay (day % 146097).toNat := by
    intro hle
    unfold civilMonth marchMonth at hle
    split_ifs at hle <;> omega
  unfold civilYear
  split_ifs with hle
  · have := hmonth hle
    omega
  · omega

theorem civilYear_large {day : Int} (h : 3652365 ≤ day) : 10000 ≤ civilYear day := by
  have hd : (day % 146097).toNat < 146097 := by omega
  obtain ⟨hlt, hstart⟩ := yearDay_lt hd
  obtain ⟨hyear, _⟩ := yearStart_le hd (y := eraYear (day % 146097).toNat) rfl
  have hmonth : 306 ≤ yearDay (day % 146097).toNat → civilMonth (day % 146097).toNat ≤ 2 := by
    intro hle
    unfold civilMonth marchMonth
    split_ifs <;> omega
  unfold civilYear
  split_ifs with hle
  · omega
  · have hearly : yearDay (day % 146097).toNat < 306 := by
      by_contra hlate
      exact hle (hmonth (by omega))
    by_contra hbefore
    have hera : day / 146097 = 24 := by omega
    have hlast : eraYear (day % 146097).toNat = 399 := by omega
    rw [hlast] at hstart
    omega

variable {u : Int}

section

variable (ht : FourDigitYear t)
include ht

/-- A text with a sign comes before every text without one. -/
theorem signed_lt (hu : ¬FourDigitYear u) :
    toISOString u < toISOString t := by
  have hyear : civilYear (u / 86400000 + 719468) < 0 ∨
      10000 ≤ civilYear (u / 86400000 + 719468) := by
    by_cases hlow : u < -62167219200000
    · exact .inl (civilYear_neg (by omega))
    · refine .inr (civilYear_large ?_)
      unfold FourDigitYear at hu
      omega
  obtain ⟨c, hc, rfl⟩ := exists_clock ht
  rw [toISOString_eq u, toISOString_text hc, Clock.text, yearText, if_neg (by omega)]
  cases hdigits : pad 4 c.year with
  | nil => exact absurd (congrArg List.length hdigits) (by simp [length_pad])
  | cons a rest =>
    have ha : isDigit a = true := pad_isDigit 4 c.year a (by rw [hdigits]; exact mem_cons_self)
    refine List.Lex.rel ?_
    simp only [isDigit, decide_eq_true_eq] at ha
    split_ifs
    · exact UInt16.lt_of_lt_of_le (by decide : (0x2D : UInt16) < 0x30) ha.1
    · exact UInt16.lt_of_lt_of_le (by decide : (0x2B : UInt16) < 0x30) ha.1

theorem lt_iff_lt (hu : FourDigitYear u) :
    toISOString t < toISOString u ↔ t < u := by
  obtain ⟨htread, htform⟩ := utcTime_toISOString ht
  obtain ⟨huread, huform⟩ := utcTime_toISOString hu
  exact lt_iff htread huread htform huform

/-- A text that is not before one of four digits is of an instant that is not before. -/
theorem le_of_not_lt (h : ¬toISOString u < toISOString t) :
    FourDigitYear u ∧ t ≤ u := by
  have hu : FourDigitYear u := by
    by_contra hsigned
    exact h (signed_lt ht hsigned)
  rw [lt_iff_lt hu ht] at h
  exact ⟨hu, by omega⟩

/-- The lower end of a range may have a sign when its upper end has none. -/
theorem ge_of_not_lt {a b : Int} (hb : FourDigitYear b) (hab : a ≤ b)
    (h : ¬toISOString t < toISOString a) : a ≤ t := by
  by_cases ha : FourDigitYear a
  · rw [lt_iff_lt ht ha] at h
    omega
  · unfold FourDigitYear at ha hb ht
    omega

end

end IsoTime
