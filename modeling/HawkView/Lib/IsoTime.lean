import HawkView.Lib.JsString
import Mathlib.Algebra.GroupWithZero.Nat
import Mathlib.Data.Prod.Lex

/-!
# Texts of instants

An instant is written with its calendar fields, each of fixed width, so two
texts with the same fields compare as their instants do. `utcTime` reads a text
with up to three fraction digits, or further zeros; `toISOString` writes one.
-/

namespace IsoTime

open List Option

/-! ## Numbers of fixed width -/

def digitUnit (d : Nat) : UInt16 := (0x30 + d).toUInt16

def isDigit (c : UInt16) : Bool := decide (0x30 ≤ c ∧ c ≤ 0x39)

/-- A number in so many digits. -/
def pad : Nat → Nat → JsString
  | 0, _ => []
  | w + 1, n => digitUnit (n / 10 ^ w % 10) :: pad w (n % 10 ^ w)

/-- Reads so many digits. -/
def readDigits : Nat → JsString → Option (Nat × JsString)
  | 0, s => some (0, s)
  | _ + 1, [] => none
  | w + 1, c :: s =>
    if isDigit c then (readDigits w s).map fun (n, rest) => ((c.toNat - 0x30) * 10 ^ w + n, rest)
    else none

theorem length_pad (w n : Nat) : (pad w n).length = w := by
  induction w generalizing n with
  | zero => rfl
  | succ w ih => rw [pad, length_cons, ih]

variable {d : Nat}

theorem digitUnit_toNat (h : d < 10) : (digitUnit d).toNat = 0x30 + d := by
  simp only [digitUnit, Nat.toUInt16_eq, UInt16.toNat_ofNat']
  omega

variable {a b : Nat}

theorem digitUnit_lt (ha : a < 10) (hb : b < 10) :
    digitUnit a < digitUnit b ↔ a < b := by
  rw [UInt16.lt_iff_toNat_lt, digitUnit_toNat ha, digitUnit_toNat hb]
  omega

theorem digitUnit_inj (ha : a < 10) (hb : b < 10) :
    digitUnit a = digitUnit b ↔ a = b := by
  rw [← UInt16.toNat_inj, digitUnit_toNat ha, digitUnit_toNat hb]
  omega

theorem digitUnit_of_isDigit {c : UInt16} (h : isDigit c = true) :
    c.toNat - 0x30 < 10 ∧ digitUnit (c.toNat - 0x30) = c := by
  rw [isDigit, decide_eq_true_eq, UInt16.le_iff_toNat_le, UInt16.le_iff_toNat_le] at h
  have hlow : 48 ≤ c.toNat := h.1
  have hhigh : c.toNat ≤ 57 := h.2
  have hlt : c.toNat - 0x30 < 10 := by omega
  refine ⟨hlt, ?_⟩
  rw [← UInt16.toNat_inj, digitUnit_toNat hlt]
  omega

variable {w : Nat} {s rest : JsString} {n : Nat}

/-- What was read is the number in so many digits. -/
theorem readDigits_eq (h : readDigits w s = some (n, rest)) : n < 10 ^ w ∧ s = pad w n ++ rest := by
  induction w generalizing s n with
  | zero =>
    cases h
    exact ⟨by omega, rfl⟩
  | succ w ih =>
    cases s with
    | nil => cases h
    | cons c s =>
      rw [readDigits] at h
      by_cases hc : isDigit c = true
      · rw [if_pos hc, map_eq_some_iff] at h
        obtain ⟨⟨m, r⟩, hm, heq⟩ := h
        cases heq
        obtain ⟨hlt, rfl⟩ := ih hm
        obtain ⟨hdigit, hunit⟩ := digitUnit_of_isDigit hc
        have hpos : 0 < 10 ^ w := Nat.pow_pos (by omega)
        have hdiv : ((c.toNat - 0x30) * 10 ^ w + m) / 10 ^ w = c.toNat - 0x30 := by
          rw [Nat.mul_comm, Nat.mul_add_div hpos, Nat.div_eq_of_lt hlt, Nat.add_zero]
        have hmod : ((c.toNat - 0x30) * 10 ^ w + m) % 10 ^ w = m := by
          rw [Nat.mul_comm, Nat.mul_add_mod, Nat.mod_eq_of_lt hlt]
        constructor
        · rw [Nat.pow_succ]
          have : (c.toNat - 0x30) * 10 ^ w ≤ 9 * 10 ^ w := Nat.mul_le_mul_right _ (by omega)
          omega
        · rw [pad, hdiv, hmod, Nat.mod_eq_of_lt hdigit, hunit, cons_append]
      · rw [if_neg hc] at h
        cases h

theorem isDigit_digitUnit (h : d < 10) : isDigit (digitUnit d) = true := by
  have hvalue := digitUnit_toNat h
  rw [isDigit, decide_eq_true_iff, UInt16.le_iff_toNat_le, UInt16.le_iff_toNat_le, hvalue]
  constructor
  · exact Nat.le_add_right _ _
  · have : (0x39 : UInt16).toNat = 0x39 := rfl
    omega

theorem readDigits_pad (h : n < 10 ^ w) (rest : JsString) :
    readDigits w (pad w n ++ rest) = some (n, rest) := by
  induction w generalizing n with
  | zero =>
    have hzero : n = 0 := by omega
    subst hzero
    rfl
  | succ w ih =>
    have hpos : 0 < 10 ^ w := Nat.pow_pos (by omega)
    have hmod : n % 10 ^ w < 10 ^ w := Nat.mod_lt _ hpos
    have hdigit : n / 10 ^ w < 10 := by
      rw [Nat.div_lt_iff_lt_mul hpos, Nat.mul_comm, ← Nat.pow_succ]
      exact h
    rw [pad, Nat.mod_eq_of_lt hdigit, cons_append, readDigits,
      if_pos (isDigit_digitUnit hdigit), ih hmod, map_some, digitUnit_toNat hdigit,
      Nat.add_sub_cancel_left]
    simp only [Nat.mul_comm _ (10 ^ w), Nat.div_add_mod]

theorem lt_split :
    a < b ↔ a / 10 ^ w < b / 10 ^ w ∨ a / 10 ^ w = b / 10 ^ w ∧ a % 10 ^ w < b % 10 ^ w := by
  have hpos : 0 < 10 ^ w := Nat.pow_pos (by omega)
  have ha := Nat.div_add_mod a (10 ^ w)
  have hb := Nat.div_add_mod b (10 ^ w)
  have hmod := Nat.mod_lt a hpos
  have hmod' := Nat.mod_lt b hpos
  rcases Nat.lt_trichotomy (a / 10 ^ w) (b / 10 ^ w) with hlt | heq | hgt
  · have := Nat.mul_le_mul_left (10 ^ w) hlt
    rw [Nat.mul_succ] at this
    omega
  · rw [heq] at ha
    omega
  · have := Nat.mul_le_mul_left (10 ^ w) hgt
    rw [Nat.mul_succ] at this
    omega

/-- Texts that begin with numbers of one width compare by the numbers first. -/
theorem pad_append_lt (ha : a < 10 ^ w) (hb : b < 10 ^ w) (s t : JsString) :
    pad w a ++ s < pad w b ++ t ↔ a < b ∨ a = b ∧ s < t := by
  induction w generalizing a b with
  | zero =>
    have : a = 0 := by omega
    have : b = 0 := by omega
    subst_vars
    simp [pad]
  | succ w ih =>
    have hpos : 0 < 10 ^ w := Nat.pow_pos (by omega)
    have hqa : a / 10 ^ w < 10 := by
      rw [Nat.div_lt_iff_lt_mul hpos]
      rw [Nat.pow_succ] at ha
      omega
    have hqb : b / 10 ^ w < 10 := by
      rw [Nat.div_lt_iff_lt_mul hpos]
      rw [Nat.pow_succ] at hb
      omega
    rw [pad, pad, cons_append, cons_append, cons_lt_cons_iff,
      Nat.mod_eq_of_lt hqa, Nat.mod_eq_of_lt hqb, digitUnit_lt hqa hqb, digitUnit_inj hqa hqb,
      ih (Nat.mod_lt a hpos) (Nat.mod_lt b hpos), lt_split (w := w) (a := a)]
    have heq : a = b ↔ a / 10 ^ w = b / 10 ^ w ∧ a % 10 ^ w = b % 10 ^ w := by
      constructor
      · rintro rfl
        exact ⟨rfl, rfl⟩
      · rintro ⟨hdiv, hmod⟩
        rw [← Nat.div_add_mod a (10 ^ w), hdiv, hmod, Nat.div_add_mod]
    rw [heq]
    tauto

/-! ## The calendar -/

structure Clock where
  year : Nat
  month : Nat
  day : Nat
  hour : Nat
  minute : Nat
  second : Nat
  milli : Nat
  deriving DecidableEq, Repr

def leap (year : Nat) : Bool := year % 4 == 0 && (year % 100 != 0 || year % 400 == 0)

def daysInMonth (year month : Nat) : Nat :=
  if month = 2 then if leap year then 29 else 28
  else if month ∈ [4, 6, 9, 11] then 30
  else 31

/-- The days of the months before this one. -/
def daysBeforeMonth (year : Nat) : Nat → Nat
  | 0 => 0
  | month + 1 => daysBeforeMonth year month + if month = 0 then 0 else daysInMonth year month

/-- The days of the years before this one, from year 0. -/
def daysBeforeYear (year : Nat) : Nat :=
  365 * year + (year + 3) / 4 + (year + 399) / 400 - (year + 99) / 100

namespace Clock

/-- The fields are a date and a time of day. -/
def valid (c : Clock) : Bool :=
  decide (c.year < 10000 ∧ 1 ≤ c.month ∧ c.month ≤ 12 ∧ 1 ≤ c.day ∧
    c.day ≤ daysInMonth c.year c.month ∧ c.hour < 24 ∧ c.minute < 60 ∧ c.second < 60 ∧
    c.milli < 1000)

def days (c : Clock) : Nat := daysBeforeYear c.year + daysBeforeMonth c.year c.month + c.day

/-- The days from year 0 to 1970, counted as `days` counts them. -/
def epochDays : Nat := 719529

/-- Milliseconds since 1970. -/
def millis (c : Clock) : Int :=
  ((((c.days : Int) - epochDays) * 24 + c.hour) * 60 + c.minute) * 60000 + c.second * 1000 + c.milli

def text (c : Clock) : JsString :=
  pad 4 c.year ++ 0x2D :: (pad 2 c.month ++ 0x2D :: (pad 2 c.day ++ 0x54 :: (pad 2 c.hour ++
    0x3A :: (pad 2 c.minute ++ 0x3A :: (pad 2 c.second ++ 0x2E :: (pad 3 c.milli ++ [0x5A]))))))

end Clock

theorem daysBeforeMonth_mono (year : Nat) {m : Nat} (hm : 1 ≤ m) (h : m < n) :
    daysBeforeMonth year m + daysInMonth year m ≤ daysBeforeMonth year n := by
  induction n with
  | zero => omega
  | succ n ih =>
    rw [daysBeforeMonth, if_neg (by omega)]
    by_cases heq : m = n
    · rw [heq]
    · have := ih (by omega)
      omega

theorem daysBeforeYear_succ (year : Nat) :
    daysBeforeYear (year + 1) = daysBeforeYear year + if leap year then 366 else 365 := by
  have h4 : (year + 1 + 3) / 4 = (year + 3) / 4 + if year % 4 = 0 then 1 else 0 := by
    split <;> omega
  have h100 : (year + 1 + 99) / 100 = (year + 99) / 100 + if year % 100 = 0 then 1 else 0 := by
    split <;> omega
  have h400 : (year + 1 + 399) / 400 = (year + 399) / 400 + if year % 400 = 0 then 1 else 0 := by
    split <;> omega
  have hle : (year + 99) / 100 ≤ (year + 3) / 4 := by omega
  rw [daysBeforeYear, h4, h100, h400, daysBeforeYear, leap]
  generalize (year + 3) / 4 = fours at hle
  generalize (year + 99) / 100 = hundreds at hle
  by_cases hfour : year % 4 = 0
  · by_cases hhundred : year % 100 = 0
    · by_cases hfourHundred : year % 400 = 0 <;> simp [hfour, hhundred, hfourHundred] <;> omega
    · have hfourHundred : year % 400 ≠ 0 := by omega
      simp only [hfour, hhundred, hfourHundred, if_true, if_false, beq_self_eq_true, Bool.true_and,
        bne_iff_ne, ne_eq, not_false_eq_true, Bool.or_eq_true, true_or]
      omega
  · have hhundred : year % 100 ≠ 0 := by omega
    have hfourHundred : year % 400 ≠ 0 := by omega
    simp [hfour, hhundred, hfourHundred]
    omega

theorem daysBeforeYear_mono {y z : Nat} (h : y < z) :
    daysBeforeYear y + (if leap y then 366 else 365) ≤ daysBeforeYear z := by
  induction z with
  | zero => omega
  | succ z ih =>
    by_cases heq : y = z
    · rw [heq, daysBeforeYear_succ]
    · have := ih (by omega)
      rw [daysBeforeYear_succ]
      omega

/-- The months of a year fill it. -/
theorem days_of_year {year month day : Nat} (hm : 1 ≤ month) (hm' : month ≤ 12)
    (hd : day ≤ daysInMonth year month) :
    daysBeforeMonth year month + day ≤ if leap year then 366 else 365 := by
  have hyear : daysBeforeMonth year 12 + daysInMonth year 12 =
      if leap year then 366 else 365 := by
    cases hleap : leap year <;> simp [daysBeforeMonth, daysInMonth, hleap]
  by_cases heq : month = 12
  · subst heq
    omega
  · have := daysBeforeMonth_mono year hm (show month < 12 by omega)
    omega

namespace Clock

theorem valid_iff (c : Clock) : c.valid = true ↔
    c.year < 10000 ∧ 1 ≤ c.month ∧ c.month ≤ 12 ∧ 1 ≤ c.day ∧
      c.day ≤ daysInMonth c.year c.month ∧ c.hour < 24 ∧ c.minute < 60 ∧ c.second < 60 ∧
      c.milli < 1000 := by
  rw [valid, decide_eq_true_eq]

/-- The fields of one clock come before those of the other. -/
def Before (c d : Clock) : Prop :=
  c.year < d.year ∨ c.year = d.year ∧ (c.month < d.month ∨ c.month = d.month ∧
    (c.day < d.day ∨ c.day = d.day ∧ (c.hour < d.hour ∨ c.hour = d.hour ∧
      (c.minute < d.minute ∨ c.minute = d.minute ∧ (c.second < d.second ∨ c.second = d.second ∧
        c.milli < d.milli)))))

theorem Before.trichotomy (c d : Clock) : c.Before d ∨ c = d ∨ d.Before c := by
  have heq : c = d ↔ c.year = d.year ∧ c.month = d.month ∧ c.day = d.day ∧ c.hour = d.hour ∧
      c.minute = d.minute ∧ c.second = d.second ∧ c.milli = d.milli := by
    cases c
    cases d
    simp
  rw [heq]
  unfold Before
  omega

variable {c d : Clock}

section

variable (hc : c.valid = true)
include hc

section

variable (hd : d.valid = true)
include hd

theorem text_lt_iff : c.text < d.text ↔ c.Before d := by
  rw [valid_iff] at hc hd
  have hcmonth : daysInMonth c.year c.month ≤ 31 := by unfold daysInMonth; split_ifs <;> omega
  have hdmonth : daysInMonth d.year d.month ≤ 31 := by unfold daysInMonth; split_ifs <;> omega
  have hsame : ∀ {x : UInt16} {s t : JsString}, x :: s < x :: t ↔ s < t := by
    intro x s t
    simp
  have hirrefl : ¬ ([0x5A] : JsString) < [0x5A] := by decide
  unfold text Before
  rw [pad_append_lt (by omega) (by omega), hsame, pad_append_lt (by omega) (by omega), hsame,
    pad_append_lt (by omega) (by omega), hsame, pad_append_lt (by omega) (by omega), hsame,
    pad_append_lt (by omega) (by omega), hsame, pad_append_lt (by omega) (by omega), hsame,
    pad_append_lt (by omega) (by omega)]
  simp only [hirrefl, and_false, or_false]

theorem days_lt
    (h : c.year < d.year ∨ c.year = d.year ∧ (c.month < d.month ∨ c.month = d.month ∧
      c.day < d.day)) : c.days < d.days := by
  rw [valid_iff] at hc hd
  unfold days
  rcases h with hyear | ⟨hyear, hmonth | ⟨hmonth, hday⟩⟩
  · have hfill := days_of_year hc.2.1 hc.2.2.1 hc.2.2.2.2.1
    have hnext := daysBeforeYear_mono hyear
    omega
  · have hnext := daysBeforeMonth_mono d.year hc.2.1 hmonth
    rw [hyear] at hc ⊢
    omega
  · rw [hyear, hmonth]
    omega

theorem millis_lt (h : c.Before d) :
    c.millis < d.millis := by
  have hlt := days_lt hc hd
  rw [valid_iff] at hc hd
  unfold millis
  by_cases hdate : c.year = d.year ∧ c.month = d.month ∧ c.day = d.day
  · have hdays : c.days = d.days := by
      unfold days
      rw [hdate.1, hdate.2.1, hdate.2.2]
    unfold Before at h
    rw [hdays]
    omega
  · have hdays : c.days < d.days := by
      apply hlt
      unfold Before at h
      omega
    omega

/-- The texts of two dates compare as the instants do. -/
theorem text_lt_iff_millis_lt :
    c.text < d.text ↔ c.millis < d.millis := by
  rw [text_lt_iff hc hd]
  constructor
  · exact millis_lt hc hd
  · intro hlt
    rcases Before.trichotomy c d with hbefore | rfl | hafter
    · exact hbefore
    · omega
    · have := millis_lt hd hc hafter
      omega

end

end

end Clock

/-! ## Reading a text -/

/-- The milliseconds of `(?:\.\d{1,3}|\.\d{3}0{1,4})?Z$`. -/
def fraction : JsString → Option Nat
  | [0x5A] => some 0
  | 0x2E :: s =>
    let digits := s.takeWhile isDigit
    let count := digits.length
    if s.drop count = [0x5A] ∧
        (1 ≤ count ∧ count ≤ 3 ∨ 4 ≤ count ∧ count ≤ 7 ∧ (digits.drop 3).all (· == 0x30)) then
      (readDigits 3 (digits.take 3 ++ List.replicate (3 - count) 0x30)).map Prod.fst
    else none
  | _ => none

/-- A number of so many digits, and the code unit after it. -/
def field (w : Nat) (sep : UInt16) (s : JsString) : Option (Nat × JsString) :=
  (readDigits w s).bind fun
    | (n, c :: rest) => if c = sep then some (n, rest) else none
    | (_, []) => none

def readClock (s : JsString) : Option Clock := do
  let (year, s) ← field 4 0x2D s
  let (month, s) ← field 2 0x2D s
  let (day, s) ← field 2 0x54 s
  let (hour, s) ← field 2 0x3A s
  let (minute, s) ← field 2 0x3A s
  let (second, s) ← readDigits 2 s
  let milli ← fraction s
  return ⟨year, month, day, hour, minute, second, milli⟩

/-- The instant of a text, when its fields are a date and a time of day. A text whose fields are
none comes back from the calendar as another one or not at all. -/
def utcTime (s : JsString) : Option Int :=
  ((readClock s).filter Clock.valid).map Clock.millis

/-- Written with three fraction digits, as `toISOString` writes. -/
def Canonical (s : JsString) : Prop := s.length = 24

instance : DecidablePred Canonical := fun s => inferInstanceAs (Decidable (s.length = 24))

theorem field_eq {sep : UInt16} (h : field w sep s = some (n, rest)) :
    s = pad w n ++ sep :: rest := by
  obtain ⟨⟨m, r⟩, hread, hrest⟩ := bind_eq_some_iff.mp h
  cases r with
  | nil => cases hrest
  | cons c r =>
    simp only at hrest
    split at hrest
    · rename_i hc
      cases hrest
      rw [(readDigits_eq hread).2, hc]
    · cases hrest

theorem fraction_eq (h : fraction s = some n) (hlength : s.length = 5) :
    s = 0x2E :: (pad 3 n ++ [0x5A]) := by
  unfold fraction at h
  split at h
  · cases hlength
  · rename_i s
    simp only at h
    split at h
    · rename_i hfits
      obtain ⟨hend, _⟩ := hfits
      obtain ⟨⟨m, r⟩, hread, rfl⟩ := map_eq_some_iff.mp h
      have hdigits : s.takeWhile isDigit = s.take (s.takeWhile isDigit).length :=
        List.prefix_iff_eq_take.mp (List.takeWhile_prefix isDigit)
      have hsplit := take_append_drop (s.takeWhile isDigit).length s
      rw [hend, ← hdigits] at hsplit
      have hcount : (s.takeWhile isDigit).length = 3 := by
        have hall := congrArg List.length hsplit
        simp only [length_append, length_cons, length_nil] at hall hlength
        omega
      rw [hcount, Nat.sub_self, replicate_zero, append_nil,
        take_of_length_le (by omega)] at hread
      have hpad := (readDigits_eq hread).2
      have hrest : r = [] := by
        have hall := congrArg List.length hpad
        rw [length_append, length_pad] at hall
        exact length_eq_zero_iff.mp (by omega)
      rw [hrest, append_nil] at hpad
      rw [← hsplit, hpad]
    · cases h
  · cases h

theorem readClock_text {c : Clock} (h : readClock s = some c) (canonical : Canonical s) :
    s = c.text := by
  simp only [readClock, bind_eq_bind, bind_eq_some_iff, Prod.exists] at h
  obtain ⟨year, s₁, hyear, month, s₂, hmonth, day, s₃, hday, hour, s₄, hhour, minute, s₅, hminute,
    second, s₆, hsecond, milli, hmilli, hc⟩ := h
  obtain rfl : _ = c := Option.some.inj hc
  obtain rfl := field_eq hyear
  obtain rfl := field_eq hmonth
  obtain rfl := field_eq hday
  obtain rfl := field_eq hhour
  obtain rfl := field_eq hminute
  obtain rfl := (readDigits_eq hsecond).2
  have hlength : s₆.length = 5 := by
    simp only [Canonical, length_append, length_cons, length_pad] at canonical
    omega
  rw [fraction_eq hmilli hlength]
  simp [Clock.text]

variable {t : Int}

theorem utcTime_clock (h : utcTime s = some t) (canonical : Canonical s) :
    ∃ c : Clock, c.valid = true ∧ s = c.text ∧ t = c.millis := by
  obtain ⟨c, hc, rfl⟩ := map_eq_some_iff.mp h
  rw [filter_eq_some_iff] at hc
  exact ⟨c, hc.2, readClock_text hc.1 canonical, rfl⟩

variable {s' : JsString}

/-- Canonical texts compare as their instants do. -/
theorem lt_iff {t' : Int} (h : utcTime s = some t) (h' : utcTime s' = some t')
    (canonical : Canonical s) (canonical' : Canonical s') :
    s < s' ↔ t < t' := by
  obtain ⟨c, hc, rfl, rfl⟩ := utcTime_clock h canonical
  obtain ⟨d, hd, rfl, rfl⟩ := utcTime_clock h' canonical'
  exact Clock.text_lt_iff_millis_lt hc hd

/-- One instant has one canonical text. -/
theorem eq_of_utcTime (h : utcTime s = some t) (h' : utcTime s' = some t)
    (canonical : Canonical s) (canonical' : Canonical s') : s = s' := by
  obtain ⟨c, hc, rfl, rfl⟩ := utcTime_clock h canonical
  obtain ⟨d, hd, rfl, hmillis⟩ := utcTime_clock h' canonical'
  rcases Clock.Before.trichotomy c d with hbefore | rfl | hafter
  · have := Clock.millis_lt hc hd hbefore
    omega
  · rfl
  · have := Clock.millis_lt hd hc hafter
    omega

/-! ## Writing a text -/

/-- Four digits, or a sign and six. -/
def yearText (year : Int) : JsString :=
  if 0 ≤ year ∧ year ≤ 9999 then pad 4 year.toNat
  else (if year < 0 then 0x2D else 0x2B) :: pad 6 year.natAbs

/-- `new Date(t).toISOString()`. The year runs from March in the day count. -/
def toISOString (t : Int) : JsString :=
  let day := t / 86400000 + 719468
  let milli := (t % 86400000).toNat
  let dayOfEra := (day % 146097).toNat
  let yearOfEra :=
    (dayOfEra - dayOfEra / 1460 + dayOfEra / 36524 - dayOfEra / 146096) / 365
  let dayOfYear := dayOfEra - (365 * yearOfEra + yearOfEra / 4 - yearOfEra / 100)
  let fromMarch := (5 * dayOfYear + 2) / 153
  let dayOfMonth := dayOfYear - (153 * fromMarch + 2) / 5 + 1
  let month := if fromMarch < 10 then fromMarch + 3 else fromMarch - 9
  let year := (yearOfEra : Int) + day / 146097 * 400 + if month ≤ 2 then 1 else 0
  yearText year ++ 0x2D :: (pad 2 month ++ 0x2D :: (pad 2 dayOfMonth ++ 0x54 ::
    (pad 2 (milli / 3600000) ++ 0x3A :: (pad 2 (milli / 60000 % 60) ++ 0x3A ::
      (pad 2 (milli / 1000 % 60) ++ 0x2E :: (pad 3 (milli % 1000) ++ [0x5A]))))))

/-! ## One text for each instant -/

/-- The days of an era without its leap days. -/
def plainDays (d : Nat) : Nat := d - d / 1460 + d / 36524 - d / 146096

theorem plainDays_succ (d : Nat) (h : d + 1 < 146097) : plainDays d ≤ plainDays (d + 1) := by
  unfold plainDays
  omega

theorem plainDays_mono {e : Nat} (h : d ≤ e) (he : e < 146097) : plainDays d ≤ plainDays e := by
  induction e with
  | zero =>
    have : d = 0 := by omega
    rw [this]
  | succ e ih =>
    by_cases heq : d = e + 1
    · rw [heq]
    · exact (ih (by omega) (by omega)).trans (plainDays_succ e he)

theorem plainDays_before : ∀ y < 400, 1 ≤ y →
    plainDays (365 * y + y / 4 - y / 100 - 1) < 365 * y := by
  decide +kernel

theorem plainDays_after : ∀ y < 400, 365 * y + y / 4 - y / 100 + 366 < 146097 →
    365 * (y + 1) ≤ plainDays (365 * y + y / 4 - y / 100 + 366) := by
  decide +kernel

theorem yearStart_le {y : Nat} (hd : d < 146097) (hy : y = plainDays d / 365) :
    y < 400 ∧ 365 * y + y / 4 - y / 100 ≤ d := by
  have hlt : y < 400 := by
    have hmono := plainDays_mono (Nat.le_of_lt_succ hd) (Nat.lt_succ_self 146096)
    have htop : plainDays 146096 = 145999 := by decide
    omega
  refine ⟨hlt, ?_⟩
  by_contra hgt
  have hpos : 1 ≤ y := by omega
  have hbefore := plainDays_before y hlt hpos
  have hmono := plainDays_mono (d := d) (e := 365 * y + y / 4 - y / 100 - 1) (by omega) (by omega)
  omega
theorem pad_inj (ha : a < 10 ^ w) (hb : b < 10 ^ w) (h : pad w a = pad w b) :
    a = b := by
  have hirrefl : ∀ s : JsString, ¬ s < s := fun s => List.lt_irrefl s
  rcases Nat.lt_trichotomy a b with hlt | heq | hgt
  · have := (pad_append_lt ha hb [] []).mpr (.inl hlt)
    rw [h] at this
    exact absurd this (hirrefl _)
  · exact heq
  · have := (pad_append_lt hb ha [] []).mpr (.inl hgt)
    rw [h] at this
    exact absurd this (hirrefl _)

theorem length_yearText (y : Int) :
    (yearText y).length = if 0 ≤ y ∧ y ≤ 9999 then 4 else 7 := by
  unfold yearText
  split_ifs <;> simp [length_pad]

theorem yearText_inj {y z : Int} (hy : y.natAbs < 10 ^ 6) (hz : z.natAbs < 10 ^ 6)
    (h : yearText y = yearText z) : y = z := by
  have hlength := congrArg List.length h
  rw [length_yearText, length_yearText] at hlength
  unfold yearText at h
  by_cases hy4 : 0 ≤ y ∧ y ≤ 9999
  · by_cases hz4 : 0 ≤ z ∧ z ≤ 9999
    · rw [if_pos hy4, if_pos hz4] at h
      have := pad_inj (by omega) (by omega) h
      omega
    · rw [if_pos hy4, if_neg hz4] at hlength
      cases hlength
  · by_cases hz4 : 0 ≤ z ∧ z ≤ 9999
    · rw [if_neg hy4, if_pos hz4] at hlength
      cases hlength
    · rw [if_neg hy4, if_neg hz4] at h
      obtain ⟨hsign, hdigits⟩ := List.cons.inj h
      have habs := pad_inj hy hz hdigits
      split_ifs at hsign
      · omega
      · cases hsign
      · cases hsign
      · omega

/-- What a `Date` can hold. -/
def InDateRange (t : Int) : Prop := -8640000000000000 ≤ t ∧ t ≤ 8640000000000000

instance : DecidablePred InDateRange := fun t =>
  inferInstanceAs (Decidable (-8640000000000000 ≤ t ∧ t ≤ 8640000000000000))

theorem inDateRange_zero : InDateRange 0 := by decide

def eraYear (dayOfEra : Nat) : Nat := plainDays dayOfEra / 365

def yearDay (dayOfEra : Nat) : Nat :=
  dayOfEra - (365 * eraYear dayOfEra + eraYear dayOfEra / 4 - eraYear dayOfEra / 100)

/-- The month, counted from March. -/
def marchMonth (dayOfEra : Nat) : Nat := (5 * yearDay dayOfEra + 2) / 153

def civilMonth (dayOfEra : Nat) : Nat :=
  if marchMonth dayOfEra < 10 then marchMonth dayOfEra + 3 else marchMonth dayOfEra - 9

def civilDay (dayOfEra : Nat) : Nat :=
  yearDay dayOfEra - (153 * marchMonth dayOfEra + 2) / 5 + 1

def civilYear (day : Int) : Int :=
  (eraYear (day % 146097).toNat : Int) + day / 146097 * 400 +
    if civilMonth (day % 146097).toNat ≤ 2 then 1 else 0

theorem toISOString_eq (t : Int) :
    toISOString t = yearText (civilYear (t / 86400000 + 719468)) ++ 0x2D ::
      (pad 2 (civilMonth ((t / 86400000 + 719468) % 146097).toNat) ++ 0x2D ::
        (pad 2 (civilDay ((t / 86400000 + 719468) % 146097).toNat) ++ 0x54 ::
          (pad 2 ((t % 86400000).toNat / 3600000) ++ 0x3A ::
            (pad 2 ((t % 86400000).toNat / 60000 % 60) ++ 0x3A ::
              (pad 2 ((t % 86400000).toNat / 1000 % 60) ++ 0x2E ::
                (pad 3 ((t % 86400000).toNat % 1000) ++ [0x5A])))))) := rfl

section Civil

variable {d : Nat} (hd : d < 146097)
include hd

theorem yearDay_lt : yearDay d < 366 ∧
    d = 365 * eraYear d + eraYear d / 4 - eraYear d / 100 + yearDay d := by
  obtain ⟨hlt, hstart⟩ := yearStart_le hd (y := eraYear d) rfl
  refine ⟨?_, by unfold yearDay; omega⟩
  have hyear : eraYear d = plainDays d / 365 := rfl
  have hafter := plainDays_after (eraYear d) hlt
  unfold yearDay
  by_contra hge
  have hmono := plainDays_mono
    (d := 365 * eraYear d + eraYear d / 4 - eraYear d / 100 + 366) (by omega) hd
  have := hafter (by omega)
  omega

theorem marchMonth_lt : marchMonth d < 12 := by
  have := (yearDay_lt hd).1
  unfold marchMonth
  omega

theorem civilMonth_lt : civilMonth d < 13 := by
  have := marchMonth_lt hd
  unfold civilMonth
  split_ifs <;> omega

theorem civilDay_lt : civilDay d < 100 := by
  have := (yearDay_lt hd).1
  unfold civilDay marchMonth
  omega

end Civil

theorem civil_inj {d e : Int} (hyear : civilYear d = civilYear e)
    (hmonth : civilMonth (d % 146097).toNat = civilMonth (e % 146097).toNat)
    (hday : civilDay (d % 146097).toNat = civilDay (e % 146097).toNat) : d = e := by
  have hd : (d % 146097).toNat < 146097 := by omega
  have he : (e % 146097).toNat < 146097 := by omega
  obtain ⟨hdlt, hdeq⟩ := yearDay_lt hd
  obtain ⟨helt, heeq⟩ := yearDay_lt he
  obtain ⟨hdyear, _⟩ := yearStart_le hd (y := eraYear (d % 146097).toNat) rfl
  obtain ⟨heyear, _⟩ := yearStart_le he (y := eraYear (e % 146097).toNat) rfl
  have hmarch : marchMonth (d % 146097).toNat = marchMonth (e % 146097).toNat := by
    have := marchMonth_lt hd
    have := marchMonth_lt he
    unfold civilMonth at hmonth
    split_ifs at hmonth <;> omega
  have hdays : yearDay (d % 146097).toNat = yearDay (e % 146097).toNat := by
    unfold civilDay at hday
    unfold marchMonth at hmarch hday
    rw [hmarch] at hday
    omega
  unfold civilYear at hyear
  rw [hmonth] at hyear
  have hera : d / 146097 = e / 146097 ∧
      eraYear (d % 146097).toNat = eraYear (e % 146097).toNat := by omega
  rw [hera.2, hdays] at hdeq
  omega

theorem civilYear_range (h : InDateRange t) :
    (civilYear (t / 86400000 + 719468)).natAbs < 10 ^ 6 := by
  obtain ⟨hlow, hhigh⟩ := h
  have hday : -100000000 ≤ t / 86400000 ∧ t / 86400000 ≤ 100000000 := by omega
  generalize t / 86400000 = day at hday
  obtain ⟨hyear, _⟩ := yearStart_le (d := ((day + 719468) % 146097).toNat) (by omega)
    (y := eraYear ((day + 719468) % 146097).toNat) rfl
  unfold civilYear
  split_ifs <;> omega

/-- Two instants that a `Date` can hold have two texts. -/
theorem toISOString_inj {u : Int} (ht : InDateRange t) (hu : InDateRange u)
    (h : toISOString t = toISOString u) : t = u := by
  rw [toISOString_eq, toISOString_eq] at h
  have hlength : (yearText (civilYear (t / 86400000 + 719468))).length =
      (yearText (civilYear (u / 86400000 + 719468))).length := by
    have hall := congrArg List.length h
    simp only [length_append, length_cons, length_pad] at hall
    omega
  obtain ⟨hyear, h⟩ := append_inj h hlength
  obtain ⟨hmonth, h⟩ := append_inj (List.cons.inj h).2 (by simp only [length_pad])
  obtain ⟨hday, h⟩ := append_inj (List.cons.inj h).2 (by simp only [length_pad])
  obtain ⟨hhour, h⟩ := append_inj (List.cons.inj h).2 (by simp only [length_pad])
  obtain ⟨hminute, h⟩ := append_inj (List.cons.inj h).2 (by simp only [length_pad])
  obtain ⟨hsecond, h⟩ := append_inj (List.cons.inj h).2 (by simp only [length_pad])
  obtain ⟨hmilli, _⟩ := append_inj (List.cons.inj h).2 (by simp only [length_pad])
  have htday : ((t / 86400000 + 719468) % 146097).toNat < 146097 := by omega
  have huday : ((u / 86400000 + 719468) % 146097).toNat < 146097 := by omega
  have := civilMonth_lt htday
  have := civilMonth_lt huday
  have hdate := civil_inj (yearText_inj (civilYear_range ht) (civilYear_range hu) hyear)
    (pad_inj (by omega) (by omega) hmonth)
    (pad_inj (civilDay_lt htday) (civilDay_lt huday) hday)
  have hmillis : (t % 86400000).toNat = (u % 86400000).toNat := by
    have h1 := pad_inj (by omega) (by omega) hhour
    have h2 := pad_inj (by omega) (by omega) hminute
    have h3 := pad_inj (by omega) (by omega) hsecond
    have h4 := pad_inj (by omega) (by omega) hmilli
    omega
  omega

example : (utcTime (js "2024-02-29T23:59:60Z"), utcTime (js "2023-02-29T00:00:00Z"),
    utcTime (js "2024-02-29T00:00:00.5000Z"), utcTime (js "1970-01-01T00:00:00.05Z")) =
    (none, none, some 1709164800500, some 50) := by decide

example : toISOString 1709164800500 = js "2024-02-29T00:00:00.500Z" := by decide

end IsoTime
