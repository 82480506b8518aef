import HawkView.Microsoft.RetryAfterDates

/-!
# What the header `Retry-After` names

Each form of a date is read exactly as it is written, so a header has a value when
it is a delay in range or one of the three forms of a date that the calendar has.
-/

namespace RetryAfter

open List Option

open JsString IsoTime
open ChangeEvidence (Date)

/-! ## Reading -/

variable {s rest : JsString}

theorem token_iff {text : JsString} : token text s = some rest ↔ s = text ++ rest := by
  rw [token]
  constructor
  · intro h
    split at h
    · rename_i hfront
      cases h
      exact (List.prefix_iff_eq_append.mp (List.isPrefixOf_iff_prefix.mp hfront)).symm
    · cases h
  · rintro rfl
    rw [if_pos (List.isPrefixOf_iff_prefix.mpr (prefix_append _ _)), drop_left]

theorem readDigits_iff {w n : Nat} :
    readDigits w s = some (n, rest) ↔ n < 10 ^ w ∧ s = pad w n ++ rest := by
  constructor
  · exact readDigits_eq
  · rintro ⟨hlt, rfl⟩
    exact readDigits_pad hlt rest

/-- No name begins another one. -/
def Distinguished (names : List JsString) : Prop :=
  names.Pairwise fun a b => ¬a <+: b ∧ ¬b <+: a

variable {i : Nat}

theorem oneOf_iff {names : List JsString} (distinguished : Distinguished names) :
    oneOf names s = some (i, rest) ↔ i < names.length ∧ s = names.getD i [] ++ rest := by
  induction names generalizing i with
  | nil => simp [oneOf]
  | cons name names ih =>
    obtain ⟨hname, hnames⟩ := pairwise_cons.mp distinguished
    rw [oneOf]
    cases htoken : token name s with
    | some r =>
      have hs := token_iff.mp htoken
      simp only [Option.some.injEq, Prod.mk.injEq]
      constructor
      · rintro ⟨rfl, rfl⟩
        exact ⟨Nat.zero_lt_succ _, hs⟩
      · rintro ⟨hlt, hother⟩
        cases i with
        | zero =>
          rw [getD_cons_zero] at hother
          exact ⟨rfl, append_cancel_left (hs.symm.trans hother)⟩
        | succ i =>
          exfalso
          rw [getD_cons_succ] at hother
          have hlt' : i < names.length := Nat.lt_of_succ_lt_succ hlt
          have hmem : names.getD i [] ∈ names := by
            rw [getD_eq_getElem?_getD, getElem?_eq_getElem hlt', getD_some]
            exact getElem_mem hlt'
          have hfront : name <+: s := ⟨r, hs.symm⟩
          have hfront' : names.getD i [] <+: s := ⟨rest, hother.symm⟩
          rcases prefix_or_prefix_of_prefix hfront hfront' with h | h
          · exact (hname _ hmem).1 h
          · exact (hname _ hmem).2 h
    | none =>
      simp only [map_eq_some_iff, Prod.exists, Prod.mk.injEq]
      constructor
      · rintro ⟨j, r, hj, rfl, rfl⟩
        obtain ⟨hlt, hs⟩ := (ih hnames).mp hj
        exact ⟨Nat.succ_lt_succ hlt, hs⟩
      · rintro ⟨hlt, hs⟩
        cases i with
        | zero =>
          rw [getD_cons_zero, ← token_iff, htoken] at hs
          cases hs
        | succ i => exact ⟨i, rest, (ih hnames).mpr ⟨Nat.lt_of_succ_lt_succ hlt, hs⟩, rfl, rfl⟩

theorem weekdays_distinguished : Distinguished HTTP_WEEKDAYS := by
  unfold Distinguished
  decide

theorem longWeekdays_distinguished : Distinguished HTTP_LONG_WEEKDAYS := by
  unfold Distinguished
  decide

theorem months_distinguished : Distinguished HTTP_MONTHS := by
  unfold Distinguished
  decide

/-! ## What is read -/

def timeText (parts : Parts) : JsString :=
  pad 2 parts.hour ++ ([0x3A] ++ (pad 2 parts.minute ++ ([0x3A] ++ pad 2 parts.second)))

def preferredText (parts : Parts) : JsString :=
  HTTP_WEEKDAYS.getD parts.weekday [] ++ (js ", " ++ (pad 2 parts.day ++ (js " " ++
    (HTTP_MONTHS.getD parts.month [] ++ (js " " ++ (pad 4 parts.year ++ (js " " ++
      (timeText parts ++ js " GMT"))))))))

def obsoleteText (parts : Parts) : JsString :=
  HTTP_LONG_WEEKDAYS.getD parts.weekday [] ++ (js ", " ++ (pad 2 parts.day ++ (js "-" ++
    (HTTP_MONTHS.getD parts.month [] ++ (js "-" ++ (pad 2 parts.year ++ (js " " ++
      (timeText parts ++ js " GMT"))))))))

/-- How a day is written: with two digits, or with a blank and a digit. -/
def DayText (day : Nat) (text : JsString) : Prop :=
  text = pad 2 day ∨ day < 10 ∧ text = js " " ++ pad 1 day

def asctimeText (parts : Parts) (dayText : JsString) : JsString :=
  HTTP_WEEKDAYS.getD parts.weekday [] ++ (js " " ++ (HTTP_MONTHS.getD parts.month [] ++
    (js " " ++ (dayText ++ (js " " ++ (timeText parts ++ (js " " ++ pad 4 parts.year)))))))

/-- The fields have the digits they are written with. -/
structure Written (parts : Parts) (digits : Nat) : Prop where
  weekday : parts.weekday < 7
  day : parts.day < 100
  month : parts.month < 12
  year : parts.year < 10 ^ digits
  hour : parts.hour < 100
  minute : parts.minute < 100
  second : parts.second < 100

theorem timeOfDay_iff {hour minute second : Nat} :
    timeOfDay s = some ((hour, minute, second), rest) ↔
      hour < 100 ∧ minute < 100 ∧ second < 100 ∧
        s = pad 2 hour ++ ([0x3A] ++ (pad 2 minute ++ ([0x3A] ++ (pad 2 second ++ rest)))) := by
  simp only [timeOfDay, bind_eq_bind, bind_eq_some_iff, Prod.exists, readDigits_iff,
    token_iff, Option.some.injEq, Prod.mk.injEq]
  constructor
  · rintro ⟨h, s₁, ⟨hh, rfl⟩, _, rfl, m, _, ⟨hm, rfl⟩, _, rfl, c, _, ⟨hc, rfl⟩, ⟨rfl, rfl, rfl⟩, rfl⟩
    exact ⟨hh, hm, hc, rfl⟩
  · rintro ⟨hh, hm, hc, rfl⟩
    exact ⟨hour, _, ⟨hh, rfl⟩, _, rfl, minute, _, ⟨hm, rfl⟩, _, rfl, second, rest, ⟨hc, rfl⟩,
      ⟨rfl, rfl, rfl⟩, rfl⟩

variable {parts : Parts}

/-- The form both kinds of HTTP date have. -/
def dated (weekdays : List JsString) (sep : JsString) (digits : Nat) (s : JsString) :
    Option Parts := do
  let (weekday, s) ← oneOf weekdays s
  let s ← token (js ", ") s
  let (day, s) ← readDigits 2 s
  let s ← token sep s
  let (month, s) ← oneOf HTTP_MONTHS s
  let s ← token sep s
  let (year, s) ← readDigits digits s
  let s ← token (js " ") s
  let ((hour, minute, second), s) ← timeOfDay s
  if s = js " GMT" then some { weekday, day, month, year, hour, minute, second } else none

theorem dated_iff {weekdays : List JsString} (distinguished : Distinguished weekdays)
    (week : weekdays.length = 7) (sep : JsString) (digits : Nat) :
    dated weekdays sep digits s = some parts ↔ Written parts digits ∧
      s = weekdays.getD parts.weekday [] ++ (js ", " ++ (pad 2 parts.day ++ (sep ++
        (HTTP_MONTHS.getD parts.month [] ++ (sep ++ (pad digits parts.year ++ (js " " ++
          (timeText parts ++ js " GMT")))))))) := by
  simp only [dated, bind_eq_bind, bind_eq_some_iff, Prod.exists, readDigits_iff,
    token_iff, timeOfDay_iff, oneOf_iff distinguished, oneOf_iff months_distinguished,
    ite_none_right_eq_some, Option.some.injEq, week]
  constructor
  · rintro ⟨weekday, _, ⟨hweekday, rfl⟩, _, rfl, day, _, ⟨hday, rfl⟩, _, rfl, month, _,
      ⟨hmonth, rfl⟩, _, rfl, year, _, ⟨hyear, rfl⟩, _, rfl, hour, minute, second, _,
      ⟨hhour, hminute, hsecond, rfl⟩, rfl, rfl⟩
    exact ⟨⟨hweekday, hday, hmonth, hyear, hhour, hminute, hsecond⟩,
      by simp only [timeText, append_assoc]⟩
  · rintro ⟨h, rfl⟩
    exact ⟨_, _, ⟨h.weekday, rfl⟩, _, rfl, _, _, ⟨h.day, rfl⟩, _, rfl, _, _, ⟨h.month, rfl⟩, _, rfl,
      _, _, ⟨h.year, rfl⟩, _, rfl, _, _, _, _, ⟨h.hour, h.minute, h.second,
        by simp only [timeText, append_assoc]⟩, rfl, rfl⟩

theorem preferred_iff : preferred s = some parts ↔ Written parts 4 ∧ s = preferredText parts :=
  dated_iff weekdays_distinguished rfl (js " ") 4

theorem obsolete_iff : obsolete s = some parts ↔ Written parts 2 ∧ s = obsoleteText parts :=
  dated_iff longWeekdays_distinguished rfl (js "-") 2

theorem blankDay_iff {day : Nat} :
    blankDay s = some (day, rest) ↔
      ∃ dayText, DayText day dayText ∧ day < 100 ∧ s = dayText ++ rest := by
  rw [blankDay]
  cases htoken : token (js " ") s with
  | some r =>
    have hs := token_iff.mp htoken
    simp only [readDigits_iff]
    constructor
    · rintro ⟨hlt, rfl⟩
      exact ⟨_, .inr ⟨hlt, rfl⟩, by omega, by rw [hs, append_assoc]⟩
    · rintro ⟨_, rfl | ⟨hlt, rfl⟩, _, hother⟩
      · exfalso
        rw [hs] at hother
        have hdigit : isDigit (digitUnit (day / 10 ^ 1 % 10)) = true :=
          isDigit_digitUnit (Nat.mod_lt _ (by omega))
        have hhead : (0x20 : UInt16) = digitUnit (day / 10 ^ 1 % 10) :=
          (List.cons.inj hother).1
        rw [← hhead] at hdigit
        cases hdigit
      · rw [hs, append_assoc] at hother
        exact ⟨hlt, append_cancel_left hother⟩
  | none =>
    simp only [readDigits_iff]
    constructor
    · rintro ⟨hlt, rfl⟩
      exact ⟨_, .inl rfl, hlt, rfl⟩
    · rintro ⟨_, rfl | ⟨_, rfl⟩, hlt, rfl⟩
      · exact ⟨hlt, rfl⟩
      · rw [append_assoc, token_iff.mpr rfl] at htoken
        cases htoken

theorem asctime_iff :
    asctime s = some parts ↔ Written parts 4 ∧
      ∃ dayText, DayText parts.day dayText ∧ s = asctimeText parts dayText := by
  simp only [asctime, bind_eq_bind, bind_eq_some_iff, Prod.exists, readDigits_iff,
    blankDay_iff, token_iff, timeOfDay_iff, oneOf_iff weekdays_distinguished,
    oneOf_iff months_distinguished, ite_none_right_eq_some, Option.some.injEq]
  constructor
  · rintro ⟨weekday, _, ⟨hweekday, rfl⟩, _, rfl, month, _, ⟨hmonth, rfl⟩, _, rfl, day, _,
      ⟨dayText, hdayText, hday, rfl⟩, _, rfl, hour, minute, second, _,
      ⟨hhour, hminute, hsecond, rfl⟩, _, rfl, year, _, ⟨hyear, rfl⟩, rfl, rfl⟩
    exact ⟨⟨hweekday, hday, hmonth, hyear, hhour, hminute, hsecond⟩, dayText, hdayText,
      by simp only [asctimeText, timeText, append_assoc, append_nil]⟩
  · rintro ⟨h, dayText, hdayText, rfl⟩
    exact ⟨_, _, ⟨h.weekday, rfl⟩, _, rfl, _, _, ⟨h.month, rfl⟩, _, rfl, _, _,
      ⟨dayText, hdayText, h.day, rfl⟩, _, rfl, _, _, _, _, ⟨h.hour, h.minute, h.second,
        by simp only [timeText, append_assoc]⟩, _, rfl, _, [],
      ⟨h.year, (append_nil _).symm⟩, rfl, rfl⟩

/-! ## Which form it is -/

theorem fourth_short (h : i < 7) (rest : JsString) :
    (HTTP_WEEKDAYS.getD i [] ++ rest)[3]? = rest[0]? := by
  have hlength : (HTTP_WEEKDAYS.getD i []).length = 3 := by
    interval_cases i <;> rfl
  rw [getElem?_append_right (by omega), hlength]

theorem fourth_long (h : i < 7) (rest : JsString) :
    ∃ c, (HTTP_LONG_WEEKDAYS.getD i [] ++ rest)[3]? = some c ∧ isDigit c = false ∧ c ≠ 0x2C ∧
      c ≠ 0x20 := by
  interval_cases i <;> exact ⟨_, rfl, by decide, by decide, by decide⟩

theorem fourth_preferred (h : Written parts 4) :
    (preferredText parts)[3]? = some 0x2C := by
  rw [preferredText, fourth_short h.weekday]
  rfl

theorem fourth_asctime (h : Written parts 4) (dayText : JsString) :
    (asctimeText parts dayText)[3]? = some 0x20 := by
  rw [asctimeText, fourth_short h.weekday]
  rfl

theorem fourth_obsolete (h : Written parts 2) :
    ∃ c, (obsoleteText parts)[3]? = some c ∧ isDigit c = false ∧ c ≠ 0x2C ∧ c ≠ 0x20 :=
  fourth_long h.weekday _

theorem httpDate_preferred (h : Written parts 4) (now : Date) :
    httpDateMilliseconds (preferredText parts) now = checkedDate parts parts.year := by
  rw [httpDateMilliseconds, preferred_iff.mpr ⟨h, rfl⟩]

theorem httpDate_obsolete (h : Written parts 2) (now : Date) :
    httpDateMilliseconds (obsoleteText parts) now =
      checkedDate parts (obsoleteYear parts now) := by
  have hpreferred : preferred (obsoleteText parts) = none := by
    rw [eq_none_iff_forall_ne_some]
    intro parts' hparts
    obtain ⟨h', htext⟩ := preferred_iff.mp hparts
    obtain ⟨c, hc, _, hcomma, _⟩ := fourth_obsolete h
    rw [htext, fourth_preferred h'] at hc
    cases hc
    exact hcomma rfl
  rw [httpDateMilliseconds, hpreferred, obsolete_iff.mpr ⟨h, rfl⟩]

theorem httpDate_asctime (h : Written parts 4) {dayText : JsString}
    (hday : DayText parts.day dayText) (now : Date) :
    httpDateMilliseconds (asctimeText parts dayText) now = checkedDate parts parts.year := by
  have hfourth := fourth_asctime h dayText
  have hpreferred : preferred (asctimeText parts dayText) = none := by
    rw [eq_none_iff_forall_ne_some]
    intro parts' hparts
    obtain ⟨h', htext⟩ := preferred_iff.mp hparts
    rw [htext, fourth_preferred h'] at hfourth
    cases hfourth
  have hobsolete : obsolete (asctimeText parts dayText) = none := by
    rw [eq_none_iff_forall_ne_some]
    intro parts' hparts
    obtain ⟨h', htext⟩ := obsolete_iff.mp hparts
    obtain ⟨c, hc, _, _, hblank⟩ := fourth_obsolete h'
    rw [← htext, hfourth] at hc
    cases hc
    exact hblank rfl
  rw [httpDateMilliseconds, hpreferred, hobsolete, asctime_iff.mpr ⟨h, dayText, hday, rfl⟩]

/-! ## Forms of a date -/

/-- The fields of an instant, with so much of its year. -/
def fieldsOf (t : Int) (year : Nat) : Parts where
  weekday := getUTCDay t
  day := getUTCDate t
  month := getUTCMonth t
  year := year
  hour := getUTCHours t
  minute := getUTCMinutes t
  second := getUTCSeconds t

/-- The text is one of the forms of a date for a reader at some time. -/
inductive Names (now t : Int) : JsString → Prop
  | preferred : WholeSecond t → 0 ≤ getUTCFullYear t → getUTCFullYear t < 10000 →
      Names now t (preferredText (fieldsOf t (getUTCFullYear t).toNat))
  | obsolete : WholeSecond t → InWindow now t →
      Names now t (obsoleteText (fieldsOf t (getUTCFullYear t % 100).toNat))
  | asctime {dayText : JsString} : WholeSecond t → 0 ≤ getUTCFullYear t →
      getUTCFullYear t < 10000 → DayText (getUTCDate t) dayText →
      Names now t (asctimeText (fieldsOf t (getUTCFullYear t).toNat) dayText)

/-- The obsolete form of a date that a century later lies beyond the last date. -/
def Lost (now t : Int) (raw : JsString) : Prop :=
  WholeSecond t ∧ InWindow now t ∧ Stranded now t ∧
    raw = obsoleteText (fieldsOf t (getUTCFullYear t % 100).toNat)

variable {year : Nat}

theorem written_fieldsOf (t : Int) {digits : Nat} (h : year < 10 ^ digits) :
    Written (fieldsOf t year) digits where
  weekday := by
    change ((dayOf t + 4) % 7).toNat < 7
    omega
  day := Nat.lt_of_le_of_lt (getUTCDate_range t).2 (by omega)
  month := getUTCMonth_lt t
  year := h
  hour := by
    change (t % 86400000).toNat / 3600000 < 100
    omega
  minute := Nat.lt_trans (Nat.mod_lt _ (by omega)) (by omega)
  second := Nat.lt_trans (Nat.mod_lt _ (by omega)) (by omega)

theorem hasFields_fieldsOf (t : Int) (year : Nat) : HasFields t (fieldsOf t year) :=
  ⟨rfl, rfl, rfl, rfl, rfl, rfl⟩

variable {t : Int}

theorem fieldsOf_eq (h : HasFields t parts) (hyear : parts.year = year) :
    parts = fieldsOf t year := by
  obtain ⟨hmonth, hday, hhour, hminute, hsecond, hweekday⟩ := h
  cases parts
  simp only [fieldsOf, Parts.mk.injEq]
  exact ⟨hweekday.symm, hday.symm, hmonth.symm, hyear, hhour.symm, hminute.symm, hsecond.symm⟩

variable {raw : JsString} {now : Date}

theorem names_of_httpDate (h : httpDateMilliseconds raw now = some t) : Names now.val t raw := by
  cases hpreferred : preferred raw with
  | some parts =>
    obtain ⟨hwritten, rfl⟩ := preferred_iff.mp hpreferred
    rw [httpDate_preferred hwritten, checkedDate_iff] at h
    obtain ⟨hwhole, hfields, hyear⟩ := h
    have hlt := hwritten.year
    have hparts : parts = fieldsOf t (getUTCFullYear t).toNat := fieldsOf_eq hfields (by omega)
    rw [hparts]
    exact .preferred hwhole (by omega) (by omega)
  | none =>
    cases hobsolete : obsolete raw with
    | some parts =>
      obtain ⟨hwritten, rfl⟩ := obsolete_iff.mp hobsolete
      rw [httpDate_obsolete hwritten, checkedDate_obsolete hwritten.year] at h
      obtain ⟨⟨hwhole, hfields, hyear⟩, hwindow, -⟩ := h
      have hparts : parts = fieldsOf t (getUTCFullYear t % 100).toNat :=
        fieldsOf_eq hfields (by omega)
      rw [hparts]
      exact .obsolete hwhole hwindow
    | none =>
      cases hasctime : asctime raw with
      | some parts =>
        obtain ⟨hwritten, dayText, hday, rfl⟩ := asctime_iff.mp hasctime
        rw [httpDate_asctime hwritten hday, checkedDate_iff] at h
        obtain ⟨hwhole, hfields, hyear⟩ := h
        have hlt := hwritten.year
        rw [← hfields.day] at hday
        have hparts : parts = fieldsOf t (getUTCFullYear t).toNat :=
          fieldsOf_eq hfields (by omega)
        rw [hparts]
        exact .asctime hwhole (by omega) (by omega) hday
      | none =>
        rw [httpDateMilliseconds, hpreferred, hobsolete, hasctime] at h
        cases h

theorem httpDate_of_names (h : Names now.val t raw) (kept : ¬Lost now.val t raw) :
    httpDateMilliseconds raw now = some t := by
  cases h with
  | preferred whole low high =>
    rw [httpDate_preferred (written_fieldsOf t (by omega)), checkedDate_iff]
    refine ⟨whole, hasFields_fieldsOf t _, ?_⟩
    change getUTCFullYear t = ((getUTCFullYear t).toNat : Int)
    omega
  | obsolete whole window =>
    have hdigits : (getUTCFullYear t % 100).toNat < 100 := by omega
    rw [httpDate_obsolete (written_fieldsOf t hdigits), checkedDate_obsolete hdigits]
    refine ⟨⟨whole, hasFields_fieldsOf t _, ?_⟩, window, fun hstranded => ?_⟩
    · change getUTCFullYear t % 100 = ((getUTCFullYear t % 100).toNat : Int)
      omega
    · exact kept ⟨whole, window, hstranded, rfl⟩
  | asctime whole low high day =>
    rw [httpDate_asctime (written_fieldsOf t (by omega)) day, checkedDate_iff]
    refine ⟨whole, hasFields_fieldsOf t _, ?_⟩
    change getUTCFullYear t = ((getUTCFullYear t).toNat : Int)
    omega

/-- Two dates with the same fields and two digits are not both in the window. -/
theorem window_unique {now u : Int} (ht : HasFields t parts) (hu : HasFields u parts)
    (hwhole : WholeSecond t) (hwhole' : WholeSecond u) (hwindow : InWindow now t)
    (hwindow' : InWindow now u) (hdigits : getUTCFullYear t % 100 = getUTCFullYear u % 100) :
    t = u := by
  have hsame : ∀ year, inYear t year = inYear u year := by
    intro year
    rw [inYear, inYear, ht.month, ht.day, hu.month, hu.day, ← timeMillis_of_fields ht hwhole.2,
      ← timeMillis_of_fields hu hwhole'.2]
  have hself := inYear_self t
  have hself' := inYear_self u
  obtain ⟨hlow, hhigh⟩ := hwindow.near
  obtain ⟨hlow', hhigh'⟩ := hwindow'.near
  have hyears : getUTCFullYear t = getUTCFullYear u ∨
      getUTCFullYear t = getUTCFullYear u + 100 ∨ getUTCFullYear u = getUTCFullYear t + 100 := by
    omega
  rcases hyears with heq | hlater | hlater
  · rw [← hself, ← hself', heq, hsame]
  · have hpast := hwindow'.2
    rw [← hlater, ← hsame, hself] at hpast
    exact absurd hwindow.1 (by omega)
  · have hpast := hwindow.2
    rw [← hlater, hsame, hself'] at hpast
    exact absurd hwindow'.1 (by omega)

theorem httpDate_lost (h : Lost now.val t raw) :
    httpDateMilliseconds raw now = none := by
  obtain ⟨hwhole, hwindow, hstranded, rfl⟩ := h
  have hdigits : (getUTCFullYear t % 100).toNat < 100 := by omega
  rw [httpDate_obsolete (written_fieldsOf t hdigits), eq_none_iff_forall_ne_some]
  intro u hu
  obtain ⟨⟨hwhole', hfields, hyear⟩, hwindow', hkept⟩ := (checkedDate_obsolete hdigits).mp hu
  have hsame : getUTCFullYear t % 100 = getUTCFullYear u % 100 := by
    rw [hyear]
    change getUTCFullYear t % 100 = ((getUTCFullYear t % 100).toNat : Int)
    omega
  rw [window_unique (hasFields_fieldsOf t _) hfields hwhole hwhole' hwindow hwindow' hsame]
    at hstranded
  exact hkept hstranded

/-! ## The header -/

theorem trim_self {first last : UInt16} (hfirst : s.head? = some first)
    (hlast : s.getLast? = some last) (hf : whitespace first = false)
    (hl : whitespace last = false) : trim s = s := by
  have hkeeps : ∀ {s : JsString} {c : UInt16}, s.head? = some c → whitespace c = false →
      s.dropWhile whitespace = s := by
    intro s c hc hblank
    cases s with
    | nil => rfl
    | cons d s =>
      cases hc
      rw [dropWhile_cons_of_neg (by simp [hblank])]
  rw [trim, hkeeps hfirst hf, hkeeps (c := last) (by rw [List.head?_reverse, hlast]) hl,
    reverse_reverse]

theorem head_short (h : i < 7) (rest : JsString) :
    ∃ c, (HTTP_WEEKDAYS.getD i [] ++ rest).head? = some c ∧ whitespace c = false := by
  interval_cases i <;> exact ⟨_, rfl, by decide⟩

theorem head_long (h : i < 7) (rest : JsString) :
    ∃ c, (HTTP_LONG_WEEKDAYS.getD i [] ++ rest).head? = some c ∧ whitespace c = false := by
  interval_cases i <;> exact ⟨_, rfl, by decide⟩

theorem last_gmt (s : JsString) : (s ++ js " GMT").getLast? = some 0x54 := by
  rw [getLast?_append]
  rfl

theorem whitespace_digitUnit {d : Nat} (h : d < 10) : whitespace (digitUnit d) = false := by
  interval_cases d <;> decide

theorem last_year (s : JsString) (year : Nat) :
    ∃ c, (s ++ pad 4 year).getLast? = some c ∧ whitespace c = false := by
  refine ⟨_, ?_, whitespace_digitUnit (Nat.mod_lt (year % 10 ^ 3 % 10 ^ 2 % 10 ^ 1 / 10 ^ 0)
    (show 0 < 10 by omega))⟩
  rw [getLast?_append]
  rfl

/-- No form of a date has a blank at its ends. -/
theorem trim_names {now : Int} (h : Names now t raw) : trim raw = raw := by
  have hdigits : (getUTCFullYear t % 100).toNat < 10 ^ 2 := by omega
  cases h with
  | preferred whole low high =>
    have hwritten : Written (fieldsOf t (getUTCFullYear t).toNat) 4 :=
      written_fieldsOf t (by omega)
    obtain ⟨c, hc, hblank⟩ := head_short hwritten.weekday _
    refine trim_self hc ?_ hblank (show whitespace 0x54 = false by decide)
    simp only [preferredText, ← append_assoc]
    exact last_gmt _
  | obsolete whole window =>
    obtain ⟨c, hc, hblank⟩ := head_long (written_fieldsOf t hdigits).weekday _
    refine trim_self hc ?_ hblank (show whitespace 0x54 = false by decide)
    simp only [obsoleteText, ← append_assoc]
    exact last_gmt _
  | @asctime dayText whole low high day =>
    have hwritten : Written (fieldsOf t (getUTCFullYear t).toNat) 4 :=
      written_fieldsOf t (by omega)
    obtain ⟨c, hc, hblank⟩ := head_short hwritten.weekday _
    obtain ⟨d, hd, hblank'⟩ := last_year
      (HTTP_WEEKDAYS.getD (getUTCDay t) [] ++ js " " ++ HTTP_MONTHS.getD (getUTCMonth t) [] ++
        js " " ++ dayText ++ js " " ++ timeText (fieldsOf t (getUTCFullYear t).toNat) ++ js " ")
      (getUTCFullYear t).toNat
    refine trim_self hc ?_ hblank hblank'
    simp only [asctimeText, ← append_assoc]
    exact hd

/-- A form of a date is not a number. -/
theorem names_not_digits {now : Int} (h : Names now t raw) :
    raw.all isDigit = false := by
  have hfourth : ∃ c, raw[3]? = some c ∧ isDigit c = false := by
    cases h with
    | preferred whole low high =>
      exact ⟨_, fourth_preferred (written_fieldsOf t (by omega)), by decide⟩
    | obsolete whole window =>
      have hdigits : (getUTCFullYear t % 100).toNat < 10 ^ 2 := by omega
      obtain ⟨c, hc, hdigit, -⟩ := fourth_obsolete (written_fieldsOf t hdigits)
      exact ⟨c, hc, hdigit⟩
    | asctime whole low high day =>
      exact ⟨_, fourth_asctime (written_fieldsOf t (by omega)) _, by decide⟩
  obtain ⟨c, hc, hdigit⟩ := hfourth
  rw [List.all_eq_false]
  exact ⟨c, List.mem_of_getElem? hc, by simp [hdigit]⟩

/-- A delay in seconds that stays in range. -/
def Delay (raw : JsString) (now : Date) (delay : Int) : Prop :=
  raw ≠ [] ∧ raw.all isDigit = true ∧ delay = ((digitsValue raw * 1000 : Nat) : Int) ∧
    delay ≤ 9007199254740991 ∧ now.val + delay ≤ 8640000000000000

/-- The header is read as what it says, and each form of a date as that date. -/
structure Exact (value : JsString) (now : Date) : Prop where
  read : ∀ delay, retryAfterMilliseconds (some value) now = some delay ↔
    Delay (trim value) now delay ∨
      ∃ t, Names now.val t (trim value) ∧ delay = max 0 (t - now.val)
  back : ∀ t, Names now.val t value →
    retryAfterMilliseconds (some value) now = some (max 0 (t - now.val))

theorem retryAfter_names {value : JsString} (h : Names now.val t (trim value)) :
    retryAfterMilliseconds (some value) now =
      (httpDateMilliseconds (trim value) now).map fun date => max 0 (date - now.val) := by
  rw [retryAfterMilliseconds, bind_some, if_neg]
  rw [names_not_digits h]
  exact fun hdigits => Bool.false_ne_true hdigits.2

theorem names_of_lost {now : Int} (h : Lost now t raw) : Names now t raw := by
  obtain ⟨hwhole, hwindow, -, rfl⟩ := h
  exact .obsolete hwhole hwindow

/-- A header is read exactly, unless it is the obsolete form of a past date that a century later
lies beyond the last date. -/
theorem retryAfterMilliseconds_exact_iff (value : JsString) (now : Date) :
    Exact value now ↔ ¬∃ t, Lost now.val t (trim value) := by
  constructor
  · rintro ⟨hread, -⟩ ⟨t, hlost⟩
    have hnames := names_of_lost hlost
    have hsome := (hread _).mpr (.inr ⟨t, hnames, rfl⟩)
    rw [retryAfter_names hnames, httpDate_lost hlost] at hsome
    cases hsome
  · intro hkept
    have hdated : ∀ t, Names now.val t (trim value) →
        retryAfterMilliseconds (some value) now = some (max 0 (t - now.val)) := by
      intro t hnames
      rw [retryAfter_names hnames, httpDate_of_names hnames fun hlost => hkept ⟨t, hlost⟩]
      rfl
    constructor
    · intro delay
      constructor
      · intro h
        simp only [retryAfterMilliseconds, bind_some] at h
        split at h
        · rename_i hdigits
          left
          split at h
          · rename_i hrange
            cases h
            exact ⟨hdigits.1, hdigits.2, rfl, by omega, hrange.2⟩
          · cases h
        · right
          obtain ⟨t, ht, rfl⟩ := map_eq_some_iff.mp h
          exact ⟨t, names_of_httpDate ht, rfl⟩
      · rintro (⟨hsome, hdigits, rfl, hsafe, hrange⟩ | ⟨t, hnames, rfl⟩)
        · rw [retryAfterMilliseconds, bind_some, if_pos ⟨hsome, hdigits⟩]
          exact if_pos ⟨by omega, hrange⟩
        · exact hdated t hnames
    · intro t hnames
      apply hdated
      rw [trim_names hnames]
      exact hnames

/-- The first day of the year 275690. -/
def lateClock : Date := ⟨8637768979200000, by decide⟩

/-- The first day of the year 275670, read twenty years later. -/
theorem stranded_date_refused : ¬∀ value now, Exact value now := by
  intro h
  have hnames : Names lateClock.val 8637137827200000 (js "Wednesday, 01-Jan-70 00:00:00 GMT") := by
    have htext : js "Wednesday, 01-Jan-70 00:00:00 GMT" =
        obsoleteText (fieldsOf 8637137827200000
          (getUTCFullYear 8637137827200000 % 100).toNat) := by decide +kernel
    rw [htext]
    exact .obsolete (by unfold WholeSecond; decide) (by unfold InWindow; decide +kernel)
  have hread := (h _ _).back _ hnames
  have hnone : retryAfterMilliseconds (some (js "Wednesday, 01-Jan-70 00:00:00 GMT")) lateClock =
      none := by decide +kernel
  rw [hnone] at hread
  cases hread

end RetryAfter
