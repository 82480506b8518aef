import HawkView.Lib.LengthPrefix
import Mathlib.Data.List.Infix

/-!
# Strings as code units

A JavaScript string is a list of UTF-16 code units, lone surrogates included.
`like` is the SQL operator `LIKE` on such strings: `%` stands for any text, `_`
for one character and a backslash takes the next character literally. A `Uuid`
is the text of a UUID column, and `decimal` the text of a number.
-/

/-- A JavaScript string, as its UTF-16 code units. -/
abbrev JsString := List UInt16

instance JsString.instLawfulBEq : LawfulBEq JsString := inferInstance

/-- The code units of a literal. -/
def js (s : String) : JsString :=
  s.toList.flatMap fun c =>
    if c.toNat < 0x10000 then [c.toNat.toUInt16]
    else
      let v := c.toNat - 0x10000
      [(0xD800 + (v >>> 10)).toUInt16, (0xDC00 + (v &&& 0x3FF)).toUInt16]

namespace JsString

open List

def startsWith (s start : JsString) : Bool := start.isPrefixOf s

/-- The code units that `trim` takes away. -/
def whitespace (c : UInt16) : Bool :=
  decide (0x09 ≤ c ∧ c ≤ 0x0D) || decide (0x2000 ≤ c ∧ c ≤ 0x200A) ||
  [0x20, 0xA0, 0x1680, 0x2028, 0x2029, 0x202F, 0x205F, 0x3000, 0xFEFF].contains c

/-- `s.trim() === ''`. -/
def blank (s : JsString) : Bool := s.all whitespace

/-- `s.trim()`. -/
def trim (s : JsString) : JsString :=
  ((s.dropWhile whitespace).reverse.dropWhile whitespace).reverse

/-- `s.includes(part)`. -/
def includes (s part : JsString) : Bool := s.tails.any fun rest => part.isPrefixOf rest

/-- What is left of a text after its first character, a surrogate pair counting as one. -/
def dropCharacter : JsString → Option JsString
  | [] => none
  | [_] => some []
  | c :: d :: rest =>
    if 0xD800 ≤ c ∧ c < 0xDC00 ∧ 0xDC00 ≤ d ∧ d < 0xE000 then some rest else some (d :: rest)

/-- `text LIKE pattern`. -/
def like : JsString → JsString → Bool
  | [], text => text.isEmpty
  | c :: pattern, text =>
    if c = 0x25 then text.tails.any (like pattern)
    else if c = 0x5F then (dropCharacter text).any (like pattern)
    else if c = 0x5C then
      match pattern, text with
      | escaped :: rest, d :: text => escaped == d && like rest text
      | _, _ => false
    else
      match text with
      | d :: text => c == d && like pattern text
      | [] => false

/-- A code unit that `LIKE` takes for itself. -/
def Literal (c : UInt16) : Prop := c ≠ 0x25 ∧ c ≠ 0x5F ∧ c ≠ 0x5C

instance : DecidablePred Literal := fun c =>
  inferInstanceAs (Decidable (c ≠ 0x25 ∧ c ≠ 0x5F ∧ c ≠ 0x5C))

variable {c : UInt16}

theorem like_literal (h : Literal c) (pattern text : JsString) :
    like (c :: pattern) text = match text with
      | d :: text => c == d && like pattern text
      | [] => false := by
  rw [like.eq_def]
  simp only [if_neg h.1, if_neg h.2.1, if_neg h.2.2]

theorem like_percent (text : JsString) : like [0x25] text = true := by
  have hmem : ([] : JsString) ∈ text.tails := by
    rw [mem_tails]
    exact nil_suffix
  rw [like.eq_def]
  simp only [if_pos, List.any_eq_true]
  exact ⟨[], hmem, rfl⟩

variable {start : JsString}

/-- Without pattern characters, `LIKE start || '%'` is `startsWith`. -/
theorem like_append_percent (literal : ∀ c ∈ start, Literal c) (text : JsString) :
    like (start ++ [0x25]) text = startsWith text start := by
  induction start generalizing text with
  | nil => simpa [startsWith] using like_percent text
  | cons c start ih =>
    have htail : ∀ d ∈ start, Literal d := fun d hd => literal d (by simp [hd])
    rw [cons_append, like_literal (literal c (by simp))]
    cases text with
    | nil => rfl
    | cons d text =>
      simp only [ih htail, startsWith, isPrefixOf_cons_cons]

/-- A text that a pattern matches: nothing for `%`, an `x` for `_`, escaped code units as such. -/
def shown : JsString → JsString
  | [] => []
  | c :: pattern =>
    if c = 0x25 then shown pattern
    else if c = 0x5F then 0x78 :: shown pattern
    else if c = 0x5C then
      match pattern with
      | escaped :: rest => escaped :: shown rest
      | [] => []
    else c :: shown pattern

section Shown

variable (pattern : JsString)

@[simp] theorem shown_percent : shown (0x25 :: pattern) = shown pattern := by
  rw [shown.eq_def]
  simp

@[simp] theorem shown_any : shown (0x5F :: pattern) = 0x78 :: shown pattern := by
  rw [shown.eq_def]
  simp

@[simp] theorem shown_escape (c : UInt16) : shown (0x5C :: c :: pattern) = c :: shown pattern := by
  rw [shown.eq_def]
  simp

variable {c : UInt16}

@[simp] theorem shown_literal (h : Literal c) :
    shown (c :: pattern) = c :: shown pattern := by
  rw [shown.eq_def]
  simp [h.1, h.2.1, h.2.2]

theorem length_shown : (shown pattern).length ≤ pattern.length := by
  induction pattern using shown.induct with
  | case1 => exact Nat.le_refl 0
  | case2 pattern ih => simp; omega
  | case3 pattern _ ih => simpa using ih
  | case4 c rest _ _ ih => simp; omega
  | case5 => simp [shown]
  | case6 c pattern hpercent hany hescape ih =>
    rw [shown_literal _ ⟨hpercent, hany, hescape⟩]
    simpa using ih

theorem like_shown (h : Literal c) :
    like (pattern ++ [c, 0x25]) (shown (pattern ++ [c])) = true := by
  induction pattern using shown.induct with
  | case1 => simp [h, like_literal h, like_percent, shown]
  | case2 pattern ih =>
    rw [cons_append, cons_append, like.eq_def, shown_percent]
    simp only [if_true, List.any_eq_true]
    exact ⟨_, (mem_tails _ _).mpr suffix_rfl, ih⟩
  | case3 pattern _ ih =>
    rw [cons_append, cons_append, like.eq_def, shown_any]
    cases hshown : shown (pattern ++ [c]) <;> rw [hshown] at ih <;> simpa [dropCharacter] using ih
  | case4 d rest _ _ ih =>
    rw [cons_append, cons_append, like.eq_def]
    simpa using ih
  | case5 =>
    rw [cons_append, cons_append, like.eq_def, nil_append]
    simp [shown, like_percent]
  | case6 d pattern hpercent hany hescape ih =>
    have hd : Literal d := ⟨hpercent, hany, hescape⟩
    rw [cons_append, cons_append, like_literal hd, shown_literal _ hd]
    simpa using ih

theorem literal_of_shown (h : shown pattern = pattern) : ∀ c ∈ pattern, Literal c := by
  induction pattern using shown.induct with
  | case1 => exact fun _ hc => absurd hc not_mem_nil
  | case2 pattern =>
    have hle := length_shown pattern
    rw [← shown_percent, h, length_cons] at hle
    omega
  | case3 pattern => simp at h
  | case4 c rest =>
    have hle := length_shown rest
    have hlength := congrArg List.length h
    simp only [shown_escape, length_cons] at hlength
    omega
  | case5 => simp [shown] at h
  | case6 c pattern hpercent hany hescape ih =>
    have hc : Literal c := ⟨hpercent, hany, hescape⟩
    rw [shown_literal _ hc, List.cons.injEq] at h
    exact forall_mem_cons.mpr ⟨hc, ih h.2⟩

end Shown

/-- `LIKE start || '%'` is `startsWith` exactly when the start has no pattern character. -/
theorem like_iff_startsWith (h : Literal c) :
    (∀ text, like (start ++ [c, 0x25]) text = startsWith text (start ++ [c])) ↔
      ∀ d ∈ start, Literal d := by
  constructor
  · intro hsame
    have hstarts := hsame (shown (start ++ [c]))
    rw [like_shown start h, startsWith, eq_comm, isPrefixOf_iff_prefix] at hstarts
    have hself := hstarts.eq_of_length_le (length_shown _)
    exact fun d hd => literal_of_shown _ hself.symm d (mem_append_left _ hd)
  · intro hliteral text
    rw [← like_append_percent (by simpa [or_imp, forall_and, h] using hliteral)]
    simp

/-- The code unit of a character of the basic plane. -/
def unit (c : Char) : UInt16 := c.toNat.toUInt16

theorem unit_digit {c : Char} (h : c.isDigit) : Char.ofNat (unit c).toNat = c := by
  simp only [Char.isDigit, Bool.and_eq_true, decide_eq_true_eq] at h
  have hle : c.toNat ≤ 57 := h.2
  have hunit : (unit c).toNat = c.toNat := by
    simp only [unit, Nat.toUInt16_eq, UInt16.toNat_ofNat']
    omega
  rw [hunit, Char.ofNat_toNat]

/-- `${n}` of a natural number. -/
def decimal (n : Nat) : JsString := (Nat.toDigits 10 n).map unit

theorem decimal_digits (n : Nat) :
    (decimal n).map (fun u => Char.ofNat u.toNat) = Nat.toDigits 10 n := by
  rw [decimal, List.map_map]
  conv_rhs => rw [← map_id (Nat.toDigits 10 n)]
  apply map_congr_left
  intro c hc
  exact unit_digit (Nat.isDigit_of_mem_toDigits (by omega) (by omega) hc)

theorem decimal_injective : Function.Injective decimal := by
  intro n m h
  have hdigits : Nat.toDigits 10 n = Nat.toDigits 10 m := by
    rw [← decimal_digits n, ← decimal_digits m, h]
  rw [← Nat.ofDigitChars_toDigits (b := 10) (n := n) (by omega) (by omega),
    ← Nat.ofDigitChars_toDigits (b := 10) (n := m) (by omega) (by omega), hdigits]

theorem decimal_digit {n : Nat} {u : UInt16} (h : u ∈ decimal n) : 0x30 ≤ u ∧ u ≤ 0x39 := by
  obtain ⟨c, hc, rfl⟩ := mem_map.mp h
  have hdigit := Nat.isDigit_of_mem_toDigits (b := 10) (by omega) (by omega) hc
  simp only [Char.isDigit, Bool.and_eq_true, decide_eq_true_eq] at hdigit
  have hlow : 48 ≤ c.toNat := hdigit.1
  have hhigh : c.toNat ≤ 57 := hdigit.2
  have hunit : (unit c).toNat = c.toNat := by
    simp only [unit, Nat.toUInt16_eq, UInt16.toNat_ofNat']
    omega
  rw [UInt16.le_iff_toNat_le, UInt16.le_iff_toNat_le, hunit]
  exact ⟨hlow, hhigh⟩

theorem colon_not_in_decimal (n : Nat) : 0x3A ∉ decimal n :=
  fun h => absurd (decimal_digit h).2 (by decide)

/-- A part with its length in decimal and a colon in front. -/
def lengthPrefixed : Framing UInt16 where
  header := decimal
  sep := 0x3A
  header_injective := decimal_injective
  sep_free := colon_not_in_decimal

/-- `toLowerCase` on the basic Latin letters. -/
def lowerLatin (s : JsString) : JsString :=
  s.map fun c => if 0x41 ≤ c ∧ c ≤ 0x5A then c + 0x20 else c

/-- `toUpperCase` on the basic Latin letters. -/
def upperLatin (s : JsString) : JsString :=
  s.map fun c => if 0x61 ≤ c ∧ c ≤ 0x7A then c - 0x20 else c

end JsString

/-- The lower-case text form of a UUID column. -/
def isUuid (s : JsString) : Bool :=
  s.length == 36 && s.zipIdx.all fun (c, i) =>
    if i ∈ [8, 13, 18, 23] then c == 0x2D
    else decide (0x30 ≤ c ∧ c ≤ 0x39) || decide (0x61 ≤ c ∧ c ≤ 0x66)

structure Uuid where
  text : JsString
  wellFormed : isUuid text = true
  deriving DecidableEq

namespace Uuid

theorem text_injective {a b : Uuid} (h : a.text = b.text) : a = b := by
  cases a
  cases b
  cases h
  rfl

theorem length_text (a : Uuid) : a.text.length = 36 := by
  have h := a.wellFormed
  simp only [isUuid, Bool.and_eq_true, beq_iff_eq] at h
  exact h.1

/-- UUIDs have one length, so they split off the front of any text. -/
theorem append_split {a b : Uuid} {s t : JsString} (h : a.text ++ s = b.text ++ t) :
    a = b ∧ s = t := by
  have hlength : a.text.length = b.text.length := by rw [length_text, length_text]
  obtain ⟨htext, hrest⟩ := List.append_inj h hlength
  exact ⟨text_injective htext, hrest⟩

end Uuid
