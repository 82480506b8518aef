import HawkView.Lib.JsonText

/-!
# Texts as bytes

A text is written as UTF-8 by its characters. A surrogate without its partner
has no character of its own and is written as the replacement character, so the
bytes determine a text up to such surrogates.
-/

namespace JsString

open List

open Json (isLead isTrail byteLength)

def isSurrogate (c : UInt16) : Bool := isLead c || isTrail c

/-- The character of a code unit that stands alone. -/
def character (c : UInt16) : Char :=
  if isSurrogate c then Char.ofNat 0xFFFD else Char.ofNat c.toNat

/-- The character of a pair of surrogates. -/
def paired (c d : UInt16) : Char :=
  Char.ofNat (0x10000 + (c.toNat - 0xD800) * 0x400 + (d.toNat - 0xDC00))

def characters : JsString → List Char
  | [] => []
  | [c] => [character c]
  | c :: d :: rest =>
    if isLead c && isTrail d then paired c d :: characters rest
    else character c :: characters (d :: rest)

/-- `Buffer.from(s, 'utf8')`. -/
def utf8 (s : JsString) : List UInt8 := (characters s).flatMap String.utf8EncodeChar

/-- The code units of a character. -/
def units (x : Char) : JsString :=
  if x.toNat < 0x10000 then [x.toNat.toUInt16]
  else [(0xD800 + (x.toNat - 0x10000) / 0x400).toUInt16,
    (0xDC00 + (x.toNat - 0x10000) % 0x400).toUInt16]

/-- `s.toWellFormed()`. -/
def toWellFormed : JsString → JsString
  | [] => []
  | [c] => [if isSurrogate c then 0xFFFD else c]
  | c :: d :: rest =>
    if isLead c && isTrail d then c :: d :: toWellFormed rest
    else (if isSurrogate c then 0xFFFD else c) :: toWellFormed (d :: rest)

/-! ## Bytes and characters -/

variable {s t : JsString}

theorem utf8_eq_iff : utf8 s = utf8 t ↔ characters s = characters t := by
  constructor
  · intro h
    have hbytes : (characters s).utf8Encode = (characters t).utf8Encode :=
      congrArg List.toByteArray h
    apply String.ofList_injective
    rw [← String.toByteArray_inj, String.toByteArray_ofList, String.toByteArray_ofList, hbytes]
  · intro h
    rw [utf8, h, utf8]

/-! ## Characters and code units -/

variable {c : UInt16}

theorem surrogate_range :
    isSurrogate c = true ↔ 0xD800 ≤ c.toNat ∧ c.toNat < 0xE000 := by
  simp only [isSurrogate, isLead, isTrail, Bool.or_eq_true, decide_eq_true_eq,
    UInt16.le_iff_toNat_le, UInt16.lt_iff_toNat_lt, UInt16.reduceToNat]
  omega

theorem toNat_ofNat {n : Nat} (h : n < 0xD800 ∨ 0xDFFF < n ∧ n < 0x110000) :
    (Char.ofNat n).toNat = n := by
  have hvalid : n.isValidChar := by
    simp only [Nat.isValidChar]
    omega
  rw [Char.ofNat, dif_pos hvalid]
  exact UInt32.toNat_ofNatLT

theorem toNat_character (c : UInt16) :
    (character c).toNat = if isSurrogate c then 0xFFFD else c.toNat := by
  have hc := c.toNat_lt
  rw [character]
  by_cases hs : isSurrogate c = true
  · rw [if_pos hs, if_pos hs]
    rfl
  · rw [if_neg hs, if_neg hs]
    rw [surrogate_range] at hs
    apply toNat_ofNat
    omega

theorem units_character (c : UInt16) :
    units (character c) = [if isSurrogate c then 0xFFFD else c] := by
  have hc := c.toNat_lt
  rw [units, toNat_character]
  by_cases hs : isSurrogate c = true
  · simp [hs]
  · simp only [hs, Bool.false_eq_true, if_false]
    rw [if_pos (by omega)]
    congr 1
    exact UInt16.ofNat_toNat

variable {d : UInt16}

section

variable (h : (isLead c && isTrail d) = true)
include h

theorem pair_range :
    0xD800 ≤ c.toNat ∧ c.toNat < 0xDC00 ∧ 0xDC00 ≤ d.toNat ∧ d.toNat < 0xE000 := by
  simp only [isLead, isTrail, Bool.and_eq_true, decide_eq_true_eq, UInt16.le_iff_toNat_le,
    UInt16.lt_iff_toNat_lt, UInt16.reduceToNat] at h
  omega

theorem toNat_paired :
    (paired c d).toNat = 0x10000 + (c.toNat - 0xD800) * 0x400 + (d.toNat - 0xDC00) := by
  have hrange := pair_range h
  apply toNat_ofNat
  omega

theorem units_paired :
    units (paired c d) = [c, d] := by
  have hrange := pair_range h
  rw [units, toNat_paired h, if_neg (by omega)]
  have hlead : 0xD800 + (0x10000 + (c.toNat - 0xD800) * 0x400 + (d.toNat - 0xDC00) - 0x10000) /
      0x400 = c.toNat := by omega
  have htrail : 0xDC00 + (0x10000 + (c.toNat - 0xD800) * 0x400 + (d.toNat - 0xDC00) - 0x10000) %
      0x400 = d.toNat := by omega
  rw [hlead, htrail]
  simp

end

theorem flatMap_units (s : JsString) : (characters s).flatMap units = toWellFormed s := by
  fun_induction characters s with
  | case1 => rfl
  | case2 c => simp [units_character, toWellFormed]
  | case3 c d rest h ih => simp [toWellFormed, h, units_paired h, ih]
  | case4 c d rest h ih => simp [toWellFormed, h, units_character, ih]

theorem characters_cons (h : isSurrogate c = false) (s : JsString) :
    characters (c :: s) = character c :: characters s := by
  have hlead : isLead c = false := by
    simp only [isSurrogate, Bool.or_eq_false_iff] at h
    exact h.1
  cases s with
  | nil => rfl
  | cons d rest => simp [characters, hlead]

theorem character_replaced (c : UInt16) :
    character (if isSurrogate c then 0xFFFD else c) = character c := by
  by_cases hs : isSurrogate c = true
  · have hreplacement : character 0xFFFD = Char.ofNat 0xFFFD := by decide
    rw [if_pos hs, hreplacement, character, if_pos hs]
  · simp [hs]

theorem replaced_plain (c : UInt16) : isSurrogate (if isSurrogate c then 0xFFFD else c) = false := by
  by_cases hs : isSurrogate c = true
  · simp only [hs, if_true]
    decide
  · simp [hs]

theorem characters_toWellFormed (s : JsString) : characters (toWellFormed s) = characters s := by
  fun_induction characters s with
  | case1 => rfl
  | case2 c =>
    rw [toWellFormed, characters, character_replaced]
  | case3 c d rest h ih =>
    rw [toWellFormed, if_pos h, characters, if_pos h, ih]
  | case4 c d rest h ih =>
    rw [toWellFormed, if_neg h, characters_cons (replaced_plain c), character_replaced, ih]

/-- The bytes tell texts apart up to surrogates that stand alone. -/
theorem utf8_iff : utf8 s = utf8 t ↔ toWellFormed s = toWellFormed t := by
  rw [utf8_eq_iff]
  constructor
  · intro h
    rw [← flatMap_units, h, flatMap_units]
  · intro h
    rw [← characters_toWellFormed, h, characters_toWellFormed]

/-! ## Texts without surrogates -/

/-- No code unit is a surrogate. -/
def plain (s : JsString) : Bool := s.all fun c => !isSurrogate c

theorem characters_append (h : plain s = true) (t : JsString) :
    characters (s ++ t) = characters s ++ characters t := by
  induction s with
  | nil => rfl
  | cons c rest ih =>
    simp only [plain, all_cons, Bool.and_eq_true, Bool.not_eq_true'] at h
    rw [cons_append, characters_cons h.1, characters_cons h.1, ih h.2, cons_append]

theorem toWellFormed_plain (h : plain s = true) : toWellFormed s = s := by
  rw [← flatMap_units]
  induction s with
  | nil => rfl
  | cons c rest ih =>
    simp only [plain, all_cons, Bool.and_eq_true, Bool.not_eq_true'] at h
    rw [characters_cons h.1, flatMap_cons, ih h.2, units_character, h.1]
    rfl

/-- Bytes of a text without surrogates are those of no other such text. -/
theorem utf8_plain (hs : plain s = true) (ht : plain t = true) (h : utf8 s = utf8 t) : s = t := by
  rw [utf8_iff, toWellFormed_plain hs, toWellFormed_plain ht] at h
  exact h

/-! ## Lengths -/

end JsString
