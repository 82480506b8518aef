import HawkView.Lib.JsNumber
import HawkView.Lib.Json
import Mathlib.Data.List.TakeWhile

/-!
# Numbers in JSON

The text of a number in JSON is read as the rational number that it stands for.
The text of a whole number is its decimal digits; a number that is not finite is
written as `null`.
-/

namespace NumberText

def isDigit (c : UInt16) : Bool := decide (0x30 ≤ c ∧ c ≤ 0x39)

/-- The number that a text of decimal digits stands for. -/
def readDecimal (s : JsString) : Nat :=
  Nat.ofDigitChars 10 (s.map fun u => Char.ofNat u.toNat) 0

theorem readDecimal_decimal (n : Nat) : readDecimal (JsString.decimal n) = n := by
  rw [readDecimal, JsString.decimal_digits]
  exact Nat.ofDigitChars_toDigits (b := 10) (n := n) (by omega) (by omega)

theorem all_isDigit_decimal (n : Nat) : (JsString.decimal n).all isDigit = true := by
  rw [List.all_eq_true]
  intro c hc
  simp [isDigit, JsString.decimal_digit hc]

/-- What `e` and what follows it multiply by. -/
def scale : JsString → Option ℚ
  | [] => some 1
  | [_] => none
  | e :: sign :: digits =>
    if e = 0x65 ∧ digits ≠ [] ∧ digits.all isDigit then
      if sign = 0x2B then some (10 ^ readDecimal digits)
      else if sign = 0x2D then some (1 / 10 ^ readDecimal digits)
      else none
    else none

/-- Digits, perhaps a point with digits, and perhaps an exponent. -/
def magnitude (s : JsString) : Option ℚ :=
  let whole := s.takeWhile isDigit
  let rest := s.dropWhile isDigit
  if whole = [] then none
  else if rest.head? = some 0x2E then
    let fraction := rest.tail.takeWhile isDigit
    (scale (rest.tail.dropWhile isDigit)).map
      ((readDecimal (whole ++ fraction) : ℚ) / 10 ^ fraction.length * ·)
  else (scale rest).map ((readDecimal whole : ℚ) * ·)

/-- The number that a text stands for. -/
def value (n : NumberText) : Option ℚ :=
  match n.text with
  | 0x2D :: s => (magnitude s).map fun q => -q
  | s => magnitude s

theorem magnitude_decimal (n : Nat) : magnitude (JsString.decimal n) = some (n : ℚ) := by
  have hall := all_isDigit_decimal n
  have hnonempty : JsString.decimal n ≠ [] := by
    intro h
    have := decimal_nonempty n
    simp [h] at this
  have htake : (JsString.decimal n).takeWhile isDigit = JsString.decimal n := by
    rw [List.takeWhile_eq_self_iff]
    exact List.all_eq_true.mp hall
  have hdrop : (JsString.decimal n).dropWhile isDigit = [] := by
    rw [List.dropWhile_eq_nil_iff]
    exact List.all_eq_true.mp hall
  simp [magnitude, htake, hdrop, hnonempty, scale, readDecimal_decimal]

theorem value_ofInt (t : Int) : (ofInt t).value = some (t : ℚ) := by
  rw [value, ofInt]
  by_cases ht : t < 0
  · have habs : ((t.natAbs : Nat) : ℚ) = -(t : ℚ) := by
      have hint : ((t.natAbs : Nat) : Int) = -t := by omega
      rw [← Int.cast_natCast, hint, Int.cast_neg]
    simp [if_pos ht, magnitude_decimal, habs]
  · have hnat : ((t.toNat : Nat) : ℚ) = (t : ℚ) := by
      have hint : ((t.toNat : Nat) : Int) = t := by omega
      rw [← Int.cast_natCast, hint]
    simp only [if_neg ht]
    split
    · rename_i s heq
      have hmem : (0x2D : UInt16) ∈ JsString.decimal t.toNat := by
        rw [heq]
        exact List.mem_cons_self
      exact absurd (JsString.decimal_digit hmem).1 (by decide)
    · rw [magnitude_decimal, hnat]

/-- A text of a finite number. That of a fraction, which a `Number` has to a power of two, is exact
but not the shortest. -/
def ofRat (q : ℚ) : NumberText :=
  if q.den = 1 then ofInt q.num
  else
    { text := (ofInt (q.num * 5 ^ Nat.log2 q.den)).text ++ 0x65 :: 0x2D ::
        JsString.decimal (Nat.log2 q.den)
      wellFormed := by
        have h := (ofInt (q.num * 5 ^ Nat.log2 q.den)).wellFormed
        simp only [Bool.and_eq_true, Bool.not_eq_true'] at h ⊢
        refine ⟨by simp, ?_⟩
        simp [List.all_append, h.2, decimal_numeric, isNumeric] }

theorem ofRat_natCast (n : Nat) : ofRat (n : ℚ) = ofInt n := by
  simp [ofRat]

end NumberText

namespace Json

/-- `JSON.stringify` of a number, read back as a value. -/
def ofNumber : JsNumber → Json
  | .finite q => .number (NumberText.ofRat q)
  | .infinite _ => .null
  | .nan => .null

def ofCount (n : Nat) : Json := .number (NumberText.ofInt n)

/-- A value that is a number. -/
def numberOf : Option Json → Option JsNumber
  | some (.number n) => n.value.map .finite
  | _ => none

/-- A whole number that is not negative. -/
def countOf (v : Option Json) : Option Nat :=
  (numberOf v).bind fun x =>
    match x with
    | .finite q => if q.den = 1 ∧ 0 ≤ q then some q.num.toNat else none
    | _ => none

theorem numberOf_ofCount (n : Nat) : numberOf (some (ofCount n)) = some (.ofNat n) := by
  simp [numberOf, ofCount, NumberText.value_ofInt, JsNumber.ofNat]

theorem countOf_ofCount (n : Nat) : countOf (some (ofCount n)) = some n := by
  rw [countOf, numberOf_ofCount]
  simp [JsNumber.ofNat]

theorem ofNumber_ofNat (n : Nat) : ofNumber (.ofNat n) = ofCount n := by
  simp only [JsNumber.ofNat, ofNumber, NumberText.ofRat_natCast]
  rfl

theorem ofCount_injective : Function.Injective ofCount := by
  intro n m h
  have hcount := countOf_ofCount n
  rw [h, countOf_ofCount] at hcount
  exact (Option.some.inj hcount).symm

/-- The fields of a value that is an object. -/
def fieldsOf : Option Json → Option (List (JsString × Json))
  | some (.object entries) => some entries
  | _ => none

def itemsOf : Option Json → Option (List Json)
  | some (.array items) => some items
  | _ => none

def textOf : Option Json → Option JsString
  | some (.string s) => some s
  | _ => none

def boolOf : Option Json → Option Bool
  | some (.bool b) => some b
  | _ => none

end Json
