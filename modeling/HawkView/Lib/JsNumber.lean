import Mathlib.Data.Rat.Floor

/-!
# Numbers

A JavaScript number is finite, infinite or not a number. Sums are exact here:
rounding does not move a sum of whole numbers as small as the length of an
array.
-/

inductive JsNumber
  | finite (q : ℚ)
  | infinite (negative : Bool)
  | nan
  deriving DecidableEq

namespace JsNumber

def ofNat (n : Nat) : JsNumber := .finite n

/-- `Number.isInteger(x)`. -/
def isInteger : JsNumber → Bool
  | .finite q => q.den == 1
  | .infinite _ => false
  | .nan => false

/-- `x >= 0`. -/
def nonnegative : JsNumber → Bool
  | .finite q => decide (0 ≤ q)
  | .infinite negative => !negative
  | .nan => false

/-- `n <= x` of a length. -/
def bounds (n : Nat) : JsNumber → Bool
  | .finite q => decide ((n : ℚ) ≤ q)
  | .infinite negative => !negative
  | .nan => false

/-- `x <= 0`. -/
def nonpositive : JsNumber → Bool
  | .finite q => decide (q ≤ 0)
  | .infinite negative => negative
  | .nan => false

/-- `items.slice(0, x)` of a number that is not negative. -/
def takeTo {α : Type} (items : List α) : JsNumber → List α
  | .finite q => items.take ⌊q⌋.toNat
  | .infinite negative => if negative then [] else items
  | .nan => []

def add : JsNumber → JsNumber → JsNumber
  | .finite p, .finite q => .finite (p + q)
  | .nan, _ => .nan
  | _, .nan => .nan
  | .infinite a, .infinite b => if a = b then .infinite a else .nan
  | .infinite a, _ => .infinite a
  | _, .infinite b => .infinite b

/-- `Number.isSafeInteger(x)`. -/
def isSafeInteger : JsNumber → Bool
  | .finite q => q.den == 1 && decide (-(2 ^ 53) < q.num ∧ q.num < 2 ^ 53)
  | .infinite _ => false
  | .nan => false

def neg : JsNumber → JsNumber
  | .finite q => .finite (-q)
  | .infinite negative => .infinite !negative
  | .nan => .nan

def sub (x y : JsNumber) : JsNumber := x.add y.neg

/-- `x < y`. -/
def lt : JsNumber → JsNumber → Bool
  | .nan, _ => false
  | _, .nan => false
  | .finite p, .finite q => decide (p < q)
  | .infinite negative, .finite _ => negative
  | .finite _, .infinite negative => !negative
  | .infinite a, .infinite b => a && !b

/-- `x <= y`. -/
def le (x y : JsNumber) : Bool := x.lt y || (x == y && x != .nan)

/-- `Math.min(x, y)`. -/
def min (x y : JsNumber) : JsNumber :=
  if x = .nan ∨ y = .nan then .nan else if y.lt x then y else x

/-- `Math.max(x, y)`. -/
def max (x y : JsNumber) : JsNumber :=
  if x = .nan ∨ y = .nan then .nan else if x.lt y then y else x

/-- `Math.ceil(x)`. -/
def ceil : JsNumber → JsNumber
  | .finite q => .finite ⌈q⌉
  | x => x

def ofInt (n : Int) : JsNumber := .finite n

/-- What is left of a number is not positive when the number is not larger. -/
theorem nonpositive_sub (x : JsNumber) (n : Int) : (x.sub (ofInt n)).nonpositive = x.le (ofInt n) := by
  cases x with
  | finite q =>
    rw [Bool.eq_iff_iff]
    simp only [sub, neg, ofInt, add, nonpositive, le, lt, decide_eq_true_eq, Bool.or_eq_true,
      Bool.and_eq_true, beq_iff_eq, JsNumber.finite.injEq, bne_iff_ne, ne_eq, reduceCtorEq,
      not_false_eq_true, and_true]
    constructor
    · intro h
      rcases lt_or_eq_of_le (show q ≤ n by linarith) with hlt | heq
      · exact .inl hlt
      · exact .inr heq
    · rintro (h | h) <;> linarith
  | infinite negative => cases negative <;> rfl
  | nan => rfl

theorem sub_le (x : JsNumber) (m n : Int) :
    (x.sub (ofInt m)).le (ofInt n) = x.le (ofInt (m + n)) := by
  cases x with
  | finite q =>
    rw [Bool.eq_iff_iff]
    simp only [sub, neg, ofInt, add, le, lt, decide_eq_true_eq, Bool.or_eq_true, Bool.and_eq_true,
      beq_iff_eq, JsNumber.finite.injEq, bne_iff_ne, ne_eq, reduceCtorEq, not_false_eq_true,
      and_true, Int.cast_add]
    constructor
    · rintro (h | h)
      · exact .inl (by linarith)
      · exact .inr (by linarith)
    · rintro (h | h)
      · exact .inl (by linarith)
      · exact .inr (by linarith)
  | infinite negative => cases negative <;> rfl
  | nan => rfl

/-- A number of things. -/
def IsCount (x : JsNumber) : Prop := ∃ n : Nat, x = ofNat n

theorem isCount_iff {x : JsNumber} :
    x.IsCount ↔ x.isInteger = true ∧ x.nonnegative = true := by
  constructor
  · rintro ⟨n, rfl⟩
    simp [ofNat, isInteger, nonnegative]
  · rintro ⟨hinteger, hnonnegative⟩
    cases x with
    | finite q =>
      simp only [isInteger, beq_iff_eq] at hinteger
      simp only [nonnegative, decide_eq_true_eq] at hnonnegative
      have hnum : 0 ≤ q.num := Rat.num_nonneg.mpr hnonnegative
      refine ⟨q.num.toNat, ?_⟩
      rw [ofNat, ← Rat.coe_int_num_of_den_eq_one hinteger]
      congr 1
      exact_mod_cast (Int.toNat_of_nonneg hnum).symm
    | infinite negative => cases hinteger
    | nan => cases hinteger

@[simp] theorem ofNat_le {m n : Nat} : (ofNat m).le (ofNat n) = true ↔ m ≤ n := by
  simp [le, lt, ofNat, le_iff_lt_or_eq]

@[simp] theorem ofNat_add (m n : Nat) : (ofNat m).add (ofNat n) = ofNat (m + n) := by
  simp [add, ofNat]

end JsNumber
