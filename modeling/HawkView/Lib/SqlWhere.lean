import Mathlib.Data.List.Basic

/-!
# Conditions with three truth values

A condition on a row is true, false or unknown, and unknown where it compares a
column that is null. A query selects the rows for which its condition is true.
-/

universe u v w

namespace SqlWhere

/-- `none` is unknown. -/
abbrev Truth := Option Bool

def and : Truth → Truth → Truth
  | some false, _ => some false
  | _, some false => some false
  | some true, some true => some true
  | _, _ => none

def or : Truth → Truth → Truth
  | some true, _ => some true
  | _, some true => some true
  | some false, some false => some false
  | _, _ => none

theorem and_eq_true {a b : Truth} : and a b = some true ↔ a = some true ∧ b = some true := by
  cases a with
  | none => cases b with
    | none => simp [and]
    | some b => cases b <;> simp [and]
  | some a => cases b with
    | none => cases a <;> simp [and]
    | some b => cases a <;> cases b <;> simp [and]

theorem or_eq_true {a b : Truth} : or a b = some true ↔ a = some true ∨ b = some true := by
  cases a with
  | none => cases b with
    | none => simp [or]
    | some b => cases b <;> simp [or]
  | some a => cases b with
    | none => cases a <;> simp [or]
    | some b => cases a <;> cases b <;> simp [or]

abbrev Condition (Row : Type u) := Row → Truth

variable {Row : Type u} {Parent : Type v} {α : Type w}

def Selects (c : Condition Row) (r : Row) : Prop := c r = some true

def allOf (cs : List (Condition Row)) : Condition Row :=
  fun r => cs.foldr (fun c rest => and (c r) rest) (some true)

def anyOf (cs : List (Condition Row)) : Condition Row :=
  fun r => cs.foldr (fun c rest => or (c r) rest) (some false)

/-- A comparison of a column. -/
def compare (column : Row → Option α) (p : α → Bool) : Condition Row := fun r => (column r).map p

def isNull (column : Row → Option α) : Condition Row := fun r => some (column r).isNone

def notNull (column : Row → Option α) : Condition Row := fun r => some (column r).isSome

def isLt (column : Row → Option Int) (v : Int) : Condition Row :=
  compare column fun a => decide (a < v)

def isLte (column : Row → Option Int) (v : Int) : Condition Row :=
  compare column fun a => decide (a ≤ v)

def isGt (column : Row → Option Int) (v : Int) : Condition Row :=
  compare column fun a => decide (v < a)

section Lists

variable [DecidableEq α]

def equals (column : Row → Option α) (v : α) : Condition Row := compare column fun a => decide (a = v)

/-- `column IS NOT DISTINCT FROM v`, with which null is like null. -/
def notDistinct (column : Row → Option α) (v : Option α) : Condition Row :=
  fun r => some (decide (column r = v))

def differs (column : Row → Option α) (v : α) : Condition Row :=
  compare column fun a => decide (a ≠ v)

/-- `column IN (values)`. -/
def isIn (column : Row → Option α) (vs : List α) : Condition Row :=
  compare column fun a => decide (a ∈ vs)

/-- `column NOT IN (values)`. -/
def notIn (column : Row → Option α) (vs : List α) : Condition Row :=
  compare column fun a => decide (a ∉ vs)

end Lists

/-- A related row is selected. -/
def someRow (rows : Parent → List Row) (c : Condition Row) : Condition Parent :=
  fun p => some ((rows p).any fun r => c r == some true)

/-- No related row is selected. -/
def noRow (rows : Parent → List Row) (c : Condition Row) : Condition Parent :=
  fun p => some (!(rows p).any fun r => c r == some true)

variable {r : Row}

@[simp] theorem selects_allOf_nil : Selects (allOf []) r := rfl

variable {c : Condition Row} {cs : List (Condition Row)}

@[simp] theorem selects_allOf_cons :
    Selects (allOf (c :: cs)) r ↔ Selects c r ∧ Selects (allOf cs) r := and_eq_true

@[simp] theorem selects_anyOf_nil : ¬ Selects (anyOf []) r := by
  simp [Selects, anyOf]

@[simp] theorem selects_anyOf_cons :
    Selects (anyOf (c :: cs)) r ↔ Selects c r ∨ Selects (anyOf cs) r := or_eq_true

theorem selects_anyOf :
    Selects (anyOf cs) r ↔ ∃ c ∈ cs, Selects c r := by
  induction cs with
  | nil => simp
  | cons c cs ih => rw [selects_anyOf_cons, ih, List.exists_mem_cons_iff]

theorem selects_anyOf_append {ds : List (Condition Row)} :
    Selects (anyOf (cs ++ ds)) r ↔ Selects (anyOf cs) r ∨ Selects (anyOf ds) r := by
  simp only [selects_anyOf, List.mem_append, or_and_right, exists_or]

variable {as : List α}

theorem selects_anyOf_map {f : α → Condition Row} :
    Selects (anyOf (as.map f)) r ↔ ∃ a ∈ as, Selects (f a) r := by
  simp only [selects_anyOf, List.mem_map, exists_exists_and_eq_and]

theorem selects_anyOf_flatMap {f : α → List (Condition Row)} :
    Selects (anyOf (as.flatMap f)) r ↔ ∃ a ∈ as, Selects (anyOf (f a)) r := by
  simp only [selects_anyOf, List.mem_flatMap]
  constructor
  · rintro ⟨c, ⟨a, ha, hc⟩, hselects⟩
    exact ⟨a, ha, c, hc, hselects⟩
  · rintro ⟨a, ha, c, hc, hselects⟩
    exact ⟨c, ⟨a, ha, hc⟩, hselects⟩

variable {column : Row → Option α}

@[simp] theorem selects_compare {p : α → Bool} :
    Selects (compare column p) r ↔ ∃ a, column r = some a ∧ p a = true := by
  rw [Selects, compare, Option.map_eq_some_iff]

variable {v : Int}

@[simp] theorem selects_isLt {column : Row → Option Int} :
    Selects (isLt column v) r ↔ ∃ a, column r = some a ∧ a < v := by simp [isLt]

@[simp] theorem selects_isLte {column : Row → Option Int} :
    Selects (isLte column v) r ↔ ∃ a, column r = some a ∧ a ≤ v := by simp [isLte]

@[simp] theorem selects_isGt {column : Row → Option Int} :
    Selects (isGt column v) r ↔ ∃ a, column r = some a ∧ v < a := by simp [isGt]

@[simp] theorem selects_isNull :
    Selects (isNull column) r ↔ column r = none := by
  rw [Selects, isNull, Option.some.injEq, Option.isNone_iff_eq_none]

@[simp] theorem selects_notNull :
    Selects (notNull column) r ↔ (column r).isSome = true := by
  rw [Selects, notNull, Option.some.injEq]

variable {rows : Parent → List Row} {p : Parent}

@[simp] theorem selects_someRow :
    Selects (someRow rows c) p ↔ ∃ r ∈ rows p, Selects c r := by
  simp only [Selects, someRow, Option.some.injEq, List.any_eq_true, beq_iff_eq]

@[simp] theorem selects_noRow :
    Selects (noRow rows c) p ↔ ∀ r ∈ rows p, ¬ Selects c r := by
  simp only [Selects, noRow, Option.some.injEq, Bool.not_eq_true', List.any_eq_false, beq_iff_eq]

section Lists

variable [DecidableEq α]

variable {column : Row → Option α} {r : Row}

@[simp] theorem selects_equals {v : α} :
    Selects (equals column v) r ↔ column r = some v := by
  simp [equals]

@[simp] theorem selects_notDistinct {v : Option α} :
    Selects (notDistinct column v) r ↔ column r = v := by
  simp [Selects, notDistinct]

@[simp] theorem selects_differs {v : α} :
    Selects (differs column v) r ↔ ∃ a, column r = some a ∧ a ≠ v := by
  simp [differs]

variable {vs : List α}

@[simp] theorem selects_isIn :
    Selects (isIn column vs) r ↔ ∃ a, column r = some a ∧ a ∈ vs := by
  simp [isIn]

/-- `NOT IN` selects no row whose column is null. -/
@[simp] theorem selects_notIn :
    Selects (notIn column vs) r ↔ ∃ a, column r = some a ∧ a ∉ vs := by
  simp [notIn]

end Lists

end SqlWhere
