import HawkView.Lib.JsString
import Mathlib.Data.List.Sort

/-!
# JSON values

A value is a tree, and an object lists its entries in the order of their
enumeration. Two values are compared by what stands at each path.
-/

/-- A code unit of the text of a finite number. -/
def isNumeric (c : UInt16) : Bool :=
  decide (0x30 ≤ c ∧ c ≤ 0x39) || c ∈ [0x2B, 0x2D, 0x2E, 0x65]

/-- A finite number, as the text that it is printed with. -/
structure NumberText where
  text : JsString
  wellFormed : (!text.isEmpty && text.all isNumeric) = true
  deriving DecidableEq

namespace NumberText

theorem decimal_numeric (n : Nat) : (JsString.decimal n).all isNumeric = true := by
  rw [List.all_eq_true]
  intro c hc
  simp [isNumeric, JsString.decimal_digit hc]

theorem decimal_nonempty (n : Nat) : (JsString.decimal n).isEmpty = false := by
  simp [JsString.decimal]

/-- The text of a whole number. -/
def ofInt (t : Int) : NumberText where
  text := if t < 0 then 0x2D :: JsString.decimal t.natAbs else JsString.decimal t.toNat
  wellFormed := by
    split
    · simp [decimal_numeric, isNumeric]
    · simp [decimal_numeric, decimal_nonempty]

theorem ofInt_injective : Function.Injective ofInt := by
  intro t u h
  have htext := congrArg NumberText.text h
  have hsign : ∀ n m, 0x2D :: JsString.decimal n ≠ JsString.decimal m := by
    intro n m heq
    have hmem : (0x2D : UInt16) ∈ JsString.decimal m := heq ▸ List.mem_cons_self
    exact absurd (JsString.decimal_digit hmem).1 (by decide)
  simp only [ofInt] at htext
  split at htext <;> split at htext
  · have := JsString.decimal_injective (List.cons.inj htext).2
    omega
  · exact absurd htext (hsign _ _)
  · exact absurd htext.symm (hsign _ _)
  · have := JsString.decimal_injective htext
    omega

end NumberText

inductive Json
  | null
  | bool (b : Bool)
  | number (n : NumberText)
  | string (s : JsString)
  | array (items : List Json)
  | object (entries : List (JsString × Json))

namespace Json

open List

/-- The names of an object, in order. -/
def names (entries : List (JsString × Json)) : List JsString := entries.map Prod.fst

inductive WellFormed : Json → Prop
  | null : WellFormed .null
  | bool (b : Bool) : WellFormed (.bool b)
  | number (n : NumberText) : WellFormed (.number n)
  | string (s : JsString) : WellFormed (.string s)
  | array {items : List Json} (inner : ∀ v ∈ items, WellFormed v) : WellFormed (.array items)
  | object {entries : List (JsString × Json)} (inner : ∀ e ∈ entries, WellFormed e.2)
      (distinct : (names entries).Nodup) : WellFormed (.object entries)

/-- Induction with a hypothesis for each member of an array or an object. -/
@[elab_as_elim]
theorem induct {motive : Json → Prop} (null : motive .null) (bool : ∀ b, motive (.bool b))
    (number : ∀ n, motive (.number n)) (string : ∀ s, motive (.string s))
    (array : ∀ items, (∀ v ∈ items, motive v) → motive (.array items))
    (object : ∀ entries, (∀ e ∈ entries, motive e.2) → motive (.object entries)) (v : Json) :
    motive v :=
  match v with
  | .null => null
  | .bool b => bool b
  | .number n => number n
  | .string s => string s
  | .array items => array items fun v hv =>
      have := sizeOf_lt_of_mem hv
      induct null bool number string array object v
  | .object entries => object entries fun e he =>
      have := sizeOf_lt_of_mem he
      have : sizeOf e.2 < sizeOf e := by
        cases e
        simp only [Prod.mk.sizeOf_spec]
        omega
      induct null bool number string array object e.2
termination_by sizeOf v

/-! ## Entries -/

section Entries

variable {entries others : List (JsString × Json)} {name : JsString} {v : Json}

theorem lookup_ne {other : JsString} (h : name ≠ other) :
    ((other, v) :: entries).lookup name = entries.lookup name := by
  simp [lookup_cons, beq_false_of_ne h]

theorem lookup_mem (h : entries.lookup name = some v) : (name, v) ∈ entries := by
  induction entries with
  | nil => cases h
  | cons e entries ih =>
    obtain ⟨other, w⟩ := e
    by_cases hname : name = other
    · rw [hname, lookup_cons_self, Option.some.injEq] at h
      rw [hname, h]
      exact mem_cons_self
    · rw [lookup_ne hname] at h
      exact mem_cons_of_mem _ (ih h)

theorem mem_lookup (distinct : (names entries).Nodup) (h : (name, v) ∈ entries) :
    entries.lookup name = some v := by
  induction entries with
  | nil => cases h
  | cons e entries ih =>
    obtain ⟨other, w⟩ := e
    rw [names, map_cons, nodup_cons] at distinct
    rcases mem_cons.mp h with heq | h
    · cases heq
      exact lookup_cons_self
    · have hne : name ≠ other := by
        intro heq
        apply distinct.1
        rw [← heq]
        exact mem_map.mpr ⟨_, h, rfl⟩
      rw [lookup_ne hne]
      exact ih distinct.2 h

theorem lookup_iff (distinct : (names entries).Nodup) :
    entries.lookup name = some v ↔ (name, v) ∈ entries :=
  ⟨lookup_mem, mem_lookup distinct⟩

/-- With distinct names, what a lookup finds does not depend on the order. -/
theorem lookup_perm (h : entries.Perm others) (distinct : (names entries).Nodup)
    (name : JsString) : entries.lookup name = others.lookup name := by
  have distinct' : (names others).Nodup := (h.map Prod.fst).nodup_iff.mp distinct
  apply Option.ext
  intro v
  rw [lookup_iff distinct, lookup_iff distinct', h.mem_iff]

theorem nodup_of_names (distinct : (names entries).Nodup) : entries.Nodup :=
  List.Nodup.of_map Prod.fst distinct

theorem lookup_mapWith (g : JsString → Json → Json) (entries : List (JsString × Json))
    (name : JsString) :
    (entries.map fun e => (e.1, g e.1 e.2)).lookup name = (entries.lookup name).map (g name) := by
  induction entries with
  | nil => rfl
  | cons e entries ih =>
    obtain ⟨other, w⟩ := e
    by_cases hname : name = other
    · rw [hname, map_cons, lookup_cons_self, lookup_cons_self]
      rfl
    · rw [map_cons, lookup_ne hname, lookup_ne hname, ih]

theorem lookup_filter (keep : JsString → Bool) (entries : List (JsString × Json))
    (name : JsString) :
    (entries.filter fun e => keep e.1).lookup name =
      if keep name then entries.lookup name else none := by
  induction entries with
  | nil => simp
  | cons e entries ih =>
    obtain ⟨other, w⟩ := e
    rw [filter_cons]
    by_cases hname : name = other
    · subst hname
      by_cases hkeep : keep name
      · rw [if_pos hkeep, if_pos hkeep, lookup_cons_self, lookup_cons_self]
      · rw [if_neg hkeep, ih, if_neg hkeep, if_neg hkeep]
    · rw [lookup_ne hname, ← ih]
      split
      · rw [lookup_ne hname]
      · rfl

theorem names_mapWith (g : JsString → Json → Json) (entries : List (JsString × Json)) :
    names (entries.map fun e => (e.1, g e.1 e.2)) = names entries := by
  simp [names]

theorem names_map (f : Json → Json) (entries : List (JsString × Json)) :
    names (entries.map fun e => (e.1, f e.2)) = names entries := names_mapWith (fun _ => f) entries

end Entries

/-! ## Paths -/

inductive Step
  | key (name : JsString)
  | index (i : Nat)
  deriving DecidableEq

/-- What a value is, apart from what it contains. -/
inductive Shape
  | null | bool (b : Bool) | number (n : NumberText) | string (s : JsString) | array | object
  deriving DecidableEq

def shape : Json → Shape
  | .null => .null
  | .bool b => .bool b
  | .number n => .number n
  | .string s => .string s
  | .array _ => .array
  | .object _ => .object

/-- The child of a value under a step. -/
def child : Json → Step → Option Json
  | .array items, .index i => items[i]?
  | .object entries, .key name => entries.lookup name
  | _, _ => none

def shapeAt (v : Json) : List Step → Option Shape
  | [] => some v.shape
  | step :: rest => (child v step).bind fun w => shapeAt w rest

/-- The value at a path of names, `none` for `undefined`. -/
def valueAt (v : Json) : List JsString → Option Json
  | [] => some v
  | name :: rest => (child v (.key name)).bind fun w => valueAt w rest

/-- What a reader of `v[name]` sees, `none` for `undefined`. -/
def seen (v : Json) (name : JsString) : Option Shape := shapeAt v [.key name]

theorem shapeAt_append (v : Json) (path : List JsString) (rest : List Step) :
    shapeAt v (path.map Step.key ++ rest) = (valueAt v path).bind fun w => shapeAt w rest := by
  induction path generalizing v with
  | nil => rfl
  | cons name path ih =>
    simp only [map_cons, cons_append, shapeAt, valueAt, ih]
    cases child v (.key name) <;> rfl

/-- Two values with the same shape at every path. -/
def Alike (v w : Json) : Prop := ∀ path, shapeAt v path = shapeAt w path

variable {v w : Json}

theorem Alike.shape (h : Alike v w) : v.shape = w.shape :=
  Option.some.inj (h [])

/-- Alike values have alike children under the same steps. -/
theorem Alike.children (h : Alike v w) (step : Step) :
    (child v step = none ∧ child w step = none) ∨
      ∃ x y, child v step = some x ∧ child w step = some y ∧ Alike x y := by
  cases hx : child v step with
  | none =>
    cases hy : child w step with
    | none => exact .inl ⟨rfl, rfl⟩
    | some y =>
      have hpath := h [step]
      simp [shapeAt, hx, hy] at hpath
  | some x =>
    cases hy : child w step with
    | none =>
      have hpath := h [step]
      simp [shapeAt, hx, hy] at hpath
    | some y =>
      refine .inr ⟨x, y, rfl, rfl, fun path => ?_⟩
      have hpath := h (step :: path)
      rwa [shapeAt, shapeAt, hx, hy] at hpath

theorem Alike.symm (h : Alike v w) : Alike w v := fun path => (h path).symm

variable {entries others : List (JsString × Json)}

/-- Objects whose members are alike under the same names in the same order. -/
theorem alike_object (h : Forall₂ (fun e o => e.1 = o.1 ∧ Alike e.2 o.2) entries others) :
    Alike (.object entries) (.object others) := by
  rintro (_ | ⟨_ | i, path⟩)
  · rfl
  · rename_i name
    simp only [shapeAt, child]
    induction h with
    | nil => rfl
    | cons head tail ih =>
      rename_i e o entries others
      obtain ⟨n, v⟩ := e
      obtain ⟨m, w⟩ := o
      obtain ⟨rfl, hsame⟩ : n = m ∧ Alike v w := head
      by_cases hname : name = n
      · rw [hname, lookup_cons_self, lookup_cons_self]
        exact hsame path
      · rw [lookup_ne hname, lookup_ne hname]
        exact ih
  · rfl

theorem Alike.names_perm (h : Alike (.object entries) (.object others))
    (distinct : (names entries).Nodup) (distinct' : (names others).Nodup) :
    (names entries).Perm (names others) := by
  rw [perm_ext_iff_of_nodup distinct distinct']
  intro name
  have hmem : ∀ es : List (JsString × Json), name ∈ names es ↔ es.lookup name ≠ none := by
    intro es
    simp [names, lookup_eq_none_iff]
  rw [hmem, hmem]
  rcases h.children (.key name) with ⟨hx, hy⟩ | ⟨x, y, hx, hy, _⟩
  · rw [show entries.lookup name = none from hx, show others.lookup name = none from hy]
  · rw [show entries.lookup name = some x from hx, show others.lookup name = some y from hy]
    simp

/-! ## Deletion -/

/-- Deletes the last name of a path, where the path leads to an object. -/
def deleteAt : Json → List JsString → Json
  | .object entries, [name] => .object (entries.filter fun e => e.1 != name)
  | .object entries, name :: next :: rest =>
    .object (entries.map fun e => (e.1, if e.1 = name then deleteAt e.2 (next :: rest) else e.2))
  | v, _ => v

theorem shape_deleteAt (v : Json) (path : List JsString) : (deleteAt v path).shape = v.shape := by
  rcases path with _ | ⟨name, _ | ⟨next, rest⟩⟩ <;> cases v <;> rfl

theorem child_delete_last (entries : List (JsString × Json)) (name other : JsString) :
    child (deleteAt (.object entries) [name]) (.key other) =
      if other = name then none else entries.lookup other := by
  rw [deleteAt, child, lookup_filter (fun n => n != name)]
  by_cases hname : other = name
  · simp [hname]
  · simp [hname]

theorem child_delete_inner (entries : List (JsString × Json)) (name next : JsString)
    (rest : List JsString) (other : JsString) :
    child (deleteAt (.object entries) (name :: next :: rest)) (.key other) =
      (entries.lookup other).map fun v =>
        if other = name then deleteAt v (next :: rest) else v := by
  rw [deleteAt, child]
  exact lookup_mapWith (fun n v => if n = name then deleteAt v (next :: rest) else v) entries other

/-- A deletion takes away what stands at or below its path, and nothing else. -/
theorem shapeAt_deleteAt (v : Json) (name : JsString) (rest : List JsString) (path : List Step) :
    shapeAt (deleteAt v (name :: rest)) path =
      if (name :: rest).map Step.key <+: path then none else shapeAt v path := by
  induction path generalizing v name rest with
  | nil => simp [shapeAt, shape_deleteAt]
  | cons step path ih =>
    simp only [map_cons, cons_prefix_cons]
    cases v with
    | object entries =>
      cases step with
      | index i => cases rest <;> simp [shapeAt, deleteAt, child]
      | key other =>
        have hne : other ≠ name → name ≠ other := Ne.symm
        cases rest with
        | nil =>
          rw [shapeAt, child_delete_last, shapeAt, child]
          by_cases hname : other = name
          · simp [hname]
          · simp [hname, hne hname]
        | cons next rest =>
          rw [shapeAt, child_delete_inner, shapeAt, child]
          cases entries.lookup other with
          | none => simp
          | some w =>
            by_cases hname : other = name
            · simp [hname, ih]
            · simp [hname, hne hname]
    | array items => cases rest <;> cases step <;> simp [shapeAt, deleteAt, child]
    | _ => cases rest <;> simp [shapeAt, deleteAt, child]

theorem Alike.deleteAt (h : Alike v w) (name : JsString) (rest : List JsString) :
    Alike (deleteAt v (name :: rest)) (deleteAt w (name :: rest)) := by
  intro path
  rw [shapeAt_deleteAt, shapeAt_deleteAt, h path]

theorem wellFormed_deleteAt (h : WellFormed v) (path : List JsString) :
    WellFormed (deleteAt v path) := by
  induction path generalizing v with
  | nil => cases v <;> exact h
  | cons name rest ih =>
    cases h with
    | object inner distinct =>
      cases rest with
      | nil =>
        constructor
        · intro e he
          exact inner e (mem_filter.mp he).1
        · exact distinct.sublist (filter_sublist.map Prod.fst)
      | cons next rest =>
        constructor
        · intro e he
          obtain ⟨e, hmem, rfl⟩ := mem_map.mp he
          show WellFormed (if e.1 = name then deleteAt e.2 (next :: rest) else e.2)
          split
          · exact ih (inner e hmem)
          · exact inner e hmem
        · simpa [names, Function.comp_def] using distinct
    | null => cases rest <;> exact .null
    | bool b => cases rest <;> exact .bool b
    | number n => cases rest <;> exact .number n
    | string s => cases rest <;> exact .string s
    | array inner => cases rest <;> exact .array inner

end Json
