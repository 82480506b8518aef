import HawkView.Lib.JsonRewrite
import HawkView.Lib.Traverse

/-!
# Plain data

A value of a program, with the properties that each object has of its own. An
object is known by an identity, so a value that contains itself is a tree in
which an identity stands below itself. Some values are those of a JSON text.
-/

inductive PropertyKey
  | name (s : JsString)
  | symbol (id : Nat)
  deriving DecidableEq

namespace PropertyKey

def text : PropertyKey → JsString
  | .name s => s
  | .symbol _ => []

def isName : PropertyKey → Bool
  | .name _ => true
  | .symbol _ => false

end PropertyKey

/-- A property, with no value when it has accessors. -/
structure Property (α : Type) where
  key : PropertyKey
  enumerable : Bool
  value : Option α

/-- `Object.getPrototypeOf`. -/
inductive Prototype
  | object | null | other
  deriving DecidableEq

/-- An array has its `length` and its other properties. -/
inductive JsData
  | undefined
  | null
  | boolean (b : Bool)
  | number (n : NumberText)
  | notFinite
  | string (s : JsString)
  | other
  | array (id : Nat) (length : Nat) (own : List (Property JsData))
  | object (id : Nat) (prototype : Prototype) (own : List (Property JsData))

namespace JsData

open List Option

/-- A data property that is enumerated. -/
def plain (p : Property JsData) : Bool := p.enumerable && p.value.isSome

/-- `String(0), String(1), …`. -/
def indices (n : Nat) : List PropertyKey := (List.range n).map fun i => .name (JsString.decimal i)

/-- An array whose own properties are its items and no others. -/
def dense (length : Nat) (own : List (Property JsData)) : Bool :=
  own.map Property.key == indices length && own.all plain

def find (own : List (Property JsData)) (name : JsString) : Option (Property JsData) :=
  own.find? fun p => p.key = .name name

variable {own : List (Property JsData)}

theorem sizeOf_value {p : Property JsData} (hp : p ∈ own) {v : JsData} (hv : p.value = some v) :
    sizeOf v < sizeOf own := by
  have hmem := sizeOf_lt_of_mem hp
  cases p with
  | mk key enumerable value =>
    cases hv
    simp only [Property.mk.sizeOf_spec, Option.some.sizeOf_spec] at hmem
    omega

/-- Induction with a hypothesis for the value of each property. -/
@[elab_as_elim]
theorem induct {motive : JsData → Prop} (undefined : motive .undefined) (null : motive .null)
    (boolean : ∀ b, motive (.boolean b)) (number : ∀ n, motive (.number n))
    (notFinite : motive .notFinite) (string : ∀ s, motive (.string s)) (other : motive .other)
    (array : ∀ id length own, (∀ p ∈ own, ∀ v, p.value = some v → motive v) →
      motive (.array id length own))
    (object : ∀ id prototype own, (∀ p ∈ own, ∀ v, p.value = some v → motive v) →
      motive (.object id prototype own)) (v : JsData) : motive v :=
  match v with
  | .undefined => undefined
  | .null => null
  | .boolean b => boolean b
  | .number n => number n
  | .notFinite => notFinite
  | .string s => string s
  | .other => other
  | .array id length own => array id length own fun p hp v hv =>
      have := sizeOf_value hp hv
      induct undefined null boolean number notFinite string other array object v
  | .object id prototype own => object id prototype own fun p hp v hv =>
      have := sizeOf_value hp hv
      induct undefined null boolean number notFinite string other array object v
termination_by sizeOf v

mutual

/-- The JSON value that a value of the program is, below objects of the given identities. -/
def json? (ancestors : List Nat) : JsData → Option Json
  | .null => some .null
  | .boolean b => some (.bool b)
  | .number n => some (.number n)
  | .string s => some (.string s)
  | .array id length own =>
    if id ∈ ancestors ∨ own.map Property.key ≠ indices length then none
    else (jsonItems (id :: ancestors) own).map .array
  | .object id prototype own =>
    if id ∈ ancestors ∨ prototype = .other then none
    else (jsonEntries (id :: ancestors) own).map .object
  | .undefined => none
  | .notFinite => none
  | .other => none

def jsonItems (ancestors : List Nat) : List (Property JsData) → Option (List Json)
  | [] => some []
  | ⟨_, true, some v⟩ :: own =>
    (json? ancestors v).bind fun j => (jsonItems ancestors own).map (j :: ·)
  | _ => none

def jsonEntries (ancestors : List Nat) : List (Property JsData) → Option (List (JsString × Json))
  | [] => some []
  | ⟨.name s, true, some v⟩ :: own =>
    (json? ancestors v).bind fun j => (jsonEntries ancestors own).map ((s, j) :: ·)
  | _ => none

end

/-- A property that holds a JSON value. -/
def Holds (ancestors : List Nat) (p : Property JsData) (j : Json) : Prop :=
  p.enumerable = true ∧ ∃ v, p.value = some v ∧ json? ancestors v = some j

def HoldsEntry (ancestors : List Nat) (p : Property JsData) (e : JsString × Json) : Prop :=
  p.key = .name e.1 ∧ Holds ancestors p e.2

variable {ancestors : List Nat}

theorem jsonItems_iff {items : List Json} :
    jsonItems ancestors own = some items ↔ Forall₂ (Holds ancestors) own items := by
  induction own generalizing items with
  | nil => simp [jsonItems, eq_comm]
  | cons p own ih =>
    obtain ⟨key, enumerable, value⟩ := p
    constructor
    · intro h
      cases enumerable with
      | false => cases h
      | true =>
        cases value with
        | none => cases h
        | some v =>
          rw [jsonItems, bind_eq_some_iff] at h
          obtain ⟨j, hj, h⟩ := h
          obtain ⟨rest, hrest, rfl⟩ := map_eq_some_iff.mp h
          exact .cons ⟨rfl, v, rfl, hj⟩ (ih.mp hrest)
    · intro h
      cases h with
      | cons head tail =>
        obtain ⟨henumerable, v, hvalue, hj⟩ := head
        cases henumerable
        cases hvalue
        rw [jsonItems, hj, bind_some, ih.mpr tail]
        rfl

theorem jsonEntries_iff {entries : List (JsString × Json)} :
    jsonEntries ancestors own = some entries ↔
      Forall₂ (HoldsEntry ancestors) own entries := by
  induction own generalizing entries with
  | nil => simp [jsonEntries, eq_comm]
  | cons p own ih =>
    obtain ⟨key, enumerable, value⟩ := p
    constructor
    · intro h
      cases key with
      | symbol id => cases h
      | name s =>
        cases enumerable with
        | false => cases h
        | true =>
          cases value with
          | none => cases h
          | some v =>
            rw [jsonEntries, bind_eq_some_iff] at h
            obtain ⟨j, hj, h⟩ := h
            obtain ⟨rest, hrest, rfl⟩ := map_eq_some_iff.mp h
            exact .cons ⟨rfl, rfl, v, rfl, hj⟩ (ih.mp hrest)
    · intro h
      cases h with
      | @cons _ e _ entries head tail =>
        obtain ⟨s, j⟩ := e
        obtain ⟨hkey, henumerable, v, hvalue, hj⟩ := head
        cases hkey
        cases henumerable
        cases hvalue
        rw [jsonEntries, hj, bind_some, ih.mpr tail]
        rfl

/-! ## Values written out in a program -/

mutual

/-- A fresh value for a JSON value, as `JSON.parse` makes it. No identity stands below itself. -/
def ofJson (depth : Nat) : Json → JsData
  | .null => .null
  | .bool b => .boolean b
  | .number n => .number n
  | .string s => .string s
  | .array items => .array depth items.length (ofItems (depth + 1) 0 items)
  | .object entries => .object depth .object (ofEntries (depth + 1) entries)

def ofItems (depth : Nat) (i : Nat) : List Json → List (Property JsData)
  | [] => []
  | v :: rest => ⟨.name (JsString.decimal i), true, some (ofJson depth v)⟩ :: ofItems depth (i + 1) rest

def ofEntries (depth : Nat) : List (JsString × Json) → List (Property JsData)
  | [] => []
  | (s, v) :: rest => ⟨.name s, true, some (ofJson depth v)⟩ :: ofEntries depth rest

end

theorem fresh_below {depth : Nat} {ancestors : List Nat} (below : ∀ id ∈ ancestors, id < depth) :
    depth ∉ ancestors ∧ ∀ id ∈ depth :: ancestors, id < depth + 1 := by
  refine ⟨fun h => Nat.lt_irrefl _ (below depth h), ?_⟩
  rw [forall_mem_cons]
  exact ⟨Nat.lt_succ_self _, fun id hid => Nat.lt_succ_of_lt (below id hid)⟩

/-- Below identities that are smaller, a fresh value is the JSON value that it was made for. -/
theorem json?_ofJson (j : Json) (depth : Nat) (ancestors : List Nat)
    (below : ∀ id ∈ ancestors, id < depth) : json? ancestors (ofJson depth j) = some j := by
  induction j using Json.induct generalizing depth ancestors with
  | null | bool | number | string => rfl
  | array items ih =>
    obtain ⟨hfresh, hinner⟩ := fresh_below below
    have hkeys : ∀ (rest : List Json) (i : Nat), (ofItems (depth + 1) i rest).map Property.key =
        (List.range' i rest.length).map fun i => PropertyKey.name (JsString.decimal i) := by
      intro rest
      induction rest with
      | nil => intro i; rfl
      | cons v rest ih =>
        intro i
        rw [ofItems, map_cons, ih (i + 1), length_cons, List.range'_succ, map_cons]
    have hitems : ∀ (rest : List Json) (i : Nat), (∀ v ∈ rest, v ∈ items) →
        jsonItems (depth :: ancestors) (ofItems (depth + 1) i rest) = some rest := by
      intro rest
      induction rest with
      | nil => intro i _; rfl
      | cons v rest ihRest =>
        intro i hsub
        rw [ofItems, jsonItems, ih v (hsub v mem_cons_self) _ _ hinner, bind_some,
          ihRest (i + 1) fun w hw => hsub w (mem_cons_of_mem _ hw)]
        rfl
    rw [ofJson, json?, if_neg, hitems items 0 fun _ h => h]
    · rfl
    · rw [hkeys items 0, indices, range_eq_range']
      simp [hfresh]
  | object entries ih =>
    obtain ⟨hfresh, hinner⟩ := fresh_below below
    have hentries : ∀ rest : List (JsString × Json), (∀ e ∈ rest, e ∈ entries) →
        jsonEntries (depth :: ancestors) (ofEntries (depth + 1) rest) = some rest := by
      intro rest
      induction rest with
      | nil => intro _; rfl
      | cons e rest ihRest =>
        intro hsub
        obtain ⟨s, v⟩ := e
        rw [ofEntries, jsonEntries, ih (s, v) (hsub _ mem_cons_self) _ _ hinner,
          bind_some, ihRest fun w hw => hsub w (mem_cons_of_mem _ hw)]
        rfl
    rw [ofJson, json?, if_neg, hentries entries fun _ h => h]
    · rfl
    · simp [hfresh]

end JsData
