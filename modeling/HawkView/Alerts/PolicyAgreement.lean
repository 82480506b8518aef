import HawkView.Alerts.ConditionalAccessModel

/-!
# Agreement of collected policies

A policy is compared path by path. The lossless paths are compared as the
mapping reads them, every other path by the shape of what stands there.
-/

namespace PolicyAgreement

open Json PrivilegedChange ConditionalAccessModel List

variable {toUpperCase : JsString → JsString} {p q : Collected} {x y : Option Json}

/-! ## Agreement of policies -/

def StateAgrees (x y : Option Json) : Prop :=
  (isNullish x ∧ isNullish y) ∨ ∃ s, x = some (.string s) ∧ y = some (.string s)

/-- Up to the letter case of the operator. -/
def OperatorAgrees (toUpperCase : JsString → JsString) (x y : Option Json) : Prop :=
  (isNullish x ∧ isNullish y) ∨
    ∃ s t, x = some (.string s) ∧ y = some (.string t) ∧ toUpperCase s = toUpperCase t

/-- Absent, null or an empty list. -/
def NoEntries (x : Option Json) : Prop := isNullish x ∨ x = some (.array [])

def ListAgrees (x y : Option Json) : Prop :=
  (NoEntries x ∧ NoEntries y) ∨
    ∃ entries : List JsString,
      x = some (.array (entries.map .string)) ∧ y = some (.array (entries.map .string))

structure FieldsAgree (toUpperCase : JsString → JsString) (p q : Collected) : Prop where
  state : StateAgrees (valueAt p.value statePath) (valueAt q.value statePath)
  operator : OperatorAgrees toUpperCase (valueAt p.value operatorPath)
    (valueAt q.value operatorPath)
  controls : ListAgrees (valueAt p.value controlsPath) (valueAt q.value controlsPath)
  users : ListAgrees (valueAt p.value excludeUsersPath) (valueAt q.value excludeUsersPath)
  groups : ListAgrees (valueAt p.value excludeGroupsPath) (valueAt q.value excludeGroupsPath)
  roles : ListAgrees (valueAt p.value excludeRolesPath) (valueAt q.value excludeRolesPath)

/-- At or below a lossless path. -/
abbrev Modelled (path : List Step) : Prop :=
  ∃ modelled ∈ losslessPaths, modelled.path.map Step.key <+: path

/-- The policies agree on every key at every depth, the lossless paths as they are read. -/
structure Agree (toUpperCase : JsString → JsString) (p q : Collected) : Prop where
  fields : FieldsAgree toUpperCase p q
  rest : ∀ path, ¬ Modelled path → shapeAt p.value path = shapeAt q.value path

/-- No field of the policy is reported unrecognised or unreadable. -/
structure Readable (toUpperCase : JsString → JsString) (p : Collected) : Prop where
  state : policyState (valueAt p.value statePath) ≠ .unrecognised
  operator : grantOperatorOf toUpperCase (valueAt p.value operatorPath) ≠ .unrecognised
  controls : (readList (valueAt p.value controlsPath)).unreadable = 0
  users : (readList (valueAt p.value excludeUsersPath)).unreadable = 0
  groups : (readList (valueAt p.value excludeGroupsPath)).unreadable = 0
  roles : (readList (valueAt p.value excludeRolesPath)).unreadable = 0

/-! ## Reading a field -/

variable {s : JsString}

theorem asString_eq {v : Json} (h : asString v = some s) : v = .string s := by
  cases v with
  | string t => cases h; rfl
  | _ => cases h

/-- A value to read is absent, a string, or cannot be read. -/
theorem readable_cases (x : Option Json) :
    isNullish x = true ∨ (∃ s, x = some (.string s)) ∨
      (isNullish x = false ∧ x.bind asString = none) := by
  cases x with
  | none => exact .inl rfl
  | some v =>
    cases v with
    | null => exact .inl rfl
    | string s => exact .inr (.inl ⟨s, rfl⟩)
    | _ => exact .inr (.inr ⟨rfl, rfl⟩)

section ReadWord

variable {α : Type} {absent unread : α} {word : JsString → α}

theorem readWord_nullish (h : isNullish x = true) : readWord absent unread word x = absent :=
  if_pos h

theorem readWord_string (s : JsString) :
    readWord absent unread word (some (.string s)) = word s := rfl

theorem readWord_other (h : isNullish x = false) (hstring : x.bind asString = none) :
    readWord absent unread word x = unread := by
  simp [readWord, h, hstring]

/-- A word that could be read is absent on both sides, or a string on both. -/
theorem readWord_agrees (hword : ∀ s, word s ≠ absent)
    (h : readWord absent unread word x = readWord absent unread word y)
    (hread : readWord absent unread word x ≠ unread) :
    (isNullish x = true ∧ isNullish y = true) ∨
      ∃ s t, x = some (.string s) ∧ y = some (.string t) ∧ word s = word t := by
  rcases readable_cases x with hx | ⟨s, rfl⟩ | ⟨hx, hnone⟩
  · rcases readable_cases y with hy | ⟨t, rfl⟩ | ⟨hy, hnone⟩
    · exact .inl ⟨hx, hy⟩
    · rw [readWord_nullish hx, readWord_string] at h
      exact absurd h.symm (hword t)
    · rw [h, readWord_other hy hnone] at hread
      exact absurd rfl hread
  · rcases readable_cases y with hy | ⟨t, rfl⟩ | ⟨hy, hnone⟩
    · rw [readWord_nullish hy, readWord_string] at h
      exact absurd h (hword s)
    · exact .inr ⟨s, t, rfl, rfl, h⟩
    · rw [h, readWord_other hy hnone] at hread
      exact absurd rfl hread
  · rw [readWord_other hx hnone] at hread
    exact absurd rfl hread

end ReadWord

variable {t : JsString}

theorem stateOf_inj (h : stateOf s = stateOf t) (hread : stateOf s ≠ .unrecognised) : s = t := by
  unfold stateOf at h hread
  split_ifs at h hread <;> simp_all

theorem operatorOf_inj (h : operatorOf s = operatorOf t) (hread : operatorOf s ≠ .unrecognised) :
    s = t := by
  unfold operatorOf at h hread
  split_ifs at h hread <;> simp_all

theorem stateOf_ne (s : JsString) : stateOf s ≠ .unavailable := by
  unfold stateOf
  split_ifs <;> decide

theorem operatorOf_ne (s : JsString) : operatorOf s ≠ .absent := by
  unfold operatorOf
  split_ifs <;> decide

theorem policyState_agrees (h : policyState x = policyState y)
    (hread : policyState x ≠ .unrecognised) : StateAgrees x y := by
  rcases readWord_agrees stateOf_ne h hread with hnull | ⟨s, t, rfl, rfl, hword⟩
  · exact .inl hnull
  · exact .inr ⟨s, rfl, by rw [stateOf_inj hword hread]⟩

theorem grantOperator_agrees (h : grantOperatorOf toUpperCase x = grantOperatorOf toUpperCase y)
    (hread : grantOperatorOf toUpperCase x ≠ .unrecognised) : OperatorAgrees toUpperCase x y := by
  rcases readWord_agrees (fun s => operatorOf_ne (toUpperCase s)) h hread with
    hnull | ⟨s, t, rfl, rfl, hword⟩
  · exact .inl hnull
  · exact .inr ⟨s, t, rfl, rfl, operatorOf_inj hword hread⟩

theorem policyState_eq (h : StateAgrees x y) : policyState x = policyState y := by
  rcases h with ⟨hx, hy⟩ | ⟨s, rfl, rfl⟩
  · rw [policyState, policyState, readWord_nullish hx, readWord_nullish hy]
  · rfl

theorem grantOperator_eq (h : OperatorAgrees toUpperCase x y) :
    grantOperatorOf toUpperCase x = grantOperatorOf toUpperCase y := by
  rcases h with ⟨hx, hy⟩ | ⟨s, t, rfl, rfl, hcase⟩
  · rw [grantOperatorOf, grantOperatorOf, readWord_nullish hx, readWord_nullish hy]
  · rw [grantOperatorOf, grantOperatorOf, readWord_string, readWord_string, hcase]

/-! ## Reading a list -/

theorem asString_strings (entries : List JsString) :
    (entries.map Json.string).filterMap asString = entries := by
  induction entries with
  | nil => rfl
  | cons s entries ih =>
    rw [map_cons, filterMap_cons_some (show asString (.string s) = some s from rfl), ih]

/-- Items that are all read are strings. -/
theorem strings_of_length {items : List Json}
    (h : items.length ≤ (items.filterMap asString).length) :
    items = (items.filterMap asString).map .string := by
  induction items with
  | nil => rfl
  | cons v items ih =>
    have hle := length_filterMap_le asString items
    cases hv : asString v with
    | none =>
      rw [filterMap_cons_none hv, length_cons] at h
      omega
    | some s =>
      rw [filterMap_cons_some hv, length_cons, length_cons] at h
      rw [filterMap_cons_some hv, map_cons, ← ih (by omega), asString_eq hv]

theorem readList_nullish (h : isNullish x = true) : readList x = ⟨[], 0⟩ := if_pos h

theorem readList_strings (entries : List JsString) :
    readList (some (.array (entries.map .string))) = ⟨entries, 0⟩ := by
  show ReadList.mk _ _ = _
  simp only [asString_strings, length_map, Nat.sub_self]

/-- A list that was read in full is absent or a list of strings. -/
theorem readList_readable (h : (readList x).unreadable = 0) :
    isNullish x = true ∨ ∃ entries : List JsString, x = some (.array (entries.map .string)) := by
  cases x with
  | none => exact .inl rfl
  | some v =>
    cases v with
    | null => exact .inl rfl
    | array items =>
      have hlength : items.length - (items.filterMap asString).length = 0 := h
      exact .inr ⟨_, congrArg (fun items => some (Json.array items)) (strings_of_length (by omega))⟩
    | _ => cases h

theorem noEntries_strings {entries : List JsString} (h : entries = []) :
    NoEntries (some (.array (entries.map .string))) := .inr (by rw [h]; rfl)

theorem readList_agrees (h : readList x = readList y) (hread : (readList x).unreadable = 0) :
    ListAgrees x y := by
  have hread' : (readList y).unreadable = 0 := h ▸ hread
  rcases readList_readable hread with hx | ⟨entries, rfl⟩
  · rcases readList_readable hread' with hy | ⟨others, rfl⟩
    · exact .inl ⟨.inl hx, .inl hy⟩
    · rw [readList_nullish hx, readList_strings] at h
      exact .inl ⟨.inl hx, noEntries_strings (congrArg ReadList.values h).symm⟩
  · rcases readList_readable hread' with hy | ⟨others, rfl⟩
    · rw [readList_nullish hy, readList_strings] at h
      exact .inl ⟨noEntries_strings (congrArg ReadList.values h), .inl hy⟩
    · rw [readList_strings, readList_strings] at h
      have hvalues : entries = others := congrArg ReadList.values h
      exact .inr ⟨entries, rfl, by rw [hvalues]⟩

theorem readList_noEntries (h : NoEntries x) : readList x = ⟨[], 0⟩ := by
  rcases h with hnull | rfl
  · exact readList_nullish hnull
  · rfl

theorem readList_eq (h : ListAgrees x y) : readList x = readList y := by
  rcases h with ⟨hx, hy⟩ | ⟨entries, rfl, rfl⟩
  · rw [readList_noEntries hx, readList_noEntries hy]
  · rfl

end PolicyAgreement
