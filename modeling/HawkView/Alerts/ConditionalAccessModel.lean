import HawkView.Alerts.PrivilegedChange
import HawkView.Lib.JsonRewrite
import HawkView.Lib.JsonText

/-!
# The conditional access model

The mapping of a collected policy to the state that changes are classified by.
The canonicaliser is a parameter, and so is the upper case of an operator.
-/

namespace ConditionalAccessModel

open Json PrivilegedChange

/-- A policy as collected, an object of JSON with distinct names throughout. -/
structure Collected where
  entries : Entries
  wellFormed : WellFormed (.object entries)

def Collected.value (collected : Collected) : Json := .object collected.entries

inductive Fidelity
  | lossless | lossy
  deriving DecidableEq, Repr

structure ModelledPath where
  path : List JsString
  fidelity : Fidelity
  deriving DecidableEq, Repr

def statePath : List JsString := [js "state"]

def operatorPath : List JsString := [js "grantControls", js "operator"]

def controlsPath : List JsString := [js "grantControls", js "builtInControls"]

def excludeUsersPath : List JsString := [js "conditions", js "users", js "excludeUsers"]

def excludeGroupsPath : List JsString := [js "conditions", js "users", js "excludeGroups"]

def excludeRolesPath : List JsString := [js "conditions", js "users", js "excludeRoles"]

def sessionControlsPath : List JsString := [js "sessionControls"]

def MODELLED_PATHS : List ModelledPath := [
  ⟨statePath, .lossless⟩,
  ⟨operatorPath, .lossless⟩,
  ⟨controlsPath, .lossless⟩,
  ⟨excludeUsersPath, .lossless⟩,
  ⟨excludeGroupsPath, .lossless⟩,
  ⟨excludeRolesPath, .lossless⟩,
  ⟨sessionControlsPath, .lossy⟩]

def losslessPaths : List ModelledPath :=
  MODELLED_PATHS.filter fun modelled => modelled.fidelity == .lossless

/-- A canonicaliser of JSON values, `none` for `undefined`. -/
abbrev Canonicaliser := Json → Option Json

/-! ## Reading -/

/-- `raw === undefined || raw === null`. -/
def isNullish : Option Json → Bool
  | none => true
  | some .null => true
  | some _ => false

/-- The text of a value that is a string. -/
def asString : Json → Option JsString
  | .string s => some s
  | _ => none

/-- Reads a word: `absent` where there is none, `unread` for a value that is not a string. -/
def readWord {α : Type} (absent unread : α) (word : JsString → α) (raw : Option Json) : α :=
  if isNullish raw then absent
  else
    match raw.bind asString with
    | none => unread
    | some s => word s

def stateOf (s : JsString) : PolicyState :=
  if s = js "enabled" then .on
  else if s = js "enabledForReportingButNotEnforced" then .reportOnly
  else if s = js "disabled" then .off
  else .unrecognised

def policyState (raw : Option Json) : PolicyState := readWord .unavailable .unrecognised stateOf raw

def operatorOf (upper : JsString) : GrantOperator :=
  if upper = js "OR" then .or else if upper = js "AND" then .and else .unrecognised

def grantOperatorOf (toUpperCase : JsString → JsString) (raw : Option Json) : GrantOperator :=
  readWord .absent .unrecognised (fun s => operatorOf (toUpperCase s)) raw

/-- Reads a list of identifiers and says what it could not read. -/
def readList (value : Option Json) : ReadList :=
  if isNullish value then ⟨[], 0⟩
  else
    match value with
    | some (.array items) =>
      let values := items.filterMap asString
      ⟨values, items.length - values.length⟩
    | _ => ⟨[], 1⟩

def isNull : Json → Bool
  | .null => true
  | _ => false

/-- The names of the session controls that are configured, sorted. -/
def sessionControlNames : Option Json → List JsString
  | some (.object entries) =>
    (names (entries.filter fun e => !isNull e.2)).insertionSort (· ≤ ·)
  | _ => []

/-! ## The fingerprint -/

/-- The name that an assignment to an object takes for its prototype. -/
def PROTO : JsString := js "__proto__"

/-- `copy[key] = entry` for each entry: under `__proto__` it makes no entry. -/
def assigned (entries : Entries) : Entries := entries.filter fun e => e.1 != PROTO

def structuredCloneOf (value : Json) : Json := rewrite assigned value

def sortKeysDeep (value : Json) : Json :=
  rewrite (fun entries => sortedEntries (assigned entries)) value

/-- The policy as collected, less the lossless paths. -/
def residueOf (collected : Collected) : Json :=
  losslessPaths.foldl (fun residue modelled => deleteAt residue modelled.path)
    (structuredCloneOf collected.value)

def unmodelledFingerprintOf (collected : Collected) (canonicalise : Canonicaliser) : JsString :=
  stringify ((canonicalise (sortKeysDeep (residueOf collected))).getD .null)

def mapCollectedPolicy (toUpperCase : JsString → JsString) (collected : Collected)
    (canonicalise : Canonicaliser) : ConditionalAccessState where
  state := policyState (valueAt collected.value statePath)
  grantOperator := grantOperatorOf toUpperCase (valueAt collected.value operatorPath)
  grantControls := readList (valueAt collected.value controlsPath)
  excludedUsers := readList (valueAt collected.value excludeUsersPath)
  excludedGroups := readList (valueAt collected.value excludeGroupsPath)
  excludedRoles := readList (valueAt collected.value excludeRolesPath)
  sessionControls := sessionControlNames (valueAt collected.value sessionControlsPath)
  unmodelledFingerprint := unmodelledFingerprintOf collected canonicalise

end ConditionalAccessModel
