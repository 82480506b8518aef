import HawkView.Lib.JsData
import HawkView.Lib.JsonNumber
import HawkView.Lib.JsonRead

/-!
# PIM schedule observations

The rows of the schedule instances that a directory returned are kept as they
are: each under the identity that it names, its versions apart, and a row that
names no identity among the rejected ones. Nothing is kept of an input that
exceeds a bound.
-/

namespace PimObservation

open Json List

inductive PimPlane
  | active | eligible
  deriving DecidableEq, Repr

def PimPlane.text : PimPlane → JsString
  | .active => js "ACTIVE"
  | .eligible => js "ELIGIBLE"

structure PimScheduleInput where
  tenantId : JsString
  plane : PimPlane
  record : JsData

structure PimObservationBounds where
  maxInputRows : JsNumber
  maxInputBytes : JsNumber
  maxConflictVersions : JsNumber
  maxConflictEvidenceBytes : JsNumber

/-- Bounds that were checked. -/
structure Limits where
  maxInputRows : Nat
  maxInputBytes : Nat
  maxConflictVersions : Nat
  maxConflictEvidenceBytes : Nat
  deriving DecidableEq

/-- Why nothing is kept of an input. -/
inductive Code
  | invalidBounds | invalidContext | invalidJson | inputRowLimitExceeded
  | inputByteLimitExceeded | conflictEvidenceLimitExceeded
  deriving DecidableEq, Repr

/-- The end of a normalisation that keeps nothing: a failure that it returns, or the error that
`JSON.parse` throws. -/
inductive Failure
  | rejected (code : Code)
  | syntaxError
  deriving DecidableEq, Repr

/-- A safe integer that is not negative. -/
def boundOf (x : JsNumber) : Option Nat :=
  match x with
  | .finite q => if x.isSafeInteger && x.nonnegative then some q.num.toNat else none
  | _ => none

def PimObservationBounds.limits? (bounds : PimObservationBounds) : Option Limits := do
  let maxInputRows ← boundOf bounds.maxInputRows
  let maxInputBytes ← boundOf bounds.maxInputBytes
  let maxConflictVersions ← boundOf bounds.maxConflictVersions
  let maxConflictEvidenceBytes ← boundOf bounds.maxConflictEvidenceBytes
  return { maxInputRows, maxInputBytes, maxConflictVersions, maxConflictEvidenceBytes }

/-! ## Canonical JSON -/

/-- What is still to be done, the next thing first. -/
inductive Task
  | value (v : JsData)
  | text (s : JsString)
  | leave (id : Nat)

/-- The objects around the next value, and what has been written. -/
structure Encoder where
  ancestors : List Nat
  text : JsString
  bytes : Nat

def Encoder.append (byteLimit : Nat) (e : Encoder) (text : JsString) : Except Code Encoder :=
  if byteLimit < e.bytes + byteLength text then .error .inputByteLimitExceeded
  else .ok { e with text := e.text ++ text, bytes := e.bytes + byteLength text }

/-- The tasks for the properties of a container, each after a comma. -/
def propertyTasks (label : Property JsData → List Task) (own : List (Property JsData)) :
    List Task :=
  own.flatMap fun p => .text [0x2C] :: (label p ++ p.value.toList.map .value)

def labelEntry (p : Property JsData) : List Task := [.text (quote p.key.text ++ [0x3A])]

def byKey (p q : Property JsData) : Prop := p.key.text ≤ q.key.text

instance : DecidableRel byKey := fun p q => inferInstanceAs (Decidable (p.key.text ≤ q.key.text))

/-- The turn of a container whose keys are in order. -/
def enter (byteLimit : Nat) (e : Encoder) (id : Nat) (opening closing : JsString)
    (label : Property JsData → List Task) (own : List (Property JsData)) :
    Except Code (List Task × Encoder) :=
  if own.any fun p => !JsData.plain p then .error .invalidJson
  else
    (Encoder.append byteLimit { e with ancestors := id :: e.ancestors } opening).map fun e =>
      ((propertyTasks label own).drop 1 ++ [.text closing, .leave id], e)

/-- The turn of a value: the tasks that it pushes, and what is written then. -/
def visit (byteLimit : Nat) (e : Encoder) : JsData → Except Code (List Task × Encoder)
  | .null => (e.append byteLimit (js "null")).map ([], ·)
  | .string s =>
    if byteLimit - e.bytes < s.length then .error .inputByteLimitExceeded
    else (e.append byteLimit (quote s)).map ([], ·)
  | .boolean b => (e.append byteLimit (if b then js "true" else js "false")).map ([], ·)
  | .number n => (e.append byteLimit n.text).map ([], ·)
  | .array id length own =>
    if id ∈ e.ancestors then .error .invalidJson
    else if own.any fun p => !p.key.isName then .error .invalidJson
    else if own.length ≠ length ∨ own.map Property.key ≠ JsData.indices length then
      .error .invalidJson
    else enter byteLimit e id [0x5B] [0x5D] (fun _ => []) own
  | .object id prototype own =>
    if id ∈ e.ancestors then .error .invalidJson
    else if prototype = .other then .error .invalidJson
    else if own.any fun p => !p.key.isName then .error .invalidJson
    else enter byteLimit e id [0x7B] [0x7D] labelEntry (own.insertionSort byKey)
  | .undefined => .error .invalidJson
  | .notFinite => .error .invalidJson
  | .other => .error .invalidJson

noncomputable def Task.work : Task → Nat
  | .value v => 1 + sizeOf v
  | .text _ => 1
  | .leave _ => 1

/-- The measure of what is still to be done. -/
noncomputable def work (tasks : List Task) : Nat := (tasks.map Task.work).sum

theorem work_append (tasks more : List Task) : work (tasks ++ more) = work tasks + work more := by
  simp [work]

variable {label : Property JsData → List Task}

theorem work_propertyTasks (short : ∀ p, work (label p) ≤ 1) (own : List (Property JsData)) :
    work (propertyTasks label own) + 1 ≤ sizeOf own := by
  induction own with
  | nil => simp [propertyTasks, work]
  | cons p own ih =>
    have hlabel := short p
    have hsize : sizeOf (p :: own) = 1 + sizeOf p + sizeOf own := rfl
    have hvalue : work (p.value.toList.map .value) + 2 ≤ sizeOf p := by
      cases p with
      | mk key enumerable value =>
        have hkey : 1 ≤ sizeOf key := by cases key <;> simp
        simp only [Property.mk.sizeOf_spec]
        cases value with
        | none =>
          simp only [Option.toList_none, map_nil, work, sum_nil,
            Option.none.sizeOf_spec]
          omega
        | some v =>
          simp only [Option.toList_some, map_cons, map_nil, work, Task.work,
            sum_cons, sum_nil, Option.some.sizeOf_spec]
          omega
    have hsplit : work (propertyTasks label (p :: own)) =
        1 + (work (label p) + work (p.value.toList.map .value)) +
          work (propertyTasks label own) := by
      rw [propertyTasks, flatMap_cons, work_append, ← work_append (label p)]
      simp [work, Task.work, propertyTasks]
    omega

variable {own : List (Property JsData)}

theorem sizeOf_perm {others : List (Property JsData)} (h : own.Perm others) :
    sizeOf own = sizeOf others := by
  induction h with
  | nil => rfl
  | cons p _ ih => simp [ih]
  | swap p q l =>
    simp only [List.cons.sizeOf_spec]
    omega
  | trans _ _ ih ih' => exact ih.trans ih'

variable {byteLimit : Nat} {e e' : Encoder} {tasks : List Task}

theorem enter_work {id : Nat} {opening closing : JsString} (short : ∀ p, work (label p) ≤ 1)
    (h : enter byteLimit e id opening closing label own = .ok (tasks, e')) :
    work tasks ≤ sizeOf own + 1 := by
  rw [enter] at h
  split at h
  · cases h
  · obtain ⟨_, _, heq⟩ := Traverse.map_ok.mp h
    cases heq
    have hbound := work_propertyTasks short own
    have hdrop : work ((propertyTasks label own).drop 1) ≤ work (propertyTasks label own) := by
      cases propertyTasks label own <;> simp [work]
    rw [work_append]
    simp only [work, map_cons, map_nil, Task.work, sum_cons, sum_nil] at *
    omega

/-- What a value pushes is less work than the value. -/
theorem visit_work {v : JsData} (h : visit byteLimit e v = .ok (tasks, e')) :
    work tasks < 1 + sizeOf v := by
  have hnone {x : Except Code Encoder} (h : x.map (([] : List Task), ·) = .ok (tasks, e')) :
      work tasks = 0 := by
    obtain ⟨_, _, heq⟩ := Traverse.map_ok.mp h
    cases heq
    rfl
  cases v with
  | null =>
    have := hnone h
    omega
  | string s =>
    rw [visit] at h
    split at h
    · cases h
    · have := hnone h
      omega
  | boolean b =>
    have := hnone h
    omega
  | number n =>
    have := hnone h
    omega
  | array id length own =>
    rw [visit] at h
    split_ifs at h
    have := enter_work (fun _ => by simp [work]) h
    simp only [JsData.array.sizeOf_spec]
    omega
  | object id prototype own =>
    rw [visit] at h
    split_ifs at h
    have := enter_work (fun _ => by simp [work, labelEntry, Task.work]) h
    rw [sizeOf_perm (perm_insertionSort byKey own)] at this
    simp only [JsData.object.sizeOf_spec]
    omega
  | undefined | notFinite | other => cases h

/-- The loop over the tasks. -/
def encode (byteLimit : Nat) : List Task → Encoder → Except Code Encoder
  | [], e => .ok e
  | .text s :: tasks, e => (e.append byteLimit s).bind fun e => encode byteLimit tasks e
  | .leave id :: tasks, e =>
    encode byteLimit tasks { e with ancestors := e.ancestors.filter fun i => i ≠ id }
  | .value v :: tasks, e =>
    match _h : visit byteLimit e v with
    | .error code => .error code
    | .ok (more, e) => encode byteLimit (more ++ tasks) e
termination_by tasks => work tasks
decreasing_by
  · simp [work, Task.work]
  · simp [work, Task.work]
  · have hless := visit_work _h
    rw [work_append]
    simp only [work, map_cons, Task.work, sum_cons] at *
    omega

structure Encoded where
  text : JsString
  bytes : Nat
  deriving DecidableEq

def canonicalJson (value : JsData) (byteLimit : Nat) : Except Code Encoded :=
  (encode byteLimit [.value value] ⟨[], [], 0⟩).map fun e => ⟨e.text, e.bytes⟩

/-! ## Records -/

inductive Observation
  | absent
  | explicitNull
  | present (value : Json)

inductive Field
  | id | principalId | roleDefinitionId | roleAssignmentScheduleId | roleEligibilityScheduleId
  | directoryScopeId | appScopeId | assignmentType | memberType | startDateTime | endDateTime
  | activatedUsing
  deriving DecidableEq, Repr

def Field.name : Field → JsString
  | .id => js "id"
  | .principalId => js "principalId"
  | .roleDefinitionId => js "roleDefinitionId"
  | .roleAssignmentScheduleId => js "roleAssignmentScheduleId"
  | .roleEligibilityScheduleId => js "roleEligibilityScheduleId"
  | .directoryScopeId => js "directoryScopeId"
  | .appScopeId => js "appScopeId"
  | .assignmentType => js "assignmentType"
  | .memberType => js "memberType"
  | .startDateTime => js "startDateTime"
  | .endDateTime => js "endDateTime"
  | .activatedUsing => js "activatedUsing"

def observe (raw : Entries) (field : Field) : Observation :=
  match raw.lookup field.name with
  | none => .absent
  | some .null => .explicitNull
  | some value => .present value

inductive IdentityDiagnostic
  | recordNotObject | identityAbsent | identityExplicitNull | identityEmpty | identityNotString
  deriving DecidableEq, Repr

inductive RelationshipDiagnostic
  | relationshipNotObject | relationshipIdAbsent | relationshipIdNull | relationshipIdNotString
  | relationshipIdEmpty
  deriving DecidableEq, Repr

/-- The identity that a record names, or why it names none. -/
def identityOf : Json → Except IdentityDiagnostic (Entries × JsString)
  | .object entries =>
    match entries.lookup (js "id") with
    | none => .error .identityAbsent
    | some .null => .error .identityExplicitNull
    | some (.string id) => if id = [] then .error .identityEmpty else .ok (entries, id)
    | some _ => .error .identityNotString
  | _ => .error .recordNotObject

def linkDiagnostic : Json → Option RelationshipDiagnostic
  | .object entries =>
    match entries.lookup (js "id") with
    | none => some .relationshipIdAbsent
    | some .null => some .relationshipIdNull
    | some (.string id) => if id = [] then some .relationshipIdEmpty else none
    | some _ => some .relationshipIdNotString
  | _ => some .relationshipNotObject

structure PimVariant where
  raw : Entries
  observations : Field → Observation
  diagnostics : List RelationshipDiagnostic

def variant (raw : Entries) : PimVariant where
  raw
  observations := observe raw
  diagnostics :=
    match observe raw .activatedUsing with
    | .present link => (linkDiagnostic link).toList
    | _ => []

/-! ## Normalisation -/

structure PimIdentity where
  tenantId : JsString
  plane : PimPlane
  instanceId : JsString
  deriving DecidableEq

def PimIdentity.key (identity : PimIdentity) : JsString :=
  stringify (.array [.string identity.tenantId, .string identity.plane.text,
    .string identity.instanceId])

structure Version where
  raw : Entries
  bytes : Nat

structure Group where
  identity : PimIdentity
  versions : JsMap JsString Version

structure RejectedRow where
  tenantId : JsString
  plane : PimPlane
  raw : Json
  diagnostic : IdentityDiagnostic

structure PimInstance where
  identity : PimIdentity
  variants : List PimVariant
  /-- `DUPLICATE_INSTANCE_ID`, or `null`. -/
  duplicated : Bool

structure Observations where
  instances : List PimInstance
  rejected : List RejectedRow

/-- What has been read of the input. -/
structure Progress where
  groups : JsMap JsString Group
  rejected : List RejectedRow
  inputBytes : Nat
  conflictBytes : Nat

/-- `[entry.tenantId, entry.plane]`. -/
def PimScheduleInput.context (entry : PimScheduleInput) : JsData :=
  .ofJson 0 (.array [.string entry.tenantId, .string entry.plane.text])

/-- Adds a version to a group that does not have it. -/
def addVersion (limits : Limits) (p : Progress) (group : Group) (encoded : Encoded)
    (raw : Entries) : Except Failure Progress :=
  let versions := group.versions.set encoded.text ⟨raw, encoded.bytes⟩
  let groups := p.groups.set group.identity.key { group with versions }
  match group.versions.values with
  | [] => .ok { p with groups }
  | first :: others =>
    let first := if others = [] then first.bytes else 0
    let conflictBytes := p.conflictBytes + encoded.bytes + first
    if limits.maxConflictVersions < group.versions.entries.length + 1 then
      .error (.rejected .conflictEvidenceLimitExceeded)
    else if limits.maxConflictEvidenceBytes < conflictBytes then
      .error (.rejected .conflictEvidenceLimitExceeded)
    else .ok { p with groups, conflictBytes }

/-- What a row adds once its record is read. -/
def place (limits : Limits) (p : Progress) (entry : PimScheduleInput) (encoded : Encoded)
    (raw : Json) : Except Failure Progress :=
  match identityOf raw with
  | .error diagnostic =>
    .ok { p with rejected := p.rejected ++ [⟨entry.tenantId, entry.plane, raw, diagnostic⟩] }
  | .ok (record, instanceId) =>
    let identity : PimIdentity := ⟨entry.tenantId, entry.plane, instanceId⟩
    let group := (p.groups.get? identity.key).getD ⟨identity, .empty⟩
    if (group.versions.get? encoded.text).isSome then .ok p
    else addVersion limits p group encoded record

def normalizeRow (limits : Limits) (p : Progress) (entry : PimScheduleInput) :
    Except Failure Progress := do
  if entry.tenantId = [] then throw (.rejected .invalidContext)
  let context ← (canonicalJson entry.context (limits.maxInputBytes - p.inputBytes)).mapError
    .rejected
  let inputBytes := p.inputBytes + context.bytes
  let encoded ← (canonicalJson entry.record (limits.maxInputBytes - inputBytes)).mapError .rejected
  match parse encoded.text with
  | none => throw .syntaxError
  | some raw => place limits { p with inputBytes := inputBytes + encoded.bytes } entry encoded raw

/-- `[...map.entries()].sort(([a], [b]) => a < b ? -1 : a > b ? 1 : 0)`. -/
def sortedByKey {α : Type} (m : JsMap JsString α) : List (JsString × α) :=
  m.entries.insertionSort fun a b => a.1 ≤ b.1

def Group.instance (group : Group) : PimInstance where
  identity := group.identity
  variants := (sortedByKey group.versions).map fun version => variant version.2.raw
  duplicated := decide (1 < group.versions.entries.length)

def Progress.observations (p : Progress) : Observations where
  instances := (sortedByKey p.groups).map fun group => group.2.instance
  rejected := p.rejected

def normalizePimScheduleObservations (input : List PimScheduleInput)
    (bounds : PimObservationBounds) : Except Failure Observations :=
  match bounds.limits? with
  | none => .error (.rejected .invalidBounds)
  | some limits =>
    if limits.maxInputRows < input.length then .error (.rejected .inputRowLimitExceeded)
    else
      (input.foldlM (normalizeRow limits) ⟨.empty, [], 0, 0⟩).map Progress.observations

end PimObservation
