import HawkView.Normalization.Normalize

/-!
# A batch of sign-in rows

The rows of one feed are normalized in their order, and every row is counted as it
leaves the loop. References are resolved once, up to a budget, and not at all
after the resolver has failed.
-/

namespace Normalization

open Json

def MAX_ROWS_PER_RUN : Nat := 10000

def MAX_DISTINCT_REFERENCES : Nat := 4000

/-- A stored row. An invalid date of ingestion is `none`. -/
structure SignInRow where
  organizationId : JsString
  customerTenantId : JsString
  raw : Json
  ingestedAt : Option Int

structure DirectoryUserRow where
  organizationId : JsString
  customerTenantId : JsString
  microsoftUserId : JsString
  userPrincipalName : JsString

inductive CollectionScope
  | graphInteractiveOnly | graphInteractiveAndNonInteractive | auditStsLogonEvents | undeclared
  deriving DecidableEq

/-! ## The directory -/

section Directory

variable (toLowerCase : JsString → JsString)

def normalizeUpn (value : JsString) : JsString := toLowerCase value.trim

def resolve : List DirectoryUserRow → Resolution
  | [] => .none
  | [user] => .one user.microsoftUserId
  | _ => .many

def DirectoryUserRow.foreign (scope : NormalizationScope) (user : DirectoryUserRow) : Bool :=
  user.organizationId != scope.organizationId || user.customerTenantId != scope.customerTenantId

/-- `none` when it throws. -/
def indexDirectory (scope : NormalizationScope) (directory : List DirectoryUserRow) :
    Option DirectoryIndex :=
  if directory.any (DirectoryUserRow.foreign scope) then none
  else some {
    byObjectId := fun microsoftUserId => resolve (directory.filter fun user =>
      Auth.guid user.microsoftUserId &&
        toLowerCase user.microsoftUserId == toLowerCase microsoftUserId)
    byUpn := fun userPrincipalName => resolve (directory.filter fun user =>
      (textAt (some (.string user.userPrincipalName))).isSome &&
        normalizeUpn toLowerCase user.userPrincipalName ==
          normalizeUpn toLowerCase userPrincipalName) }

end Directory

/-! ## References -/

/-- What the caller resolves a reference to: no value when it throws. -/
abbrev ReferenceResolver (ρ : Type) := ρ → ReferenceKind → JsString → Option (Option Shape) × ρ

structure References (ρ : Type) where
  references : JsMap JsString JsString
  referenceFailed : Bool
  caller : ρ

def ReferenceKind.text : ReferenceKind → JsString
  | .subject => js "subject"
  | .application => js "application"

def resolveReference {ρ : Type} (toLowerCase : JsString → JsString)
    (reference : ReferenceResolver ρ) (s : References ρ) (kind : ReferenceKind)
    (identifier : JsString) : JsString × References ρ :=
  let key := kind.text ++ js ":" ++ toLowerCase identifier
  match s.references.get? key with
  | some cached => (cached, s)
  | none =>
    if s.references.entries.length ≥ MAX_DISTINCT_REFERENCES then (js "BUDGET", s)
    else if s.referenceFailed then (js "UNAVAILABLE", s)
    else
      let (value, caller) := reference s.caller kind identifier
      match value.bind textAt with
      | none => (js "UNAVAILABLE", { s with referenceFailed := true, caller })
      | some text => (text, { s with references := s.references.set key text, caller })

/-! ## Shapes -/

inductive ErrorCodeShapeName
  | number | numericString | otherString | null | absent | otherType
  deriving DecidableEq

def ErrorCodeShape.name : ErrorCodeShape → ErrorCodeShapeName
  | .number _ => .number
  | .numericString => .numericString
  | .otherString => .otherString
  | .null => .null
  | .absent => .absent
  | .otherType => .otherType

inductive IsInteractiveShape
  | true | false | null | absent | otherType
  deriving DecidableEq

def isInteractiveShape (record : Json) : IsInteractiveShape :=
  match seen record (js "isInteractive") with
  | none => .absent
  | some .null => .null
  | some (.bool true) => .true
  | some (.bool false) => .false
  | _ => .otherType

def readGraphErrorCode (record : Json) : Option Int :=
  match errorCodeShape record with
  | .number code => some code
  | _ => none

/-- The feed of a row, if it is a known one. -/
def rowSource (raw : Json) : Option NormalizationSource :=
  if Auth.isString (seen raw (js "hawkviewSource")) (js "MICROSOFT_365_MANAGEMENT_ACTIVITY") then
    some .m365AuditSts
  else if seen raw (js "hawkviewSource") = none then some .graphSignIns
  else none

/-- The codes of `UNREACHABLE_BY_SUBJECT_RESOLUTION`. -/
def UNREACHABLE_BY_SUBJECT_RESOLUTION : List Int := [50034, 51004, 16003, 50020]

/-! ## What is counted -/

/-- Why a row was set aside: the reasons of the row itself, and those of the loop. -/
inductive UnprocessableRow
  | row (reason : UnprocessableReason)
  | scopeMismatch | sourceUnrecognized | batchLimitExceeded
  deriving DecidableEq

inductive UnselectedRowReason
  | rowFromOtherFeed
  deriving DecidableEq

def SUBJECT_RESOLUTION_FAILURES : List UnprocessableReason :=
  [.subjectIdAbsentOrMalformed, .subjectNotInDirectory, .subjectAmbiguousInDirectory,
    .subjectUpnAbsentOrMalformed, .subjectUpnNotInDirectory, .subjectUpnAmbiguousInDirectory]

/-- `counts[key] += 1`. -/
def increment {κ : Type} [DecidableEq κ] (counts : κ → Nat) (key : κ) : κ → Nat :=
  fun k => if k = key then counts k + 1 else counts k

/-- An event as an object of its own, told apart by the position of its row. -/
structure BatchEvent where
  position : Nat
  event : NormalizedEvent

/-- Graph rows by the shapes of their fields. -/
structure ShapeObservations where
  graphErrorCodeShape : ErrorCodeShapeName → Nat
  graphIsInteractive : IsInteractiveShape → Nat
  graphIsInteractiveAmongCredentialFailures : IsInteractiveShape → Nat

structure NormalizationCounts where
  rows : Nat
  applies : Nat
  doesNotApplyByReason : OutOfScopeReason → Nat
  notYetCitedByReason : UncitedReason → Nat
  unknownByObservation : UnknownObservation → Nat
  unprocessableByReason : UnprocessableRow → Nat
  bindingMethods : SubjectBindingMethod → Nat
  microsoftVerdicts : MicrosoftVerdict → Nat
  unselectedRowsByReason : UnselectedRowReason → Nat

structure NormalizationCoverage where
  collectionScope : CollectionScope
  consideredRows : Nat
  normalizedRows : Nat
  recognizedRows : Nat
  subjectNotInTenantRows : Nat
  enumerationCodedRows : Nat

structure ResolvedSubject where
  subjectRef : JsString
  microsoftUserId : JsString
  binding : SubjectBindingMethod

structure NormalizationBatch where
  scope : NormalizationScope
  source : NormalizationSource
  events : List BatchEvent
  applies : List BatchEvent
  microsoftRiskVerdicts : List BatchEvent
  microsoftRemediatedVerdicts : List BatchEvent
  microsoftSafetyVerdicts : List BatchEvent
  resolvedSubjects : List ResolvedSubject
  counts : NormalizationCounts
  coverage : NormalizationCoverage
  shapeObservations : ShapeObservations

/-! ## The loop -/

structure BatchState (ρ : Type) where
  doesNotApplyByReason : OutOfScopeReason → Nat
  unknownByObservation : UnknownObservation → Nat
  notYetCitedByReason : UncitedReason → Nat
  unprocessableByReason : UnprocessableRow → Nat
  unselectedRowsByReason : UnselectedRowReason → Nat
  bindingMethods : SubjectBindingMethod → Nat
  shapes : ShapeObservations
  applies : Nat
  enumerationCodedRows : Nat
  microsoftVerdicts : MicrosoftVerdict → Nat
  verdictOf : JsMap Nat MicrosoftVerdict
  consideredRows : Nat
  events : List BatchEvent
  resolvedSubjects : JsMap JsString ResolvedSubject
  references : References ρ

def BatchState.start {ρ : Type} (caller : ρ) : BatchState ρ where
  doesNotApplyByReason _ := 0
  unknownByObservation _ := 0
  notYetCitedByReason _ := 0
  unprocessableByReason _ := 0
  unselectedRowsByReason _ := 0
  bindingMethods _ := 0
  shapes := ⟨fun _ => 0, fun _ => 0, fun _ => 0⟩
  applies := 0
  enumerationCodedRows := 0
  microsoftVerdicts _ := 0
  verdictOf := .empty
  consideredRows := 0
  events := []
  resolvedSubjects := .empty
  references := ⟨.empty, false, caller⟩

section Loop

variable {ρ : Type}

def BatchState.setAside (s : BatchState ρ) (reason : UnprocessableRow) : BatchState ρ :=
  { s with unprocessableByReason := increment s.unprocessableByReason reason }

def BatchState.consider (s : BatchState ρ) : BatchState ρ :=
  { s with consideredRows := s.consideredRows + 1 }

def ShapeObservations.observe (o : ShapeObservations) (raw : Json) : ShapeObservations where
  graphErrorCodeShape := increment o.graphErrorCodeShape (errorCodeShape raw).name
  graphIsInteractive := increment o.graphIsInteractive (isInteractiveShape raw)
  graphIsInteractiveAmongCredentialFailures :=
    if readGraphErrorCode raw = some 50126 then
      increment o.graphIsInteractiveAmongCredentialFailures (isInteractiveShape raw)
    else o.graphIsInteractiveAmongCredentialFailures

/-- A row that `normalizeRow` sets aside. -/
def BatchState.unprocessable (s : BatchState ρ) (rowFeed : NormalizationSource) (raw : Json)
    (reason : UnprocessableReason) : BatchState ρ :=
  let s := s.setAside (.row reason)
  let code := if rowFeed = .graphSignIns then readGraphErrorCode raw else none
  if SUBJECT_RESOLUTION_FAILURES.contains reason ∧
      code.any UNREACHABLE_BY_SUBJECT_RESOLUTION.contains then
    { s with enumerationCodedRows := s.enumerationCodedRows + 1 }
  else s

def BatchState.classified (s : BatchState ρ) : EventClassification → BatchState ρ
  | .applies _ => { s with applies := s.applies + 1 }
  | .doesNotApply reason =>
    { s with doesNotApplyByReason := increment s.doesNotApplyByReason reason }
  | .notYetCited reason =>
    { s with notYetCitedByReason := increment s.notYetCitedByReason reason }
  | .unknown observation =>
    { s with unknownByObservation := increment s.unknownByObservation observation }

/-- A row that `normalizeRow` makes an event of. -/
def BatchState.normalized (s : BatchState ρ) (position : Nat) (result : NormalizedRow) :
    BatchState ρ :=
  let event := result.event
  let s : BatchState ρ := { s with events := s.events ++ [⟨position, event⟩] }
  let s : BatchState ρ := match result.verdict with
    | none => s
    | some verdict =>
      { s with
        microsoftVerdicts := increment s.microsoftVerdicts verdict
        verdictOf := if verdict = .unrecognized then s.verdictOf
          else s.verdictOf.set position verdict }
  let s : BatchState ρ := { s with
    bindingMethods := increment s.bindingMethods event.subjectBinding
    resolvedSubjects := s.resolvedSubjects.set event.subjectRef
      ⟨event.subjectRef, result.microsoftUserId, event.subjectBinding⟩ }
  s.classified event.classification

variable (p : Auth.Platform) (f : ProviderFacts) (c : RowContext (References ρ))

/-- One row of the loop. -/
def normalizeNext (s : BatchState ρ) (position : Nat) (row : SignInRow) : BatchState ρ :=
  if row.organizationId ≠ c.scope.organizationId ∨
      row.customerTenantId ≠ c.scope.customerTenantId then
    s.consider.setAside .scopeMismatch
  else if row.raw.shape ≠ .object then s.consider.setAside (.row .rawPayloadMalformed)
  else
    match rowSource row.raw with
    | none => s.consider.setAside .sourceUnrecognized
    | some rowFeed =>
      if rowFeed ≠ c.source then
        { s with
          unselectedRowsByReason := increment s.unselectedRowsByReason .rowFromOtherFeed }
      else
        let s := s.consider
        let s :=
          if rowFeed = .graphSignIns then { s with shapes := s.shapes.observe row.raw } else s
        if position ≥ MAX_ROWS_PER_RUN then s.setAside .batchLimitExceeded
        else
          match normalizeRow p f row.ingestedAt row.raw c s.references with
          | (.error reason, references) =>
            { s with references }.unprocessable rowFeed row.raw reason
          | (.ok result, references) => { s with references }.normalized position result

/-- The rows from a position on. -/
def normalizeRows (s : BatchState ρ) : Nat → List SignInRow → BatchState ρ
  | _, [] => s
  | position, row :: rows =>
    normalizeRows (normalizeNext p f c s position row) (position + 1) rows

end Loop

/-- By the time of the event, then by its id. -/
def eventOrder (left right : BatchEvent) : Prop :=
  left.event.eventAt < right.event.eventAt ∨
    left.event.eventAt = right.event.eventAt ∧ left.event.eventId ≤ right.event.eventId

instance : DecidableRel eventOrder := fun left right =>
  inferInstanceAs (Decidable (left.event.eventAt < right.event.eventAt ∨
    left.event.eventAt = right.event.eventAt ∧ left.event.eventId ≤ right.event.eventId))

def EventClassification.isApplies : EventClassification → Bool
  | .applies _ => true
  | _ => false

def OutOfScopeReason.all : List OutOfScopeReason :=
  [.keepMeSignedIn, .insufficientSessionForSilentSignIn, .signInFrequencyPolicyExpiry,
    .applicationConfigurationError, .subjectNotProvisionedForResource,
    .sessionInvalidatedByRemediation, .nonInteractiveSignIn, .applicationActor]

def UncitedReason.all : List UncitedReason := [.exclusionNotYetCited]

structure NormalizeBatchOptions (ρ : Type) where
  scope : NormalizationScope
  source : NormalizationSource
  rows : List SignInRow
  directory : List DirectoryUserRow
  reference : ReferenceResolver ρ
  caller : ρ
  collectionScope : CollectionScope

section Batch

variable {ρ : Type} (p : Auth.Platform) (f : ProviderFacts) (toLowerCase : JsString → JsString)
  (options : NormalizeBatchOptions ρ)

def NormalizeBatchOptions.context (index : DirectoryIndex) : RowContext (References ρ) where
  scope := options.scope
  source := options.source
  directory := index
  resolveReference := resolveReference toLowerCase options.reference

/-- What is returned after the loop. -/
def NormalizeBatchOptions.finish (s : BatchState ρ) : NormalizationBatch :=
  let ordered := s.events.insertionSort eventOrder
  let outOfScopeTotal := (OutOfScopeReason.all.map s.doesNotApplyByReason).sum
  let notYetCitedTotal := (UncitedReason.all.map s.notYetCitedByReason).sum
  let told (verdict : MicrosoftVerdict) :=
    ordered.filter fun e => s.verdictOf.get? e.position = some verdict
  { scope := options.scope
    source := options.source
    events := ordered
    applies := ordered.filter fun e => e.event.classification.isApplies
    microsoftRiskVerdicts := told .risk
    microsoftRemediatedVerdicts := told .remediated
    microsoftSafetyVerdicts := told .safe
    resolvedSubjects := s.resolvedSubjects.values
    counts := {
      rows := options.rows.length
      applies := s.applies
      doesNotApplyByReason := s.doesNotApplyByReason
      notYetCitedByReason := s.notYetCitedByReason
      unknownByObservation := s.unknownByObservation
      unprocessableByReason := s.unprocessableByReason
      bindingMethods := s.bindingMethods
      microsoftVerdicts := s.microsoftVerdicts
      unselectedRowsByReason := s.unselectedRowsByReason }
    coverage := {
      collectionScope := options.collectionScope
      consideredRows := s.consideredRows
      normalizedRows := ordered.length
      recognizedRows := s.applies + outOfScopeTotal + notYetCitedTotal
      subjectNotInTenantRows := s.unprocessableByReason (.row .subjectNotInDirectory) +
        s.unprocessableByReason (.row .subjectUpnNotInDirectory)
      enumerationCodedRows := s.enumerationCodedRows }
    shapeObservations := s.shapes }

/-- `none` when the directory is not of the scope. -/
def normalizeSignInBatch : Option NormalizationBatch :=
  (indexDirectory toLowerCase options.scope options.directory).map fun index =>
    options.finish (normalizeRows p f (options.context toLowerCase index) (.start options.caller) 0
      options.rows)

end Batch

end Normalization
