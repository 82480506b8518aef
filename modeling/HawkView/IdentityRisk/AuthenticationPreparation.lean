import HawkView.Auth.Normalize
import HawkView.IdentityRisk.AuthenticationWindow
import HawkView.IdentityRisk.SourceCanonical

/-!
# Preparing an authentication evaluation

The rows of the feed that was selected become events or gaps. A row becomes an event when its user
and application are bound and its record is one of the window; what cannot be placed is a gap, and
a gap makes the source partial.
-/

namespace AuthenticationReadiness

open Json IsoTime
open Auth (AuthScope AuthSource RecordEvent)

/-! ## Readiness -/

/-- The reasons for which an authentication source is not available, and those of one that is. -/
inductive RiskAssessmentReason
  | ready | waitingForCollection | missingPermission | licenseRequired | collectionFailed
  | collectionStale | incompleteWindow | userBindingUnresolved | conflictingEvidence
  | capacityLimit | evaluationFailed | evaluationDisabled | keyUnavailable
  deriving DecidableEq, Repr

def RiskAssessmentReason.text : RiskAssessmentReason → JsString
  | .ready => js "READY"
  | .waitingForCollection => js "WAITING_FOR_COLLECTION"
  | .missingPermission => js "MISSING_PERMISSION"
  | .licenseRequired => js "LICENSE_REQUIRED"
  | .collectionFailed => js "COLLECTION_FAILED"
  | .collectionStale => js "COLLECTION_STALE"
  | .incompleteWindow => js "INCOMPLETE_WINDOW"
  | .userBindingUnresolved => js "USER_BINDING_UNRESOLVED"
  | .conflictingEvidence => js "CONFLICTING_EVIDENCE"
  | .capacityLimit => js "CAPACITY_LIMIT"
  | .evaluationFailed => js "EVALUATION_FAILED"
  | .evaluationDisabled => js "EVALUATION_DISABLED"
  | .keyUnavailable => js "KEY_UNAVAILABLE"

def assessmentReason : RiskAssessmentReason → JsString
  | .ready => js ("The selected source meets this check’s evidence requirements for the " ++
      "reported window.")
  | .waitingForCollection => js "Waiting for the first usable collection."
  | .missingPermission => js ("The selected source requires a Microsoft read permission that is " ++
      "not available.")
  | .licenseRequired => js "Microsoft reported a licensing restriction for this source."
  | .collectionFailed => js ("The latest source collection failed. Earlier evidence does not " ++
      "establish current coverage.")
  | .collectionStale => js "Source evidence is stale; current coverage is not verified."
  | .incompleteWindow => js ("Required source evidence is incomplete or not attested; this check " ++
      "is not fully evaluated.")
  | .userBindingUnresolved => js ("The records cannot be safely bound to a resolved human " ++
      "identity.")
  | .conflictingEvidence => js ("Conflicting records prevent a reliable conclusion for the " ++
      "affected evidence.")
  | .capacityLimit => js ("A bounded processing limit was reached. Coverage is partial, not " ++
      "complete.")
  | .evaluationFailed => js ("The latest evaluation did not complete. Current coverage is " ++
      "unknown.")
  | .evaluationDisabled => js ("Evaluation is disabled by configuration or an operational safety " ++
      "control.")
  | .keyUnavailable => js ("Approved pseudonymization is unavailable; evaluation is not " ++
      "performed.")

/-- `RiskAssessmentReadiness`. -/
inductive SourceStatus
  | ready | missingPermission | licenseRequired | stale | failed | disabled | incomplete
  | insufficientFields | waiting
  deriving DecidableEq, Repr

/-- `PARTIAL` is `incomplete`. -/
def SourceStatus.text : SourceStatus → JsString
  | .ready => js "READY"
  | .missingPermission => js "MISSING_PERMISSION"
  | .licenseRequired => js "LICENSE_REQUIRED"
  | .stale => js "STALE"
  | .failed => js "FAILED"
  | .disabled => js "DISABLED"
  | .incomplete => js "PARTIAL"
  | .insufficientFields => js "INSUFFICIENT_FIELDS"
  | .waiting => js "WAITING"

inductive Freshness
  | current | stale | unknown
  deriving DecidableEq, Repr

structure RiskSourceReadinessDto where
  source : AuthSource
  status : SourceStatus
  reasonCode : RiskAssessmentReason
  explanation : JsString
  windowStart : Option JsString
  windowEnd : Option JsString
  lastSuccessfulCollectionAt : Option JsString
  latestEventAt : Option JsString
  latestIngestionAt : Option JsString
  freshness : Freshness
  deriving DecidableEq

/-- `AuthenticationFreshnessObservation`: stale since a collection, or unknown. -/
inductive FreshnessObservation
  | unknown
  | stale (lastSuccessfulCollectionAt : JsString)
  deriving DecidableEq

def FreshnessObservation.collectedAt : FreshnessObservation → Option JsString
  | .unknown => none
  | .stale lastSuccessfulCollectionAt => some lastSuccessfulCollectionAt

def FreshnessObservation.freshness : FreshnessObservation → Freshness
  | .unknown => .unknown
  | .stale _ => .stale

def unavailableStatus : RiskAssessmentReason → SourceStatus
  | .missingPermission => .missingPermission
  | .licenseRequired => .licenseRequired
  | .collectionStale => .stale
  | .collectionFailed | .evaluationFailed | .keyUnavailable => .failed
  | .evaluationDisabled => .disabled
  | .capacityLimit | .incompleteWindow => .incomplete
  | .userBindingUnresolved => .insufficientFields
  | _ => .waiting

def unavailableAuthenticationSource (source : AuthSource) (reason : RiskAssessmentReason)
    (observed : FreshnessObservation) : RiskSourceReadinessDto where
  source
  status := unavailableStatus reason
  reasonCode := reason
  explanation := assessmentReason reason
  windowStart := none
  windowEnd := none
  lastSuccessfulCollectionAt := observed.collectedAt
  latestEventAt := none
  latestIngestionAt := none
  freshness := observed.freshness

/-! ## What is prepared from -/

/-- A `Date` or `null`; a date that is not valid is `some none`. -/
abbrev DateField := Option (Option Date)

structure AuthenticationProof where
  status : JsString
  lastSuccessfulAt : DateField
  lastAttemptAt : DateField
  lastErrorCode : Option JsString

/-- The texts that `FALLBACK` matches. -/
def fallbackCodes : List JsString :=
  [js "sign-ins-non-premium-fallback-active", js "sign-ins-premium-graph-fallback-active",
    js "sign-ins-entitlement-unverified-fallback-active",
    js "sign-ins-non-premium-fallback-active-geolocation-partial",
    js "sign-ins-premium-graph-fallback-active-geolocation-partial",
    js "sign-ins-entitlement-unverified-fallback-active-geolocation-partial"]

def selectedAuthenticationSource (proof : Option AuthenticationProof) : Option AuthSource :=
  match proof with
  | none => none
  | some proof =>
    if proof.status = js "SUCCEEDED" ∧ proof.lastErrorCode = none then some .graphSignIns
    else if proof.status = js "RUNNING" ∧ (proof.lastErrorCode.getD []) ∈ fallbackCodes then
      some .m365AuditSts
    else none

/-- A window that was read: its texts are those of two instants in order. -/
structure ReadWindow where
  source : AuthSource
  start : Date
  stop : Date
  ordered : start.val ≤ stop.val
  paginationComplete : Bool

def ReadWindow.startText (w : ReadWindow) : JsString := toISOString w.start.val

def ReadWindow.stopText (w : ReadWindow) : JsString := toISOString w.stop.val

/-- A stored row; a date of ingestion that is not valid is `none`. -/
structure AuthenticationRow where
  organizationId : JsString
  customerTenantId : JsString
  raw : Json
  ingestedAt : Option Date

structure AuthenticationDirectoryUser where
  organizationId : JsString
  customerTenantId : JsString
  microsoftUserId : JsString
  userPrincipalName : JsString
  userType : Option JsString
  deriving DecidableEq

inductive ReferenceKind
  | subject | application
  deriving DecidableEq

def ReferenceKind.text : ReferenceKind → JsString
  | .subject => js "subject"
  | .application => js "application"

/-- What the caller and the language provide. -/
structure Environment where
  platform : Auth.Platform
  toLowerCase : JsString → JsString
  /-- `AuthenticationReference`, none when it throws. -/
  reference : ReferenceKind → List JsString → Option JsString

inductive PrepareError
  | scopeInvalid | referenceInvalid | referenceFailed
  deriving DecidableEq

def PrepareError.message : PrepareError → Option JsString
  | .scopeInvalid => some (js "IDENTITY_AUTH_SCOPE_INVALID")
  | .referenceInvalid => some (js "IDENTITY_AUTH_REFERENCE_INVALID")
  | .referenceFailed => none

/-! ## Users -/

section

variable (env : Environment) (scope : AuthScope)

structure UserIndex where
  usersById : JsMap JsString (List AuthenticationDirectoryUser)
  usersByUpn : JsMap JsString (List AuthenticationDirectoryUser)

/-- A user that can be bound. -/
def isBindable (user : AuthenticationDirectoryUser) : Bool :=
  Auth.guid user.microsoftUserId && decide (user.userPrincipalName.length ≤ 320) &&
    [js "Member", js "Guest"].contains (user.userType.getD [])

def idKey (user : AuthenticationDirectoryUser) : JsString := env.toLowerCase user.microsoftUserId

def upnKey (user : AuthenticationDirectoryUser) : JsString :=
  env.toLowerCase user.userPrincipalName.trim

/-- Adds a user to those of a key. -/
def addUser (users : JsMap JsString (List AuthenticationDirectoryUser)) (key : JsString)
    (user : AuthenticationDirectoryUser) : JsMap JsString (List AuthenticationDirectoryUser) :=
  users.set key ((users.get? key).getD [] ++ [user])

/-- The body of the loop over the directory. -/
def indexUser (index : UserIndex) (user : AuthenticationDirectoryUser) :
    Except PrepareError UserIndex :=
  if user.organizationId ≠ scope.organizationId ∨
      user.customerTenantId ≠ scope.customerTenantId then
    .error .scopeInvalid
  else if isBindable user then
    .ok ⟨addUser index.usersById (idKey env user) user,
      addUser index.usersByUpn (upnKey env user) user⟩
  else .ok index

def indexDirectory (directory : List AuthenticationDirectoryUser) : Except PrepareError UserIndex :=
  directory.foldlM (indexUser env scope) ⟨.empty, .empty⟩

/-! ## What a row is -/

/-- The entries of a record that is plain. -/
def plainRecord : Option Json → Option Entries
  | some (.object entries) =>
    if AuthenticationIntegrity.plainEntries entries then some entries else none
  | _ => none

/-- The feed that a row names. -/
def rowSource (entries : Entries) : Option AuthSource :=
  match entries.lookup (js "hawkviewSource") with
  | some (.string s) =>
    if s = js "MICROSOFT_365_MANAGEMENT_ACTIVITY" then some .m365AuditSts else none
  | none => some .graphSignIns
  | _ => none

/-- The names of the fields of a record. -/
structure RecordFields where
  id : JsString
  user : JsString
  application : JsString
  address : JsString

def recordFields : AuthSource → RecordFields
  | .graphSignIns => ⟨js "id", js "userId", js "appId", js "ipAddress"⟩
  | .m365AuditSts => ⟨js "Id", js "UserId", js "ApplicationId", js "ActorIpAddress"⟩

/-- The id of a disputed record, when it can be reported. -/
def reportableId (value : Option Json) : Option JsString :=
  (textOf value).filter fun id =>
    !id.isEmpty && decide (id.length ≤ 512) &&
      !(JsString.characters id).any IdentitySource.isControlOrFormat

def usersMatching (index : UserIndex) (selected : AuthSource) (rawUser : JsString) :
    Option (List AuthenticationDirectoryUser) :=
  match selected with
  | .graphSignIns => index.usersById.get? (env.toLowerCase rawUser)
  | .m365AuditSts => index.usersByUpn.get? (env.toLowerCase rawUser.trim)

/-- Signed in by something that is not a person. -/
def isWorkload (record : Entries) : Bool :=
  match record.lookup (js "signInEventTypes") with
  | some (.array types) => types.any fun type =>
      Auth.isString (some type.shape) (js "servicePrincipal") ||
        Auth.isString (some type.shape) (js "managedIdentity")
  | _ => false

/-- What binds the record of a row. -/
structure Binding where
  record : Entries
  rawUser : JsString
  appId : JsString
  user : AuthenticationDirectoryUser
  ingestedAt : Date

/-- What the checks before the references make of a row. -/
inductive RowClass
  | otherFeed
  | gap
  | disputed (id : Option JsString)
  | bound (binding : Binding)

/-- The user and the application of a record. -/
def bindRecord (index : UserIndex) (selected : AuthSource) (record : Entries) (ingestedAt : Date) :
    RowClass :=
  match textOf (record.lookup (recordFields selected).user),
      textOf (record.lookup (recordFields selected).application) with
  | some rawUser, some appId =>
    match usersMatching env index selected rawUser with
    | some [user] =>
      if Auth.guid appId = false then .gap
      else if selected = .graphSignIns ∧ isWorkload record = true then .gap
      else .bound ⟨record, rawUser, appId, user, ingestedAt⟩
    | _ => .gap
  | _, _ => .gap

def classifyRow (index : UserIndex) (selected : AuthSource) (asOf : Date) (row : AuthenticationRow) :
    RowClass :=
  match plainRecord (some row.raw), row.ingestedAt with
  | some entries, some ingestedAt =>
    if asOf.val < ingestedAt.val then .gap
    else
      match rowSource entries with
      | none => .gap
      | some source =>
        if source ≠ selected then .otherFeed
        else
          match plainRecord (match selected with
              | .m365AuditSts => entries.lookup (js "managementActivityRecord")
              | .graphSignIns => some row.raw) with
          | none => .gap
          | some record =>
            if (entries.lookup (js "hawkviewAuthenticationIntegrity")).isSome then
              .disputed (reportableId (record.lookup (recordFields selected).id))
            else bindRecord env index selected record ingestedAt
  | _, _ => .gap

/-! ## References -/

def referenceKey (kind : ReferenceKind) (id : JsString) : JsString :=
  kind.text ++ js ":" ++ env.toLowerCase id

/-- `^hvr1_<kind>_[a-f0-9]\x7b64\x7d$`. -/
def isReferenceOf (kind : ReferenceKind) (value : JsString) : Bool :=
  let start := js "hvr1_" ++ kind.text ++ js "_"
  start.isPrefixOf value && (value.drop start.length).length == 64 &&
    (value.drop start.length).all IdentitySignal.isHexadecimal

/-- What the reference of an id has to be. -/
def referenceOf (kind : ReferenceKind) (id : JsString) : Except PrepareError JsString :=
  match env.reference kind [scope.organizationId, scope.customerTenantId, scope.microsoftTenantId,
      env.toLowerCase id] with
  | none => .error .referenceFailed
  | some value => if isReferenceOf kind value then .ok value else .error .referenceInvalid

def managed (refCache : JsMap JsString JsString) (kind : ReferenceKind) (id : JsString) :
    Except PrepareError (JsString × JsMap JsString JsString) :=
  let key := referenceKey env kind id
  match refCache.get? key with
  | some prior => .ok (prior, refCache)
  | none => (referenceOf env scope kind id).map fun value => (value, refCache.set key value)

/-! ## Rows -/

/-- The context in which the record of a row is normalized. -/
def rowContext (selected : AuthSource) (binding : Binding) (subjectRef applicationRef : JsString) :
    Auth.AuthNormalizationContext where
  toAuthScope := scope
  source := selected.text
  ingestedAt := toISOString binding.ingestedAt.val
  subject :=
    { resolvedSubjectRef := subjectRef
      sourceUserId := binding.rawUser
      principalClass := js "HUMAN"
      sourceField := some (recordFields selected).user
      conflictingIdentifiers := none
      matchedBy := match selected with
        | .m365AuditSts => some (js "EXACT_NORMALIZED_UPN")
        | .graphSignIns => none
      uniqueMatch := match selected with
        | .m365AuditSts => some true
        | .graphSignIns => none }
  application := ⟨applicationRef, binding.appId, (recordFields selected).application, true⟩
  clientSource :=
    { qualification :=
        if (Auth.addressAt env.platform
            (seen (.object binding.record) (recordFields selected).address)).isSome then
          js "QUALIFIED"
        else js "MISSING"
      field := some (recordFields selected).address }
  eventMfa := none

/-- The event of a bound row, none for a gap. -/
def eventOf (selected : AuthSource) (window : ReadWindow) (asOf : Date) (binding : Binding)
    (subjectRef applicationRef : JsString) : Option RecordEvent :=
  match Auth.normalizeAuthenticationRecord env.platform (.object binding.record)
      (rowContext env scope selected binding subjectRef applicationRef) with
  | .error _ => none
  | .ok event =>
    if event.eventAt < window.startText ∨ window.stopText < event.eventAt ∨
        toISOString asOf.val < event.eventAt then
      none
    else some event

/-- What the loop over the rows has made. -/
structure RowState where
  events : List RecordEvent
  resolved : JsMap JsString JsString
  gaps : Nat
  latestEvent : Option JsString
  latestIngestion : Option JsString
  refCache : JsMap JsString JsString
  disputedEventIds : List JsString

def RowState.start : RowState := ⟨[], .empty, 0, none, none, .empty, []⟩

/-- Why the loop stops. -/
inductive RowExit
  | thrown (error : PrepareError)
  | capacity (disputedEventIds : List JsString)

def later (latest : Option JsString) (text : JsString) : Option JsString :=
  match latest with
  | none => some text
  | some t => if t < text then some text else some t

def MAX_REFERENCES : Nat := 4000

/-- The references that a row would add. -/
def newReferences (refCache : JsMap JsString JsString) (binding : Binding) : Nat :=
  (if (refCache.get? (referenceKey env .subject binding.user.microsoftUserId)).isSome then 0
    else 1) +
    if (refCache.get? (referenceKey env .application binding.appId)).isSome then 0 else 1

def readBound (selected : AuthSource) (window : ReadWindow) (asOf : Date) (s : RowState)
    (binding : Binding) : Except RowExit RowState :=
  if MAX_REFERENCES < s.refCache.entries.length + newReferences env s.refCache binding then
    .error (.capacity s.disputedEventIds)
  else
    match managed env scope s.refCache .subject binding.user.microsoftUserId with
    | .error e => .error (.thrown e)
    | .ok (subjectRef, refCache) =>
      match managed env scope refCache .application binding.appId with
      | .error e => .error (.thrown e)
      | .ok (applicationRef, refCache) =>
        match eventOf env scope selected window asOf binding subjectRef applicationRef with
        | none =>
          .ok { s with
            refCache
            gaps := s.gaps + 1 }
        | some event =>
          .ok { s with
            refCache
            events := s.events ++ [event]
            resolved := s.resolved.set subjectRef binding.user.microsoftUserId
            latestEvent := later s.latestEvent event.eventAt
            latestIngestion := later s.latestIngestion event.ingestedAt }

/-- The body of the loop over the rows. -/
def readRow (index : UserIndex) (selected : AuthSource) (window : ReadWindow) (asOf : Date)
    (s : RowState) (row : AuthenticationRow) : Except RowExit RowState :=
  if row.organizationId ≠ scope.organizationId ∨ row.customerTenantId ≠ scope.customerTenantId then
    .error (.thrown .scopeInvalid)
  else
    match classifyRow env index selected asOf row with
    | .otherFeed => .ok s
    | .gap => .ok { s with gaps := s.gaps + 1 }
    | .disputed id =>
      .ok { s with
        gaps := s.gaps + 1
        disputedEventIds := s.disputedEventIds ++ id.toList }
    | .bound binding => readBound env scope selected window asOf s binding

end

/-! ## Preparing -/

/-- `AUTH_COLLECTION_MAX_AGE_MS`. -/
def maxCollectionAge : Int := 60 * 60000

/-- `readiness` of the input; its state is `PARTIAL` when `incomplete`. -/
structure InputReadiness where
  incomplete : Bool
  paginationComplete : Bool
  gapCount : Nat
  capped : Bool
  deriving DecidableEq

def InputReadiness.state (r : InputReadiness) : JsString :=
  if r.incomplete then js "PARTIAL" else js "READY"

structure EvaluationInput extends AuthScope where
  source : AuthSource
  asOf : JsString
  authorizedFrom : JsString
  events : List RecordEvent
  readiness : InputReadiness

structure ResolvedSubject where
  subjectRef : JsString
  microsoftUserId : JsString
  deriving DecidableEq

structure Prepared where
  input : Option EvaluationInput
  sources : List RiskSourceReadinessDto
  resolvedSubjects : List ResolvedSubject
  disputedEventIds : List JsString

def authSources : List AuthSource := [.graphSignIns, .m365AuditSts]

/-- Why nothing is prepared, and what was observed of a source. -/
structure Failure where
  reason : RiskAssessmentReason
  observed : FreshnessObservation
  observedSource : Option AuthSource

def Failure.of (reason : RiskAssessmentReason) : Failure := ⟨reason, .unknown, none⟩

def Failure.prepared (failure : Failure) (disputedEventIds : List JsString) : Prepared where
  input := none
  sources := authSources.map fun source =>
    unavailableAuthenticationSource source failure.reason
      (if failure.observedSource = some source then failure.observed else .unknown)
  resolvedSubjects := []
  disputedEventIds

/-- What passed the checks before the rows are read. -/
structure Collection where
  selected : AuthSource
  collectedAt : Date
  asOf : Date
  window : ReadWindow

/-- The proof speaks of an attempt after its last success, or of one without a time. -/
def attemptPending (proof : AuthenticationProof) (lastSuccessfulAt : Date) : Bool :=
  match proof.lastAttemptAt with
  | none => false
  | some none => true
  | some (some attempt) => decide (lastSuccessfulAt.val < attempt.val)

/-- The checks of the collection, in their order. -/
def checkCollection (rowCount userCount : Nat) (proof : Option AuthenticationProof)
    (window : Option ReadWindow) (directoryReady : Bool) (asOf : Option Date) :
    Except Failure Collection :=
  let errorCode := proof.bind AuthenticationProof.lastErrorCode
  if errorCode = some (js "MICROSOFT_PERMISSION_REQUIRED") then
    .error (.of .missingPermission)
  else if errorCode = some (js "MICROSOFT_LICENSE_REQUIRED") then
    .error (.of .licenseRequired)
  else
    match asOf, proof, (proof.bind AuthenticationProof.lastSuccessfulAt).bind id with
    | some asOf, some proof, some lastSuccessfulAt =>
      match selectedAuthenticationSource (some proof) with
      | none => .error (.of .collectionFailed)
      | some selected =>
        let stale : Failure :=
          ⟨.collectionStale, .stale (toISOString lastSuccessfulAt.val), some selected⟩
        if attemptPending proof lastSuccessfulAt then .error (.of .collectionFailed)
        else if asOf.val < lastSuccessfulAt.val then .error (.of .collectionStale)
        else if maxCollectionAge < asOf.val - lastSuccessfulAt.val then .error stale
        else if directoryReady = false then .error (.of .userBindingUnresolved)
        else if 10000 < rowCount ∨ 5000 < userCount then .error (.of .capacityLimit)
        else
          match window with
          | none => .error (.of .incompleteWindow)
          | some window =>
            if window.source ≠ selected ∨ lastSuccessfulAt.val < window.stop.val then
              .error (.of .incompleteWindow)
            else if maxCollectionAge < asOf.val - window.stop.val then .error stale
            else .ok ⟨selected, lastSuccessfulAt, asOf, window⟩
    | _, _, _ =>
      .error (.of (if proof.any fun proof => proof.status = js "FAILED" then .collectionFailed
        else .waitingForCollection))

/-- What is returned after the rows. -/
def finishRows (scope : AuthScope) (c : Collection) (s : RowState) : Prepared :=
  let incomplete := decide (0 < s.gaps) || !c.window.paginationComplete
  let reasonCode : RiskAssessmentReason :=
    if s.disputedEventIds.isEmpty = false then .conflictingEvidence
    else if incomplete then .incompleteWindow
    else .ready
  let sourceDto : RiskSourceReadinessDto :=
    { source := c.selected
      status := if incomplete then .incomplete else .ready
      reasonCode
      explanation := assessmentReason reasonCode
      windowStart := some c.window.startText
      windowEnd := some c.window.stopText
      lastSuccessfulCollectionAt := some (toISOString c.collectedAt.val)
      latestEventAt := s.latestEvent
      latestIngestionAt := s.latestIngestion
      freshness := .current }
  { input := some
      { toAuthScope := scope
        source := c.selected
        asOf := toISOString c.asOf.val
        authorizedFrom := toISOString (max c.window.start.val (c.asOf.val - dayLength))
        events := s.events
        readiness := ⟨incomplete, c.window.paginationComplete, s.gaps, false⟩ }
    sources := authSources.map fun source =>
      if source = c.selected then sourceDto
      else unavailableAuthenticationSource source .waitingForCollection .unknown
    resolvedSubjects := s.resolved.entries.map fun (subjectRef, microsoftUserId) =>
      ⟨subjectRef, microsoftUserId⟩
    disputedEventIds := s.disputedEventIds }

def prepareAuthenticationEvaluation (env : Environment) (scope : AuthScope)
    (rows : List AuthenticationRow) (directory : List AuthenticationDirectoryUser)
    (proof : Option AuthenticationProof) (window : Option ReadWindow) (directoryReady : Bool)
    (asOf : Option Date) : Except PrepareError Prepared :=
  match checkCollection rows.length directory.length proof window directoryReady asOf with
  | .error failure => .ok (failure.prepared [])
  | .ok c =>
    match indexDirectory env scope directory with
    | .error e => .error e
    | .ok index =>
      match rows.foldlM (readRow env scope index c.selected c.window c.asOf) .start with
      | .error (.thrown e) => .error e
      | .error (.capacity disputedEventIds) =>
        .ok ((Failure.of .capacityLimit).prepared disputedEventIds)
      | .ok s => .ok (finishRows scope c s)

end AuthenticationReadiness
