import HawkView.Auth.Normalize

/-!
# Normalization of sign-in rows

A row becomes a classified event or is set aside with a reason. The two feeds
are read differently: the code of a sign-in is trusted, and of an audit record
the name of the reason. The tables of the provider stand as a parameter.
-/

namespace Normalization

open Json

inductive NormalizationSource
  | graphSignIns | m365AuditSts
  deriving DecidableEq

inductive EventOutcome
  | passwordRejected | passwordAcceptedCompleted | passwordAcceptedChallengeIssued
  | passwordAcceptedChallengeNotPassed | passwordAcceptedRegistrationRequired | blockedByControl
  | lockedOutAfterRepeatedFailures | disabledAccountAttempt | credentialConfirmedValid
  deriving DecidableEq

inductive OutOfScopeReason
  | keepMeSignedIn | insufficientSessionForSilentSignIn | signInFrequencyPolicyExpiry
  | applicationConfigurationError | subjectNotProvisionedForResource
  | sessionInvalidatedByRemediation | nonInteractiveSignIn | applicationActor
  deriving DecidableEq

inductive UncitedReason
  | exclusionNotYetCited
  deriving DecidableEq

inductive UnknownObservation
  | errorCodeAbsent | errorCodeShapeUnrecognized | unrecognizedErrorCode
  | ambiguousByProviderStatement | ambiguousFailureReasonText | resultCodeNotAnAzureCode
  | successWithUnrecognizedFailureReason | failureReasonNotReported | providerDeclaredUnclassified
  | unrecognizedReasonName | inconsistentOperationAndCode
  deriving DecidableEq

inductive UnprocessableReason
  | rawPayloadMalformed | tenantBindingMismatch | eventIdAbsentOrMalformed | eventTimestampInvalid
  | ingestionTimestampInvalid | ingestionPrecedesEvent | integrityDisputed
  | unsupportedAuditOperation | subjectIdAbsentOrMalformed | subjectNotInDirectory
  | subjectAmbiguousInDirectory | subjectUpnAbsentOrMalformed | subjectUpnNotInDirectory
  | subjectUpnAmbiguousInDirectory | applicationIdAbsentOrMalformed | referenceUnavailable
  | referenceBudgetExceeded
  deriving DecidableEq

inductive EventClassification
  | applies (outcome : EventOutcome)
  | doesNotApply (reason : OutOfScopeReason)
  | notYetCited (reason : UncitedReason)
  | unknown (observation : UnknownObservation)
  deriving DecidableEq

inductive MicrosoftVerdict
  | risk | remediated | safe | unrecognized
  deriving DecidableEq

inductive ClientQualification
  | qualified | notReported | unreadable
  deriving DecidableEq

structure ClientSource where
  qualification : ClientQualification
  address : Option JsString
  deriving DecidableEq

/-! ## The tables of the provider -/

structure ResultCodeEntry where
  disposition : EventClassification
  textMeanings : List JsString
  verdict : Option MicrosoftVerdict

structure FailureReasonPattern where
  disposition : EventClassification
  verdict : Option MicrosoftVerdict

/-- The tables, and the one pattern of those allowed that a description matches. -/
structure ProviderFacts where
  resultCodeEntry : Int → Option ResultCodeEntry
  failureReasonMeaning : JsString → List JsString → Option FailureReasonPattern
  auditReasonEntry : JsString → Option EventClassification
  riskDetailVerdict : Option Shape → Option Shape → Option MicrosoftVerdict

def ProviderFacts.dispositionForCode (f : ProviderFacts) (code : Int) : EventClassification :=
  ((f.resultCodeEntry code).map ResultCodeEntry.disposition).getD (.unknown .unrecognizedErrorCode)

/-! ## Reading a field -/

/-- A text without control characters, of at most 512 code units. -/
def textAt : Option Shape → Option JsString
  | some (.string s) =>
    if s ≠ [] ∧ s.length ≤ 512 ∧ s.any Auth.control = false then some s else none
  | _ => none

inductive Designator
  | required | mayBeAbsent
  deriving DecidableEq

def utcMillis (designator : Designator) : Option Shape → Option Int
  | some (.string s) =>
    if s.getLast? = some 0x5A then IsoTime.utcTime s
    else if designator = .mayBeAbsent then IsoTime.utcTime (s ++ [0x5A])
    else none
  | _ => none

def notReported : Option Shape → Bool
  | none => true
  | some .null => true
  | some (.string s) => s.isEmpty
  | _ => false

def qualifyClient (p : Auth.Platform) (values : List (Option Shape)) : ClientSource :=
  let reported := values.filter fun v => !notReported v
  if reported.isEmpty then ⟨.notReported, none⟩
  else
    match reported.findSome? (Auth.addressAt p) with
    | some address => ⟨.qualified, some address⟩
    | none => ⟨.unreadable, none⟩

def descriptionPermitsSuccess : Option Shape → Bool
  | none => true
  | some .null => true
  | some (.string s) => s.isEmpty || s == js "Other."
  | _ => false

def guidAt : Option Shape → Option JsString
  | some (.string s) => if Auth.guid s then some s else none
  | _ => none

/-- `/^[^\s@]{1,255}@[^\s@.]+(?:\.[^\s@.]+)+$/`. -/
def upn (s : JsString) : Bool :=
  let name := s.takeWhile (· != 0x40)
  let labels := (s.drop (name.length + 1)).splitOn 0x2E
  decide (1 ≤ name.length ∧ name.length ≤ 255 ∧ name.length < s.length ∧ 2 ≤ labels.length) &&
    (name ++ labels.flatten).all (fun c => !JsString.whitespace c && c != 0x40) &&
    labels.all fun label => !label.isEmpty

/-! ## Sign-ins -/

inductive ErrorCodeShape
  | number (code : Int) | numericString | otherString | null | absent | otherType

/-- The shape of `status.errorCode`, by what is seen of `status` and of the code. -/
def codeShape (status code : Option Shape) : ErrorCodeShape :=
  match status with
  | none => .absent
  | some .null => .absent
  | some .object =>
    match code with
    | none => .absent
    | some .null => .null
    | some (.number n) =>
      match Auth.safeInteger n with
      | some code => .number code
      | none => .otherType
    | some (.string s) =>
      if (Auth.canonicalDecimal s).isSome then .numericString else .otherString
    | _ => .otherType
  | _ => .otherType

def errorCodeShape (record : Json) : ErrorCodeShape :=
  codeShape (seen record (js "status"))
    (shapeAt record [.key (js "status"), .key (js "errorCode")])

structure Classified where
  classification : EventClassification
  errorCode : Option Int
  verdict : Option MicrosoftVerdict

/-- The disposition of a code, refined by its description where the table says so. -/
def refineByDescription (f : ProviderFacts) (code : Int) (description : Option Shape) :
    EventClassification × Option MicrosoftVerdict :=
  let entry := f.resultCodeEntry code
  let plain := (f.dispositionForCode code, entry.bind ResultCodeEntry.verdict)
  match entry.map ResultCodeEntry.textMeanings, description with
  | some (m :: ms), some (.string s) =>
    match f.failureReasonMeaning s (m :: ms) with
    | some matched => (matched.disposition, matched.verdict.or (entry.bind ResultCodeEntry.verdict))
    | none => plain
  | _, _ => plain

def classifyShape (f : ProviderFacts) (verdict : Option MicrosoftVerdict) (shape : ErrorCodeShape)
    (description : Option Shape) : Classified :=
  match shape with
  | .number code =>
    let (disposition, refined) := refineByDescription f code description
    let verdict := verdict.or refined
    if disposition = .applies .passwordAcceptedCompleted ∧
        descriptionPermitsSuccess description = false then
      ⟨.unknown .successWithUnrecognizedFailureReason, some code, verdict⟩
    else ⟨disposition, some code, verdict⟩
  | .absent => ⟨.unknown .errorCodeAbsent, none, verdict⟩
  | .null => ⟨.unknown .errorCodeAbsent, none, verdict⟩
  | _ => ⟨.unknown .errorCodeShapeUnrecognized, none, verdict⟩

def classifyGraphRecord (f : ProviderFacts) (record : Json) : Classified :=
  classifyShape f (f.riskDetailVerdict (seen record (js "riskDetail"))
    (seen record (js "riskState"))) (errorCodeShape record)
    (shapeAt record [.key (js "status"), .key (js "failureReason")])

/-! ## Audit records -/

def AUDIT_CODE_PROPERTY_NAMES : List JsString :=
  [js "loginstatus", js "errorcode", js "errornumber"]

def AUDIT_REASON_PROPERTY_NAMES : List JsString := [js "loginerror", js "logonerror"]

def auditExtendedValues (record : Json) (names : List JsString) : List (Option Shape) :=
  (((Auth.propertiesOf record).getD []).take 100).filterMap fun q =>
    match q.shape, q.name with
    | .object, some (.string name) =>
      if names.contains name.trim.lowerLatin then some q.value else none
    | _, _ => none

/-- A result code as a text, where it is a canonical number. -/
def canonicalCode : Option Shape → Option JsString
  | some (.number n) => if (Auth.safeInteger n).any (0 ≤ ·) then some n.text else none
  | some (.string s) => if (Auth.canonicalDecimal s).isSome then some s else none
  | _ => none

structure AuditCode where
  code : Option Nat
  reported : Bool

def readAuditErrorCode (record : Json) : AuditCode :=
  let fields := ([js "LoginStatus", js "ErrorCode"].map (seen record)).filter Option.isSome
  match fields ++ auditExtendedValues record AUDIT_CODE_PROPERTY_NAMES with
  | [] => ⟨none, false⟩
  | code :: rest =>
    match canonicalCode code with
    | none => ⟨none, true⟩
    | some text =>
      if rest.all fun other => canonicalCode other == some text then
        ⟨(IsoTime.readDigits text.length text).map Prod.fst, true⟩
      else ⟨none, true⟩

def readAuditLogonErrors (record : Json) : List (Option Shape) :=
  [seen record (js "LogonError"), seen record (js "LoginError")] ++
    auditExtendedValues record AUDIT_REASON_PROPERTY_NAMES

/-- A reason that is a text, other than `None`. -/
def reasonAt (v : Option Shape) : Option JsString := (textAt v).filter fun s => s != js "None"

/-- The name of the reason, unless it only repeats the operation. -/
def reasonName (record : Json) : Option JsString :=
  ((readAuditLogonErrors record).findSome? reasonAt).filter fun s =>
    !Auth.isString (seen record (js "Operation")) s

def classifyAuditRecord (f : ProviderFacts) (record : Json) : EventClassification × Option Nat :=
  let { code, reported } := readAuditErrorCode record
  let providerCode := if code = some 1 then none else code
  let succeeded := Auth.isString (seen record (js "Operation")) (js "UserLoggedIn")
  let inconsistent := (EventClassification.unknown .inconsistentOperationAndCode, code)
  match reasonName record with
  | none =>
    match providerCode with
    | some (n + 1) =>
      if succeeded then inconsistent else (f.dispositionForCode ((n + 1 : Nat) : Int), code)
    | some 0 =>
      if succeeded then (.applies .passwordAcceptedCompleted, code) else inconsistent
    | none =>
      if succeeded then (.applies .passwordAcceptedCompleted, code)
      else (.unknown (if code = some 1 then .resultCodeNotAnAzureCode
        else if reported then .errorCodeShapeUnrecognized
        else .failureReasonNotReported), code)
  | some name =>
    match f.auditReasonEntry name with
    | none => (.unknown .unrecognizedReasonName, code)
    | some (.applies outcome) =>
      let wantsSuccess := decide (outcome = .passwordAcceptedCompleted)
      if wantsSuccess ≠ succeeded then inconsistent
      else if providerCode = some 0 ∧ wantsSuccess = false then inconsistent
      else
        match providerCode with
        | some (n + 1) =>
          match f.dispositionForCode ((n + 1 : Nat) : Int) with
          | .applies other =>
            if other ≠ outcome then inconsistent else (.applies outcome, code)
          | _ => (.applies outcome, code)
        | _ => (.applies outcome, code)
    | some disposition => (disposition, code)

/-! ## Rows -/

structure NormalizationScope where
  organizationId : JsString
  customerTenantId : JsString
  microsoftTenantId : JsString
  deriving DecidableEq

/-- The match of a directory lookup, by the id of the user. -/
inductive Resolution
  | one (microsoftUserId : JsString)
  | none
  | many

structure DirectoryIndex where
  byObjectId : JsString → Resolution
  byUpn : JsString → Resolution

inductive ReferenceKind
  | subject | application

/-- `σ` is what the resolver of references remembers. -/
structure RowContext (σ : Type) where
  scope : NormalizationScope
  source : NormalizationSource
  directory : DirectoryIndex
  resolveReference : σ → ReferenceKind → JsString → JsString × σ

inductive SubjectBindingMethod
  | directoryObjectId | normalizedUpn
  deriving DecidableEq

structure NormalizedEvent extends NormalizationScope where
  source : NormalizationSource
  eventId : JsString
  eventAt : JsString
  ingestedAt : JsString
  subjectRef : JsString
  subjectBinding : SubjectBindingMethod
  applicationRef : JsString
  errorCode : Option Int
  clientSource : ClientSource
  classification : EventClassification

structure NormalizedRow where
  event : NormalizedEvent
  microsoftUserId : JsString
  verdict : Option MicrosoftVerdict

/-- The record that the feed put into a row. -/
def rowRecord (source : NormalizationSource) (raw : Json) : Json :=
  match source with
  | .graphSignIns => raw
  | .m365AuditSts => (child raw (.key (js "managementActivityRecord"))).getD .null

/-- Why an audit record is not one that is read. -/
def unsupported (source : NormalizationSource) (scope : NormalizationScope) (record : Json) :
    Option UnprocessableReason :=
  match source with
  | .graphSignIns => none
  | .m365AuditSts =>
    if record.shape ≠ .object then some .rawPayloadMalformed
    else if !(seen record (js "OrganizationId") == none ||
        Auth.isString (seen record (js "OrganizationId")) scope.microsoftTenantId) then
      some .tenantBindingMismatch
    else if !(Auth.isNumber (seen record (js "RecordType")) (js "15") &&
        (Auth.isString (seen record (js "Operation")) (js "UserLoggedIn") ||
          Auth.isString (seen record (js "Operation")) (js "UserLoginFailed"))) then
      some .unsupportedAuditOperation
    else none

def eventIdOf (source : NormalizationSource) (record : Json) : Option JsString :=
  textAt (seen record (match source with
    | .graphSignIns => js "id"
    | .m365AuditSts => js "Id"))

def eventAtOf (source : NormalizationSource) (record : Json) : Option Int :=
  match source with
  | .graphSignIns => utcMillis .required (seen record (js "createdDateTime"))
  | .m365AuditSts => utcMillis .mayBeAbsent (seen record (js "CreationTime"))

structure SubjectBinding where
  microsoftUserId : JsString
  method : SubjectBindingMethod

def bindGraphSubject (record : Json) (directory : DirectoryIndex) :
    Except UnprocessableReason SubjectBinding :=
  match guidAt (seen record (js "userId")) with
  | none => .error .subjectIdAbsentOrMalformed
  | some id =>
    match directory.byObjectId id with
    | .none => .error .subjectNotInDirectory
    | .many => .error .subjectAmbiguousInDirectory
    | .one user => .ok ⟨user, .directoryObjectId⟩

def bindAuditSubject (record : Json) (directory : DirectoryIndex) :
    Except UnprocessableReason SubjectBinding :=
  match (textAt (seen record (js "UserId"))).filter fun s => upn s.trim with
  | none => .error .subjectUpnAbsentOrMalformed
  | some name =>
    match directory.byUpn name with
    | .none => .error .subjectUpnNotInDirectory
    | .many => .error .subjectUpnAmbiguousInDirectory
    | .one user => .ok ⟨user, .normalizedUpn⟩

def bindSubject (source : NormalizationSource) (record : Json) (directory : DirectoryIndex) :
    Except UnprocessableReason SubjectBinding :=
  match source with
  | .graphSignIns => bindGraphSubject record directory
  | .m365AuditSts => bindAuditSubject record directory

def applicationIdentifier (source : NormalizationSource) (record : Json) : Option JsString :=
  match source with
  | .graphSignIns => guidAt (seen record (js "appId"))
  | .m365AuditSts => (guidAt (seen record (js "ApplicationId"))).or
      (textAt (seen record (js "Application")))

def classify (f : ProviderFacts) (source : NormalizationSource) (record : Json) : Classified :=
  match source with
  | .graphSignIns => classifyGraphRecord f record
  | .m365AuditSts =>
    let (classification, errorCode) := classifyAuditRecord f record
    ⟨classification, errorCode.map fun n => (n : Int), none⟩

def clientSource (p : Auth.Platform) (source : NormalizationSource) (record : Json) :
    ClientSource :=
  match source with
  | .graphSignIns => qualifyClient p [seen record (js "ipAddress")]
  | .m365AuditSts =>
    qualifyClient p [seen record (js "ClientIP"), seen record (js "ActorIpAddress")]

/-- A reference, or the reason for which there is none. -/
def reference (outcome : JsString) : Except UnprocessableReason JsString :=
  if outcome = js "BUDGET" then .error .referenceBudgetExceeded
  else if outcome = js "UNAVAILABLE" then .error .referenceUnavailable
  else .ok outcome

/-- What is read of a row before any reference is resolved. -/
structure Readable where
  eventId : JsString
  eventAt : Int
  ingestedAt : Int
  binding : SubjectBinding
  application : JsString

def marked (raw : Json) : Bool := (seen raw (js "hawkviewAuthenticationIntegrity")).isSome

def readRecord {σ : Type} (ingestedAt : Int) (record : Json) (c : RowContext σ) :
    Except UnprocessableReason Readable :=
  match unsupported c.source c.scope record with
  | some reason => .error reason
  | none =>
    match eventIdOf c.source record with
    | none => .error .eventIdAbsentOrMalformed
    | some eventId =>
      match eventAtOf c.source record with
      | none => .error .eventTimestampInvalid
      | some eventAt =>
        if ingestedAt < eventAt then .error .ingestionPrecedesEvent
        else do
          let binding ← bindSubject c.source record c.directory
          match applicationIdentifier c.source record with
          | none => .error .applicationIdAbsentOrMalformed
          | some application => .ok { eventId, eventAt, ingestedAt, binding, application }

def readRow {σ : Type} (ingestedAt : Option Int) (raw : Json) (c : RowContext σ) :
    Except UnprocessableReason Readable :=
  match ingestedAt with
  | none => .error .ingestionTimestampInvalid
  | some ingestedAt =>
    if marked raw then .error .integrityDisputed
    else readRecord ingestedAt (rowRecord c.source raw) c

/-- The normalized row or the reason for setting it aside, and what the resolver remembers. -/
def normalizeRow {σ : Type} (p : Auth.Platform) (f : ProviderFacts) (ingestedAt : Option Int)
    (raw : Json) (c : RowContext σ) (s : σ) : Except UnprocessableReason NormalizedRow × σ :=
  match readRow ingestedAt raw c with
  | .error reason => (.error reason, s)
  | .ok r =>
    let (subject, s) := c.resolveReference s .subject r.binding.microsoftUserId
    match reference subject with
    | .error reason => (.error reason, s)
    | .ok subjectRef =>
      let (application, s) := c.resolveReference s .application r.application
      match reference application with
      | .error reason => (.error reason, s)
      | .ok applicationRef =>
        let record := rowRecord c.source raw
        let classified := classify f c.source record
        let event : NormalizedEvent := {
          toNormalizationScope := c.scope
          source := c.source
          eventId := r.eventId
          eventAt := IsoTime.toISOString r.eventAt
          ingestedAt := IsoTime.toISOString r.ingestedAt
          subjectRef
          subjectBinding := r.binding.method
          applicationRef
          errorCode := classified.errorCode
          clientSource := clientSource p c.source record
          classification := classified.classification }
        (.ok ⟨event, r.binding.microsoftUserId, classified.verdict⟩, s)

/-- The row without the judgement of Microsoft. -/
def NormalizedRow.unjudged (r : NormalizedRow) : NormalizedRow := { r with verdict := none }

end Normalization
