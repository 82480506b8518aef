import HawkView.Lib.IsoTime
import HawkView.Lib.JsMap
import HawkView.Lib.JsonNumber
import HawkView.Lib.JsonText

/-!
# Candidates of the identity rules

A candidate is what one rule is asked about. It is read from a JSON value that
has the fields of its rule, each of them well formed, and no other.
-/

namespace IdentitySignal

open Json

/-! ## The rules -/

inductive IdentitySignalRuleId
  | exp001 | exp002 | exp003
  | chg001 | chg002 | chg003 | chg004 | chg005
  | app001 | app002
  | mbx001 | mbx002 | mbx003
  | auth001 | auth002 | auth003 | auth004 | auth005 | auth006 | auth007 | auth008 | auth009
  deriving DecidableEq, Repr

def IdentitySignalRuleId.text : IdentitySignalRuleId → JsString
  | .exp001 => js "HV-ID-EXP-001.v1"
  | .exp002 => js "HV-ID-EXP-002.v1"
  | .exp003 => js "HV-ID-EXP-003.v1"
  | .chg001 => js "HV-ID-CHG-001.v1"
  | .chg002 => js "HV-ID-CHG-002.v1"
  | .chg003 => js "HV-ID-CHG-003.v1"
  | .chg004 => js "HV-ID-CHG-004.v1"
  | .chg005 => js "HV-ID-CHG-005.v1"
  | .app001 => js "HV-ID-APP-001.v1"
  | .app002 => js "HV-ID-APP-002.v1"
  | .mbx001 => js "HV-ID-MBX-001.v1"
  | .mbx002 => js "HV-ID-MBX-002.v1"
  | .mbx003 => js "HV-ID-MBX-003.v1"
  | .auth001 => js "HV-ID-AUTH-001.v1"
  | .auth002 => js "HV-ID-AUTH-002.v1"
  | .auth003 => js "HV-ID-AUTH-003.v1"
  | .auth004 => js "HV-ID-AUTH-004.v1"
  | .auth005 => js "HV-ID-AUTH-005.v1"
  | .auth006 => js "HV-ID-AUTH-006.v1"
  | .auth007 => js "HV-ID-AUTH-007.v1"
  | .auth008 => js "HV-ID-AUTH-008.v1"
  | .auth009 => js "HV-ID-AUTH-009.v1"

/-- `IDENTITY_SIGNAL_RULE_IDS`. -/
def ruleIds : List IdentitySignalRuleId :=
  [.exp001, .exp002, .exp003, .chg001, .chg002, .chg003, .chg004, .chg005, .app001, .app002,
    .mbx001, .mbx002, .mbx003, .auth001, .auth002, .auth003, .auth004, .auth005, .auth006,
    .auth007, .auth008, .auth009]

/-- The member of a closed vocabulary that a text names. -/
def ofText {α : Type} (text : α → JsString) (all : List α) (s : JsString) : Option α :=
  all.find? fun a => text a = s

def ruleIdOf (value : Option Json) : Option IdentitySignalRuleId :=
  (textOf value).bind (ofText IdentitySignalRuleId.text ruleIds)

/-! ## Texts -/

/-- `parseCanonicalIdentityTimestamp`. -/
def parseTime (s : JsString) : Option Int :=
  if IsoTime.Canonical s then IsoTime.utcTime s else none

/-- Not empty, not longer than a bound, and without a control character. -/
def isBoundedText (maximum : Nat) (s : JsString) : Bool :=
  !s.isEmpty && decide (s.length ≤ maximum) && s.all fun c => decide (0x20 ≤ c ∧ c ≠ 0x7F)

def isLower (c : UInt16) : Bool := decide (0x61 ≤ c ∧ c ≤ 0x7A)

def isUpper (c : UInt16) : Bool := decide (0x41 ≤ c ∧ c ≤ 0x5A)

def isDecimal (c : UInt16) : Bool := decide (0x30 ≤ c ∧ c ≤ 0x39)

def isAlphanumeric (c : UInt16) : Bool := isLower c || isUpper c || isDecimal c

def isHexadecimal (c : UInt16) : Bool := isDecimal c || decide (0x61 ≤ c ∧ c ≤ 0x66)

/-- The kind of a reference `hvr1_<kind>_<64 hexadecimal digits>`. -/
def referenceKind (s : JsString) : Option JsString :=
  if JsString.startsWith s (js "hvr1_") then
    let kind := (s.drop 5).takeWhile isLower
    let rest := (s.drop 5).dropWhile isLower
    if decide (2 ≤ kind.length ∧ kind.length ≤ 24) && rest.length == 65 && rest.head? == some 0x5F &&
        rest.tail.all isHexadecimal then some kind
    else none
  else none

/-- `PLATFORM_REFERENCE_KINDS`. -/
def referenceKinds : List JsString :=
  [js "org", js "tenant", js "subject", js "evidence", js "event", js "actor", js "application",
    js "mailbox", js "source", js "context", js "reviewer", js "device", js "property",
    js "contribution", js "baseline", js "audit", js "checkpoint", js "observation"]

def isOpaqueIdentityReference (maximum : Nat) (s : JsString) : Bool :=
  isBoundedText maximum s && (referenceKind s).any fun kind => referenceKinds.contains kind

/-- What no value of a catalog may hold, in any case. -/
def secretWords : List JsString :=
  [js "bearer", js "password", js "passwd", js "secret", js "token", js "signature", js "sig",
    js "oauth", js "authorization", js "code", js "apikey", js "api_key", js "api-key",
    js "credential", js "cookie", js "supabase", js "microsoft", js "entra", js "exchange",
    js "resend", js "amazonses", js "amazonaws", js "google", js "http"]

def isCatalogValue (s : JsString) : Bool :=
  isBoundedText 128 s && s.head?.any isAlphanumeric &&
    (s.all fun c => isAlphanumeric c || c ∈ [0x2E, 0x5F, 0x3A, 0x2D]) &&
    !secretWords.any fun word => JsString.includes (JsString.lowerLatin s) word

/-! ## Reading a field -/

/-- No name but those that are allowed. -/
def hasOnlyDataKeys (fields : List (JsString × Json)) (allowed : List JsString) : Bool :=
  fields.all fun e => allowed.contains e.1

/-- The fields of an object that has no others. -/
def recordOf (allowed : List JsString) (value : Option Json) : Option (List (JsString × Json)) :=
  (fieldsOf value).filter fun fields => hasOnlyDataKeys fields allowed

/-- A text that passes a check. -/
def checkedText (check : JsString → Bool) (value : Option Json) : Option JsString :=
  (textOf value).filter check

def timestamp : Option Json → Option JsString := checkedText fun s => (parseTime s).isSome

def reference : Option Json → Option JsString := checkedText (isOpaqueIdentityReference 256)

def catalogValue : Option Json → Option JsString := checkedText isCatalogValue

/-- A catalog value in lower case. -/
def lowerValue : Option Json → Option JsString :=
  checkedText fun s => isCatalogValue s && JsString.lowerLatin s == s

/-- `isNonNegativeInteger`. -/
def wholeNumber (value : Option Json) : Option Nat := (countOf value).filter fun n => n < 2 ^ 53

/-- `isFiniteNumber`. -/
def finiteNumber (value : Option Json) : Option JsNumber := numberOf value

def enumOf {α : Type} (text : α → JsString) (all : List α) (value : Option Json) : Option α :=
  (textOf value).bind (ofText text all)

/-- A field that may be left out. -/
def optional {α : Type} (read : Option Json → Option α) : Option Json → Option (Option α)
  | none => some none
  | some v => (read (some v)).map some

/-- A field that may be `null`. -/
def nullable {α : Type} (read : Option Json → Option α) : Option Json → Option (Option α)
  | some .null => some none
  | value => (read value).map some

def listOf {α : Type} (limit : Nat) (read : Json → Option α) (value : Option Json) :
    Option (List α) :=
  ((itemsOf value).filter fun items => items.length ≤ limit).bind fun items => items.mapM read

def textsOf (limit : Nat) (check : JsString → Bool) : Option Json → Option (List JsString) :=
  listOf limit fun item => checkedText check (some item)

/-! ## What candidates have in common -/

inductive SubjectType
  | user | application | mailbox | tenant | source
  deriving DecidableEq, Repr

def SubjectType.text : SubjectType → JsString
  | .user => js "USER"
  | .application => js "APPLICATION"
  | .mailbox => js "MAILBOX"
  | .tenant => js "TENANT"
  | .source => js "SOURCE"

structure IdentitySignalSubject where
  type : SubjectType
  opaqueId : JsString
  deriving DecidableEq

structure EvidenceRequirement where
  observedAt : JsString
  maxAgeHours : JsNumber
  deriving DecidableEq

inductive EvidenceState
  | complete | incomplete | capped | malformed | unavailable
  deriving DecidableEq, Repr

def EvidenceState.text : EvidenceState → JsString
  | .complete => js "COMPLETE"
  | .incomplete => js "PARTIAL"
  | .capped => js "CAPPED"
  | .malformed => js "MALFORMED"
  | .unavailable => js "UNAVAILABLE"

structure CandidateBase where
  subject : IdentitySignalSubject
  evidenceReferences : List JsString
  evidence : List EvidenceRequirement
  evidenceState : EvidenceState
  requiresFullCapability : Option Bool
  deriving DecidableEq

def readSubject (value : Option Json) : Option IdentitySignalSubject := do
  let fields ← recordOf [js "type", js "opaqueId"] value
  let type ← enumOf SubjectType.text [.user, .application, .mailbox, .tenant, .source]
    (fields.lookup (js "type"))
  let opaqueId ← checkedText (isOpaqueIdentityReference 160) (fields.lookup (js "opaqueId"))
  some ⟨type, opaqueId⟩

def readEvidence (item : Json) : Option EvidenceRequirement := do
  let fields ← recordOf [js "observedAt", js "maxAgeHours"] (some item)
  let observedAt ← timestamp (fields.lookup (js "observedAt"))
  let maxAgeHours ← finiteNumber (fields.lookup (js "maxAgeHours"))
  some ⟨observedAt, maxAgeHours⟩

def readBase (fields : List (JsString × Json)) : Option CandidateBase := do
  let subject ← readSubject (fields.lookup (js "subject"))
  let evidenceReferences ← textsOf 32 (isOpaqueIdentityReference 256)
    (fields.lookup (js "evidenceReferences"))
  let evidence ← listOf 128 readEvidence (fields.lookup (js "evidence"))
  let evidenceState ← enumOf EvidenceState.text
    [.complete, .incomplete, .capped, .malformed, .unavailable] (fields.lookup (js "evidenceState"))
  let requiresFullCapability ← optional boolOf (fields.lookup (js "requiresFullCapability"))
  some ⟨subject, evidenceReferences, evidence, evidenceState, requiresFullCapability⟩

/-! ## Baselines -/

inductive BaselineStatus
  | learning | mature | unavailable
  deriving DecidableEq, Repr

def BaselineStatus.text : BaselineStatus → JsString
  | .learning => js "LEARNING"
  | .mature => js "MATURE"
  | .unavailable => js "UNAVAILABLE"

structure Frequency where
  events : Nat
  days : Nat
  deriving DecidableEq

structure BehaviorBaseline where
  status : BaselineStatus
  activeDays : Nat
  successfulInteractiveSignIns : Nat
  propertyFrequency : Option (List (JsString × Frequency))
  deriving DecidableEq

/-- What stands before the first colon, and what after it. -/
def splitColon (s : JsString) : Option (JsString × JsString) :=
  if s.contains 0x3A then
    some (s.takeWhile (fun c => c != 0x3A), (s.dropWhile fun c => c != 0x3A).tail)
  else none

def isBaselineFrequencyKey (key : JsString) : Bool :=
  (splitColon key).any fun (group, property) =>
    if group = js "country" then property.length == 2 && property.all isUpper
    else if group = js "asn" then
      decide (1 ≤ property.length ∧ property.length ≤ 10) && property.all isDecimal
    else if group = js "client" then isCatalogValue property
    else if group = js "device" ∨ group = js "app" then isOpaqueIdentityReference 256 property
    else false

def readFrequency (entry : JsString × Json) : Option (JsString × Frequency) := do
  let key ← (some entry.1).filter fun key => decide (key.length ≤ 160) && isBaselineFrequencyKey key
  let fields ← recordOf [js "events", js "days"] (some entry.2)
  let events ← wholeNumber (fields.lookup (js "events"))
  let days ← wholeNumber (fields.lookup (js "days"))
  some (key, ⟨events, days⟩)

def readFrequencies (value : Option Json) : Option (List (JsString × Frequency)) :=
  ((fieldsOf value).filter fun fields => fields.length ≤ 128).bind fun fields =>
    fields.mapM readFrequency

def readBaseline (value : Option Json) : Option BehaviorBaseline := do
  let fields ← recordOf [js "status", js "activeDays", js "successfulInteractiveSignIns",
    js "propertyFrequency"] value
  let status ← enumOf BaselineStatus.text [.learning, .mature, .unavailable]
    (fields.lookup (js "status"))
  let activeDays ← wholeNumber (fields.lookup (js "activeDays"))
  let signIns ← wholeNumber (fields.lookup (js "successfulInteractiveSignIns"))
  let propertyFrequency ← optional readFrequencies (fields.lookup (js "propertyFrequency"))
  some ⟨status, activeDays, signIns, propertyFrequency⟩

/-! ## Events -/

inductive AuthOutcome
  | success | failure | mfaDenied | mfaTimeout
  deriving DecidableEq, Repr

def AuthOutcome.text : AuthOutcome → JsString
  | .success => js "SUCCESS"
  | .failure => js "FAILURE"
  | .mfaDenied => js "MFA_DENIED"
  | .mfaTimeout => js "MFA_TIMEOUT"

structure AuthEvent where
  id : JsString
  occurredAt : JsString
  outcome : AuthOutcome
  interactive : Bool
  subjectId : JsString
  sourceFingerprint : Option JsString
  sourceAsn : Option Nat
  appId : Option JsString
  client : Option JsString
  deviceFingerprint : Option JsString
  deriving DecidableEq

/-- A privileged change, as `HV-ID-CHG-003.v1` counts them. -/
structure ChangeEvent where
  id : JsString
  occurredAt : JsString
  actorId : JsString
  operation : JsString
  succeeded : Bool
  deriving DecidableEq

def readAuthEvent (item : Json) : Option AuthEvent := do
  let fields ← recordOf [js "id", js "occurredAt", js "outcome", js "interactive", js "subjectId",
    js "sourceFingerprint", js "sourceAsn", js "appId", js "client", js "deviceFingerprint"]
    (some item)
  let id ← reference (fields.lookup (js "id"))
  let occurredAt ← timestamp (fields.lookup (js "occurredAt"))
  let outcome ← enumOf AuthOutcome.text [.success, .failure, .mfaDenied, .mfaTimeout]
    (fields.lookup (js "outcome"))
  let interactive ← boolOf (fields.lookup (js "interactive"))
  let subjectId ← reference (fields.lookup (js "subjectId"))
  let sourceFingerprint ← optional reference (fields.lookup (js "sourceFingerprint"))
  let sourceAsn ← optional wholeNumber (fields.lookup (js "sourceAsn"))
  let appId ← optional reference (fields.lookup (js "appId"))
  let client ← optional lowerValue (fields.lookup (js "client"))
  let deviceFingerprint ← optional reference (fields.lookup (js "deviceFingerprint"))
  some ⟨id, occurredAt, outcome, interactive, subjectId, sourceFingerprint, sourceAsn, appId,
    client, deviceFingerprint⟩

def readChangeEvent (item : Json) : Option ChangeEvent := do
  let fields ← recordOf [js "id", js "occurredAt", js "actorId", js "operation", js "succeeded"]
    (some item)
  let id ← reference (fields.lookup (js "id"))
  let occurredAt ← timestamp (fields.lookup (js "occurredAt"))
  let actorId ← reference (fields.lookup (js "actorId"))
  let operation ← catalogValue (fields.lookup (js "operation"))
  let succeeded ← boolOf (fields.lookup (js "succeeded"))
  some ⟨id, occurredAt, actorId, operation, succeeded⟩

def orNull (s : Option JsString) : Json := (s.map Json.string).getD .null

def AuthEvent.fingerprint (event : AuthEvent) : JsString :=
  stringify (.array [.string event.id, .string event.occurredAt, .string event.outcome.text,
    .bool event.interactive, .string event.subjectId, orNull event.sourceFingerprint,
    (event.sourceAsn.map ofCount).getD .null, orNull event.appId, orNull event.client,
    orNull event.deviceFingerprint])

def ChangeEvent.fingerprint (event : ChangeEvent) : JsString :=
  stringify (.array [.string event.id, .string event.occurredAt, .string event.actorId,
    .string event.operation, .bool event.succeeded])

/-- The loop over the entries, each of which is `(id, fingerprint)`. -/
def duplicateIdsAreIdentical (entries : List (JsString × JsString)) : Bool :=
  (entries.foldlM (fun (seen : JsMap JsString JsString) entry =>
    if (seen.get? entry.1).any fun previous => previous != entry.2 then none
    else some (seen.set entry.1 entry.2)) .empty).isSome

/-- `validAuthEvents`. -/
def readAuthEvents (value : Option Json) : Option (List AuthEvent) :=
  (listOf 2048 readAuthEvent value).filter fun events =>
    duplicateIdsAreIdentical (events.map fun event => (event.id, event.fingerprint))

def readChangeEvents (value : Option Json) : Option (List ChangeEvent) :=
  (listOf 2048 readChangeEvent value).filter fun events =>
    duplicateIdsAreIdentical (events.map fun event => (event.id, event.fingerprint))

/-! ## What each rule is asked about -/

inductive EffectiveMfa
  | enforced | notEnforced | unknown
  deriving DecidableEq, Repr

def EffectiveMfa.text : EffectiveMfa → JsString
  | .enforced => js "ENFORCED"
  | .notEnforced => js "NOT_ENFORCED"
  | .unknown => js "UNKNOWN"

inductive UserType
  | member | guest | unknown
  deriving DecidableEq, Repr

def UserType.text : UserType → JsString
  | .member => js "MEMBER"
  | .guest => js "GUEST"
  | .unknown => js "UNKNOWN"

inductive Lifecycle
  | created | reEnabled
  deriving DecidableEq, Repr

def Lifecycle.text : Lifecycle → JsString
  | .created => js "CREATED"
  | .reEnabled => js "RE_ENABLED"

inductive ConfigurationChange
  | securityDefaults | mfaPolicy | strongGrant
  deriving DecidableEq, Repr

def ConfigurationChange.text : ConfigurationChange → JsString
  | .securityDefaults => js "SECURITY_DEFAULTS"
  | .mfaPolicy => js "MFA_POLICY"
  | .strongGrant => js "STRONG_GRANT"

inductive Completeness
  | complete | incomplete | unavailable
  deriving DecidableEq, Repr

def Completeness.text : Completeness → JsString
  | .complete => js "COMPLETE"
  | .incomplete => js "INCOMPLETE"
  | .unavailable => js "UNAVAILABLE"

inductive Severity
  | low | medium | high | critical
  deriving DecidableEq, Repr

def Severity.text : Severity → JsString
  | .low => js "LOW"
  | .medium => js "MEDIUM"
  | .high => js "HIGH"
  | .critical => js "CRITICAL"

/-- A setting that is on, off or of a named value. -/
inductive Setting
  | flag (b : Bool)
  | named (s : JsString)
  deriving DecidableEq

structure RuleActions where
  delete : Bool
  permanentDelete : Bool
  moveTarget : Bool
  markAsRead : Bool
  stopProcessing : Bool
  deriving DecidableEq

structure SignInProperties where
  country : Option JsString
  asn : Option Nat
  device : Option JsString
  client : Option JsString
  app : Option JsString
  deriving DecidableEq

structure SignInPoint where
  occurredAt : JsString
  latitude : JsNumber
  longitude : JsNumber
  sourceFingerprint : Option JsString
  deriving DecidableEq

inductive RuleFields
  | exp001 (privileged enabled : Bool) (effectiveMfa : EffectiveMfa)
  | exp002 (privileged enabled : Bool) (userType : UserType)
  | exp003 (privileged enabled : Bool) (baseline : BehaviorBaseline)
      (lastSuccessfulInteractiveSignInAt : Option JsString)
  | chg001 (lifecycle : Lifecycle) (lifecycleAt privilegeAt privilegeOperation : JsString)
      (privilegeSucceeded : Bool)
  | chg002 (userType : UserType) (authoritativeCreatedAt : Option JsString)
      (privilegeAt privilegeOperation : JsString) (privilegeSucceeded : Bool)
  | chg003 (anchorAt actorId : JsString) (events : List ChangeEvent)
  | chg004 (operation : JsString) (actorBaselineEvents tenantBaselineEvents actorOperationCount
      tenantOperationCount baselineActiveDays : Nat) (succeeded : Bool)
  | chg005 (change : ConfigurationChange) (before after : Setting) (succeeded : Bool)
  | app001 (declaredPermissions : List JsString) (authoritativeCreatedAt : Option JsString)
      (observedAt : JsString)
  | app002 (applicationPermissionIds : List JsString)
      (credentialMetadataChanged authoritativeComparable succeeded : Bool)
  | mbx001 (enabled : Bool) (recipientAddresses verifiedAcceptedDomains : List JsString)
  | mbx002 (enabled : Bool) (conditionsCompleteness actionsCompleteness : Completeness)
      (populatedConditionCount populatedExceptionCount : Nat) (actions : RuleActions)
  | mbx003 (projectionComplete : Bool) (mailboxChangeAt independentSignInAt : JsString)
      (independentSignInRuleId : IdentitySignalRuleId) (baseSeverity : Severity)
  | auth001 (disabledAt activityAt : JsString) (succeeded : Bool)
  | auth002 (baseline : BehaviorBaseline) (eventAt : JsString)
      (lastSuccessfulInteractiveSignInAt : Option JsString) (successfulInteractive : Bool)
  | auth003 (baseline : BehaviorBaseline) (properties : SignInProperties)
      (sourceFingerprint : Option JsString)
  | auth004 (baseline : BehaviorBaseline) (previous current : SignInPoint)
  | auth005 (events : List AuthEvent)
  | auth006 (events : List AuthEvent) (normalizedMfaDetailComplete : Bool)
  | auth007 (privileged succeeded : Bool) (client : JsString)
  | auth008 (events : List AuthEvent) (tenantWideComplete : Bool)
  | auth009 (successfulInteractive : Bool) (occurredAt : JsString)

def RuleFields.ruleId : RuleFields → IdentitySignalRuleId
  | .exp001 .. => .exp001
  | .exp002 .. => .exp002
  | .exp003 .. => .exp003
  | .chg001 .. => .chg001
  | .chg002 .. => .chg002
  | .chg003 .. => .chg003
  | .chg004 .. => .chg004
  | .chg005 .. => .chg005
  | .app001 .. => .app001
  | .app002 .. => .app002
  | .mbx001 .. => .mbx001
  | .mbx002 .. => .mbx002
  | .mbx003 .. => .mbx003
  | .auth001 .. => .auth001
  | .auth002 .. => .auth002
  | .auth003 .. => .auth003
  | .auth004 .. => .auth004
  | .auth005 .. => .auth005
  | .auth006 .. => .auth006
  | .auth007 .. => .auth007
  | .auth008 .. => .auth008
  | .auth009 .. => .auth009

/-- `RULE_FIELDS`. -/
def ruleFields : IdentitySignalRuleId → List JsString
  | .exp001 => [js "privileged", js "enabled", js "effectiveMfa"]
  | .exp002 => [js "privileged", js "enabled", js "userType"]
  | .exp003 => [js "privileged", js "enabled", js "baseline",
      js "lastSuccessfulInteractiveSignInAt"]
  | .chg001 => [js "lifecycle", js "lifecycleAt", js "privilegeAt", js "privilegeOperation",
      js "privilegeSucceeded"]
  | .chg002 => [js "userType", js "authoritativeCreatedAt", js "privilegeAt",
      js "privilegeOperation", js "privilegeSucceeded"]
  | .chg003 => [js "anchorAt", js "actorId", js "events"]
  | .chg004 => [js "operation", js "actorBaselineEvents", js "tenantBaselineEvents",
      js "actorOperationCount", js "tenantOperationCount", js "baselineActiveDays",
      js "succeeded"]
  | .chg005 => [js "change", js "before", js "after", js "succeeded"]
  | .app001 => [js "declaredPermissions", js "authoritativeCreatedAt", js "observedAt"]
  | .app002 => [js "applicationPermissionIds", js "credentialMetadataChanged",
      js "authoritativeComparable", js "succeeded"]
  | .mbx001 => [js "enabled", js "recipientAddresses", js "verifiedAcceptedDomains"]
  | .mbx002 => [js "enabled", js "conditionsCompleteness", js "actionsCompleteness",
      js "populatedConditionCount", js "populatedExceptionCount", js "actions"]
  | .mbx003 => [js "projectionComplete", js "mailboxChangeAt", js "independentSignInAt",
      js "independentSignInRuleId", js "baseSeverity"]
  | .auth001 => [js "disabledAt", js "activityAt", js "outcome"]
  | .auth002 => [js "baseline", js "eventAt", js "lastSuccessfulInteractiveSignInAt",
      js "successfulInteractive"]
  | .auth003 => [js "baseline", js "properties", js "sourceFingerprint"]
  | .auth004 => [js "baseline", js "previous", js "current"]
  | .auth005 => [js "events"]
  | .auth006 => [js "events", js "normalizedMfaDetailComplete"]
  | .auth007 => [js "privileged", js "succeeded", js "client"]
  | .auth008 => [js "events", js "tenantWideComplete"]
  | .auth009 => [js "successfulInteractive", js "occurredAt"]

def userTypeOf : Option Json → Option UserType := enumOf UserType.text [.member, .guest, .unknown]

def completenessOf : Option Json → Option Completeness :=
  enumOf Completeness.text [.complete, .incomplete, .unavailable]

def readSetting (value : Option Json) : Option Setting :=
  match boolOf value with
  | some b => some (.flag b)
  | none => (catalogValue value).map .named

def readActions (value : Option Json) : Option RuleActions := do
  let fields ← recordOf [js "delete", js "permanentDelete", js "moveTarget", js "markAsRead",
    js "stopProcessing"] value
  let delete ← boolOf (fields.lookup (js "delete"))
  let permanentDelete ← boolOf (fields.lookup (js "permanentDelete"))
  let moveTarget ← boolOf (fields.lookup (js "moveTarget"))
  let markAsRead ← boolOf (fields.lookup (js "markAsRead"))
  let stopProcessing ← boolOf (fields.lookup (js "stopProcessing"))
  some ⟨delete, permanentDelete, moveTarget, markAsRead, stopProcessing⟩

def readProperties (value : Option Json) : Option SignInProperties := do
  let fields ← recordOf [js "country", js "asn", js "device", js "client", js "app"] value
  let country ← optional (checkedText fun s => s.length == 2 && s.all fun c => isLower c || isUpper c)
    (fields.lookup (js "country"))
  let asn ← optional wholeNumber (fields.lookup (js "asn"))
  let device ← optional reference (fields.lookup (js "device"))
  let client ← optional catalogValue (fields.lookup (js "client"))
  let app ← optional reference (fields.lookup (js "app"))
  some ⟨country, asn, device, client, app⟩

def readPoint (value : Option Json) : Option SignInPoint := do
  let fields ← recordOf [js "occurredAt", js "latitude", js "longitude", js "sourceFingerprint"] value
  let occurredAt ← timestamp (fields.lookup (js "occurredAt"))
  let latitude ← finiteNumber (fields.lookup (js "latitude"))
  let longitude ← finiteNumber (fields.lookup (js "longitude"))
  let sourceFingerprint ← optional reference (fields.lookup (js "sourceFingerprint"))
  some ⟨occurredAt, latitude, longitude, sourceFingerprint⟩

/-- A domain as it may be listed: letters, digits, dots and hyphens. -/
def isDomainText (s : JsString) : Bool :=
  isBoundedText 253 s && s.all fun c => isAlphanumeric c || c == 0x2E || c == 0x2D

/-- `validRuleCandidate`. -/
def readRule (fields : List (JsString × Json)) : IdentitySignalRuleId → Option RuleFields
  | .exp001 => do
    let privileged ← boolOf (fields.lookup (js "privileged"))
    let enabled ← boolOf (fields.lookup (js "enabled"))
    let effectiveMfa ← enumOf EffectiveMfa.text [.enforced, .notEnforced, .unknown]
      (fields.lookup (js "effectiveMfa"))
    some (.exp001 privileged enabled effectiveMfa)
  | .exp002 => do
    let privileged ← boolOf (fields.lookup (js "privileged"))
    let enabled ← boolOf (fields.lookup (js "enabled"))
    let userType ← userTypeOf (fields.lookup (js "userType"))
    some (.exp002 privileged enabled userType)
  | .exp003 => do
    let privileged ← boolOf (fields.lookup (js "privileged"))
    let enabled ← boolOf (fields.lookup (js "enabled"))
    let baseline ← readBaseline (fields.lookup (js "baseline"))
    let last ← nullable timestamp (fields.lookup (js "lastSuccessfulInteractiveSignInAt"))
    some (.exp003 privileged enabled baseline last)
  | .chg001 => do
    let lifecycle ← enumOf Lifecycle.text [.created, .reEnabled] (fields.lookup (js "lifecycle"))
    let lifecycleAt ← timestamp (fields.lookup (js "lifecycleAt"))
    let privilegeAt ← timestamp (fields.lookup (js "privilegeAt"))
    let privilegeOperation ← catalogValue (fields.lookup (js "privilegeOperation"))
    let privilegeSucceeded ← boolOf (fields.lookup (js "privilegeSucceeded"))
    some (.chg001 lifecycle lifecycleAt privilegeAt privilegeOperation privilegeSucceeded)
  | .chg002 => do
    let userType ← userTypeOf (fields.lookup (js "userType"))
    let authoritativeCreatedAt ← nullable timestamp (fields.lookup (js "authoritativeCreatedAt"))
    let privilegeAt ← timestamp (fields.lookup (js "privilegeAt"))
    let privilegeOperation ← catalogValue (fields.lookup (js "privilegeOperation"))
    let privilegeSucceeded ← boolOf (fields.lookup (js "privilegeSucceeded"))
    some (.chg002 userType authoritativeCreatedAt privilegeAt privilegeOperation privilegeSucceeded)
  | .chg003 => do
    let anchorAt ← timestamp (fields.lookup (js "anchorAt"))
    let actorId ← reference (fields.lookup (js "actorId"))
    let events ← readChangeEvents (fields.lookup (js "events"))
    some (.chg003 anchorAt actorId events)
  | .chg004 => do
    let operation ← catalogValue (fields.lookup (js "operation"))
    let actorBaselineEvents ← wholeNumber (fields.lookup (js "actorBaselineEvents"))
    let tenantBaselineEvents ← wholeNumber (fields.lookup (js "tenantBaselineEvents"))
    let actorOperationCount ← wholeNumber (fields.lookup (js "actorOperationCount"))
    let tenantOperationCount ← wholeNumber (fields.lookup (js "tenantOperationCount"))
    let baselineActiveDays ← wholeNumber (fields.lookup (js "baselineActiveDays"))
    let succeeded ← boolOf (fields.lookup (js "succeeded"))
    some (.chg004 operation actorBaselineEvents tenantBaselineEvents actorOperationCount
      tenantOperationCount baselineActiveDays succeeded)
  | .chg005 => do
    let change ← enumOf ConfigurationChange.text [.securityDefaults, .mfaPolicy, .strongGrant]
      (fields.lookup (js "change"))
    let before ← readSetting (fields.lookup (js "before"))
    let after ← readSetting (fields.lookup (js "after"))
    let succeeded ← boolOf (fields.lookup (js "succeeded"))
    some (.chg005 change before after succeeded)
  | .app001 => do
    let declaredPermissions ← textsOf 2048 isCatalogValue (fields.lookup (js "declaredPermissions"))
    let authoritativeCreatedAt ← nullable timestamp (fields.lookup (js "authoritativeCreatedAt"))
    let observedAt ← timestamp (fields.lookup (js "observedAt"))
    some (.app001 declaredPermissions authoritativeCreatedAt observedAt)
  | .app002 => do
    let permissionIds ← textsOf 2048 isCatalogValue (fields.lookup (js "applicationPermissionIds"))
    let changed ← boolOf (fields.lookup (js "credentialMetadataChanged"))
    let comparable ← boolOf (fields.lookup (js "authoritativeComparable"))
    let succeeded ← boolOf (fields.lookup (js "succeeded"))
    some (.app002 permissionIds changed comparable succeeded)
  | .mbx001 => do
    let enabled ← boolOf (fields.lookup (js "enabled"))
    let recipientAddresses ← textsOf 2048 (isBoundedText 320)
      (fields.lookup (js "recipientAddresses"))
    let verifiedAcceptedDomains ← textsOf 256 isDomainText
      (fields.lookup (js "verifiedAcceptedDomains"))
    some (.mbx001 enabled recipientAddresses verifiedAcceptedDomains)
  | .mbx002 => do
    let enabled ← boolOf (fields.lookup (js "enabled"))
    let conditionsCompleteness ← completenessOf (fields.lookup (js "conditionsCompleteness"))
    let actionsCompleteness ← completenessOf (fields.lookup (js "actionsCompleteness"))
    let populatedConditionCount ← wholeNumber (fields.lookup (js "populatedConditionCount"))
    let populatedExceptionCount ← wholeNumber (fields.lookup (js "populatedExceptionCount"))
    let actions ← readActions (fields.lookup (js "actions"))
    some (.mbx002 enabled conditionsCompleteness actionsCompleteness populatedConditionCount
      populatedExceptionCount actions)
  | .mbx003 => do
    let projectionComplete ← boolOf (fields.lookup (js "projectionComplete"))
    let mailboxChangeAt ← timestamp (fields.lookup (js "mailboxChangeAt"))
    let independentSignInAt ← timestamp (fields.lookup (js "independentSignInAt"))
    let ruleId ← (ruleIdOf (fields.lookup (js "independentSignInRuleId"))).filter fun id =>
      JsString.startsWith id.text (js "HV-ID-AUTH-")
    let baseSeverity ← enumOf Severity.text [.low, .medium, .high]
      (fields.lookup (js "baseSeverity"))
    some (.mbx003 projectionComplete mailboxChangeAt independentSignInAt ruleId baseSeverity)
  | .auth001 => do
    let disabledAt ← timestamp (fields.lookup (js "disabledAt"))
    let activityAt ← timestamp (fields.lookup (js "activityAt"))
    let outcome ← enumOf AuthOutcome.text [.success, .failure] (fields.lookup (js "outcome"))
    some (.auth001 disabledAt activityAt (outcome == .success))
  | .auth002 => do
    let baseline ← readBaseline (fields.lookup (js "baseline"))
    let eventAt ← timestamp (fields.lookup (js "eventAt"))
    let last ← nullable timestamp (fields.lookup (js "lastSuccessfulInteractiveSignInAt"))
    let successfulInteractive ← boolOf (fields.lookup (js "successfulInteractive"))
    some (.auth002 baseline eventAt last successfulInteractive)
  | .auth003 => do
    let baseline ← readBaseline (fields.lookup (js "baseline"))
    let properties ← readProperties (fields.lookup (js "properties"))
    let sourceFingerprint ← optional reference (fields.lookup (js "sourceFingerprint"))
    some (.auth003 baseline properties sourceFingerprint)
  | .auth004 => do
    let baseline ← readBaseline (fields.lookup (js "baseline"))
    let previous ← readPoint (fields.lookup (js "previous"))
    let current ← readPoint (fields.lookup (js "current"))
    some (.auth004 baseline previous current)
  | .auth005 => do
    let events ← readAuthEvents (fields.lookup (js "events"))
    some (.auth005 events)
  | .auth006 => do
    let events ← readAuthEvents (fields.lookup (js "events"))
    let complete ← boolOf (fields.lookup (js "normalizedMfaDetailComplete"))
    some (.auth006 events complete)
  | .auth007 => do
    let privileged ← boolOf (fields.lookup (js "privileged"))
    let succeeded ← boolOf (fields.lookup (js "succeeded"))
    let client ← catalogValue (fields.lookup (js "client"))
    some (.auth007 privileged succeeded client)
  | .auth008 => do
    let events ← readAuthEvents (fields.lookup (js "events"))
    let tenantWideComplete ← boolOf (fields.lookup (js "tenantWideComplete"))
    some (.auth008 events tenantWideComplete)
  | .auth009 => do
    let successfulInteractive ← boolOf (fields.lookup (js "successfulInteractive"))
    let occurredAt ← timestamp (fields.lookup (js "occurredAt"))
    some (.auth009 successfulInteractive occurredAt)

structure IdentitySignalCandidate extends CandidateBase where
  rule : RuleFields

def IdentitySignalCandidate.ruleId (candidate : IdentitySignalCandidate) : IdentitySignalRuleId :=
  candidate.rule.ruleId

/-- `BASE_FIELDS`. -/
def baseFields : List JsString :=
  [js "ruleId", js "subject", js "evidenceReferences", js "evidence", js "evidenceState",
    js "requiresFullCapability"]

/-- `isIdentitySignalCandidateRuntime`. -/
def readCandidate (value : Json) : Option IdentitySignalCandidate := do
  let all ← fieldsOf (some value)
  let ruleId ← ruleIdOf (all.lookup (js "ruleId"))
  let fields ← recordOf (baseFields ++ ruleFields ruleId) (some value)
  let base ← readBase fields
  let rule ← readRule fields ruleId
  some ⟨base, rule⟩

end IdentitySignal
