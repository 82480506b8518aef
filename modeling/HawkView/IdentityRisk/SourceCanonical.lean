import HawkView.Changes.ChangeEvidence
import HawkView.IdentityRisk.SignalCandidate
import HawkView.IdentityRisk.SourceTokens
import HawkView.Lib.StableOrder

/-!
# Canonical sources

A batch of source envelopes is read one by one into records, each with an
identity and a signature. The first record of an identity stays, another one
with the same signature repeats it, and one with a different signature is an
integrity conflict. What stays is ordered by time and identity, grouped by
source, and hashed.
-/

namespace IdentitySource

open Json JsString IdentitySignal
open ChangeEvidence (Date)

/-! ## The platform -/

/-- What a locale makes of two texts. Two different texts of hexadecimal digits are ordered. -/
structure LocaleCompare where
  le : JsString → JsString → Prop
  decide : DecidableRel le
  total : ∀ s t, le s t ∨ le t s
  trans : ∀ {s t u}, le s t → le t u → le s u
  antisymm : ∀ {s t}, s.all isHexadecimal = true → t.all isHexadecimal = true →
    le s t → le t s → s = t

structure Platform where
  /-- The hexadecimal text of the digest of bytes. -/
  sha256 : List UInt8 → JsString
  hexadecimal : ∀ bytes, (sha256 bytes).all isHexadecimal = true
  localeCompare : LocaleCompare
  /-- `new Date(text)`, none for one that is not valid. -/
  parseDate : JsString → Option Date

/-- `sha256(...parts)`. -/
def Platform.sha256Of (p : Platform) (parts : List JsString) : JsString :=
  p.sha256 (utf8 (List.intercalate [0] parts))

/-! ## Texts -/

/-- `\p\x7bCc\x7d` and `\p\x7bCf\x7d`. -/
def isControlOrFormat (x : Char) : Bool :=
  let n := x.toNat
  decide (n < 0x20 ∨ 0x7F ≤ n ∧ n < 0xA0 ∨ n = 0xAD ∨ 0x600 ≤ n ∧ n ≤ 0x605 ∨ n = 0x61C ∨
    n = 0x6DD ∨ n = 0x70F ∨ 0x890 ≤ n ∧ n ≤ 0x891 ∨ n = 0x8E2 ∨ n = 0x180E ∨
    0x200B ≤ n ∧ n ≤ 0x200F ∨ 0x202A ≤ n ∧ n ≤ 0x202E ∨ 0x2060 ≤ n ∧ n ≤ 0x2064 ∨
    0x2066 ≤ n ∧ n ≤ 0x206F ∨ n = 0xFEFF ∨ 0xFFF9 ≤ n ∧ n ≤ 0xFFFB ∨ n = 0x110BD ∨ n = 0x110CD ∨
    0x13430 ≤ n ∧ n ≤ 0x1343F ∨ 0x1BCA0 ≤ n ∧ n ≤ 0x1BCA3 ∨ 0x1D173 ≤ n ∧ n ≤ 0x1D17A ∨
    n = 0xE0001 ∨ 0xE0020 ≤ n ∧ n ≤ 0xE007F)

def boundedSafeString (maximumLength : Nat) (value : JsString) : Option JsString :=
  let normalized := trim value
  if normalized.isEmpty || decide (maximumLength < normalized.length) ||
      (characters normalized).any isControlOrFormat then none
  else some normalized

/-- `SAFE_OPAQUE_ID`. -/
def isSafeOpaqueId (s : JsString) : Bool :=
  s.all fun c => isAlphanumeric c || [0x2E, 0x5F, 0x3A, 0x2D].contains c

def boundedOpaqueId (maximumLength : Nat) (value : JsString) : Option JsString :=
  (boundedSafeString maximumLength value).filter isSafeOpaqueId

def isIdentityRiskOpaqueReferenceKind (kinds : List JsString) (value : JsString) : Bool :=
  ((boundedSafeString 160 value).bind referenceKind).any fun kind => kinds.contains kind

/-- `IDENTITY_RISK_APPROVED_SOURCE_TYPES`. -/
def approvedSourceTypes : List JsString :=
  [js "APPLICATIONS", js "AUDIT_LOGS", js "AUTH_METHOD_POLICIES", js "AUTH_REGISTRATIONS",
    js "CONDITIONAL_ACCESS", js "DEVICES", js "DIRECTORY_AUDIT", js "DIRECTORY_ROLES",
    js "EXCHANGE_MAILBOX_RULES", js "EXCHANGE_MAILBOX_SETTINGS", js "GROUPS", js "M365_AUDIT",
    js "SECURITY_DEFAULTS", js "SERVICE_PRINCIPALS", js "SIGN_INS", js "USERS"]

def approvedSourceName (value : JsString) : Option JsString :=
  (boundedSafeString 80 value).filter fun source => approvedSourceTypes.contains source

/-! ## Payloads -/

/-- A text that is there refers to a kind. -/
def optionalKind (kind : JsString) (value : Option JsString) : Bool :=
  value.all (isIdentityRiskOpaqueReferenceKind [kind])

def approvedSubjectReference (type : SubjectType) (value : JsString) : Bool :=
  match type with
  | .user => isIdentityRiskOpaqueReferenceKind [js "subject"] value
  | .application => isIdentityRiskOpaqueReferenceKind [js "application"] value
  | .mailbox => isIdentityRiskOpaqueReferenceKind [js "mailbox"] value
  | .tenant => isIdentityRiskOpaqueReferenceKind [js "tenant"] value
  | .source => isIdentityRiskOpaqueReferenceKind [js "source"] value

def approvedBaselineKey (key : JsString) : Bool :=
  (splitColon key).any fun (group, property) =>
    if group = [] then false
    else if group = js "device" then isIdentityRiskOpaqueReferenceKind [js "device"] property
    else if group = js "app" then isIdentityRiskOpaqueReferenceKind [js "application"] property
    else true

def approvedBaselineReferences (baseline : BehaviorBaseline) : Bool :=
  baseline.propertyFrequency.all fun frequency => frequency.all fun e => approvedBaselineKey e.1

def approvedAuthEvent (event : AuthEvent) : Bool :=
  isIdentityRiskOpaqueReferenceKind [js "event"] event.id &&
    isIdentityRiskOpaqueReferenceKind [js "subject"] event.subjectId &&
    optionalKind (js "source") event.sourceFingerprint &&
    optionalKind (js "application") event.appId &&
    optionalKind (js "device") event.deviceFingerprint

/-- What the approved projection asks of the fields of a rule. -/
def approvedRuleFields : RuleFields → Bool
  | .exp003 _ _ baseline _ => approvedBaselineReferences baseline
  | .chg003 _ actorId events =>
    isIdentityRiskOpaqueReferenceKind [js "actor"] actorId && events.all fun event =>
      isIdentityRiskOpaqueReferenceKind [js "event"] event.id &&
        isIdentityRiskOpaqueReferenceKind [js "actor"] event.actorId
  | .auth002 baseline _ _ _ => approvedBaselineReferences baseline
  | .auth003 baseline properties sourceFingerprint =>
    approvedBaselineReferences baseline && optionalKind (js "source") sourceFingerprint &&
      optionalKind (js "device") properties.device && optionalKind (js "application") properties.app
  | .auth004 baseline previous current =>
    approvedBaselineReferences baseline && optionalKind (js "source") previous.sourceFingerprint &&
      optionalKind (js "source") current.sourceFingerprint
  | .auth005 events => events.all approvedAuthEvent
  | .auth006 events _ => events.all approvedAuthEvent
  | .auth008 events _ => events.all approvedAuthEvent
  | _ => true

def isApprovedIdentitySignalCandidateProjection (candidate : IdentitySignalCandidate) : Bool :=
  approvedSubjectReference candidate.subject.type candidate.subject.opaqueId &&
    candidate.evidenceReferences.all (isIdentityRiskOpaqueReferenceKind [js "evidence"]) &&
    approvedRuleFields candidate.rule

/-- A candidate has none of the types `TENANT` and `SOURCE` here, and never `UNKNOWN`. -/
def validSubjectReference (type : SubjectType) (value : JsString) : Bool :=
  match type with
  | .user => isIdentityRiskOpaqueReferenceKind [js "subject"] value
  | .application => isIdentityRiskOpaqueReferenceKind [js "application"] value
  | .mailbox => isIdentityRiskOpaqueReferenceKind [js "mailbox"] value
  | .tenant => false
  | .source => false

def sourcePayloadKeys : List JsString :=
  [js "candidate", js "recordReference", js "schemaVersion", js "subjectReference"]

def IDENTITY_RISK_SOURCE_PAYLOAD_SCHEMA_VERSION : JsString := js "hawkview-identity-source/v1"

def approvedSourcePayload (value : Json) : Option Json := do
  let fields ← recordOf sourcePayloadKeys (some value)
  let schemaVersion ← textOf (fields.lookup (js "schemaVersion"))
  let recordReference ← textOf (fields.lookup (js "recordReference"))
  let subjectReference ← textOf (fields.lookup (js "subjectReference"))
  let document ← fields.lookup (js "candidate")
  let candidate ← readCandidate document
  if schemaVersion = IDENTITY_RISK_SOURCE_PAYLOAD_SCHEMA_VERSION &&
      isIdentityRiskOpaqueReferenceKind [js "event", js "observation", js "evidence"]
        recordReference &&
      validSubjectReference candidate.subject.type subjectReference &&
      isApprovedIdentitySignalCandidateProjection candidate &&
      candidate.subject.opaqueId == subjectReference then
    some (.object [(js "schemaVersion", .string IDENTITY_RISK_SOURCE_PAYLOAD_SCHEMA_VERSION),
      (js "recordReference", .string recordReference),
      (js "subjectReference", .string subjectReference), (js "candidate", document)])
  else none

/-! ## Records -/

/-- What an envelope holds under a name. -/
inductive SourceField
  | json (v : Json)
  /-- A `Date`, none for one that is not valid. -/
  | date (t : Option Date)

/-- An envelope, as its own properties. -/
abbrev SourceEnvelope := List (JsString × SourceField)

structure IdentityRiskEvaluationRequest where
  organizationId : JsString
  customerTenantId : JsString

structure CanonicalSourceRecord where
  identity : JsString
  signature : JsString
  source : JsString
  sortTime : Date
  payload : Json

def IDENTITY_RISK_MAX_FUTURE_SKEW_MS : Int := 5 * 60 * 1000

def SourceField.text : SourceField → Option JsString
  | .json (.string s) => some s
  | _ => none

def SourceField.document : SourceField → Option Json
  | .json v => some v
  | .date _ => none

def parseTimestamp (p : Platform) (now : Date) (value : Option SourceField) : Option Date :=
  let date := match value with
    | some (.date t) => t
    | some (.json (.string s)) => p.parseDate s
    | _ => none
  date.filter fun t => decide (t.val ≤ now.val + IDENTITY_RISK_MAX_FUTURE_SKEW_MS)

/-- The names of an envelope, sorted and joined by commas. -/
def keysOf (envelope : SourceEnvelope) : JsString :=
  List.intercalate [0x2C] ((envelope.map Prod.fst).insertionSort fun s t => s ≤ t)

def immutableEnvelopeKeys : JsString :=
  List.intercalate [0x2C] [js "authoritativeEventTime", js "canonicalEventId", js "kind",
    js "payload", js "sourceEventVersion", js "sourceType"]

def snapshotEnvelopeKeys : JsString :=
  List.intercalate [0x2C] [js "authoritativeObservationId", js "kind", js "objectId",
    js "observedAt", js "payload", js "projectorSchemaVersion", js "resourceType",
    js "sourceWatermark"]

def canonicalPayloadHash (p : Platform) (payload : Json) (budget : CanonicalBudget) :
    Option (JsString × CanonicalBudget) :=
  (canonicalValue payload 0 ([], budget)).map fun (input, budget) => (p.sha256 input, budget)

/-- The text of a field, as one of the checks takes it. -/
def fieldText (check : JsString → Option JsString) (value : Option SourceField) : Option JsString :=
  (value.bind SourceField.text).bind check

section

variable (p : Platform) (request : IdentityRiskEvaluationRequest) (now : Date)
  (watermarks : List JsString)

/-- The branch for `IMMUTABLE_EVENT`. -/
def immutableEventRecord (envelope : SourceEnvelope) (payload : Json) (payloadHash : JsString) :
    Option CanonicalSourceRecord := do
  if keysOf envelope ≠ immutableEnvelopeKeys then none
  let source ← fieldText approvedSourceName (envelope.lookup (js "sourceType"))
  let eventId ← fieldText (boundedOpaqueId 160) (envelope.lookup (js "canonicalEventId"))
  let version ← fieldText (boundedOpaqueId 80) (envelope.lookup (js "sourceEventVersion"))
  let eventTime ← parseTimestamp p now (envelope.lookup (js "authoritativeEventTime"))
  some { identity := p.sha256Of [request.organizationId, request.customerTenantId,
           js "IMMUTABLE_EVENT", source, eventId, IsoTime.toISOString eventTime, version]
         signature := payloadHash, source, sortTime := eventTime, payload }

/-- The branch for `AUTHORITATIVE_SNAPSHOT`. -/
def snapshotRecord (envelope : SourceEnvelope) (payload : Json) (payloadHash : JsString) :
    Option CanonicalSourceRecord := do
  if keysOf envelope ≠ snapshotEnvelopeKeys then none
  let source ← fieldText approvedSourceName (envelope.lookup (js "resourceType"))
  let objectId ← fieldText (boundedOpaqueId 160) (envelope.lookup (js "objectId"))
  let observationId ← fieldText (boundedOpaqueId 160)
    (envelope.lookup (js "authoritativeObservationId"))
  let projectorVersion ← fieldText (boundedOpaqueId 80)
    (envelope.lookup (js "projectorSchemaVersion"))
  let watermark ← fieldText (boundedOpaqueId 128) (envelope.lookup (js "sourceWatermark"))
  if ¬watermarks.contains watermark then none
  let observedAt ← parseTimestamp p now (envelope.lookup (js "observedAt"))
  some { identity := p.sha256Of [request.organizationId, request.customerTenantId,
           js "AUTHORITATIVE_SNAPSHOT", source, objectId, observationId]
         signature := p.sha256Of [IsoTime.toISOString observedAt, projectorVersion, watermark,
           payloadHash]
         source, sortTime := observedAt, payload }

def canonicalSourceRecord (envelope : SourceEnvelope) (budget : CanonicalBudget) :
    Option (CanonicalSourceRecord × CanonicalBudget) := do
  let document ← (envelope.lookup (js "payload")).bind SourceField.document
  let payload ← approvedSourcePayload document
  let (payloadHash, budget) ← canonicalPayloadHash p payload budget
  let kind ← (envelope.lookup (js "kind")).bind SourceField.text
  if kind = js "IMMUTABLE_EVENT" then
    (immutableEventRecord p request now envelope payload payloadHash).map (·, budget)
  else if kind = js "AUTHORITATIVE_SNAPSHOT" then
    (snapshotRecord p request now watermarks envelope payload payloadHash).map (·, budget)
  else none

/-! ## Batches -/

def MAX_SOURCE_TYPES : Nat := 32

def MAX_SOURCE_RECORDS_PER_TYPE : Nat := 50000

def MAX_SOURCE_ENVELOPES : Nat := MAX_SOURCE_TYPES * MAX_SOURCE_RECORDS_PER_TYPE

inductive CanonicalizedSources
  | ok (sources : List (JsString × List Json)) (sourceContentHash : JsString)
  | integrityConflict
  | rejected

def CanonicalizedSources.status : CanonicalizedSources → JsString
  | .ok _ _ => js "OK"
  | .integrityConflict => js "INTEGRITY_CONFLICT"
  | .rejected => js "REJECTED"

/-- What the loop over the envelopes has made. -/
structure Canonicalizing where
  budget : CanonicalBudget
  records : JsMap JsString CanonicalSourceRecord
  sourceCounts : JsMap JsString Nat

/-- The body of the loop for a record. -/
def keepRecord (record : CanonicalSourceRecord) (budget : CanonicalBudget)
    (made : Canonicalizing) : Except CanonicalizedSources Canonicalizing :=
  let sourceCount := (made.sourceCounts.get? record.source).getD 0 + 1
  let sourceCounts := made.sourceCounts.set record.source sourceCount
  if MAX_SOURCE_TYPES < sourceCounts.entries.length ∨ MAX_SOURCE_RECORDS_PER_TYPE < sourceCount then
    .error .rejected
  else
    match made.records.get? record.identity with
    | some existing =>
      if existing.signature ≠ record.signature then .error .integrityConflict
      else .ok ⟨budget, made.records, sourceCounts⟩
    | none => .ok ⟨budget, made.records.set record.identity record, sourceCounts⟩

def canonicalizeNext (made : Canonicalizing) (envelope : SourceEnvelope) :
    Except CanonicalizedSources Canonicalizing :=
  match canonicalSourceRecord p request now watermarks envelope made.budget with
  | none => .error .rejected
  | some (record, budget) => keepRecord record budget made

/-- By time, and by identity at one time. -/
def Earlier (left right : CanonicalSourceRecord) : Prop :=
  left.sortTime.val < right.sortTime.val ∨
    left.sortTime.val = right.sortTime.val ∧ p.localeCompare.le left.identity right.identity

instance : DecidableRel (Earlier p) := fun _ _ =>
  have := p.localeCompare.decide
  inferInstanceAs (Decidable (_ ∨ _))

/-- Gives the records to the content hash. -/
def hashRecords (ordered : List CanonicalSourceRecord) (budget : CanonicalBudget) :
    Option Hashing :=
  ordered.foldlM (fun h record =>
    (canonicalToken record.identity h).bind (canonicalToken record.signature)) ([], budget)

/-- What becomes of the records that stayed. -/
def publishRecords (made : Canonicalizing) : CanonicalizedSources :=
  let ordered := made.records.values.insertionSort (Earlier p)
  match hashRecords ordered made.budget with
  | none => .rejected
  | some (input, _) =>
    .ok ((StableOrder.grouped (fun record => record.source) ordered).map fun (source, rows) =>
      (source, rows.map fun record => record.payload)) (p.sha256 input)

def canonicalizeSourceEnvelopes (sourceEnvelopes : List SourceEnvelope) : CanonicalizedSources :=
  if MAX_SOURCE_ENVELOPES < sourceEnvelopes.length then .rejected
  else
    match sourceEnvelopes.foldlM (canonicalizeNext p request now watermarks)
        ⟨.full, .empty, .empty⟩ with
    | .error status => status
    | .ok made => publishRecords p made

end

end IdentitySource
