import HawkView.Evaluation.Compose
import HawkView.Lib.JsonNumber

/-!
# The stored record of a run

A run is stored as two JSON values: the coverage of its streams, and its findings
with the count and the claim that rest on them. A reader takes back all of it or
nothing, with a reason.
-/

namespace RunRecord

open Json EvaluationContract Compose

abbrev Fields := List (JsString × Json)

/-- Why there is nothing to read. -/
inductive Unavailable
  | notRecorded | unrecognizedVersion | malformed
  deriving DecidableEq, Repr

/-- The fields of a record of this version. -/
def envelope (version : JsString) : Option Json → Except Unavailable Fields
  | none => .error .notRecorded
  | some .null => .error .notRecorded
  | some (.object raw) =>
    if textOf (raw.lookup (js "version")) = some version then .ok raw
    else .error .unrecognizedVersion
  | some _ => .error .malformed

def orMalformed {α : Type} : Option α → Except Unavailable α
  | some a => .ok a
  | none => .error .malformed

/-! ## The coverage of a stream -/

/-- `COVERAGE_RECORD_VERSION`. -/
def coverageRecordVersion : JsString := js "hawkview-coverage/v1"

def collectionScopeJson : CollectionScope → Json
  | .declared asked => .object [(js "declared", .bool true), (js "asked", .string asked)]
  | .undeclared => .object [(js "declared", .bool false)]

def countsJson (counts : Counts) : Json := .object (counts.map fun e => (e.1, ofCount e.2))

def encodeCoverage (coverage : Coverage) : Json :=
  .object [(js "version", .string coverageRecordVersion),
    (js "collectionScope", collectionScopeJson coverage.collectionScope),
    (js "applies", ofCount coverage.applies),
    (js "doesNotApply", countsJson coverage.doesNotApply),
    (js "notYetCited", countsJson coverage.notYetCited),
    (js "unknown", countsJson coverage.unknown),
    (js "unprocessable", countsJson coverage.unprocessable)]

def reasonCount (entry : JsString × Json) : Option (JsString × Nat) :=
  if JsString.blank entry.1 then none else (countOf (some entry.2)).map (entry.1, ·)

def reasonCounts (value : Option Json) : Option Counts :=
  (fieldsOf value).bind fun entries => entries.mapM reasonCount

/-- A text that is not blank. -/
def namedText (value : Option Json) : Option JsString :=
  (textOf value).filter fun s => !JsString.blank s

def collectionScope (value : Option Json) : Option CollectionScope :=
  (fieldsOf value).bind fun fields =>
    match boolOf (fields.lookup (js "declared")) with
    | some false => some .undeclared
    | some true => (namedText (fields.lookup (js "asked"))).map .declared
    | none => none

def coverageOf (raw : Fields) : Option Coverage := do
  let scope ← collectionScope (raw.lookup (js "collectionScope"))
  let doesNotApply ← reasonCounts (raw.lookup (js "doesNotApply"))
  let notYetCited ← reasonCounts (raw.lookup (js "notYetCited"))
  let unknown ← reasonCounts (raw.lookup (js "unknown"))
  let unprocessable ← reasonCounts (raw.lookup (js "unprocessable"))
  let applies ← countOf (raw.lookup (js "applies"))
  some ⟨scope, applies, doesNotApply, notYetCited, unknown, unprocessable⟩

def decodeCoverage (raw : Option Json) : Except Unavailable Coverage :=
  (envelope coverageRecordVersion raw).bind fun fields => orMalformed (coverageOf fields)

/-! ## The coverage of a run -/

/-- `RUN_COVERAGE_VERSION`. -/
def runCoverageVersion : JsString := js "hawkview-run-coverage/v1"

structure StreamCoverage where
  stream : JsString
  coverage : Coverage
  deriving DecidableEq

def StreamCoverage.json (entry : StreamCoverage) : Json :=
  .object [(js "stream", .string entry.stream), (js "coverage", encodeCoverage entry.coverage)]

def runCoverageJson (streams : List StreamCoverage) : Json :=
  .object [(js "version", .string runCoverageVersion),
    (js "streams", .array (streams.map StreamCoverage.json))]

def streamCoverage (entry : StreamAssessment) : StreamCoverage :=
  ⟨entry.stream, entry.assessment.coverage⟩

def encodeRunCoverage (assessment : TenantAssessment) : Json :=
  runCoverageJson (assessment.streams.map streamCoverage)

def decodeStream (entry : Json) : Except Unavailable StreamCoverage :=
  match (fieldsOf (some entry)).bind fun fields =>
      (namedText (fields.lookup (js "stream"))).map (·, fields) with
  | some (stream, fields) =>
    (decodeCoverage (fields.lookup (js "coverage"))).map fun coverage => ⟨stream, coverage⟩
  | none => .error .malformed

def decodeRunCoverage (raw : Option Json) : Except Unavailable (List StreamCoverage) :=
  (envelope runCoverageVersion raw).bind fun fields =>
    (orMalformed (itemsOf (fields.lookup (js "streams")))).bind fun entries =>
      entries.mapM decodeStream

/-! ## The findings of a run -/

/-- `RUN_FINDINGS_VERSION`. -/
def runFindingsVersion : JsString := js "hawkview-run-findings/v1"

/-- What a collector had achieved when the run read it. -/
structure SourceCollection where
  source : JsString
  status : JsString
  lastSuccessfulCollectionAt : Option JsString
  deriving DecidableEq

def nullable : Option JsString → Json
  | some s => .string s
  | none => .null

def SourceCollection.json (c : SourceCollection) : Json :=
  .object [(js "source", .string c.source), (js "status", .string c.status),
    (js "lastSuccessfulCollectionAt", nullable c.lastSuccessfulCollectionAt)]

def withheldText : WithheldReason → JsString
  | .neverCollected => js "NEVER_COLLECTED"
  | .unreadableNow => js "UNREADABLE_NOW"
  | .uninterpretedEvents => js "UNINTERPRETED_EVENTS"
  | .nothingApplicable => js "NOTHING_APPLICABLE"
  | .capacityExceeded => js "CAPACITY_EXCEEDED"
  | .detectorFailed => js "DETECTOR_FAILED"
  | .unresolvedSubjectIdentity => js "UNRESOLVED_SUBJECT_IDENTITY"
  | .collectionScopeUndeclared => js "COLLECTION_SCOPE_UNDECLARED"
  | .noCheckExaminedEvidence => js "NO_CHECK_EXAMINED_EVIDENCE"

def gapText : FindingGap → JsString
  | .windowTruncated => js "WINDOW_TRUNCATED"
  | .detectorFailed => js "DETECTOR_FAILED"
  | .checkNotRun => js "CHECK_NOT_RUN"
  | .evidenceRequestUnknown => js "EVIDENCE_REQUEST_UNKNOWN"

def setAsideJson (entry : SetAside) : Json :=
  .object [(js "vocabulary", .string (vocabularyText entry.vocabulary)),
    (js "reason", .string entry.reason), (js "count", ofCount entry.count)]

def notCoveredJson (entry : NotCovered) : Json :=
  .object [(js "detectorId", .string entry.detectorId), (js "because", .string entry.because)]

def textsJson (texts : List JsString) : Json := .array (texts.map .string)

def countScopeJson (scope : CountScope) : Json :=
  .object [(js "evidenceRequested", textsJson scope.evidenceRequested),
    (js "setAside", .array (scope.setAside.map setAsideJson)),
    (js "covered", textsJson scope.covered),
    (js "notCovered", .array (scope.notCovered.map notCoveredJson))]

def accuracyText : Count → JsString
  | .exact _ _ => js "EXACT"
  | .atLeast _ _ => js "AT_LEAST"
  | .notAvailable _ => js "NOT_AVAILABLE"

def countValue : Count → Json
  | .exact value _ => ofCount value
  | .atLeast value _ => ofCount value
  | .notAvailable _ => .null

def countFields (count : Count) : Fields :=
  [(js "accuracy", .string (accuracyText count)), (js "value", countValue count),
    (js "scope", countScopeJson count.scope)]

def withholdingJson (entry : Withholding) : Json :=
  .object [(js "stream", nullable entry.stream),
    (js "because", .string (withheldText entry.because))]

def claimFields : TenantClaim → Fields
  | .permitted => [(js "permitted", .bool true)]
  | .withheld withheld =>
    [(js "permitted", .bool false), (js "withheld", .array (withheld.map withholdingJson))]

def matchedByText : MatchedBy → JsString
  | .directoryObjectId => js "DIRECTORY_OBJECT_ID"
  | .userPrincipalName => js "USER_PRINCIPAL_NAME"

def correlationJson : CorrelationRef → Json
  | .available matchedBy ref =>
    .object [(js "available", .bool true), (js "matchedBy", .string (matchedByText matchedBy)),
      (js "ref", .string ref)]
  | .unavailable because =>
    .object [(js "available", .bool false), (js "because", .string because)]

def bindingText : MailboxBinding → JsString
  | .resolvedNegative => js "RESOLVED_NEGATIVE"
  | .unresolved => js "UNRESOLVED"

def subjectFields : Subject → Fields
  | .directoryUser userRef correlation =>
    [(js "kind", .string (js "DIRECTORY_USER")), (js "userRef", .string userRef),
      (js "correlation", correlationJson correlation)]
  | .mailbox mailboxRef binding =>
    [(js "kind", .string (js "MAILBOX")), (js "mailboxRef", .string mailboxRef),
      (js "binding", .string (bindingText binding))]

def recencyKindText : RecencyKind → JsString
  | .eventOccurred => js "EVENT_OCCURRED"
  | .stateObserved => js "STATE_OBSERVED"

def recencyJson : Option SignalRecency → Json
  | some latest =>
    .object [(js "at", .string latest.at₀), (js "kind", .string (recencyKindText latest.kind))]
  | none => .null

def signalJson (signal : FindingSignal) : Json :=
  .object [(js "signal", .string signal.signal), (js "count", ofNumber signal.count),
    (js "latest", recencyJson signal.latest), (js "capped", .bool signal.capped)]

/-- A finding as it is read back: the subject is whatever object was stored. -/
structure StoredFinding where
  detectorId : JsString
  subject : Fields
  firstSignal : FindingSignal
  restSignals : List FindingSignal

def StoredFinding.json (finding : StoredFinding) : Json :=
  .object [(js "detectorId", .string finding.detectorId), (js "subject", .object finding.subject),
    (js "signals", .array ((finding.firstSignal :: finding.restSignals).map signalJson))]

/-- What a record holds; of the count and the claim, whatever objects were stored. -/
structure StoredFindings where
  findings : List StoredFinding
  count : Fields
  claim : Fields
  complete : Bool
  sources : List Json

/-- `encodeRunFindings` on the parts of an assessment. The gaps are left out where there are
none to tell. -/
def StoredFindings.json (stored : StoredFindings) (because : Option Json) : Json :=
  .object ([(js "version", .string runFindingsVersion), (js "sources", .array stored.sources),
    (js "count", .object stored.count), (js "claim", .object stored.claim),
    (js "complete", .bool stored.complete)] ++ (because.map (js "because", ·)).toList ++
    [(js "items", .array (stored.findings.map StoredFinding.json))])

def FindingSet.complete (findings : FindingSet) : Bool := findings.because.isEmpty

/-- The reference to the source event is not stored. -/
def storedSignal (signal : FindingSignal) : FindingSignal := { signal with sourceEvent := none }

def storedFinding (finding : Finding) : StoredFinding where
  detectorId := finding.detectorId
  subject := subjectFields finding.subject
  firstSignal := storedSignal finding.firstSignal
  restSignals := finding.restSignals.map storedSignal

def storedFindings (assessment : TenantAssessment) (sources : List SourceCollection) :
    StoredFindings where
  findings := assessment.findings.items.map storedFinding
  count := countFields assessment.count
  claim := claimFields assessment.claim
  complete := FindingSet.complete assessment.findings
  sources := sources.map SourceCollection.json

def encodeRunFindings (assessment : TenantAssessment) (sources : List SourceCollection) : Json :=
  (storedFindings assessment sources).json
    (some (textsJson (assessment.findings.because.map gapText)))

def readKind (s : JsString) : Option RecencyKind :=
  if s = js "EVENT_OCCURRED" then some .eventOccurred
  else if s = js "STATE_OBSERVED" then some .stateObserved
  else none

/-- `none` is `INVALID`. -/
def readRecency : Option Json → Option (Option SignalRecency)
  | none => some none
  | some .null => some none
  | some (.object raw) => do
    let at₀ ← (textOf (raw.lookup (js "at"))).filter (· ≠ [])
    let kind ← (textOf (raw.lookup (js "kind"))).bind readKind
    some (some ⟨at₀, kind⟩)
  | some _ => none

def readSignal (raw : Json) : Option FindingSignal := do
  let fields ← fieldsOf (some raw)
  let signal ← namedText (fields.lookup (js "signal"))
  let count ← countOf (fields.lookup (js "count"))
  let capped ← boolOf (fields.lookup (js "capped"))
  let latest ← readRecency (fields.lookup (js "latest"))
  some ⟨⟨signal, .ofNat count, latest, none⟩, capped⟩

def readFinding (item : Json) : Option StoredFinding := do
  let fields ← fieldsOf (some item)
  let detectorId ← textOf (fields.lookup (js "detectorId"))
  let subject ← fieldsOf (fields.lookup (js "subject"))
  let signals ← (itemsOf (fields.lookup (js "signals"))).bind fun raw => raw.mapM readSignal
  match signals with
  | first :: rest => some ⟨detectorId, subject, first, rest⟩
  | [] => none

def findingsOf (raw : Fields) : Option StoredFindings := do
  let findings ← (itemsOf (raw.lookup (js "items"))).bind fun items => items.mapM readFinding
  let count ← fieldsOf (raw.lookup (js "count"))
  let claim ← fieldsOf (raw.lookup (js "claim"))
  let complete ← boolOf (raw.lookup (js "complete"))
  some ⟨findings, count, claim, complete, (itemsOf (raw.lookup (js "sources"))).getD []⟩

def decodeRunFindings (raw : Option Json) : Except Unavailable StoredFindings :=
  (envelope runFindingsVersion raw).bind fun fields => orMalformed (findingsOf fields)

/-! ## The row of a run -/

structure RunRow where
  evaluationCoverage : Option Json
  evaluationFindings : Option Json
  completedAt : Option Int
  windowStart : Int
  windowEnd : Int

inductive Absent
  | noRun
  | coverageNotRecorded | coverageVersionAhead | coverageUnreadable
  | findingsNotRecorded | findingsVersionAhead | findingsUnreadable
  deriving DecidableEq, Repr

/-- A run that was read back. -/
structure Run extends StoredFindings where
  streams : List StreamCoverage
  completedAt : Int
  windowStart : Int
  windowEnd : Int

def Unavailable.ofCoverage : Unavailable → Absent
  | .notRecorded => .coverageNotRecorded
  | .unrecognizedVersion => .coverageVersionAhead
  | .malformed => .coverageUnreadable

def Unavailable.ofFindings : Unavailable → Absent
  | .notRecorded => .findingsNotRecorded
  | .unrecognizedVersion => .findingsVersionAhead
  | .malformed => .findingsUnreadable

def decodeNativeRunRow (row : Option RunRow) : Except Absent Run :=
  match row.bind fun row => row.completedAt.map (row, ·) with
  | none => .error .noRun
  | some (row, completedAt) => do
    let streams ← (decodeRunCoverage row.evaluationCoverage).mapError Unavailable.ofCoverage
    let findings ← (decodeRunFindings row.evaluationFindings).mapError Unavailable.ofFindings
    .ok ⟨findings, streams, completedAt, row.windowStart, row.windowEnd⟩

end RunRecord
