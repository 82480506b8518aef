import HawkView.Lib.IsoTime
import HawkView.Lib.Table
import HawkView.RiskyUsers.RunRecord

/-!
# Publishing the findings of a native assessment

One transaction writes the run of an assessment, a standing finding for every
user it is about, and what the assessment ends. A run key that is there already
and a window that is older than the newest one publish nothing.
-/

namespace NativePublication

open Json EvaluationContract Compose RunRecord

/-- A random UUID. -/
abbrev Id := JsString

/-- What the runtime computes. -/
structure Runtime where
  sha256 : JsString → JsString
  dateParse : JsString → Option Int

structure Scope where
  organizationId : JsString
  customerTenantId : JsString
  deriving DecidableEq

/-! ## Whether the scope may publish -/

/-- What the locked rows say. -/
structure ScopeRows where
  stopped : Bool
  organizationActive : Bool
  tenantActive : Bool
  connected : Bool

inductive Eligibility
  | eligible | stopped | ineligible
  deriving DecidableEq, Repr

def lockRiskEvaluationScope (rows : ScopeRows) : Eligibility :=
  if rows.stopped then .stopped
  else if !rows.organizationActive then .ineligible
  else if !rows.tenantActive then .ineligible
  else if rows.connected then .eligible else .ineligible

/-! ## The tables -/

inductive RunStatus
  | running | completed | failed | completedEvaluationCore
  deriving DecidableEq, Repr

structure EvaluationRun where
  id : Id
  scope : Scope
  runKey : JsString
  engineVersion : JsString
  catalogVersion : JsString
  status : RunStatus
  windowStart : Int
  windowEnd : Int
  sourceWatermarkHash : JsString
  sourceContentHash : JsString
  evaluationCoverage : Option Json
  evaluationFindings : Option Json
  expiresAt : Int
  completedAt : Option Int

structure MatchedResult where
  id : Id
  scope : Scope
  evaluationRunId : Id
  resultKey : JsString
  ruleId : JsString
  subjectType : JsString
  subjectId : JsString
  severity : JsString
  confidence : JsString
  coverage : JsString
  observedAt : Int
  expiresAt : Int
  deriving DecidableEq

inductive FindingState
  | opened | updated | resolved | expired | unknown
  deriving DecidableEq, Repr

structure Standing where
  id : Id
  scope : Scope
  matchedResultId : Id
  dedupeKey : JsString
  ruleId : JsString
  ruleVersion : JsString
  subjectType : JsString
  subjectId : JsString
  state : FindingState
  severity : JsString
  confidence : JsString
  coverage : JsString
  observedAt : Int
  expiresAt : Int
  createdAt : Int
  updatedAt : Int
  deriving DecidableEq

abbrev Key := Scope × JsString

def EvaluationRun.key (r : EvaluationRun) : Key := (r.scope, r.runKey)

def MatchedResult.key (r : MatchedResult) : Key := (r.scope, r.resultKey)

def Standing.key (f : Standing) : Key := (f.scope, f.dedupeKey)

def runSchema : Sql.Schema EvaluationRun where
  check r := decide (r.windowStart < r.windowEnd)
  clash a b := a.id == b.id || a.key == b.key

def matchedSchema : Sql.Schema MatchedResult where
  check _ := true
  clash a b := a.id == b.id || a.key == b.key

def standingSchema : Sql.Schema Standing where
  check _ := true
  clash a b := a.id == b.id || a.key == b.key

structure Db where
  runs : Sql.Table runSchema
  matched : Sql.Table matchedSchema
  findings : Sql.Table standingSchema

def Db.finding (db : Db) (key : Key) : Option Standing := db.findings.find Standing.key key

/-! ## The rows of a run -/

structure PersistRunInput where
  scope : Scope
  windowStart : Int
  windowEnd : Int
  rowsFetched : Nat
  expiresAt : Int
  completedAt : Int
  sources : List SourceCollection

/-- `RUN_ENGINE_VERSION`. -/
def runEngineVersion : JsString := js "hawkview-evaluation-core/1"

/-- `RUN_CATALOG_VERSION`. -/
def runCatalogVersion : JsString := js "hawkview-risky-users-detectors/1"

def joined (separator : JsString) (parts : List JsString) : JsString :=
  List.intercalate separator parts

def runKeyFor (rt : Runtime) (input : PersistRunInput) : JsString :=
  (rt.sha256 (joined (js "|") [runEngineVersion, input.scope.organizationId,
    input.scope.customerTenantId, IsoTime.toISOString input.windowStart,
    IsoTime.toISOString input.windowEnd])).take 64

def watermark (rt : Runtime) (input : PersistRunInput) : JsString :=
  (rt.sha256 (IsoTime.toISOString input.windowStart ++ js "|" ++
    IsoTime.toISOString input.windowEnd)).take 64

def content (rt : Runtime) (input : PersistRunInput) : JsString :=
  (rt.sha256 (JsString.decimal input.rowsFetched ++ js "|" ++
    IsoTime.toISOString input.windowEnd)).take 64

/-- The row that `persistRun` creates. -/
def persistedRun (rt : Runtime) (assessment : TenantAssessment) (input : PersistRunInput)
    (id : Id) : EvaluationRun where
  id := id
  scope := input.scope
  runKey := runKeyFor rt input
  engineVersion := runEngineVersion
  catalogVersion := runCatalogVersion
  status := .completedEvaluationCore
  windowStart := input.windowStart
  windowEnd := input.windowEnd
  sourceWatermarkHash := watermark rt input
  sourceContentHash := content rt input
  evaluationCoverage := some (encodeRunCoverage assessment)
  evaluationFindings := some (encodeRunFindings assessment input.sources)
  expiresAt := input.expiresAt
  completedAt := some input.completedAt

/-- `NOT_ASSESSED`. -/
def notAssessed : JsString := js "NOT_ASSESSED"

/-- `NATIVE_RULE_ID`. -/
def nativeRuleId : JsString := js "HV-ID-AUTH-011.v1"

/-- `NATIVE_RULE_VERSION`. -/
def nativeRuleVersion : JsString := js "v1"

/-- `IDENTITY_RISK_RUN_RETENTION_MS`: ninety days. -/
def runRetentionMs : Int := 90 * 24 * 60 * 60 * 1000

/-- The fields that a matched result and its finding share, and their keys. -/
structure IntakePair where
  resultKey : JsString
  dedupeKey : JsString
  subjectType : JsString
  subjectId : JsString

def subjectOf : Subject → JsString × JsString
  | .directoryUser userRef _ => (js "USER", userRef)
  | .mailbox mailboxRef _ => (js "MAILBOX", mailboxRef)

def dedupeKeyOf (rt : Runtime) (scope : Scope) (finding : Finding) : JsString :=
  rt.sha256 (joined [0] [scope.organizationId, scope.customerTenantId, nativeRuleId,
    (subjectOf finding.subject).1, (subjectOf finding.subject).2])

def intakeRow (rt : Runtime) (scope : Scope) (runId : Id) (finding : Finding) : IntakePair where
  resultKey := rt.sha256 (joined [0] [dedupeKeyOf rt scope finding, runId])
  dedupeKey := dedupeKeyOf rt scope finding
  subjectType := (subjectOf finding.subject).1
  subjectId := (subjectOf finding.subject).2

inductive Failure
  | scopeUnavailable | invalidFinding | invalidObservation | invalidMarker
  /-- A constraint of the database refuses a row. -/
  | refused
  deriving DecidableEq, Repr

structure PublicationRow where
  pair : IntakePair
  observedAt : Int
  expiresAt : Int

/-- When the evidence of a signal occurred, which has to be in the window. -/
def observation (rt : Runtime) (input : PersistRunInput) (signal : FindingSignal) :
    Except Failure Int :=
  match signal.latest with
  | some ⟨at₀, .eventOccurred⟩ =>
    match rt.dateParse at₀ with
    | some time =>
      if time < input.windowStart ∨ input.windowEnd < time then .error .invalidObservation
      else .ok time
    | none => .error .invalidObservation
  | _ => .error .invalidObservation

/-- The last time at which the evidence of a finding occurred. -/
def observedAtOf (rt : Runtime) (input : PersistRunInput) (finding : Finding) :
    Except Failure Int :=
  (((finding.firstSignal :: finding.restSignals).filter
    fun signal => JsNumber.lt (.ofNat 0) signal.count).mapM (observation rt input)).bind
      fun times =>
        match times.max? with
        | some time => .ok time
        | none => .error .invalidObservation

def admitted (pair : IntakePair) (finding : Finding) : Bool :=
  finding.detectorId == js "repeated-credential-failure" && pair.subjectType == js "USER" &&
    pair.subjectId != [] && decide (pair.subjectId.length ≤ 128)

def publicationRow (rt : Runtime) (input : PersistRunInput) (runId : Id) (finding : Finding) :
    Except Failure PublicationRow :=
  let pair := intakeRow rt input.scope runId finding
  if admitted pair finding then
    (observedAtOf rt input finding).map fun observedAt =>
      ⟨pair, observedAt, min input.expiresAt (observedAt + runRetentionMs)⟩
  else .error .invalidFinding

def nativePublicationRows (rt : Runtime) (assessment : TenantAssessment) (input : PersistRunInput)
    (runId : Id) : Except Failure (List PublicationRow) :=
  (assessment.findings.items.mapM (publicationRow rt input runId)).map fun rows =>
    rows.filter fun row => decide (input.completedAt < row.expiresAt)

def mayResolveNativeAbsence (assessment : TenantAssessment) : Bool :=
  FindingSet.complete assessment.findings && assessment.claim.isPermitted

/-! ## The marker -/

inductive Publication
  | published | alreadyPublished | historicalNotReplayed | olderWindowNotPublished
  deriving DecidableEq, Repr

/-- `MARKER`. -/
def marker : JsString := js "nativeAlertPublication"

def publicationText : Publication → JsString
  | .published => js "PUBLISHED"
  | .alreadyPublished => js "ALREADY_PUBLISHED"
  | .historicalNotReplayed => js "HISTORICAL_NOT_REPLAYED"
  | .olderWindowNotPublished => js "OLDER_WINDOW_NOT_PUBLISHED"

def markerRecord (publication : Publication) : Json :=
  .object [(js "version", ofCount 1), (js "status", .string (publicationText publication))]

/-- The findings of a run with the marker among their fields. -/
def markedFindings (assessment : TenantAssessment) (input : PersistRunInput)
    (publication : Publication) : Json :=
  match encodeRunFindings assessment input.sources with
  | .object fields => .object (fields ++ [(marker, markerRecord publication)])
  | other => other

def readMarker (record : Fields) : Except Failure Publication :=
  if numberOf (record.lookup (js "version")) ≠ some (.ofNat 1) then .error .invalidMarker
  else if textOf (record.lookup (js "status")) = some (js "PUBLISHED") then .ok .alreadyPublished
  else if textOf (record.lookup (js "status")) = some (js "OLDER_WINDOW_NOT_PUBLISHED") then
    .ok .olderWindowNotPublished
  else .error .invalidMarker

def priorPublication : Option Json → Except Failure Publication
  | some (.object fields) =>
    match fields.lookup marker with
    | none => .ok .historicalNotReplayed
    | some (.object record) => readMarker record
    | some _ => .error .invalidMarker
  | _ => .ok .historicalNotReplayed

/-! ## The statements -/

/-- The ids that the transaction draws: for the run, and for the row of every index. -/
structure Draws where
  runId : Id
  matchedId : Nat → Id
  findingId : Nat → Id

/-- A row of the `UPSERT_STANDING` record set. -/
structure Proposed where
  id : Id
  matchedId : Id
  row : PublicationRow

def matchedRow (input : PersistRunInput) (runId : Id) (p : Proposed) : MatchedResult where
  id := p.matchedId
  scope := input.scope
  evaluationRunId := runId
  resultKey := p.row.pair.resultKey
  ruleId := nativeRuleId
  subjectType := p.row.pair.subjectType
  subjectId := p.row.pair.subjectId
  severity := notAssessed
  confidence := notAssessed
  coverage := notAssessed
  observedAt := p.row.observedAt
  expiresAt := input.expiresAt

def insertedRow (input : PersistRunInput) (p : Proposed) : Standing where
  id := p.id
  scope := input.scope
  matchedResultId := p.matchedId
  dedupeKey := p.row.pair.dedupeKey
  ruleId := nativeRuleId
  ruleVersion := nativeRuleVersion
  subjectType := p.row.pair.subjectType
  subjectId := p.row.pair.subjectId
  state := .opened
  severity := notAssessed
  confidence := notAssessed
  coverage := notAssessed
  observedAt := p.row.observedAt
  expiresAt := p.row.expiresAt
  createdAt := input.completedAt
  updatedAt := input.completedAt

def proposedKey (input : PersistRunInput) (p : Proposed) : Key :=
  (input.scope, p.row.pair.dedupeKey)

/-- `DO UPDATE SET … WHERE …`. -/
def onConflict (input : PersistRunInput) (p : Proposed) : Sql.Update Standing where
  applies existing := existing.key == proposedKey input p && existing.ruleId == nativeRuleId &&
    existing.subjectType == p.row.pair.subjectType &&
    existing.subjectId == p.row.pair.subjectId && decide (existing.observedAt ≤ p.row.observedAt)
  set existing := { existing with
    matchedResultId := p.matchedId
    severity := notAssessed
    confidence := notAssessed
    coverage := notAssessed
    observedAt := p.row.observedAt
    expiresAt := p.row.expiresAt
    updatedAt := input.completedAt
    state := if existing.observedAt < p.row.observedAt then .opened else existing.state }

/-- The table, and the keys whose rows the statement has written. -/
structure Upserting where
  findings : Sql.Table standingSchema
  written : List Key

/-- A row that the statement has written is refused the second time. -/
def upsertOne (input : PersistRunInput) (s : Upserting) (p : Proposed) : Option Upserting :=
  if proposedKey input p ∈ s.written then none
  else
    match s.findings.find Standing.key (proposedKey input p) with
    | none => (s.findings.insert (insertedRow input p)).map fun t =>
        ⟨t, proposedKey input p :: s.written⟩
    | some existing => (s.findings.update (onConflict input p)).map fun t =>
        ⟨t.1, if (onConflict input p).applies existing then proposedKey input p :: s.written
          else s.written⟩

def upsertStanding (input : PersistRunInput) (findings : Sql.Table standingSchema)
    (batch : List Proposed) : Option (Sql.Table standingSchema) :=
  (batch.foldlM (upsertOne input) ⟨findings, []⟩).map Upserting.findings

/-- `createMany` of the matched results, then the upsert of their findings. -/
def writeBatch (input : PersistRunInput) (runId : Id) (db : Db) (batch : List Proposed) :
    Option Db := do
  let matched ← (batch.map (matchedRow input runId)).foldlM Sql.Table.insert db.matched
  let findings ← upsertStanding input db.findings batch
  some { db with matched := matched, findings := findings }

def proposals (draws : Draws) (rows : List PublicationRow) : List Proposed :=
  rows.zipIdx.map fun entry => ⟨draws.findingId entry.2, draws.matchedId entry.2, entry.1⟩

/-- Slices of 128 rows, offset by offset. -/
def batches (all : List Proposed) : List (List Proposed) :=
  (List.range ((all.length + 127) / 128)).map fun i => (all.drop (128 * i)).take 128

def writeRows (input : PersistRunInput) (draws : Draws) (db : Db) (rows : List PublicationRow) :
    Option Db :=
  (batches (proposals draws rows)).foldlM (writeBatch input draws.runId) db

def expireUpdate (input : PersistRunInput) : Sql.Update Standing where
  applies f := f.scope == input.scope && f.ruleId == nativeRuleId && f.state == .opened &&
    decide (f.expiresAt ≤ input.completedAt)
  set f := { f with state := .expired, updatedAt := input.completedAt }

def resolveUpdate (input : PersistRunInput) (rows : List PublicationRow) :
    Sql.Update Standing where
  applies f := f.scope == input.scope && f.ruleId == nativeRuleId && f.state == .opened &&
    decide (f.observedAt ≤ input.windowEnd) &&
    !(rows.map fun row => row.pair.dedupeKey).contains f.dedupeKey
  set f := { f with state := .resolved, updatedAt := input.completedAt }

def updateFindings (db : Db) (u : Sql.Update Standing) : Option Db :=
  (db.findings.update u).map fun t => { db with findings := t.1 }

/-- The newest window of the runs that this engine wrote. -/
def latestWindowEnd (db : Db) (scope : Scope) : Option Int :=
  ((db.runs.rows.filter fun r => r.scope == scope && r.status == .completedEvaluationCore).map
    EvaluationRun.windowEnd).max?

def markUpdate (runId : Id) (findings : Json) : Sql.Update EvaluationRun where
  applies r := r.id == runId
  set r := { r with evaluationFindings := some findings }

def markRun (db : Db) (runId : Id) (findings : Json) : Option Db :=
  (db.runs.update (markUpdate runId findings)).map fun t => { db with runs := t.1 }

/-! ## The transaction -/

structure Call where
  scopeRows : ScopeRows
  assessment : TenantAssessment
  input : PersistRunInput
  draws : Draws
  /-- The connection lasts to the commit. -/
  commits : Bool

def orRefused {α : Type} : Option α → Except Failure α
  | some a => .ok a
  | none => .error .refused

def publishRows (rt : Runtime) (db : Db) (call : Call) : Except Failure Db := do
  let rows ← nativePublicationRows rt call.assessment call.input call.draws.runId
  let db ← orRefused (writeRows call.input call.draws db rows)
  let db ← orRefused (updateFindings db (expireUpdate call.input))
  if mayResolveNativeAbsence call.assessment then
    orRefused (updateFindings db (resolveUpdate call.input rows))
  else .ok db

def olderThan (latest : Option Int) (windowEnd : Int) : Bool :=
  match latest with
  | some newest => decide (windowEnd < newest)
  | none => false

def persistAndPublish (rt : Runtime) (db : Db) (call : Call) : Except Failure (Db × Publication) :=
  do
  let latest := latestWindowEnd db call.input.scope
  let runs ← orRefused
    (db.runs.insert (persistedRun rt call.assessment call.input call.draws.runId))
  let db := { db with runs := runs }
  let publication : Publication :=
    if olderThan latest call.input.windowEnd then .olderWindowNotPublished else .published
  let db ← if publication = .published then publishRows rt db call else .ok db
  let db ← orRefused (markRun db call.draws.runId
    (markedFindings call.assessment call.input publication))
  .ok (db, publication)

/-- The body of the transaction: the database it would commit, the run and what it tells of the
publication. -/
def publishNativeAssessment (rt : Runtime) (db : Db) (call : Call) :
    Except Failure (Db × Id × Publication) :=
  if lockRiskEvaluationScope call.scopeRows ≠ .eligible then .error .scopeUnavailable
  else
    match db.runs.find EvaluationRun.key (call.input.scope, runKeyFor rt call.input) with
    | some existing => (priorPublication existing.evaluationFindings).map (db, existing.id, ·)
    | none => (persistAndPublish rt db call).map fun r => (r.1, call.draws.runId, r.2)

/-- The database after a transaction, which changes nothing where it does not commit. -/
def step (rt : Runtime) (db : Db) (call : Call) : Db :=
  match publishNativeAssessment rt db call with
  | .ok (after, _) => if call.commits then after else db
  | .error _ => db

end NativePublication
