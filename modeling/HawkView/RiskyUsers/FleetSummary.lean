import HawkView.Changes.ChangeEvidence
import HawkView.RiskyUsers.RunRecord

/-!
# The summary of a fleet

The summary reads the newest run of every tenant of a scope. A tenant without a
run that can be read says why, and only a run whose verdict is exact, whole and
fresh counts as exact. The fleet is exact where all of it is.
-/

namespace FleetSummary

open Json RunRecord
open ChangeEvidence (Date)

/-! ## What a summary says -/

/-- `NATIVE_SUMMARY_REASONS`. -/
inductive Reason
  | noTenants | scopeCapped | notEnabledForTenant | evaluationDisabled | noCurrentRun | invalidRun
  | countWithheld | partialAssessment | readLimitExceeded | staleAssessment
  | sourceFreshnessUnknown | sourceUnavailable
  deriving DecidableEq, Repr

def reasonText : Reason → JsString
  | .noTenants => js "NO_TENANTS"
  | .scopeCapped => js "SCOPE_CAPPED"
  | .notEnabledForTenant => js "NOT_ENABLED_FOR_TENANT"
  | .evaluationDisabled => js "EVALUATION_DISABLED"
  | .noCurrentRun => js "NO_CURRENT_RUN"
  | .invalidRun => js "INVALID_RUN"
  | .countWithheld => js "COUNT_WITHHELD"
  | .partialAssessment => js "PARTIAL_ASSESSMENT"
  | .readLimitExceeded => js "READ_LIMIT_EXCEEDED"
  | .staleAssessment => js "STALE_ASSESSMENT"
  | .sourceFreshnessUnknown => js "SOURCE_FRESHNESS_UNKNOWN"
  | .sourceUnavailable => js "SOURCE_UNAVAILABLE"

/-- Every reason once, in the order of the texts. -/
def unique (reasons : List Reason) : List Reason :=
  (JsSet.ofList reasons).elements.mergeSort fun a b => decide (reasonText a ≤ reasonText b)

inductive Accuracy
  | exact | atLeast | notAvailable
  deriving DecidableEq, Repr

inductive Availability
  | available | degraded | unavailable
  deriving DecidableEq, Repr

/-- Why a tenant of the scope is not read. -/
inductive Gate
  | notEnabledForTenant | evaluationDisabled
  deriving DecidableEq, Repr

def Gate.reason : Gate → Reason
  | .notEnabledForTenant => .notEnabledForTenant
  | .evaluationDisabled => .evaluationDisabled

structure ScopeTenant where
  id : JsString
  organizationId : JsString
  gate : Option Gate
  deriving DecidableEq

structure SummaryScope where
  totalTenants : JsNumber
  tenants : List ScopeTenant

/-- A row as the query returns it. Its clocks are texts. -/
structure BatchRow where
  organizationId : JsString
  customerTenantId : JsString
  evaluationCoverage : Option Json
  evaluationFindings : Option Json
  completedAt : Option JsString
  windowStart : Option JsString
  windowEnd : Option JsString
  expiresAt : Option JsString
  readLimitExceeded : Bool
  collectorStatus : Option JsString
  collectorLastSuccessfulAt : Option JsString

structure TenantSummary where
  tenantId : JsString
  availability : Availability
  accuracy : Accuracy
  distinctUserCount : Option Nat
  evaluatedAt : Option JsString
  windowStart : Option JsString
  windowEnd : Option JsString
  complete : Bool
  limitations : List Reason
  deriving DecidableEq, Repr

structure Fleet where
  availability : Availability
  accuracy : Accuracy
  distinctUserCount : Option Nat
  assessedTenants : Nat
  totalTenants : JsNumber
  enumeratedTenants : Nat
  scopeComplete : Bool
  limitations : List Reason

structure Summary where
  generatedAt : JsString
  fleet : Fleet
  tenants : List TenantSummary

/-- `NATIVE_SUMMARY_TENANT_LIMIT`. -/
def tenantLimit : Nat := 100

/-- `NATIVE_SUMMARY_RUN_BYTES`. -/
def runBytes : Nat := 256 * 1024

/-! ## What a reader trusts -/

/-- A clock in the one text that a time has. -/
def utcClock (value : Option JsString) : Option Int :=
  value.bind fun s => if IsoTime.Canonical s then IsoTime.utcTime s else none

/-- A text of the verdict: not blank, and of at most 200 code units. -/
def shortText (s : JsString) : Bool := !JsString.blank s && decide (s.length ≤ 200)

def isShortText (value : Option Json) : Bool := (textOf value).any shortText

/-- Whether a value is a list of texts. -/
def strings (value : Option Json) : Bool :=
  (itemsOf value).any fun items => items.all fun item => isShortText (some item)

/-- A whole number up to a million. -/
def integer (value : Option Json) : Bool := (countOf value).any fun n => decide (n ≤ 1000000)

def accuracyTexts : List JsString := [js "EXACT", js "AT_LEAST", js "NOT_AVAILABLE"]

def vocabularyTexts : List JsString :=
  [js "DOES_NOT_APPLY", js "NOT_YET_CITED", js "UNKNOWN", js "UNPROCESSABLE"]

def validNotCovered (item : Json) : Bool :=
  (fieldsOf (some item)).any fun fields =>
    isShortText (fields.lookup (js "detectorId")) && isShortText (fields.lookup (js "because"))

def validSetAside (item : Json) : Bool :=
  (fieldsOf (some item)).any fun fields =>
    ((textOf (fields.lookup (js "vocabulary"))).any fun s => vocabularyTexts.contains s) &&
      isShortText (fields.lookup (js "reason")) && integer (fields.lookup (js "count"))

def validScope (scope : Fields) : Bool :=
  strings (scope.lookup (js "evidenceRequested")) && strings (scope.lookup (js "covered")) &&
    ((itemsOf (scope.lookup (js "notCovered"))).any fun items => items.all validNotCovered) &&
    ((itemsOf (scope.lookup (js "setAside"))).any fun items => items.all validSetAside)

def validCount (count : Fields) : Bool :=
  (textOf (count.lookup (js "accuracy"))).any (fun accuracy =>
    accuracyTexts.contains accuracy &&
      if accuracy = js "NOT_AVAILABLE" then
        match count.lookup (js "value") with
        | some .null => true
        | _ => false
      else integer (count.lookup (js "value"))) &&
    (fieldsOf (count.lookup (js "scope"))).any validScope

def validWithheld (item : Json) : Bool :=
  (fieldsOf (some item)).any fun fields =>
    (match fields.lookup (js "stream") with
      | some .null => true
      | stream => isShortText stream) && isShortText (fields.lookup (js "because"))

def validClaim (claim : Fields) : Bool :=
  match boolOf (claim.lookup (js "permitted")) with
  | some true => (claim.lookup (js "withheld")).isNone
  | some false => (itemsOf (claim.lookup (js "withheld"))).any fun items =>
      !items.isEmpty && items.all validWithheld
  | none => false

def validVerdict (raw : Option Json) : Bool :=
  (fieldsOf raw).any fun fields =>
    (fieldsOf (fields.lookup (js "count"))).any validCount &&
      (fieldsOf (fields.lookup (js "claim"))).any validClaim

def forbiddenKeys : List JsString := [js "__proto__", js "prototype", js "constructor"]

/-- What is left of the budget after one more value. -/
def spend (depth budget : Nat) : Option Nat :=
  match budget with
  | 0 => none
  | left + 1 => if 20 < depth then none else some left

/-- The number that a text is parsed to is finite. -/
def finiteNumber (n : NumberText) : Bool :=
  n.value.any fun q => decide (|q| < 2 ^ 1024 - 2 ^ 970)

mutual

/-- The budget that is left, which all the values of a document share. -/
def safeDocument (depth : Nat) : Json → Nat → Option Nat
  | .null, budget => spend depth budget
  | .bool _, budget => spend depth budget
  | .string _, budget => spend depth budget
  | .number n, budget => if finiteNumber n then spend depth budget else none
  | .array items, budget => (spend depth budget).bind fun left => safeItems (depth + 1) items left
  | .object entries, budget =>
    (spend depth budget).bind fun left => safeEntries (depth + 1) entries left

def safeItems (depth : Nat) : List Json → Nat → Option Nat
  | [], budget => some budget
  | v :: rest, budget => (safeDocument depth v budget).bind fun left => safeItems depth rest left

def safeEntries (depth : Nat) : List (JsString × Json) → Nat → Option Nat
  | [], budget => some budget
  | (name, v) :: rest, budget =>
    if forbiddenKeys.contains name then none
    else (safeDocument depth v budget).bind fun left => safeEntries depth rest left

end

/-- A document that there is, within 50 000 values. -/
def isSafeDocument (value : Option Json) : Bool :=
  value.any fun v => (safeDocument 0 v 50000).isSome

/-! ## Freshness -/

/-- `SERVICE_FRESHNESS_WINDOWS.incremental.agingMs`. -/
def agingMs : Int := 2 * 60 * 60 * 1000

def stale (now clock : Int) : Bool := decide (agingMs < now - clock)

def knownStreams : List JsString := [js "GRAPH_SIGN_INS", js "M365_AUDIT_STS"]

/-- The sources of the run that are records of a stream. -/
def sourcesOf (run : Run) (stream : JsString) : List Fields :=
  (run.sources.filterMap fun source => fieldsOf (some source)).filter fun source =>
    textOf (source.lookup (js "source")) == some stream

/-- What the clock of a success tells, which may not be ahead of a bound. -/
def successReasons (value : Option JsString) (bound now : Int) : List Reason :=
  match utcClock value with
  | none => [.sourceFreshnessUnknown]
  | some success =>
    if bound < success then [.sourceFreshnessUnknown]
    else if stale now success then [.staleAssessment] else []

def sourceReasons (run : Run) (now : Int) (source : Fields) : List Reason :=
  successReasons (textOf (source.lookup (js "lastSuccessfulCollectionAt"))) run.completedAt now ++
  (match textOf (source.lookup (js "status")) with
    | none => [.sourceUnavailable]
    | some status =>
      if status = js "STALE" then [.staleAssessment]
      else if [js "SUCCESS", js "EMPTY"].contains status then [] else [.sourceUnavailable])

def streamReasons (run : Run) (now : Int) (stream : JsString) : List Reason :=
  if knownStreams.contains stream then
    match sourcesOf run stream with
    | [source] => sourceReasons run now source
    | _ => [.sourceFreshnessUnknown]
  else [.sourceFreshnessUnknown]

def collectorReasons (row : BatchRow) (now : Int) : List Reason :=
  successReasons row.collectorLastSuccessfulAt now now ++
  (match row.collectorStatus with
    | none => [.sourceFreshnessUnknown]
    | some status =>
      if [js "IDLE", js "RUNNING", js "SUCCEEDED"].contains status then []
      else [.sourceUnavailable])

def freshnessReasons (run : Run) (row : BatchRow) (now : Int) : List Reason :=
  unique ((if stale now run.completedAt || stale now run.windowEnd then [.staleAssessment] else []) ++
    run.streams.flatMap (fun entry => streamReasons run now entry.stream) ++
    collectorReasons row now)

/-! ## One tenant -/

/-- The clocks of a row, in order and not ahead of the reader. -/
structure Clocks where
  completedAt : Int
  windowStart : Int
  windowEnd : Int

def clocksOf (row : BatchRow) (now : Int) : Option Clocks := do
  let completedAt ← utcClock row.completedAt
  let windowStart ← utcClock row.windowStart
  let windowEnd ← utcClock row.windowEnd
  let _ ← utcClock row.expiresAt
  if windowEnd < windowStart ∨ completedAt < windowEnd ∨ now < completedAt then none
  else some ⟨completedAt, windowStart, windowEnd⟩

/-- The bytes of both documents. Without one there is no text to measure. -/
def sizeOf (row : BatchRow) : Option Nat := do
  let coverage ← row.evaluationCoverage
  let findings ← row.evaluationFindings
  some (byteLength (stringify coverage) + byteLength (stringify findings))

def accuracyOf (count : Fields) : Option JsString := textOf (count.lookup (js "accuracy"))

def isNotAvailable (count : Fields) : Bool := accuracyOf count == some (js "NOT_AVAILABLE")

/-- The run of a row, or the reason that it is not read. -/
def readRun (row : BatchRow) (now : Int) : Except Reason Run :=
  if (utcClock row.expiresAt).any fun expiresAt => decide (expiresAt ≤ now) then
    .error .noCurrentRun
  else if row.readLimitExceeded then .error .readLimitExceeded
  else
    match clocksOf row now, sizeOf row with
    | none, _ => .error .invalidRun
    | some _, none => .error .invalidRun
    | some clocks, some size =>
      if runBytes < size then .error .readLimitExceeded
      else if !isSafeDocument row.evaluationCoverage || !isSafeDocument row.evaluationFindings ||
          !validVerdict row.evaluationFindings then .error .invalidRun
      else
        match decodeNativeRunRow (some ⟨row.evaluationCoverage, row.evaluationFindings,
            some clocks.completedAt, clocks.windowStart, clocks.windowEnd⟩) with
        | .error _ => .error .invalidRun
        | .ok run =>
          if !isNotAvailable run.count && !integer (run.count.lookup (js "value")) then
            .error .invalidRun
          else .ok run

def unavailable (tenant : ScopeTenant) (reason : Reason) : TenantSummary where
  tenantId := tenant.id
  availability := .unavailable
  accuracy := .notAvailable
  distinctUserCount := none
  evaluatedAt := none
  windowStart := none
  windowEnd := none
  complete := false
  limitations := [reason]

/-- The length of a list in the scope of a count. -/
def scopeLength (count : Fields) (name : JsString) : Nat :=
  (((fieldsOf (count.lookup (js "scope"))).bind fun scope => itemsOf (scope.lookup name)).getD
    []).length

def isComplete (run : Run) : Bool :=
  accuracyOf run.count == some (js "EXACT") && run.complete &&
    boolOf (run.claim.lookup (js "permitted")) == some true &&
    scopeLength run.count (js "notCovered") == 0 && !run.streams.isEmpty &&
    decide (0 < scopeLength run.count (js "covered")) &&
    decide (0 < scopeLength run.count (js "evidenceRequested"))

/-- `count.value` of a count that has one. -/
def valueOf (count : Fields) : Nat := (countOf (count.lookup (js "value"))).getD 0

def assessed (tenant : ScopeTenant) (row : BatchRow) (run : Run) (now : Int) : TenantSummary :=
  let freshness := freshnessReasons run row now
  let evaluatedAt := some (IsoTime.toISOString run.completedAt)
  let windowStart := some (IsoTime.toISOString run.windowStart)
  let windowEnd := some (IsoTime.toISOString run.windowEnd)
  if isNotAvailable run.count then
    { unavailable tenant .countWithheld with
      evaluatedAt := evaluatedAt
      windowStart := windowStart
      windowEnd := windowEnd
      limitations := unique (.countWithheld :: freshness) }
  else if isComplete run && freshness.isEmpty then
    ⟨tenant.id, .available, .exact, some (valueOf run.count), evaluatedAt, windowStart, windowEnd,
      true, []⟩
  else
    { tenantId := tenant.id
      availability :=
        if !freshness.isEmpty && valueOf run.count == 0 then .unavailable else .degraded
      accuracy := if 0 < valueOf run.count then .atLeast else .notAvailable
      distinctUserCount := if 0 < valueOf run.count then some (valueOf run.count) else none
      evaluatedAt := evaluatedAt
      windowStart := windowStart
      windowEnd := windowEnd
      complete := false
      limitations := unique (freshness ++ if isComplete run then [] else [.partialAssessment]) }

/-! ## The fleet -/

inductive Failure
  | invalidScope | invalidRead
  deriving DecidableEq, Repr

def pairKey (organizationId id : JsString) : JsString := organizationId ++ js ":" ++ id

def ScopeTenant.key (tenant : ScopeTenant) : JsString := pairKey tenant.organizationId tenant.id

def BatchRow.key (row : BatchRow) : JsString := pairKey row.organizationId row.customerTenantId

def validSummaryScope (scope : SummaryScope) : Bool :=
  scope.totalTenants.isSafeInteger &&
    !JsNumber.lt scope.totalTenants (.ofNat scope.tenants.length) &&
    decide (scope.tenants.length ≤ tenantLimit) &&
    (JsSet.ofList (scope.tenants.map ScopeTenant.id)).size == scope.tenants.length

/-- The body of the loop over the rows: each is of a tenant that was asked for, and none comes
twice. -/
def indexRow (pairs : List JsString) (byTenant : JsMap JsString BatchRow) (row : BatchRow) :
    Except Failure (JsMap JsString BatchRow) :=
  if !pairs.contains row.key || (byTenant.get? row.key).isSome then .error .invalidRead
  else .ok (byTenant.set row.key row)

def indexRows (pairs : List JsString) (rows : List BatchRow) :
    Except Failure (JsMap JsString BatchRow) :=
  rows.foldlM (indexRow pairs) .empty

/-- One entry of the summary, and whether its run was read. -/
def summarizeTenant (byTenant : JsMap JsString BatchRow) (now : Int) (tenant : ScopeTenant) :
    TenantSummary × Bool :=
  match tenant.gate with
  | some gate => (unavailable tenant gate.reason, false)
  | none =>
    match byTenant.get? tenant.key with
    | none => (unavailable tenant .noCurrentRun, false)
    | some row =>
      match readRun row now with
      | .error reason => (unavailable tenant reason, false)
      | .ok run => (assessed tenant row run now, true)

def summarizeFleet (scope : SummaryScope) (entries : List (TenantSummary × Bool)) : Fleet :=
  let tenants := entries.map Prod.fst
  let scopeComplete := decide (JsNumber.ofNat tenants.length = scope.totalTenants)
  let complete := scopeComplete && !tenants.isEmpty && tenants.all TenantSummary.complete
  let known := (tenants.map fun tenant => tenant.distinctUserCount.getD 0).sum
  { availability := if complete then .available else if 0 < known then .degraded else .unavailable
    accuracy := if complete then .exact else if 0 < known then .atLeast else .notAvailable
    distinctUserCount := if complete ∨ 0 < known then some known else none
    assessedTenants := entries.countP Prod.snd
    totalTenants := scope.totalTenants
    enumeratedTenants := tenants.length
    scopeComplete := scopeComplete
    limitations := unique (tenants.flatMap TenantSummary.limitations ++
      (if scopeComplete then [] else [.scopeCapped]) ++
      if scope.totalTenants = .ofNat 0 then [.noTenants] else []) }

def eligible (scope : SummaryScope) : List ScopeTenant :=
  scope.tenants.filter fun tenant => tenant.gate.isNone

/-- Without a tenant to ask for there is no query. -/
def queried (scope : SummaryScope) (read : List BatchRow) : List BatchRow :=
  if (eligible scope).isEmpty then [] else read

/-- `read` is what the query returns for the tenants that are not gated. -/
def readNativeRiskSummary (read : List BatchRow) (scope : SummaryScope) (now : Option Date) :
    Except Failure Summary :=
  match now with
  | none => .error .invalidScope
  | some now =>
    if !validSummaryScope scope then .error .invalidScope
    else if (eligible scope).length < (queried scope read).length then .error .invalidRead
    else
      (indexRows ((eligible scope).map ScopeTenant.key) (queried scope read)).map fun byTenant =>
        let entries := scope.tenants.map (summarizeTenant byTenant now.val)
        ⟨IsoTime.toISOString now.val, summarizeFleet scope entries, entries.map Prod.fst⟩

end FleetSummary
