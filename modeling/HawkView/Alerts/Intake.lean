import HawkView.Alerts.FindingDecision
import HawkView.Alerts.PipelineStore

/-!
# The intake

One tick reads the findings, decides them chunk by chunk and commits each chunk
in a transaction of its own. What the clock, the reads and the transactions
answer is part of the tick. A tick also keeps the decisions it has committed.
-/

namespace Intake

open IncidentKey SendTables FindingPipeline FindingDecision PipelineStore

def maxFindingsPerTick : Nat := 5000

def findingsPerChunk : Nat := 200

structure Tick where
  watermark : Watermark
  tickAtIso : Millis
  /-- The answers to `now() >= deadlineAt`, in the order in which the tick asks. -/
  late : Nat → Bool
  findings : Except JsString (List FindingRow)
  dispositions : Except JsString Dispositions
  unknownAlertTypes : Option Nat
  transaction : Nat → TransactionAnswer

structure IntakeReport where
  findingsRead : Nat
  incidentsWritten : Nat
  notificationsWritten : Nat
  jobsWritten : Nat
  noticesWithheld : Nat
  skipped : List Skipped
  unmappedRules : List RuleId
  unreadableDispositions : List UnreadableDisposition
  notificationsWithUnknownAlertType : Nat
  accountingProblems : List JsString
  yieldedOnBudget : Bool
  truncated : Bool
  chunksCommitted : Nat
  findingsUnprocessed : Nat

inductive IntakePhase
  | reading | loading | writing
  deriving DecidableEq, Repr

structure AttemptedWork where
  findingsRead : Nat
  incidents : Nat
  notifications : Nat
  jobs : Nat
  deriving DecidableEq, Repr

inductive IntakeOutcome
  | ran (report : IntakeReport)
  | failed (phase : IntakePhase) (because : JsString) (attempted : AttemptedWork)

def nothingAttempted : AttemptedWork := ⟨0, 0, 0, 0⟩

def emptyReport (yielded : Bool) (findingsRead : Nat) : IntakeReport where
  findingsRead := findingsRead
  incidentsWritten := 0
  notificationsWritten := 0
  jobsWritten := 0
  noticesWithheld := 0
  skipped := []
  unmappedRules := []
  unreadableDispositions := []
  notificationsWithUnknownAlertType := 0
  accountingProblems := []
  yieldedOnBudget := yielded
  truncated := false
  chunksCommitted := 0
  findingsUnprocessed := 0

/-- What a tick leaves behind. -/
structure TickResult where
  tables : PipelineTables
  outcome : IntakeOutcome
  committed : List PipelineDecision

/-- What the loop over the chunks carries along. -/
structure Loop where
  tables : PipelineTables
  opened : List ExistingIncident
  skipped : List Skipped
  unmapped : List RuleId
  accountingProblems : List JsString
  written : Written
  chunksCommitted : Nat
  processed : Nat
  committed : List PipelineDecision

/-- What the loop reads and does not change. -/
structure LoopContext where
  tick : Tick
  dispositions : Dispositions
  alreadyDecided : List JsString
  findingsRead : Nat
  truncated : Bool
  unknownAlertTypes : Nat

namespace LoopContext

variable (l : LoopContext)

def context : Context where
  dispositions := l.dispositions
  watermark := l.tick.watermark
  tickAtIso := l.tick.tickAtIso
  alreadyDecided := l.alreadyDecided

def report (s : Loop) (yielded : Bool) : IntakeReport where
  findingsRead := l.findingsRead
  incidentsWritten := s.written.incidentsWritten
  notificationsWritten := s.written.notificationsWritten
  jobsWritten := s.written.jobsWritten
  noticesWithheld := s.written.noticesWithheld
  skipped := s.skipped
  unmappedRules := sortedRules s.unmapped
  unreadableDispositions := l.dispositions.unreadable
  notificationsWithUnknownAlertType := l.unknownAlertTypes
  accountingProblems := s.accountingProblems
  yieldedOnBudget := yielded
  truncated := l.truncated
  chunksCommitted := s.chunksCommitted
  findingsUnprocessed := l.findingsRead - s.processed

end LoopContext

def Written.add (a b : Written) : Written where
  incidentsWritten := a.incidentsWritten + b.incidentsWritten
  notificationsWritten := a.notificationsWritten + b.notificationsWritten
  jobsWritten := a.jobsWritten + b.jobsWritten
  noticesWithheld := a.noticesWithheld + b.noticesWithheld

/-- The loop after a chunk was committed. -/
def Loop.after (s : Loop) (chunk : List FindingRow) (decision : PipelineDecision)
    (tables : PipelineTables) (written : Written) : Loop where
  tables := tables
  opened := s.opened ++ decision.incidents.map fun each =>
    ⟨each.organizationId, each.incidentKey⟩
  skipped := s.skipped ++ decision.skipped
  unmapped := decision.unmappedRules.foldl (fun rules rule => rules.insert rule) s.unmapped
  accountingProblems := s.accountingProblems ++ decision.accountingProblems
  written := Written.add s.written written
  chunksCommitted := s.chunksCommitted + 1
  processed := s.processed + chunk.length
  committed := s.committed ++ [decision]

/-- The loop over the chunks. The clock was asked three times before it. -/
def LoopContext.run (l : LoopContext) : Loop → List (List FindingRow) → TickResult
  | s, [] => ⟨s.tables, .ran (l.report s false), s.committed⟩
  | s, chunk :: rest =>
    if l.tick.late (3 + s.chunksCommitted) then
      ⟨s.tables, .ran (l.report s true), s.committed⟩
    else
      let decision := FindingPipeline.decide chunk s.opened l.context
      match commit s.tables (l.tick.transaction s.chunksCommitted) decision with
      | .error because => ⟨s.tables, .failed .writing because
          ⟨chunk.length, decision.incidents.length, decision.notifications.length,
            decision.jobs.length⟩, s.committed⟩
      | .ok (tables, written) => l.run (s.after chunk decision tables written) rest

/-- `slice(at, at + size)` for every multiple `at` of the size. -/
def chunks {α : Type} (size : Nat) (xs : List α) : List (List α) :=
  (List.range ((xs.length + size - 1) / size)).map fun i => (xs.drop (i * size)).take size

/-- The distinct organizations of the findings, in the order of their first finding. -/
def organizationIds (findings : List FindingRow) : List Uuid :=
  (findings.map (·.organizationId)).eraseDups

def Loop.start (t : PipelineTables) (existing : List ExistingIncident) : Loop where
  tables := t
  opened := existing
  skipped := []
  unmapped := []
  accountingProblems := []
  written := ⟨0, 0, 0, 0⟩
  chunksCommitted := 0
  processed := 0
  committed := []

/-- The part of a tick after the findings are read. -/
def runFindings (t : PipelineTables) (tick : Tick) (truncated : Bool)
    (findings : List FindingRow) : TickResult :=
  if findings.isEmpty then ⟨t, .ran { emptyReport false 0 with truncated := truncated }, []⟩
  else if tick.late 1 then
    ⟨t, .ran { emptyReport true findings.length with truncated := truncated }, []⟩
  else
    match tick.dispositions with
    | .error because =>
      ⟨t, .failed .loading because { nothingAttempted with findingsRead := findings.length }, []⟩
    | .ok dispositions =>
      if tick.late 2 then
        ⟨t, .ran { emptyReport true findings.length with
          truncated := truncated, findingsUnprocessed := findings.length }, []⟩
      else
        let organizationIds := organizationIds findings
        let l : LoopContext :=
          { tick := tick
            dispositions := dispositions
            alreadyDecided :=
              findDecidedNoticeKeys t organizationIds (findings.map noticeKeyFor)
            findingsRead := findings.length
            truncated := truncated
            unknownAlertTypes := tick.unknownAlertTypes.getD 0 }
        l.run (.start t (findExistingIncidents t organizationIds))
          (chunks findingsPerChunk findings)

def runIntake (t : PipelineTables) (tick : Tick) : TickResult :=
  if tick.late 0 then ⟨t, .ran (emptyReport true 0), []⟩
  else
    match tick.findings with
    | .error because => ⟨t, .failed .reading because nothingAttempted, []⟩
    | .ok read =>
      runFindings t tick (decide (maxFindingsPerTick < read.length))
        (read.take maxFindingsPerTick)

/-! ## Sample ticks -/

def sampleOrganization : Uuid := ⟨js "0a000000-0000-4000-8000-000000000001", by decide⟩

def sampleTenant : Uuid := ⟨js "0b000000-0000-4000-8000-000000000001", by decide⟩

def otherTenant : Uuid := ⟨js "0b000000-0000-4000-8000-000000000002", by decide⟩

/-- Repeated invalid-credential attempts. -/
def attemptsRule : RuleId := ⟨js "HV-ID-AUTH-010.v1", by decide⟩

/-- A privileged identity with an MFA enforcement gap. -/
def exposureRule : RuleId := ⟨js "HV-ID-EXP-001.v1", by decide⟩

/-- A rule without an alert type. -/
def applicationRule : RuleId := ⟨js "HV-ID-APP-001.v1", by decide⟩

def sampleFinding (ruleId : RuleId) (tenant : Uuid) : FindingRow where
  id := ⟨js "0c000000-0000-4000-8000-000000000001", by decide⟩
  organizationId := sampleOrganization
  customerTenantId := tenant
  ruleId := ruleId
  dedupeKey := js "d1"
  subjectType := .user
  subjectId := js "u1"
  state := .open
  observedAtIso := 1000

/-- The organization has turned credential attacks off and can be reached by mail. -/
def sampleDispositions : Dispositions where
  byOrganizationAndAlertType key :=
    if key = dispositionKey sampleOrganization .suspectedCredentialAttack then some .recordOnly
    else none
  unreadable := []
  anyRecipientByOrganization _ := some true

/-- A tick that is in time and whose reads and transactions succeed. -/
def sampleTick (findings : List FindingRow) : Tick where
  watermark := ⟨some 0⟩
  tickAtIso := 2000
  late _ := false
  findings := .ok findings
  dispositions := .ok sampleDispositions
  unknownAlertTypes := some 0
  transaction _ := ⟨false, [], 2000000⟩

end Intake
