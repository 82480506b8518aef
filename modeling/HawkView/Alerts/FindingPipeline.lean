import HawkView.Alerts.IncidentKey
import HawkView.Alerts.SendTables
import Mathlib.Data.List.Sort

/-!
# The finding pipeline

`decide` takes findings to the incidents, notices and send jobs they call for.
It reads the incidents that are open, the settings of the organizations, the
watermark and the notices that were decided before.
-/

namespace FindingPipeline

open IncidentKey SendTables

inductive Severity
  | actNow | actToday | recordOnly
  deriving DecidableEq, Repr

inductive AlertTypeId
  | suspectedCredentialAttack | privilegedDirectoryChange | routineDirectoryChange
  | tenantDisconnected | collectorFailing | consentExpiring | recovered
  deriving DecidableEq, Repr

def AlertTypeId.text : AlertTypeId → JsString
  | .suspectedCredentialAttack => js "security.suspected_credential_attack"
  | .privilegedDirectoryChange => js "security.privileged_directory_change"
  | .routineDirectoryChange => js "security.routine_directory_change"
  | .tenantDisconnected => js "monitoring.tenant_disconnected"
  | .collectorFailing => js "monitoring.collector_failing"
  | .consentExpiring => js "monitoring.consent_expiring"
  | .recovered => js "monitoring.recovered"

theorem AlertTypeId.text_injective {a b : AlertTypeId} (h : a.text = b.text) : a = b := by
  revert h
  cases a <;> cases b <;> decide

structure AlertTypeDeclaration where
  id : AlertTypeId
  severity : Severity
  summary : JsString

def alertCatalog : List AlertTypeDeclaration := [
  ⟨.suspectedCredentialAttack, .actNow, js "Suspected credential attack"⟩,
  ⟨.privilegedDirectoryChange, .actNow, js "Privileged directory change"⟩,
  ⟨.routineDirectoryChange, .recordOnly, js "Directory change recorded"⟩,
  ⟨.tenantDisconnected, .actNow, js "HawkView cannot see this tenant"⟩,
  ⟨.collectorFailing, .actToday, js "A collector is failing"⟩,
  ⟨.consentExpiring, .actToday, js "Microsoft consent is expiring"⟩,
  ⟨.recovered, .recordOnly, js "Collection recovered"⟩]

/-! ## Rules -/

inductive GuidanceCode
  | reviewAccess | reviewActivity | reviewConfiguration | reviewMailboxRule
  deriving DecidableEq, Repr

/-- The CHECK constraint of the column `rule_id`. -/
def ruleCheck (rule : JsString) : Bool :=
  rule == js "HV-ID-AUTH-005.v2" ||
  [js "EXP", js "CHG", js "APP", js "MBX", js "AUTH"].any fun family =>
    let start := js "HV-ID-" ++ family ++ js "-"
    let number := rule.drop start.length
    rule.startsWith start && (number.take 3).all (fun c => decide (0x30 ≤ c ∧ c ≤ 0x39)) &&
      number.length == 6 && number.drop 3 == js ".v1"

structure RuleId where
  text : JsString
  checked : ruleCheck text = true
  deriving DecidableEq

/-- `investigationGuidanceCode` of every declared rule. -/
def identityRiskRuleCatalog : List (JsString × GuidanceCode) := [
  (js "HV-ID-AUTH-010.v1", .reviewActivity),
  (js "HV-ID-AUTH-005.v2", .reviewActivity),
  (js "HV-ID-AUTH-011.v1", .reviewActivity),
  (js "HV-ID-EXP-001.v1", .reviewAccess),
  (js "HV-ID-EXP-002.v1", .reviewAccess),
  (js "HV-ID-EXP-003.v1", .reviewAccess),
  (js "HV-ID-CHG-001.v1", .reviewAccess),
  (js "HV-ID-CHG-002.v1", .reviewAccess),
  (js "HV-ID-CHG-003.v1", .reviewAccess),
  (js "HV-ID-CHG-004.v1", .reviewAccess),
  (js "HV-ID-CHG-005.v1", .reviewConfiguration),
  (js "HV-ID-APP-001.v1", .reviewConfiguration),
  (js "HV-ID-APP-002.v1", .reviewConfiguration),
  (js "HV-ID-MBX-001.v1", .reviewMailboxRule),
  (js "HV-ID-MBX-002.v1", .reviewMailboxRule),
  (js "HV-ID-MBX-003.v1", .reviewMailboxRule),
  (js "HV-ID-AUTH-001.v1", .reviewActivity),
  (js "HV-ID-AUTH-002.v1", .reviewActivity),
  (js "HV-ID-AUTH-003.v1", .reviewActivity),
  (js "HV-ID-AUTH-004.v1", .reviewActivity),
  (js "HV-ID-AUTH-005.v1", .reviewActivity),
  (js "HV-ID-AUTH-006.v1", .reviewActivity),
  (js "HV-ID-AUTH-007.v1", .reviewActivity),
  (js "HV-ID-AUTH-008.v1", .reviewActivity),
  (js "HV-ID-AUTH-009.v1", .reviewActivity)]

def typeForGuidance : GuidanceCode → Option AlertTypeId
  | .reviewActivity => some .suspectedCredentialAttack
  | .reviewAccess => some .privilegedDirectoryChange
  | .reviewConfiguration => none
  | .reviewMailboxRule => none

def alertTypeForRule (ruleId : RuleId) : Option AlertTypeId :=
  (identityRiskRuleCatalog.lookup ruleId.text).bind typeForGuidance

/-! ## What comes in -/

inductive FindingState
  | «open» | updated | resolved | expired | unknown
  deriving DecidableEq, Repr

inductive SubjectType
  | user | mailbox | application | unknown
  deriving DecidableEq, Repr

def SubjectType.toLowerCase : SubjectType → JsString
  | .user => js "user"
  | .mailbox => js "mailbox"
  | .application => js "application"
  | .unknown => js "unknown"

structure FindingRow where
  id : Uuid
  organizationId : Uuid
  customerTenantId : Uuid
  ruleId : RuleId
  dedupeKey : JsString
  subjectType : SubjectType
  subjectId : JsString
  state : FindingState
  observedAtIso : Millis
  deriving DecidableEq

structure ExistingIncident where
  organizationId : Uuid
  incidentKey : JsString
  deriving DecidableEq

/-- `none` when the configured text is no time: `Date.parse` is then `NaN`. -/
structure Watermark where
  sendNothingObservedBeforeIso : Option Millis

def Watermark.holdsBack (w : Watermark) (observedAt : Millis) : Bool :=
  w.sendNothingObservedBeforeIso.any fun at₀ => decide (observedAt < at₀)

abbrev DispositionKey := JsString

/-- `${organizationId}|${text}`. -/
def scopedText (organizationId : Uuid) (text : JsString) : JsString :=
  organizationId.text ++ 0x7C :: text

theorem scopedText_injective {a b : Uuid} {s t : JsString}
    (h : scopedText a s = scopedText b t) : a = b ∧ s = t := by
  obtain ⟨hab, hst⟩ := Uuid.append_split h
  exact ⟨hab, (List.cons.inj hst).2⟩

def dispositionKey (organizationId : Uuid) (alertTypeId : AlertTypeId) : DispositionKey :=
  scopedText organizationId alertTypeId.text

inductive UnreadableBecause
  | unknownAlertType | unknownDisposition
  deriving DecidableEq, Repr

structure UnreadableDisposition where
  alertTypeId : JsString
  disposition : JsString
  because : UnreadableBecause
  deriving DecidableEq, Repr

structure Dispositions where
  byOrganizationAndAlertType : DispositionKey → Option Severity
  unreadable : List UnreadableDisposition
  anyRecipientByOrganization : Uuid → Option Bool

/-! ## What goes out -/

inductive NotificationCategory
  | error | warning | info
  deriving DecidableEq, Repr

inductive NotificationSeverity
  | critical | high | info
  deriving DecidableEq, Repr

structure NotificationWrite where
  organizationId : Uuid
  customerTenantId : Uuid
  dedupeKey : JsString
  alertTypeId : AlertTypeId
  eventType : AlertTypeId
  category : NotificationCategory
  severity : NotificationSeverity
  title : JsString
  description : JsString
  incidentKey : JsString
  atIso : Millis
  deriving DecidableEq

def notificationTone : Severity → NotificationCategory × NotificationSeverity
  | .actNow => (.error, .critical)
  | .actToday => (.warning, .high)
  | .recordOnly => (.info, .info)

def noticeKeyFor (finding : FindingRow) : JsString := js "identity-risk:" ++ finding.dedupeKey

def scopedNoticeKey (organizationId : Uuid) (dedupeKey : JsString) : JsString :=
  scopedText organizationId dedupeKey

def notificationFor (finding : FindingRow) (alertTypeId : AlertTypeId) (incidentKey : JsString)
    (effectiveTier : Severity) : Option NotificationWrite :=
  (alertCatalog.find? fun type => type.id = alertTypeId).map fun declared =>
    let tone := notificationTone effectiveTier
    { organizationId := finding.organizationId
      customerTenantId := finding.customerTenantId
      dedupeKey := noticeKeyFor finding
      alertTypeId := alertTypeId
      eventType := alertTypeId
      category := tone.1
      severity := tone.2
      title := declared.summary
      description := declared.summary ++ js " — " ++ finding.subjectType.toLowerCase ++
        js " " ++ finding.subjectId ++ js " (" ++ finding.ruleId.text ++ js ")."
      incidentKey := incidentKey
      atIso := finding.observedAtIso }

inductive Ownership
  | unacknowledged | acknowledged
  deriving DecidableEq, Repr

inductive Condition
  | active | cleared | unknown
  deriving DecidableEq, Repr

inductive Investigation
  | «open» | resolved | none
  deriving DecidableEq, Repr

structure IncidentWrite where
  organizationId : Uuid
  incidentKey : JsString
  alertTypeId : AlertTypeId
  ownership : Ownership
  condition : Condition
  investigation : Investigation
  atIso : Millis
  deriving DecidableEq

structure SendJobWrite where
  messageId : MessageId
  idempotencyKey : IdempotencyKey
  organizationId : Uuid
  incidentKey : JsString
  maxAttempts : Nat
  notBeforeIso : Millis
  deriving DecidableEq

inductive SkipReason
  | notOpen | noAlertType | beforeWatermark | incidentAlreadyOpen | noEligibleRecipient
  | recordOnly
  deriving DecidableEq, Repr

structure Skipped where
  findingId : Uuid
  because : SkipReason
  deriving DecidableEq

inductive WithheldBecause
  | recordOnly
  deriving DecidableEq, Repr

structure WithheldNoticeWrite where
  organizationId : Uuid
  dedupeKey : JsString
  alertTypeId : AlertTypeId
  findingId : Uuid
  because : WithheldBecause
  deriving DecidableEq

structure PipelineDecision where
  incidents : List IncidentWrite
  notifications : List NotificationWrite
  jobs : List SendJobWrite
  withheld : List WithheldNoticeWrite
  skipped : List Skipped
  unmappedRules : List RuleId
  accountingProblems : List JsString

def defaultDispositionFor (alertTypeId : AlertTypeId) : Severity :=
  match alertCatalog.find? fun type => type.id = alertTypeId with
  | none => .recordOnly
  | some declared => declared.severity

/-! ## The decision -/

/-- What `decide` reads besides the findings and the open incidents. -/
structure Context where
  dispositions : Dispositions
  watermark : Watermark
  tickAtIso : Millis
  alreadyDecided : List JsString

def incidentKeyOf (finding : FindingRow) (alertTypeId : AlertTypeId) : JsString :=
  match incidentGrouping ⟨alertTypeId.text, .account⟩
      ⟨finding.organizationId.text, finding.customerTenantId.text⟩
      (.resolved finding.subjectId) with
  | .groups key => key
  | .alone _ _ => js "ungrouped:" ++ finding.id.text

namespace Context

variable (c : Context)

def effectiveTier (finding : FindingRow) (alertTypeId : AlertTypeId) : Severity :=
  (c.dispositions.byOrganizationAndAlertType
    (dispositionKey finding.organizationId alertTypeId)).getD (defaultDispositionFor alertTypeId)

def decidedBefore (finding : FindingRow) : Bool :=
  decide (scopedNoticeKey finding.organizationId (noticeKeyFor finding) ∈ c.alreadyDecided)

end Context

def withheldFor (finding : FindingRow) (alertTypeId : AlertTypeId) : WithheldNoticeWrite where
  organizationId := finding.organizationId
  dedupeKey := noticeKeyFor finding
  alertTypeId := alertTypeId
  findingId := finding.id
  because := .recordOnly

def incidentFor (finding : FindingRow) (alertTypeId : AlertTypeId) : IncidentWrite where
  organizationId := finding.organizationId
  incidentKey := incidentKeyOf finding alertTypeId
  alertTypeId := alertTypeId
  ownership := .unacknowledged
  condition := .active
  investigation := .open
  atIso := finding.observedAtIso

/-- `incident/${scoped}`. -/
def messageIdFor (organizationId : Uuid) (incidentKey : JsString) : MessageId :=
  js "incident/" ++ scopedText organizationId incidentKey

def jobFor (c : Context) (finding : FindingRow) (alertTypeId : AlertTypeId) : SendJobWrite where
  messageId := messageIdFor finding.organizationId (incidentKeyOf finding alertTypeId)
  idempotencyKey := messageIdFor finding.organizationId (incidentKeyOf finding alertTypeId)
  organizationId := finding.organizationId
  incidentKey := incidentKeyOf finding alertTypeId
  maxAttempts := 3
  notBeforeIso := c.tickAtIso

/-- The lists and sets that the loop of `decide` fills. -/
structure Progress where
  opened : List JsString
  incidents : List IncidentWrite
  notifications : List NotificationWrite
  withheld : List WithheldNoticeWrite
  jobs : List SendJobWrite
  skipped : List Skipped
  unmapped : List RuleId

namespace Progress

variable (s : Progress)

def skip (finding : FindingRow) (because : SkipReason) : Progress :=
  { s with skipped := s.skipped ++ [⟨finding.id, because⟩] }

/-- The notice of a finding, unless it was decided before. -/
def notice (c : Context) (finding : FindingRow) (alertTypeId : AlertTypeId) : Progress :=
  if c.decidedBefore finding then s
  else if c.effectiveTier finding alertTypeId = .recordOnly then
    { s with withheld := s.withheld ++ [withheldFor finding alertTypeId] }
  else
    match notificationFor finding alertTypeId (incidentKeyOf finding alertTypeId)
        (c.effectiveTier finding alertTypeId) with
    | none => s
    | some notification => { s with notifications := s.notifications ++ [notification] }

/-- Whether anybody is told of an incident that has just been opened. -/
def tell (c : Context) (finding : FindingRow) (alertTypeId : AlertTypeId) : Progress :=
  if c.watermark.holdsBack finding.observedAtIso then s.skip finding .beforeWatermark
  else if c.effectiveTier finding alertTypeId = .recordOnly then s.skip finding .recordOnly
  else if c.dispositions.anyRecipientByOrganization finding.organizationId ≠ some true then
    s.skip finding .noEligibleRecipient
  else { s with jobs := s.jobs ++ [jobFor c finding alertTypeId] }

/-- The body of the loop of `decide`. -/
def visit (c : Context) (finding : FindingRow) : Progress :=
  if finding.state ≠ .open then s.skip finding .notOpen
  else
    match alertTypeForRule finding.ruleId with
    | none => { s with unmapped := s.unmapped.insert finding.ruleId }.skip finding .noAlertType
    | some alertTypeId =>
      let scopedKey := scopedText finding.organizationId (incidentKeyOf finding alertTypeId)
      let s := s.notice c finding alertTypeId
      if scopedKey ∈ s.opened then s.skip finding .incidentAlreadyOpen
      else
        { s with
          incidents := s.incidents ++ [incidentFor finding alertTypeId]
          opened := s.opened ++ [scopedKey] }.tell c finding alertTypeId

end Progress

def start (existing : List ExistingIncident) : Progress where
  opened := existing.map fun each => scopedText each.organizationId each.incidentKey
  incidents := []
  notifications := []
  withheld := []
  jobs := []
  skipped := []
  unmapped := []

def accountingProblem (findings jobs skipped : Nat) : JsString :=
  JsString.decimal findings ++ js " findings in, " ++ JsString.decimal (jobs + skipped) ++
  js " accounted for (" ++ JsString.decimal jobs ++ js " produced a job, " ++
  JsString.decimal skipped ++
  js " named as skipped) — a finding must appear exactly once, or one " ++
  js "vanished without anybody being able to say why."

/-- `[...set].sort()`. -/
def sortedRules (rules : List RuleId) : List RuleId :=
  rules.insertionSort fun a b => a.text ≤ b.text

protected def decide (findings : List FindingRow) (existing : List ExistingIncident) (c : Context) :
    PipelineDecision :=
  let s := findings.foldl (fun s finding => s.visit c finding) (start existing)
  { incidents := s.incidents
    notifications := s.notifications
    jobs := s.jobs
    withheld := s.withheld
    skipped := s.skipped
    unmappedRules := sortedRules s.unmapped
    accountingProblems :=
      if s.jobs.length + s.skipped.length = findings.length then []
      else [accountingProblem findings.length s.jobs.length s.skipped.length] }

end FindingPipeline
