import HawkView.IdentityRisk.SignalContext

/-!
# The gate of the identity rules

A candidate is evaluated when its rule is enabled, its evidence is complete and current, and the
catalogs that the rule needs are approved. The results have one form for every rule.
-/

namespace IdentitySignal

open Json

/-! ## Definitions of the rules -/

inductive RuleFamily
  | exposure | change | application | mailbox | authentication
  deriving DecidableEq, Repr

/-- `sourceLabels`. -/
def RuleFamily.sourceLabels : RuleFamily → List JsString
  | .exposure => [js "Microsoft Entra directory configuration"]
  | .change => [js "Microsoft Entra administrative change evidence"]
  | .application => [js "Microsoft Entra application configuration"]
  | .mailbox => [js "Microsoft Exchange mailbox-rule evidence"]
  | .authentication => [js "Microsoft Entra sign-in evidence"]

structure RuleDefinition where
  family : RuleFamily
  requiredCatalogs : List CatalogType
  requiresFullCapability : Bool
  titleCode : JsString

def identitySignalRuleDefinition : IdentitySignalRuleId → RuleDefinition
  | .exp001 => ⟨.exposure, [.privilegedRoleGroup], false, js "PRIVILEGED_IDENTITY_MFA_EXPOSURE"⟩
  | .exp002 => ⟨.exposure, [.privilegedRoleGroup], false, js "PRIVILEGED_GUEST_EXPOSURE"⟩
  | .exp003 =>
    ⟨.exposure, [.privilegedRoleGroup, .accountClass], true, js "DORMANT_PRIVILEGED_IDENTITY"⟩
  | .chg001 => ⟨.change, [.privilegedRoleGroup], false, js "LIFECYCLE_THEN_PRIVILEGE"⟩
  | .chg002 => ⟨.change, [.privilegedRoleGroup], false, js "GUEST_OR_NEW_IDENTITY_PRIVILEGED"⟩
  | .chg003 => ⟨.change, [.highImpactOperation], false, js "PRIVILEGED_CHANGE_BURST"⟩
  | .chg004 => ⟨.change, [.highImpactOperation], false, js "UNUSUAL_PRIVILEGED_CHANGE"⟩
  | .chg005 => ⟨.change, [], false, js "IDENTITY_PROTECTION_WEAKENED"⟩
  | .app001 => ⟨.application, [.highImpactApplicationPermission], false,
      js "NEW_APPLICATION_HIGH_IMPACT_PERMISSION"⟩
  | .app002 => ⟨.application, [.highImpactApplicationPermission], false,
      js "APPLICATION_CREDENTIAL_METADATA_CHANGED"⟩
  | .mbx001 => ⟨.mailbox, [], false, js "EXTERNAL_FORWARDING_OR_REDIRECT"⟩
  | .mbx002 => ⟨.mailbox, [], false, js "MAILBOX_CONCEALMENT_RULE"⟩
  | .mbx003 => ⟨.mailbox, [], true, js "MAILBOX_CHANGE_AFTER_AUTH_SIGNAL"⟩
  | .auth001 => ⟨.authentication, [], true, js "DISABLED_ACCOUNT_ACTIVITY"⟩
  | .auth002 => ⟨.authentication, [.accountClass], true, js "DORMANT_ACCOUNT_ACTIVITY"⟩
  | .auth003 => ⟨.authentication, [.accountClass, .networkContext], true,
      js "UNFAMILIAR_SIGN_IN_PROPERTIES"⟩
  | .auth004 => ⟨.authentication, [.networkContext], true, js "ATYPICAL_TRAVEL"⟩
  | .auth005 => ⟨.authentication, [.accountClass, .networkContext], true,
      js "FAILURE_BURST_THEN_SUCCESS"⟩
  | .auth006 => ⟨.authentication, [], true, js "MFA_DENIAL_BURST_THEN_SUCCESS"⟩
  | .auth007 => ⟨.authentication, [.privilegedRoleGroup, .legacyClient], true,
      js "PRIVILEGED_LEGACY_AUTHENTICATION"⟩
  | .auth008 => ⟨.authentication, [.accountClass, .networkContext], true,
      js "PASSWORD_SPRAY_THEN_SUCCESS"⟩
  | .auth009 => ⟨.authentication, [.accountClass, .networkContext], true,
      js "UNEXPECTED_BREAK_GLASS_USE"⟩

/-- `RULE_MAX_EVIDENCE_AGE_HOURS`. -/
def maxEvidenceAgeHours : IdentitySignalRuleId → Nat
  | .chg001 => 24
  | .chg003 | .chg004 | .mbx003 => 2
  | .auth002 | .auth003 | .auth004 | .auth005 | .auth006 | .auth008 | .auth009 => 2
  | _ => 36

/-! ## Results -/

inductive ReasonCode
  | ruleFeatureDisabled | ruleConfigUnapproved | evidenceUnavailable | evidencePartial
  | evidenceStale | evidenceFutureDated | evidenceMalformed | evidenceCapped
  | accountClassUnverified | accountClassUnsupported | accountClassCoverageIncomplete
  | approvedSharedContext | expectedAuthRetry | noMatch | ruleMatched
  deriving DecidableEq, Repr

def ReasonCode.text : ReasonCode → JsString
  | .ruleFeatureDisabled => js "RULE_FEATURE_DISABLED"
  | .ruleConfigUnapproved => js "RULE_CONFIG_UNAPPROVED"
  | .evidenceUnavailable => js "EVIDENCE_UNAVAILABLE"
  | .evidencePartial => js "EVIDENCE_PARTIAL"
  | .evidenceStale => js "EVIDENCE_STALE"
  | .evidenceFutureDated => js "EVIDENCE_FUTURE_DATED"
  | .evidenceMalformed => js "EVIDENCE_MALFORMED"
  | .evidenceCapped => js "EVIDENCE_CAPPED"
  | .accountClassUnverified => js "ACCOUNT_CLASS_UNVERIFIED"
  | .accountClassUnsupported => js "ACCOUNT_CLASS_UNSUPPORTED"
  | .accountClassCoverageIncomplete => js "ACCOUNT_CLASS_COVERAGE_INCOMPLETE"
  | .approvedSharedContext => js "APPROVED_SHARED_CONTEXT"
  | .expectedAuthRetry => js "EXPECTED_AUTH_RETRY"
  | .noMatch => js "NO_MATCH"
  | .ruleMatched => js "RULE_MATCHED"

inductive SignalStatus
  | hit | notMatched | notEvaluated | suppressed
  deriving DecidableEq, Repr

inductive Confidence
  | low | medium | high
  deriving DecidableEq, Repr

structure SignalResult where
  ruleId : IdentitySignalRuleId
  subject : IdentitySignalSubject
  status : SignalStatus
  severity : Option Severity
  confidence : Option Confidence
  coverage : Coverage
  reasonCodes : List JsString
  evidenceReferences : List JsString
  sourceLabels : List JsString
  titleCode : JsString
  explanationCode : JsString
  investigationGuidanceCode : Option JsString
  benignAlternativeCodes : List JsString
  deriving DecidableEq

/-- What a rule decides of a result. -/
structure ResultValues where
  status : SignalStatus
  severity : Option Severity
  confidence : Option Confidence
  coverage : Coverage
  reasonCodes : List ReasonCode
  explanationCode : JsString
  benignAlternativeCodes : List JsString

def projectedSubject (candidate : IdentitySignalCandidate) : IdentitySignalSubject :=
  { candidate.subject with
    opaqueId := if isOpaqueIdentityReference 256 candidate.subject.opaqueId then
        candidate.subject.opaqueId
      else js "INVALID_SUBJECT_REFERENCE" }

def result (candidate : IdentitySignalCandidate) (values : ResultValues) : SignalResult :=
  let definition := identitySignalRuleDefinition candidate.ruleId
  { ruleId := candidate.ruleId
    subject := projectedSubject candidate
    status := values.status
    severity := values.severity
    confidence := values.confidence
    coverage := values.coverage
    reasonCodes := sortedUnique (values.reasonCodes.map ReasonCode.text)
    evidenceReferences :=
      if values.status = .hit then sortedUnique candidate.evidenceReferences else []
    sourceLabels := if values.status = .hit then definition.family.sourceLabels else []
    titleCode := definition.titleCode
    explanationCode := values.explanationCode
    investigationGuidanceCode :=
      if values.status = .hit then some (js "REVIEW_IDENTITY_SIGNAL_EVIDENCE") else none
    benignAlternativeCodes := values.benignAlternativeCodes.insertionSort (· ≤ ·) }

def notEvaluated (candidate : IdentitySignalCandidate) (reason : ReasonCode)
    (coverage : Coverage) : SignalResult :=
  result candidate
    ⟨.notEvaluated, none, none, coverage, [reason], js "IDENTITY_SIGNAL_NOT_EVALUATED", []⟩

def notMatched (candidate : IdentitySignalCandidate) : SignalResult :=
  result candidate
    ⟨.notMatched, none, none, .full, [.noMatch], js "IDENTITY_SIGNAL_CONDITION_NOT_OBSERVED", []⟩

/-- `matched`. -/
def matchedResult (candidate : IdentitySignalCandidate) (severity : Severity)
    (explanationCode : JsString) (benignAlternativeCodes : List JsString)
    (confidence : Confidence) : SignalResult :=
  result candidate ⟨.hit, some severity, some confidence, .full, [.ruleMatched], explanationCode,
    benignAlternativeCodes⟩

def suppressed (candidate : IdentitySignalCandidate) (reason : ReasonCode) : SignalResult :=
  result candidate ⟨.suppressed, none, none, .full, [reason],
    js "IDENTITY_SIGNAL_SUPPRESSED_BY_APPROVED_CONTEXT", []⟩

/-! ## The gate -/

def semanticTimestamps : RuleFields → List JsString
  | .exp001 .. | .exp002 .. | .chg004 .. | .chg005 .. | .app002 .. | .mbx001 .. | .mbx002 ..
  | .auth003 .. | .auth007 .. => []
  | .exp003 _ _ _ last => last.toList
  | .chg001 _ lifecycleAt privilegeAt _ _ => [lifecycleAt, privilegeAt]
  | .chg002 _ createdAt privilegeAt _ _ => createdAt.toList ++ [privilegeAt]
  | .chg003 anchorAt _ events => anchorAt :: events.map ChangeEvent.occurredAt
  | .app001 _ createdAt observedAt => createdAt.toList ++ [observedAt]
  | .mbx003 _ mailboxChangeAt independentSignInAt _ _ => [mailboxChangeAt, independentSignInAt]
  | .auth001 disabledAt activityAt _ => [disabledAt, activityAt]
  | .auth002 _ eventAt last _ => eventAt :: last.toList
  | .auth004 _ previous current => [previous.occurredAt, current.occurredAt]
  | .auth005 events => events.map AuthEvent.occurredAt
  | .auth006 events _ => events.map AuthEvent.occurredAt
  | .auth008 events _ => events.map AuthEvent.occurredAt
  | .auth009 _ occurredAt => [occurredAt]

def hourMs : Int := 60 * 60 * 1000

/-- What is wrong with the instants that a rule looks at, the first first. -/
def instantFailure (latest : Int) (timestamps : List JsString) : Option (ReasonCode × Coverage) :=
  timestamps.findSome? fun s =>
    match parseTime s with
    | none => some (.evidenceMalformed, .unavailable)
    | some t => if latest < t then some (.evidenceFutureDated, .unavailable) else none

/-- What is wrong with one item of evidence. -/
def evidenceFailure (maximum : Nat) (now latest : Int) (evidence : EvidenceRequirement) :
    Option (ReasonCode × Coverage) :=
  match parseTime evidence.observedAt, evidence.maxAgeHours with
  | some observedAt, .finite hours =>
    if hours ≤ 0 ∨ (maximum : ℚ) < hours then some (.evidenceMalformed, .unavailable)
    else if latest < observedAt then some (.evidenceFutureDated, .unavailable)
    else if hours * hourMs < ((now - observedAt : Int) : ℚ) then some (.evidenceStale, .incomplete)
    else none
  | _, _ => some (.evidenceMalformed, .unavailable)

/-- What is wrong with the instants, the evidence or the catalogs of a candidate. -/
def evidenceGate (sha256 : JsString → JsString) (context : EvaluationContext)
    (candidate : IdentitySignalCandidate) (now : Int) (tolerance : Nat) :
    Option (ReasonCode × Coverage) :=
  (instantFailure (now + tolerance) (semanticTimestamps candidate.rule)).or <|
  if candidate.evidence = [] then some (.evidenceUnavailable, .unavailable)
  else
    (candidate.evidence.findSome? (evidenceFailure (maxEvidenceAgeHours candidate.ruleId) now
      (now + tolerance))).or <|
    if (identitySignalRuleDefinition candidate.ruleId).requiredCatalogs.all fun type =>
        (catalogFor sha256 context type).isSome then none
    else some (.ruleConfigUnapproved, .unavailable)

/-- What keeps a candidate from being evaluated. -/
def gateFailure (sha256 : JsString → JsString) (context : EvaluationContext)
    (candidate : IdentitySignalCandidate) : Option (ReasonCode × Coverage) :=
  let definition := identitySignalRuleDefinition candidate.ruleId
  if context.engineVersion ≠ riskEngineVersion ∨ context.catalogVersion ≠ signalCatalogVersion then
    some (.ruleConfigUnapproved, .unavailable)
  else if (context.featureFlags.bind fun flags => flags.lookup candidate.ruleId) ≠ some true then
    some (.ruleFeatureDisabled, .unavailable)
  else if context.readiness ≠ .ready ∨ candidate.evidenceState = .unavailable then
    some (.evidenceUnavailable, .unavailable)
  else if context.capability = .unavailable then some (.evidenceUnavailable, .unavailable)
  else if context.capability = .incomplete ∨ candidate.evidenceState = .incomplete ∨
      ((candidate.requiresFullCapability = some true ∨ definition.requiresFullCapability = true) ∧
        context.capability ≠ .full) then
    some (.evidencePartial, .incomplete)
  else if candidate.evidenceState = .capped then some (.evidenceCapped, .incomplete)
  else if candidate.evidenceState = .malformed then some (.evidenceMalformed, .unavailable)
  else
    match parseTime context.evaluatedAt, context.futureClockSkewToleranceMs with
    | some now, some tolerance =>
      if 300000 < tolerance then some (.ruleConfigUnapproved, .unavailable)
      else evidenceGate sha256 context candidate now tolerance
    | _, _ => some (.ruleConfigUnapproved, .unavailable)

def gate (sha256 : JsString → JsString) (context : EvaluationContext)
    (candidate : IdentitySignalCandidate) : Option SignalResult :=
  (gateFailure sha256 context candidate).map fun failure =>
    notEvaluated candidate failure.1 failure.2

/-- `requireHumanClass`, as the reason that the account is not one. -/
def requireHumanClass (sha256 : JsString → JsString) (context : EvaluationContext)
    (candidate : IdentitySignalCandidate) : Option ReasonCode :=
  match accountClass sha256 context candidate.subject.opaqueId with
  | .unknown => some .accountClassUnverified
  | .service | .shared | .breakGlass => some .accountClassUnsupported
  | .human | .privilegedHuman => none

/-! ## What the gate promises -/

end IdentitySignal
