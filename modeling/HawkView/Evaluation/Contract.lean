import HawkView.Lib.JsNumber
import HawkView.Lib.JsString

/-!
# What an assessment says

Events arrive classified and counted. An assessment is the findings of the
detectors, a count of the people they are about, and every reason that the
count is not exact.
-/

namespace EvaluationContract

/-- What the collector asked the provider for. -/
inductive CollectionScope
  | declared (asked : JsString)
  | undeclared
  deriving DecidableEq, Repr

/-- `Readonly<Record<string, number>>` of counts, as its entries. -/
abbrev Counts := List (JsString × Nat)

structure Coverage where
  collectionScope : CollectionScope
  applies : Nat
  doesNotApply : Counts
  notYetCited : Counts
  unknown : Counts
  unprocessable : Counts
  deriving DecidableEq, Repr

inductive SetAsideVocabulary
  | doesNotApply | notYetCited | unknown | unprocessable
  deriving DecidableEq, Repr

structure SetAside where
  vocabulary : SetAsideVocabulary
  reason : JsString
  count : Nat
  deriving DecidableEq, Repr

structure NotCovered where
  detectorId : JsString
  because : JsString
  deriving DecidableEq, Repr

structure CountScope where
  evidenceRequested : List JsString
  setAside : List SetAside
  covered : List JsString
  notCovered : List NotCovered
  deriving DecidableEq, Repr

inductive Count
  | exact (value : Nat) (scope : CountScope)
  | atLeast (value : Nat) (scope : CountScope)
  | notAvailable (scope : CountScope)
  deriving DecidableEq, Repr

def Count.scope : Count → CountScope
  | .exact _ scope => scope
  | .atLeast _ scope => scope
  | .notAvailable scope => scope

inductive EvidenceState
  | neverCollected | unreadableNow | fullyInterpreted | partiallyUninterpretable
  deriving DecidableEq, Repr

inductive WithheldReason
  | neverCollected | unreadableNow | uninterpretedEvents | nothingApplicable
  | capacityExceeded | detectorFailed | unresolvedSubjectIdentity
  | collectionScopeUndeclared | noCheckExaminedEvidence
  deriving DecidableEq, Repr

/-- A claim that is not permitted has at least one reason. -/
inductive ZeroClaim
  | permitted
  | withheld (first : WithheldReason) (rest : List WithheldReason)
  deriving DecidableEq, Repr

def ZeroClaim.reasons : ZeroClaim → List WithheldReason
  | .permitted => []
  | .withheld first rest => first :: rest

def ZeroClaim.isPermitted : ZeroClaim → Bool
  | .permitted => true
  | .withheld _ _ => false

/-! ## Findings -/

inductive MatchedBy
  | directoryObjectId | userPrincipalName
  deriving DecidableEq, Repr

inductive CorrelationRef
  | available (matchedBy : MatchedBy) (ref : JsString)
  | unavailable (because : JsString)
  deriving DecidableEq, Repr

inductive MailboxBinding
  | resolvedNegative | unresolved
  deriving DecidableEq, Repr

inductive Subject
  | directoryUser (userRef : JsString) (correlation : CorrelationRef)
  | mailbox (mailboxRef : JsString) (binding : MailboxBinding)
  deriving DecidableEq, Repr

inductive SourceKind
  | graphSignIns | m365AuditSts
  deriving DecidableEq, Repr

inductive SubjectBinding
  | directoryObjectId | normalizedUpn
  deriving DecidableEq, Repr

structure SourceEventReference where
  organizationId : JsString
  customerTenantId : JsString
  source : SourceKind
  eventId : JsString
  eventAt : JsString
  subjectRef : JsString
  subjectBinding : SubjectBinding
  deriving DecidableEq, Repr

inductive RecencyKind
  | eventOccurred | stateObserved
  deriving DecidableEq, Repr

structure SignalRecency where
  at₀ : JsString
  kind : RecencyKind
  deriving DecidableEq, Repr

structure DetectorSignal where
  signal : JsString
  count : JsNumber
  latest : Option SignalRecency
  sourceEvent : Option SourceEventReference
  deriving DecidableEq

/-- A signal, and whether its count is only a floor. -/
structure FindingSignal extends DetectorSignal where
  capped : Bool
  deriving DecidableEq

/-- Rests on at least one signal. -/
structure DetectorFinding where
  detectorId : JsString
  subject : Subject
  firstSignal : DetectorSignal
  restSignals : List DetectorSignal
  deriving DecidableEq

structure Finding where
  detectorId : JsString
  subject : Subject
  firstSignal : FindingSignal
  restSignals : List FindingSignal
  deriving DecidableEq

inductive FindingGap
  | windowTruncated | detectorFailed | checkNotRun | evidenceRequestUnknown
  deriving DecidableEq, Repr

/-- Complete when there is no gap. -/
structure FindingSet where
  items : List Finding
  because : List FindingGap
  deriving DecidableEq

/-! ## Detectors -/

/-- `Readonly<Record<string, number>>` as a detector fills it. -/
abbrev Declined := List (JsString × JsNumber)

inductive DetectorResult
  | ran (assessed : JsNumber) (declined : Declined) (findings : List DetectorFinding)
  | inapplicable (because : JsString)
  deriving DecidableEq

/-- `none` when it throws. -/
structure Detector (Event : Type) where
  id : JsString
  monotonic : Bool
  run : List Event → Option DetectorResult

inductive DetectorReport
  | ran (detectorId : JsString) (assessed : JsNumber) (declined : Declined) (matched : Nat)
  | failed (detectorId : JsString)
  | inapplicable (detectorId : JsString) (because : JsString)
  deriving DecidableEq

structure Assessment where
  state : EvidenceState
  coverage : Coverage
  detectors : List DetectorReport
  findings : FindingSet
  count : Count
  claim : ZeroClaim

structure Budget where
  maxEvents : JsNumber

/-- Events are there only where they were read. -/
inductive Evidence (Event Key : Type)
  | neverCollected
  | unreadableNow
  | read (applies : List Event) (coverage : Coverage) (timeOf : Event → Key)

end EvaluationContract
