import HawkView.Evaluation.Contract
import Mathlib.Data.List.Dedup

/-!
# Evaluating one stream

The detectors run over the events that applied, each on its own. What they find
is kept; what they leave unsaid withholds the exact claim.
-/

namespace Evaluate

open EvaluationContract

def cappedWhenTruncated (finding : DetectorFinding) (capped : Bool) : Finding :=
  let mark (signal : DetectorSignal) : FindingSignal := { signal with capped := capped }
  { detectorId := finding.detectorId
    subject := finding.subject
    firstSignal := mark finding.firstSignal
    restSignals := finding.restSignals.map mark }

def total (counts : Counts) : Nat := (counts.map Prod.snd).sum

/-- `total` of the counts that a detector reports. -/
def declinedTotal (counts : Declined) : JsNumber :=
  counts.foldl (fun sum entry => sum.add entry.2) (.ofNat 0)

def uninterpreted (coverage : Coverage) : Nat :=
  total coverage.unknown + total coverage.unprocessable

def noCoverage : Coverage where
  collectionScope := .declared (js "none — no evidence was read")
  applies := 0
  doesNotApply := []
  notYetCited := []
  unknown := []
  unprocessable := []

def evidenceState {Event Key : Type} : Evidence Event Key → EvidenceState
  | .neverCollected => .neverCollected
  | .unreadableNow => .unreadableNow
  | .read _ coverage _ =>
    if 0 < uninterpreted coverage then .partiallyUninterpretable else .fullyInterpreted

/-! ## The claim and the count -/

inductive Unread
  | neverCollected | unreadableNow
  deriving DecidableEq, Repr

def Unread.reason : Unread → WithheldReason
  | .neverCollected => .neverCollected
  | .unreadableNow => .unreadableNow

inductive ClaimBasis
  | unread (because : Unread)
  | read (coverage : Coverage) (withinBudget allDetectorsRan allSubjectsResolved
      anyCheckExaminedEvidence : Bool)

/-- What a claim over evidence that was read is withheld for. -/
def withheldReasons (coverage : Coverage) (withinBudget allDetectorsRan allSubjectsResolved
    anyCheckExaminedEvidence : Bool) : List WithheldReason :=
  (if withinBudget then [] else [.capacityExceeded]) ++
  (if allDetectorsRan then [] else [.detectorFailed]) ++
  (if allSubjectsResolved then [] else [.unresolvedSubjectIdentity]) ++
  (if anyCheckExaminedEvidence then [] else [.noCheckExaminedEvidence]) ++
  (if coverage.collectionScope = .undeclared then [.collectionScopeUndeclared] else []) ++
  if 0 < uninterpreted coverage then [.uninterpretedEvents]
  else if coverage.applies = 0 then [.nothingApplicable] else []

def zeroClaim : ClaimBasis → ZeroClaim
  | .unread because => .withheld because.reason []
  | .read coverage withinBudget allDetectorsRan allSubjectsResolved anyCheckExaminedEvidence =>
    match withheldReasons coverage withinBudget allDetectorsRan allSubjectsResolved
        anyCheckExaminedEvidence with
    | [] => .permitted
    | first :: rest => .withheld first rest

def userRef (finding : Finding) : Option JsString :=
  match finding.subject with
  | .directoryUser userRef _ => some userRef
  | .mailbox _ _ => none

def distinctUsers (findings : List Finding) : Nat := (findings.filterMap userRef).dedup.length

def unattributed (finding : Finding) : Bool :=
  match finding.subject with
  | .directoryUser _ _ => false
  | .mailbox _ binding => binding == .unresolved

def unattributedFindings (findings : List Finding) : Nat := (findings.filter unattributed).length

def countOf (distinctSubjects : Nat) (permitted : Bool) (scope : CountScope) : Count :=
  if permitted then .exact distinctSubjects scope
  else if 0 < distinctSubjects then .atLeast distinctSubjects scope
  else .notAvailable scope

def answeredOrDeclined : DetectorReport → Bool
  | .ran _ _ _ _ => true
  | .inapplicable _ _ => true
  | .failed _ => false

def answeredItsQuestion : DetectorReport → Bool
  | .ran _ _ _ _ => true
  | .inapplicable _ _ => false
  | .failed _ => false

def setAsideOf (coverage : Coverage) : List SetAside :=
  let take (vocabulary : SetAsideVocabulary) (counts : Counts) : List SetAside :=
    counts.map fun entry => ⟨vocabulary, entry.1, entry.2⟩
  take .doesNotApply coverage.doesNotApply ++
  take .notYetCited coverage.notYetCited ++
  take .unknown coverage.unknown ++
  take .unprocessable coverage.unprocessable

def covered : DetectorReport → Option JsString
  | .ran detectorId _ _ _ => some detectorId
  | .inapplicable _ _ => none
  | .failed _ => none

def notCovered : DetectorReport → Option NotCovered
  | .ran _ _ _ _ => none
  | .inapplicable detectorId because => some ⟨detectorId, because⟩
  | .failed _ => none

def scopeOf (reports : List DetectorReport) (coverage : Coverage) : CountScope where
  evidenceRequested :=
    match coverage.collectionScope with
    | .declared asked => [asked]
    | .undeclared => []
  setAside := setAsideOf coverage
  covered := reports.filterMap covered
  notCovered := reports.filterMap notCovered

structure Gaps where
  truncated : Bool
  detectorFailed : Bool
  checkNotRun : Bool
  requestUnknown : Bool

def findingSet (items : List Finding) (gaps : Gaps) : FindingSet where
  items := items
  because :=
    (if gaps.truncated then [.windowTruncated] else []) ++
    (if gaps.detectorFailed then [.detectorFailed] else []) ++
    (if gaps.checkNotRun then [.checkNotRun] else []) ++
    (if gaps.requestUnknown then [.evidenceRequestUnknown] else [])

/-! ## The loop over the detectors -/

section Loop

variable {Event Key : Type}

/-- A place in the window, and when its event happened. -/
structure Ranked (Key : Type) where
  index : Nat
  at₀ : Key

/-- The comparison of the sort is not positive: later times first, then later places. -/
def notAfter [LT Key] [DecidableLT Key] (left right : Ranked Key) : Bool :=
  if left.at₀ < right.at₀ then false
  else if right.at₀ < left.at₀ then true
  else decide (right.index ≤ left.index)

def mostRecent [LT Key] [DecidableLT Key] (applies : List Event) (limit : JsNumber)
    (timeOf : Event → Key) : List Event :=
  if limit.nonpositive then []
  else
    let ranked := (applies.zipIdx.map fun entry => Ranked.mk entry.2 (timeOf entry.1)).mergeSort
      notAfter
    let kept := ((limit.takeTo ranked).map Ranked.index).mergeSort
    kept.filterMap fun index => applies[index]?

def withinBudget (applies : List Event) (budget : Budget) : Bool :=
  budget.maxEvents.bounds applies.length

/-- The events that the detectors are handed. -/
def applicable [LT Key] [DecidableLT Key] (applies : List Event) (timeOf : Event → Key)
    (budget : Budget) : List Event :=
  if withinBudget applies budget then applies
  else mostRecent applies budget.maxEvents timeOf

/-- Whether a detector accounts for every event that it was handed. -/
def accountsForItself (assessed : JsNumber) (declined : Declined) (length : Nat) : Bool :=
  assessed.isInteger && assessed.nonnegative &&
  declined.all (fun entry => entry.2.isInteger && entry.2.nonnegative) &&
  declined.all (fun entry => !JsString.blank entry.1) &&
  decide (assessed.add (declinedTotal declined) = .ofNat length)

/-- The body of the loop: what one detector adds to the findings and to the reports. -/
def examine (events : List Event) (fits : Bool) (detector : Detector Event) :
    List Finding × DetectorReport :=
  if fits = false ∧ detector.monotonic = false then
    ([], .inapplicable detector.id (js "This check reads a whole window, and this window held " ++
      js "more events than could be assessed at once."))
  else
    match detector.run events with
    | none => ([], .failed detector.id)
    | some (.inapplicable because) =>
      if because.blank then ([], .failed detector.id)
      else ([], .inapplicable detector.id because)
    | some (.ran assessed declined findings) =>
      let found := findings.map fun finding => cappedWhenTruncated finding !fits
      if accountsForItself assessed declined events.length then
        (found, .ran detector.id assessed declined findings.length)
      else (found, .failed detector.id)

structure Progress where
  findings : List Finding
  reports : List DetectorReport

def Progress.visit (s : Progress) (events : List Event) (fits : Bool)
    (detector : Detector Event) : Progress where
  findings := s.findings ++ (examine events fits detector).1
  reports := s.reports ++ [(examine events fits detector).2]

def isFailed : DetectorReport → Bool
  | .failed _ => true
  | .ran _ _ _ _ => false
  | .inapplicable _ _ => false

def isInapplicable : DetectorReport → Bool
  | .inapplicable _ _ => true
  | .ran _ _ _ _ => false
  | .failed _ => false

/-- The assessment of evidence that nobody has read. -/
def unreadAssessment (state : EvidenceState) (because : Unread) : Assessment :=
  let claim := zeroClaim (.unread because)
  { state := state
    coverage := noCoverage
    detectors := []
    findings := ⟨[], []⟩
    count := countOf 0 claim.isPermitted ⟨[], [], [], []⟩
    claim := claim }

def evaluate [LT Key] [DecidableLT Key] (evidence : Evidence Event Key)
    (detectors : List (Detector Event)) (budget : Budget) : Assessment :=
  match evidence with
  | .neverCollected => unreadAssessment (evidenceState evidence) .neverCollected
  | .unreadableNow => unreadAssessment (evidenceState evidence) .unreadableNow
  | .read applies coverage timeOf =>
    let fits := withinBudget applies budget
    let events := applicable applies timeOf budget
    let s := detectors.foldl (fun s detector => s.visit events fits detector)
      (Progress.mk [] [])
    let claim := zeroClaim (.read coverage fits (s.reports.all answeredOrDeclined)
      (unattributedFindings s.findings == 0) (s.reports.any answeredItsQuestion))
    { state := evidenceState evidence
      coverage := coverage
      detectors := s.reports
      findings := findingSet s.findings
        { truncated := !fits
          detectorFailed := s.reports.any isFailed
          checkNotRun := s.reports.any isInapplicable
          requestUnknown := coverage.collectionScope == .undeclared }
      count := countOf (distinctUsers s.findings) claim.isPermitted (scopeOf s.reports coverage)
      claim := claim }

end Loop

end Evaluate
