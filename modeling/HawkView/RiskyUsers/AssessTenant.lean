import HawkView.Evaluation.Compose
import HawkView.Lib.Traverse

/-!
# From classified rows to what a tenant is told

The classifier counts every row under a reason of a closed vocabulary. Its counts
become the coverage of the stream, and a stream that was not read has none.
-/

namespace AssessTenant

open EvaluationContract Evaluate Compose

/-! ## What the classifier counts -/

def outOfScopeReasons : List JsString :=
  [js "KEEP_ME_SIGNED_IN", js "INSUFFICIENT_SESSION_FOR_SILENT_SIGN_IN",
    js "SIGN_IN_FREQUENCY_POLICY_EXPIRY", js "APPLICATION_CONFIGURATION_ERROR",
    js "SUBJECT_NOT_PROVISIONED_FOR_RESOURCE", js "SESSION_INVALIDATED_BY_REMEDIATION",
    js "NON_INTERACTIVE_SIGN_IN", js "APPLICATION_ACTOR"]

def uncitedReasons : List JsString := [js "EXCLUSION_NOT_YET_CITED"]

def unknownObservations : List JsString :=
  [js "ERROR_CODE_ABSENT", js "ERROR_CODE_SHAPE_UNRECOGNIZED", js "UNRECOGNIZED_ERROR_CODE",
    js "AMBIGUOUS_BY_PROVIDER_STATEMENT", js "AMBIGUOUS_FAILURE_REASON_TEXT",
    js "RESULT_CODE_NOT_AN_AZURE_CODE", js "SUCCESS_WITH_UNRECOGNIZED_FAILURE_REASON",
    js "FAILURE_REASON_NOT_REPORTED", js "PROVIDER_DECLARED_UNCLASSIFIED",
    js "UNRECOGNIZED_REASON_NAME", js "INCONSISTENT_OPERATION_AND_CODE"]

def unprocessableReasons : List JsString :=
  [js "RAW_PAYLOAD_MALFORMED", js "SCOPE_MISMATCH", js "SOURCE_UNRECOGNIZED",
    js "TENANT_BINDING_MISMATCH", js "EVENT_ID_ABSENT_OR_MALFORMED", js "EVENT_TIMESTAMP_INVALID",
    js "INGESTION_TIMESTAMP_INVALID", js "INGESTION_PRECEDES_EVENT", js "INTEGRITY_DISPUTED",
    js "UNSUPPORTED_AUDIT_OPERATION", js "SUBJECT_ID_ABSENT_OR_MALFORMED",
    js "SUBJECT_NOT_IN_DIRECTORY", js "SUBJECT_AMBIGUOUS_IN_DIRECTORY",
    js "SUBJECT_UPN_ABSENT_OR_MALFORMED", js "SUBJECT_UPN_NOT_IN_DIRECTORY",
    js "SUBJECT_UPN_AMBIGUOUS_IN_DIRECTORY", js "APPLICATION_ID_ABSENT_OR_MALFORMED",
    js "REFERENCE_UNAVAILABLE", js "REFERENCE_BUDGET_EXCEEDED", js "BATCH_LIMIT_EXCEEDED"]

def unselectedRowReasons : List JsString := [js "ROW_FROM_OTHER_FEED"]

/-- Counts under the reasons of one vocabulary. -/
structure ReasonCounts (vocabulary : List JsString) where
  counts : Counts
  known : ∀ e ∈ counts, e.1 ∈ vocabulary

structure NormalizationCounts where
  applies : Nat
  doesNotApplyByReason : ReasonCounts outOfScopeReasons
  notYetCitedByReason : ReasonCounts uncitedReasons
  unknownByObservation : ReasonCounts unknownObservations
  unprocessableByReason : ReasonCounts unprocessableReasons
  unselectedRowsByReason : ReasonCounts unselectedRowReasons

structure NormalizationBatch (Event : Type) where
  applies : List Event
  counts : NormalizationCounts

/-- What the collector says of its request. -/
structure CollectionScopeSource where
  declared : Bool
  asked : JsString

/-! ## The bridge -/

def collectionScopeOf (source : CollectionScopeSource) : CollectionScope :=
  if source.declared && !JsString.blank source.asked then .declared source.asked else .undeclared

section Bridge

variable {Event : Type}

def toEvaluationCoverage (batch : NormalizationBatch Event) (scope : CollectionScopeSource) :
    Coverage where
  collectionScope := collectionScopeOf scope
  applies := batch.counts.applies
  doesNotApply := batch.counts.doesNotApplyByReason.counts
  notYetCited := batch.counts.notYetCitedByReason.counts
  unknown := batch.counts.unknownByObservation.counts
  unprocessable := batch.counts.unprocessableByReason.counts

/-- `false` when it throws. -/
def assertAccountsForEveryRow (batch : NormalizationBatch Event) (coverage : Coverage)
    (rowsFetched : Nat) : Bool :=
  let counts := batch.counts
  let uninterpretedEvents :=
    total counts.unknownByObservation.counts + total counts.unprocessableByReason.counts
  let classified := counts.applies + total counts.doesNotApplyByReason.counts +
    total counts.notYetCitedByReason.counts + uninterpretedEvents
  let mapped := coverage.applies + total coverage.doesNotApply + total coverage.notYetCited +
    uninterpreted coverage
  let unselected := total counts.unselectedRowsByReason.counts
  mapped == classified && uninterpreted coverage == uninterpretedEvents &&
    classified + unselected == rowsFetched &&
    !(decide (0 < unselected) && classified == 0 && decide (0 < rowsFetched))

/-- A stream whose rows were read, or one that was not. -/
inductive ClassifiedStream (Event : Type)
  | read (stream : JsString) (batch : NormalizationBatch Event) (scope : CollectionScopeSource)
      (detectors : List (Detector Event)) (rowsFetched : Nat)
  | unread (stream : JsString) (collection : Unread)

def ClassifiedStream.name : ClassifiedStream Event → JsString
  | .read stream _ _ _ _ => stream
  | .unread stream _ => stream

def unreadEvidence : Unread → Evidence Event JsString
  | .neverCollected => .neverCollected
  | .unreadableNow => .unreadableNow

def unreadStream (stream : JsString) (availability : Unread) : StreamAssessment :=
  ⟨stream, evaluate (unreadEvidence availability : Evidence Unit JsString) [] ⟨.ofNat 0⟩⟩

/-- One stream, unless its rows are not accounted for. -/
def assessStream (eventAt : Event → JsString) (budget : Budget) :
    ClassifiedStream Event → Option StreamAssessment
  | .read stream batch scope detectors rowsFetched =>
    let coverage := toEvaluationCoverage batch scope
    if assertAccountsForEveryRow batch coverage rowsFetched then
      some ⟨stream, evaluate (.read batch.applies coverage eventAt) detectors budget⟩
    else none
  | .unread stream collection => some (unreadStream stream collection)

/-- `none` when it throws. -/
def assessTenant (eventAt : Event → JsString) (streams : List (ClassifiedStream Event))
    (budget : Budget) : Option TenantAssessment :=
  (streams.mapM (assessStream eventAt budget)).map composeTenantAssessment

/-! ## Every name is told -/

/-- A coverage whose request and whose reasons are told by a name. -/
structure Named (coverage : Coverage) : Prop where
  asked : ∀ asked, coverage.collectionScope = .declared asked → JsString.blank asked = false
  doesNotApply : ∀ e ∈ coverage.doesNotApply, JsString.blank e.1 = false
  notYetCited : ∀ e ∈ coverage.notYetCited, JsString.blank e.1 = false
  unknown : ∀ e ∈ coverage.unknown, JsString.blank e.1 = false
  unprocessable : ∀ e ∈ coverage.unprocessable, JsString.blank e.1 = false

theorem noCoverage_named : Named noCoverage where
  asked := by
    intro asked h
    cases h
    decide
  doesNotApply := nofun
  notYetCited := nofun
  unknown := nofun
  unprocessable := nofun

theorem ReasonCounts.named {vocabulary : List JsString} (counts : ReasonCounts vocabulary)
    (named : ∀ reason ∈ vocabulary, JsString.blank reason = false) :
    ∀ e ∈ counts.counts, JsString.blank e.1 = false :=
  fun e he => named e.1 (counts.known e he)

theorem toEvaluationCoverage_named (batch : NormalizationBatch Event)
    (scope : CollectionScopeSource) : Named (toEvaluationCoverage batch scope) where
  asked := by
    intro asked h
    simp only [toEvaluationCoverage, collectionScopeOf] at h
    split at h
    · rename_i hasked
      cases h
      simp only [Bool.and_eq_true, Bool.not_eq_true'] at hasked
      exact hasked.2
    · cases h
  doesNotApply := ReasonCounts.named _ (by decide +kernel)
  notYetCited := ReasonCounts.named _ (by decide +kernel)
  unknown := ReasonCounts.named _ (by decide +kernel)
  unprocessable := ReasonCounts.named _ (by decide +kernel)

variable {eventAt : Event → JsString} {budget : Budget}

theorem assessStream_some {stream : ClassifiedStream Event} {entry : StreamAssessment}
    (h : assessStream eventAt budget stream = some entry) :
    entry.stream = stream.name ∧ Named entry.assessment.coverage := by
  cases stream with
  | read name batch scope detectors rowsFetched =>
    simp only [assessStream] at h
    split at h
    · cases h
      exact ⟨rfl, toEvaluationCoverage_named batch scope⟩
    · cases h
  | unread name collection =>
    cases h
    cases collection <;> exact ⟨rfl, noCoverage_named⟩

/-- The streams of an assessment have the names of those that were given. -/
theorem assessTenant_streams {streams : List (ClassifiedStream Event)} {a : TenantAssessment}
    (h : assessTenant eventAt streams budget = some a) :
    ∀ entry ∈ a.streams, (∃ stream ∈ streams, entry.stream = stream.name) ∧
      Named entry.assessment.coverage := by
  obtain ⟨entries, hentries, rfl⟩ := Option.map_eq_some_iff.mp h
  intro entry hentry
  obtain ⟨stream, hstream, hsome⟩ :=
    Traverse.mem_source (Traverse.option_iff.mp hentries) hentry
  obtain ⟨hname, hnamed⟩ := assessStream_some hsome
  exact ⟨⟨stream, hstream, hname⟩, hnamed⟩

end Bridge

end AssessTenant
