import HawkView.Lib.UtcMonth
import HawkView.Normalization.Batch
import HawkView.RiskyUsers.AssessTenant

/-!
# Every row of a batch is counted once

What becomes of a row depends on the row, its position and on the references that
were resolved before it. The counts of the loop are the numbers of rows that became
each thing, so they add up to the rows that were handed in.
-/

namespace Normalization

open Json List Option

/-! ## What becomes of a row -/

/-- Where a row is counted. -/
inductive Bucket
  | applies
  | doesNotApply (reason : OutOfScopeReason)
  | notYetCited (reason : UncitedReason)
  | unknown (observation : UnknownObservation)
  | unprocessable (reason : UnprocessableRow)
  | unselected (reason : UnselectedRowReason)
  deriving DecidableEq

inductive RowOutcome
  | normalized (result : NormalizedRow)
  | setAside (reason : UnprocessableRow)
  | unselected

def EventClassification.bucket : EventClassification → Bucket
  | .applies _ => .applies
  | .doesNotApply reason => .doesNotApply reason
  | .notYetCited reason => .notYetCited reason
  | .unknown observation => .unknown observation

def RowOutcome.bucket : RowOutcome → Bucket
  | .normalized result => result.event.classification.bucket
  | .setAside reason => .unprocessable reason
  | .unselected => .unselected .rowFromOtherFeed

def RowOutcome.event : RowOutcome → Option NormalizedEvent
  | .normalized result => some result.event
  | _ => none

/-- The row is one of the scope, from a feed that was not selected. -/
def OtherFeed (scope : NormalizationScope) (source : NormalizationSource) (row : SignInRow) :
    Bool :=
  row.organizationId == scope.organizationId && row.customerTenantId == scope.customerTenantId &&
    decide (row.raw.shape = .object) && (rowSource row.raw).any (· != source)

section Outcomes

variable {ρ : Type} (p : Auth.Platform) (f : ProviderFacts) (c : RowContext (References ρ))

def outcomeOf (s : References ρ) (position : Nat) (row : SignInRow) : RowOutcome × References ρ :=
  if row.organizationId ≠ c.scope.organizationId ∨
      row.customerTenantId ≠ c.scope.customerTenantId then (.setAside .scopeMismatch, s)
  else if row.raw.shape ≠ .object then (.setAside (.row .rawPayloadMalformed), s)
  else
    match rowSource row.raw with
    | none => (.setAside .sourceUnrecognized, s)
    | some rowFeed =>
      if rowFeed ≠ c.source then (.unselected, s)
      else if position ≥ MAX_ROWS_PER_RUN then (.setAside .batchLimitExceeded, s)
      else
        match normalizeRow p f row.ingestedAt row.raw c s with
        | (.error reason, s) => (.setAside (.row reason), s)
        | (.ok result, s) => (.normalized result, s)

/-- What becomes of the rows from a position on. -/
def outcomes (s : References ρ) : Nat → List SignInRow → List RowOutcome
  | _, [] => []
  | position, row :: rows =>
    (outcomeOf p f c s position row).1 ::
      outcomes (outcomeOf p f c s position row).2 (position + 1) rows

end Outcomes

/-- The events of the rows, as objects of their positions. -/
def eventsFrom : Nat → List RowOutcome → List BatchEvent
  | _, [] => []
  | position, o :: os =>
    (o.event.map (BatchEvent.mk position)).toList ++ eventsFrom (position + 1) os

/-! ## The loop counts what becomes of the rows -/

section Loop

variable {ρ : Type} {p : Auth.Platform} {f : ProviderFacts} {c : RowContext (References ρ)}

def BatchState.count (s : BatchState ρ) : Bucket → Nat
  | .applies => s.applies
  | .doesNotApply reason => s.doesNotApplyByReason reason
  | .notYetCited reason => s.notYetCitedByReason reason
  | .unknown observation => s.unknownByObservation observation
  | .unprocessable reason => s.unprocessableByReason reason
  | .unselected reason => s.unselectedRowsByReason reason

/-- A state after a row of which something became. -/
structure Follows (s s' : BatchState ρ) (position : Nat) (o : RowOutcome)
    (references : References ρ) : Prop where
  count : ∀ b, s'.count b = s.count b + if o.bucket = b then 1 else 0
  events : s'.events = s.events ++ (o.event.map (BatchEvent.mk position)).toList
  references : s'.references = references

theorem increment_apply {κ : Type} [DecidableEq κ] (counts : κ → Nat) (key k : κ) :
    increment counts key k = counts k + if key = k then 1 else 0 := by
  rw [increment]
  by_cases h : k = key
  · rw [if_pos h, if_pos h.symm]
  · rw [if_neg h, if_neg (Ne.symm h), Nat.add_zero]

theorem setAside_follows (s t : BatchState ρ) (position : Nat) (reason : UnprocessableRow)
    (count : ∀ b, t.count b = s.count b) (events : t.events = s.events) :
    Follows s (t.setAside reason) position (.setAside reason) t.references where
  count b := by
    rw [← count b]
    cases b <;> simp [BatchState.setAside, BatchState.count, RowOutcome.bucket, increment_apply]
  events := by
    rw [← events]
    exact (append_nil _).symm
  references := rfl

theorem count_classified (s : BatchState ρ) (classification : EventClassification) (b : Bucket) :
    (s.classified classification).count b =
      s.count b + if classification.bucket = b then 1 else 0 := by
  cases classification <;> cases b <;>
    simp [BatchState.classified, BatchState.count, EventClassification.bucket, increment_apply]

theorem classified_rest (s : BatchState ρ) (classification : EventClassification) :
    (s.classified classification).events = s.events ∧
      (s.classified classification).references = s.references := by
  cases classification <;> exact ⟨rfl, rfl⟩

theorem normalized_follows (s t : BatchState ρ) (position : Nat) (result : NormalizedRow)
    (count : ∀ b, t.count b = s.count b) (events : t.events = s.events) :
    Follows s (t.normalized position result) position (.normalized result) t.references := by
  constructor
  · intro b
    rw [← count b, BatchState.normalized, count_classified]
    cases result.verdict <;> cases b <;> rfl
  · rw [← events, BatchState.normalized, (classified_rest _ _).1]
    cases result.verdict <;> rfl
  · rw [BatchState.normalized, (classified_rest _ _).2]
    cases result.verdict <;> rfl

theorem unprocessable_follows (s t : BatchState ρ) (position : Nat) (rowFeed : NormalizationSource)
    (raw : Json) (reason : UnprocessableReason) (count : ∀ b, t.count b = s.count b)
    (events : t.events = s.events) :
    Follows s (t.unprocessable rowFeed raw reason) position (.setAside (.row reason))
      t.references := by
  obtain ⟨hcount, hevents, hreferences⟩ :=
    setAside_follows s t position (.row reason) count events
  rw [BatchState.unprocessable]
  generalize (if rowFeed = .graphSignIns then readGraphErrorCode raw else none) = code
  split
  · refine ⟨fun b => ?_, hevents, hreferences⟩
    rw [← hcount b]
    cases b <;> rfl
  · exact ⟨hcount, hevents, hreferences⟩

theorem next_follows (s : BatchState ρ) (position : Nat) (row : SignInRow) :
    Follows s (normalizeNext p f c s position row) position
      (outcomeOf p f c s.references position row).1
      (outcomeOf p f c s.references position row).2 := by
  have hconsider : ∀ b, s.consider.count b = s.count b := by
    intro b
    cases b <;> rfl
  rw [normalizeNext, outcomeOf]
  split
  · exact setAside_follows s _ position _ hconsider rfl
  split
  · exact setAside_follows s _ position _ hconsider rfl
  cases rowSource row.raw with
  | none => exact setAside_follows s _ position _ hconsider rfl
  | some rowFeed =>
    simp only
    split
    · constructor
      · intro b
        cases b <;> simp [BatchState.count, RowOutcome.bucket, increment_apply]
      · exact (append_nil _).symm
      · rfl
    · generalize ht : (if rowFeed = .graphSignIns then
        { s.consider with shapes := s.consider.shapes.observe row.raw } else s.consider) = t
      have hcount : ∀ b, t.count b = s.count b := by
        intro b
        rw [← ht]
        split <;> cases b <;> rfl
      have hevents : t.events = s.events := by
        rw [← ht]
        split <;> rfl
      have hreferences : t.references = s.references := by
        rw [← ht]
        split <;> rfl
      rw [hreferences]
      split
      · rw [← hreferences]
        exact setAside_follows s t position _ hcount hevents
      · cases normalizeRow p f row.ingestedAt row.raw c s.references with
        | mk normalized references =>
          cases normalized with
          | error reason =>
            exact unprocessable_follows s { t with references } position rowFeed row.raw reason
              (fun b => (hcount b).symm ▸ by cases b <;> rfl) hevents
          | ok result =>
            exact normalized_follows s { t with references } position result
              (fun b => (hcount b).symm ▸ by cases b <;> rfl) hevents

/-- The loop counts and keeps what becomes of the rows. -/
theorem rows_follow (s : BatchState ρ) (position : Nat) (rows : List SignInRow) :
    (∀ b, (normalizeRows p f c s position rows).count b =
      s.count b + ((outcomes p f c s.references position rows).map RowOutcome.bucket).count b) ∧
    (normalizeRows p f c s position rows).events =
      s.events ++ eventsFrom position (outcomes p f c s.references position rows) := by
  induction rows generalizing s position with
  | nil => exact ⟨fun b => rfl, (append_nil _).symm⟩
  | cons row rows ih =>
    obtain ⟨hcount, hevents, hreferences⟩ := @next_follows ρ p f c s position row
    obtain ⟨ihcount, ihevents⟩ := ih (normalizeNext p f c s position row) (position + 1)
    rw [normalizeRows, outcomes]
    rw [hreferences] at ihcount ihevents
    constructor
    · intro b
      rw [ihcount b, hcount b, map_cons, count_cons]
      simp only [beq_iff_eq]
      omega
    · rw [ihevents, hevents, eventsFrom, append_assoc]

theorem length_outcomes (s : References ρ) (position : Nat) (rows : List SignInRow) :
    (outcomes p f c s position rows).length = rows.length := by
  induction rows generalizing s position with
  | nil => rfl
  | cons row rows ih => rw [outcomes, length_cons, length_cons, ih]

variable {s : References ρ} {position : Nat} {row : SignInRow}

theorem outcomeOf_unselected_iff :
    (outcomeOf p f c s position row).1 = .unselected ↔ OtherFeed c.scope c.source row = true := by
  rw [outcomeOf, OtherFeed]
  by_cases hscope : row.organizationId ≠ c.scope.organizationId ∨
      row.customerTenantId ≠ c.scope.customerTenantId
  · rw [if_pos hscope]
    rcases hscope with h | h <;> simp [h]
  rw [if_neg hscope]
  rw [not_or, not_not, not_not] at hscope
  by_cases hraw : row.raw.shape ≠ .object
  · rw [if_pos hraw]
    simp [hraw]
  rw [if_neg hraw]
  rw [not_not] at hraw
  cases rowSource row.raw with
  | none => simp
  | some rowFeed =>
    simp only [hscope, hraw, beq_self_eq_true, decide_true, Bool.and_self, any_some,
      Bool.true_and, bne_iff_ne]
    by_cases hfeed : rowFeed ≠ c.source
    · rw [if_pos hfeed]
      simp [hfeed]
    · rw [if_neg hfeed]
      constructor
      · intro h
        split at h
        · cases h
        · split at h <;> cases h
      · exact fun h => absurd h hfeed

theorem outcomeOf_unselected_references (h : OtherFeed c.scope c.source row = true) :
    outcomeOf p f c s position row = (.unselected, s) := by
  have hunselected : (outcomeOf p f c s position row).1 = .unselected :=
    outcomeOf_unselected_iff.mpr h
  rw [outcomeOf] at hunselected ⊢
  split at hunselected
  · cases hunselected
  rename_i hscope
  rw [if_neg hscope]
  split at hunselected
  · cases hunselected
  rename_i hraw
  rw [if_neg hraw]
  cases hsource : rowSource row.raw with
  | none =>
    rw [hsource] at hunselected
    cases hunselected
  | some rowFeed =>
    rw [hsource] at hunselected
    simp only at hunselected ⊢
    split at hunselected
    · rename_i hfeed
      rw [if_pos hfeed]
    · split at hunselected
      · cases hunselected
      · split at hunselected <;> cases hunselected

variable {position' : Nat}

/-- A row that is not over the limit can as well stand before. -/
theorem outcomeOf_position
    (within : (outcomeOf p f c s position row).1 ≠ .setAside .batchLimitExceeded)
    (before : position' ≤ position) :
    outcomeOf p f c s position' row = outcomeOf p f c s position row := by
  rw [outcomeOf, outcomeOf]
  by_cases h : position ≥ MAX_ROWS_PER_RUN
  · rw [outcomeOf] at within
    simp only [h, if_true] at within ⊢
    split
    · rfl
    rename_i hscope
    rw [if_neg hscope] at within
    split
    · rfl
    rename_i hraw
    rw [if_neg hraw] at within
    cases hsource : rowSource row.raw with
    | none => rfl
    | some rowFeed =>
      rw [hsource] at within
      simp only at within ⊢
      split
      · rfl
      · rename_i hfeed
        rw [if_neg hfeed] at within
        exact absurd rfl within
  · have h' : ¬position' ≥ MAX_ROWS_PER_RUN := by omega
    simp only [h, h', if_false]

theorem outcomeOf_within (h : position < MAX_ROWS_PER_RUN) :
    (outcomeOf p f c s position row).1 ≠ .setAside .batchLimitExceeded := by
  rw [outcomeOf]
  split
  · simp
  split
  · simp
  cases rowSource row.raw with
  | none => simp
  | some rowFeed =>
    simp only [ge_iff_le, Nat.not_le.mpr h, if_false]
    split
    · simp
    · split <;> simp

variable {rows : List SignInRow}

theorem outcomes_within (h : position + rows.length ≤ MAX_ROWS_PER_RUN) :
    ∀ o ∈ outcomes p f c s position rows, o ≠ .setAside .batchLimitExceeded := by
  induction rows generalizing s position with
  | nil => simp [outcomes]
  | cons row rows ih =>
    rw [length_cons] at h
    rw [outcomes, forall_mem_cons]
    exact ⟨outcomeOf_within (by omega), ih (by omega)⟩

theorem all_unselected_iff :
    (∀ o ∈ outcomes p f c s position rows, o = .unselected) ↔
      ∀ row ∈ rows, OtherFeed c.scope c.source row = true := by
  induction rows generalizing s position with
  | nil => simp [outcomes]
  | cons row rows ih =>
    rw [outcomes, forall_mem_cons, forall_mem_cons, outcomeOf_unselected_iff, ih]

/-- The rows of another feed change nothing for the rows after them. -/
theorem outcomes_selected
    (within : ∀ o ∈ outcomes p f c s position rows, o ≠ .setAside .batchLimitExceeded)
    (before : position' ≤ position) :
    (outcomes p f c s position' (rows.filter fun row => !OtherFeed c.scope c.source row)).filterMap
        RowOutcome.event =
      (outcomes p f c s position rows).filterMap RowOutcome.event := by
  induction rows generalizing s position position' with
  | nil => rfl
  | cons row rows ih =>
    rw [outcomes, forall_mem_cons] at within
    obtain ⟨hrow, hrows⟩ := within
    rw [outcomes, filterMap_cons]
    cases hother : OtherFeed c.scope c.source row with
    | true =>
      rw [outcomeOf_unselected_references hother] at hrows ⊢
      rw [filter_cons_of_neg (by simp [hother])]
      exact ih hrows (by omega)
    | false =>
      rw [filter_cons_of_pos (by simp [hother]), outcomes, filterMap_cons,
        outcomeOf_position hrow before, ih hrows (Nat.succ_le_succ before)]

end Loop

theorem events_eventsFrom (position : Nat) (os : List RowOutcome) :
    (eventsFrom position os).map BatchEvent.event = os.filterMap RowOutcome.event := by
  induction os generalizing position with
  | nil => rfl
  | cons o os ih =>
    rw [eventsFrom, map_append, ih, filterMap_cons]
    cases o.event <;> rfl

/-! ## Totals -/

def UnknownObservation.all : List UnknownObservation :=
  [.errorCodeAbsent, .errorCodeShapeUnrecognized, .unrecognizedErrorCode,
    .ambiguousByProviderStatement, .ambiguousFailureReasonText, .resultCodeNotAnAzureCode,
    .successWithUnrecognizedFailureReason, .failureReasonNotReported,
    .providerDeclaredUnclassified, .unrecognizedReasonName, .inconsistentOperationAndCode]

def UnprocessableRow.all : List UnprocessableRow :=
  [.row .rawPayloadMalformed, .scopeMismatch, .sourceUnrecognized, .row .tenantBindingMismatch,
    .row .eventIdAbsentOrMalformed, .row .eventTimestampInvalid, .row .ingestionTimestampInvalid,
    .row .ingestionPrecedesEvent, .row .integrityDisputed, .row .unsupportedAuditOperation,
    .row .subjectIdAbsentOrMalformed, .row .subjectNotInDirectory,
    .row .subjectAmbiguousInDirectory, .row .subjectUpnAbsentOrMalformed,
    .row .subjectUpnNotInDirectory, .row .subjectUpnAmbiguousInDirectory,
    .row .applicationIdAbsentOrMalformed, .row .referenceUnavailable,
    .row .referenceBudgetExceeded, .batchLimitExceeded]

def Bucket.all : List Bucket :=
  .applies :: (OutOfScopeReason.all.map .doesNotApply ++ UncitedReason.all.map .notYetCited ++
    UnknownObservation.all.map .unknown ++ UnprocessableRow.all.map .unprocessable ++
      [.unselected .rowFromOtherFeed])

theorem Bucket.mem_all (b : Bucket) : b ∈ Bucket.all := by
  cases b with
  | applies => exact mem_cons_self
  | doesNotApply reason => cases reason <;> decide
  | notYetCited reason => cases reason; decide
  | unknown observation => cases observation <;> decide
  | unprocessable reason =>
    cases reason with
    | row reason => cases reason <;> decide
    | _ => decide
  | unselected reason => cases reason; decide

theorem Bucket.nodup_all : Bucket.all.Nodup := by decide +kernel

/-- Counts under all keys add up to the length. -/
theorem sum_counts {κ : Type} [DecidableEq κ] {all : List κ} (nodup : all.Nodup)
    (complete : ∀ k, k ∈ all) (l : List κ) : (all.map fun k => l.count k).sum = l.length := by
  induction l with
  | nil =>
    rw [length_nil, sum_eq_zero]
    intro n hn
    obtain ⟨k, _, rfl⟩ := mem_map.mp hn
    rfl
  | cons a l ih =>
    have hsplit : (all.map fun k => (a :: l).count k) =
        all.map fun k => l.count k + if a = k then 1 else 0 := by
      apply map_congr_left
      intro k _
      rw [count_cons]
      simp only [beq_iff_eq]
    have hone : (all.map fun k => if a = k then 1 else 0).sum = all.count a := by
      clear nodup complete ih hsplit
      induction all with
      | nil => rfl
      | cons k all ih =>
        rw [map_cons, sum_cons, ih, count_cons]
        by_cases heq : a = k
        · simp [heq, Nat.add_comm]
        · simp [heq, Ne.symm heq]
    rw [hsplit, sum_map_add, ih, hone, count_eq_one_of_mem nodup (complete a),
      length_cons]

/-! ## The bridge to the evaluation -/

def OutOfScopeReason.text : OutOfScopeReason → JsString
  | .keepMeSignedIn => js "KEEP_ME_SIGNED_IN"
  | .insufficientSessionForSilentSignIn => js "INSUFFICIENT_SESSION_FOR_SILENT_SIGN_IN"
  | .signInFrequencyPolicyExpiry => js "SIGN_IN_FREQUENCY_POLICY_EXPIRY"
  | .applicationConfigurationError => js "APPLICATION_CONFIGURATION_ERROR"
  | .subjectNotProvisionedForResource => js "SUBJECT_NOT_PROVISIONED_FOR_RESOURCE"
  | .sessionInvalidatedByRemediation => js "SESSION_INVALIDATED_BY_REMEDIATION"
  | .nonInteractiveSignIn => js "NON_INTERACTIVE_SIGN_IN"
  | .applicationActor => js "APPLICATION_ACTOR"

def UncitedReason.text : UncitedReason → JsString
  | .exclusionNotYetCited => js "EXCLUSION_NOT_YET_CITED"

def UnknownObservation.text : UnknownObservation → JsString
  | .errorCodeAbsent => js "ERROR_CODE_ABSENT"
  | .errorCodeShapeUnrecognized => js "ERROR_CODE_SHAPE_UNRECOGNIZED"
  | .unrecognizedErrorCode => js "UNRECOGNIZED_ERROR_CODE"
  | .ambiguousByProviderStatement => js "AMBIGUOUS_BY_PROVIDER_STATEMENT"
  | .ambiguousFailureReasonText => js "AMBIGUOUS_FAILURE_REASON_TEXT"
  | .resultCodeNotAnAzureCode => js "RESULT_CODE_NOT_AN_AZURE_CODE"
  | .successWithUnrecognizedFailureReason => js "SUCCESS_WITH_UNRECOGNIZED_FAILURE_REASON"
  | .failureReasonNotReported => js "FAILURE_REASON_NOT_REPORTED"
  | .providerDeclaredUnclassified => js "PROVIDER_DECLARED_UNCLASSIFIED"
  | .unrecognizedReasonName => js "UNRECOGNIZED_REASON_NAME"
  | .inconsistentOperationAndCode => js "INCONSISTENT_OPERATION_AND_CODE"

def UnprocessableRow.text : UnprocessableRow → JsString
  | .row .rawPayloadMalformed => js "RAW_PAYLOAD_MALFORMED"
  | .scopeMismatch => js "SCOPE_MISMATCH"
  | .sourceUnrecognized => js "SOURCE_UNRECOGNIZED"
  | .row .tenantBindingMismatch => js "TENANT_BINDING_MISMATCH"
  | .row .eventIdAbsentOrMalformed => js "EVENT_ID_ABSENT_OR_MALFORMED"
  | .row .eventTimestampInvalid => js "EVENT_TIMESTAMP_INVALID"
  | .row .ingestionTimestampInvalid => js "INGESTION_TIMESTAMP_INVALID"
  | .row .ingestionPrecedesEvent => js "INGESTION_PRECEDES_EVENT"
  | .row .integrityDisputed => js "INTEGRITY_DISPUTED"
  | .row .unsupportedAuditOperation => js "UNSUPPORTED_AUDIT_OPERATION"
  | .row .subjectIdAbsentOrMalformed => js "SUBJECT_ID_ABSENT_OR_MALFORMED"
  | .row .subjectNotInDirectory => js "SUBJECT_NOT_IN_DIRECTORY"
  | .row .subjectAmbiguousInDirectory => js "SUBJECT_AMBIGUOUS_IN_DIRECTORY"
  | .row .subjectUpnAbsentOrMalformed => js "SUBJECT_UPN_ABSENT_OR_MALFORMED"
  | .row .subjectUpnNotInDirectory => js "SUBJECT_UPN_NOT_IN_DIRECTORY"
  | .row .subjectUpnAmbiguousInDirectory => js "SUBJECT_UPN_AMBIGUOUS_IN_DIRECTORY"
  | .row .applicationIdAbsentOrMalformed => js "APPLICATION_ID_ABSENT_OR_MALFORMED"
  | .row .referenceUnavailable => js "REFERENCE_UNAVAILABLE"
  | .row .referenceBudgetExceeded => js "REFERENCE_BUDGET_EXCEEDED"
  | .batchLimitExceeded => js "BATCH_LIMIT_EXCEEDED"

def UnselectedRowReason.text : UnselectedRowReason → JsString
  | .rowFromOtherFeed => js "ROW_FROM_OTHER_FEED"

/-- The counts under the texts of all reasons of a vocabulary. -/
def reasonCounts {κ : Type} (all : List κ) (text : κ → JsString) (counts : κ → Nat)
    {vocabulary : List JsString} (known : ∀ key ∈ all, text key ∈ vocabulary) :
    AssessTenant.ReasonCounts vocabulary where
  counts := all.map fun key => (text key, counts key)
  known e he := by
    obtain ⟨key, hkey, rfl⟩ := mem_map.mp he
    exact known key hkey

/-- The batch as the evaluation is handed it. -/
def NormalizationBatch.handed (batch : NormalizationBatch) :
    AssessTenant.NormalizationBatch BatchEvent where
  applies := batch.applies
  counts := {
    applies := batch.counts.applies
    doesNotApplyByReason := reasonCounts OutOfScopeReason.all OutOfScopeReason.text
      batch.counts.doesNotApplyByReason (by decide +kernel)
    notYetCitedByReason := reasonCounts UncitedReason.all UncitedReason.text
      batch.counts.notYetCitedByReason (by decide +kernel)
    unknownByObservation := reasonCounts UnknownObservation.all UnknownObservation.text
      batch.counts.unknownByObservation (by decide +kernel)
    unprocessableByReason := reasonCounts UnprocessableRow.all UnprocessableRow.text
      batch.counts.unprocessableByReason (by decide +kernel)
    unselectedRowsByReason := reasonCounts [.rowFromOtherFeed] UnselectedRowReason.text
      batch.counts.unselectedRowsByReason (by decide +kernel) }

theorem total_reasonCounts {κ : Type} {all : List κ} {text : κ → JsString} {counts : κ → Nat}
    {vocabulary : List JsString} {known : ∀ key ∈ all, text key ∈ vocabulary} :
    Evaluate.total (reasonCounts all text counts known).counts = (all.map counts).sum := by
  rw [Evaluate.total, reasonCounts, List.map_map]
  rfl

def NormalizationBatch.count (batch : NormalizationBatch) : Bucket → Nat
  | .applies => batch.counts.applies
  | .doesNotApply reason => batch.counts.doesNotApplyByReason reason
  | .notYetCited reason => batch.counts.notYetCitedByReason reason
  | .unknown observation => batch.counts.unknownByObservation observation
  | .unprocessable reason => batch.counts.unprocessableByReason reason
  | .unselected reason => batch.counts.unselectedRowsByReason reason

theorem bucket_unselected {o : RowOutcome} :
    o.bucket = .unselected .rowFromOtherFeed ↔ o = .unselected := by
  cases o with
  | normalized result =>
    rw [RowOutcome.bucket]
    cases result.event.classification <;> simp [EventClassification.bucket]
  | setAside reason => simp [RowOutcome.bucket]
  | unselected => simp [RowOutcome.bucket]

variable {os : List RowOutcome}

/-- The bridge accepts counts of that many rows, unless all of them are from another feed. -/
theorem accounts_iff {batch : NormalizationBatch}
    (counted : ∀ b, batch.count b = (os.map RowOutcome.bucket).count b)
    (scope : AssessTenant.CollectionScopeSource) :
    AssessTenant.assertAccountsForEveryRow batch.handed
        (AssessTenant.toEvaluationCoverage batch.handed scope) os.length = true ↔
      ¬(os ≠ [] ∧ ∀ o ∈ os, o = .unselected) := by
  have hsum := sum_counts Bucket.nodup_all Bucket.mem_all (os.map RowOutcome.bucket)
  rw [← map_congr_left fun b _ => counted b, length_map] at hsum
  simp only [Bucket.all, map_cons, map_append, List.map_map, sum_cons,
    sum_append, map_nil, sum_nil, Nat.add_zero] at hsum
  have hall : (∀ o ∈ os, o = .unselected) ↔
      batch.count (.unselected .rowFromOtherFeed) = os.length := by
    rw [counted, ← length_map (f := RowOutcome.bucket), count_eq_length]
    constructor
    · intro h b hb
      obtain ⟨o, ho, rfl⟩ := mem_map.mp hb
      rw [h o ho]
      rfl
    · intro h o ho
      exact bucket_unselected.mp (h _ (mem_map_of_mem ho)).symm
  have hnil : os ≠ [] ↔ 0 < os.length := length_pos_iff.symm
  rw [hall, hnil]
  simp only [AssessTenant.assertAccountsForEveryRow, AssessTenant.toEvaluationCoverage,
    Evaluate.uninterpreted, NormalizationBatch.handed, total_reasonCounts, beq_self_eq_true,
    Bool.true_and, Bool.and_eq_true, beq_iff_eq, Bool.not_eq_true', map_cons, map_nil,
    sum_cons, sum_nil, Nat.add_zero, Bool.and_eq_false_iff, decide_eq_false_iff_not,
    beq_eq_false_iff_ne, Nat.not_lt, Nat.le_zero]
  change batch.counts.applies + ((OutOfScopeReason.all.map batch.counts.doesNotApplyByReason).sum +
    (UncitedReason.all.map batch.counts.notYetCitedByReason).sum +
    (UnknownObservation.all.map batch.counts.unknownByObservation).sum +
    (UnprocessableRow.all.map batch.counts.unprocessableByReason).sum +
      batch.counts.unselectedRowsByReason .rowFromOtherFeed) = os.length at hsum
  change _ ↔ ¬(0 < os.length ∧
    batch.counts.unselectedRowsByReason .rowFromOtherFeed = os.length)
  constructor
  · rintro ⟨-, h⟩ ⟨hsome, hunselected⟩
    omega
  · intro h
    refine ⟨by omega, ?_⟩
    omega

/-! ## The events in their order -/

/-- By the instants of the events, then by their ids. -/
def InTimeOrder (left right : BatchEvent) : Prop :=
  ∃ c d : IsoTime.Clock, c.valid = true ∧ d.valid = true ∧
    left.event.eventAt = c.text ∧ right.event.eventAt = d.text ∧
      (c.millis < d.millis ∨ c.millis = d.millis ∧ left.event.eventId ≤ right.event.eventId)

instance : Std.Total eventOrder := ⟨fun left right => by
  by_cases hlt : left.event.eventAt < right.event.eventAt
  · exact .inl (.inl hlt)
  by_cases hgt : right.event.eventAt < left.event.eventAt
  · exact .inr (.inl hgt)
  have heq := List.le_antisymm (List.not_lt.mp hgt) (List.not_lt.mp hlt)
  rcases List.le_total left.event.eventId right.event.eventId with h | h
  · exact .inl (.inr ⟨heq, h⟩)
  · exact .inr (.inr ⟨heq.symm, h⟩)⟩

instance : IsTrans BatchEvent eventOrder := ⟨by
  rintro a b c (hab | ⟨hab, hab'⟩) (hbc | ⟨hbc, hbc'⟩)
  · exact .inl (List.lt_trans hab hbc)
  · exact .inl (hbc ▸ hab)
  · exact .inl (hab.symm ▸ hbc)
  · exact .inr ⟨hab.trans hbc, List.le_trans hab' hbc'⟩⟩

theorem clock_of_utcMillis {designator : Designator} {v : Option Shape} {t : Int}
    (h : utcMillis designator v = some t) :
    ∃ c : IsoTime.Clock, c.valid = true ∧ c.millis = t := by
  cases v with
  | none => cases h
  | some shape =>
    cases shape with
    | string s =>
      rw [utcMillis] at h
      split at h
      · exact IsoTime.clock_of_utcTime h
      · split at h
        · exact IsoTime.clock_of_utcTime h
        · cases h
    | _ => cases h

variable {ingestedAt : Option Int} {raw : Json}

theorem readRow_ok {σ : Type} {c : RowContext σ} {r : Readable}
    (h : readRow ingestedAt raw c = .ok r) :
    eventAtOf c.source (rowRecord c.source raw) = some r.eventAt ∧
      bindSubject c.source (rowRecord c.source raw) c.directory = .ok r.binding := by
  unfold readRow at h
  split at h
  · cases h
  split at h
  · cases h
  rw [readRecord] at h
  split at h
  · cases h
  split at h
  · cases h
  split at h
  · cases h
  rename_i heventAt
  split at h
  · cases h
  rw [heventAt]
  cases hbind : bindSubject c.source (rowRecord c.source raw) c.directory with
  | error reason =>
    rw [hbind] at h
    cases h
  | ok binding =>
    rw [hbind] at h
    simp only [bind, Except.bind] at h
    split at h
    · cases h
    · cases h
      exact ⟨rfl, rfl⟩

variable {p : Auth.Platform} {f : ProviderFacts}

/-- The time of an event is the text of a clock. -/
theorem normalizeRow_eventAt {σ : Type} {c : RowContext σ} {s s' : σ} {result : NormalizedRow}
    (h : normalizeRow p f ingestedAt raw c s = (.ok result, s')) :
    ∃ d : IsoTime.Clock, d.valid = true ∧ result.event.eventAt = d.text := by
  rw [normalizeRow] at h
  cases hread : readRow ingestedAt raw c with
  | error reason =>
    rw [hread] at h
    cases h
  | ok r =>
    rw [hread] at h
    have hclock : ∃ d : IsoTime.Clock, d.valid = true ∧ d.millis = r.eventAt := by
      have heventAt := (readRow_ok hread).1
      unfold eventAtOf at heventAt
      split at heventAt <;> exact clock_of_utcMillis heventAt
    obtain ⟨d, hvalid, hmillis⟩ := hclock
    simp only at h
    split at h
    · cases h
    split at h
    · cases h
    cases h
    exact ⟨d, hvalid, by rw [← hmillis]; exact IsoTime.toISOString_text hvalid⟩

variable {position : Nat}

theorem outcomeOf_eventAt {ρ : Type} {c : RowContext (References ρ)} {s : References ρ}
    {row : SignInRow} {e : NormalizedEvent}
    (h : (outcomeOf p f c s position row).1.event = some e) :
    ∃ d : IsoTime.Clock, d.valid = true ∧ e.eventAt = d.text := by
  rw [outcomeOf] at h
  split at h
  · cases h
  split at h
  · cases h
  split at h
  · cases h
  split at h
  · cases h
  split at h
  · cases h
  split at h
  · cases h
  · rename_i hrow
    obtain rfl := Option.some.inj h
    exact normalizeRow_eventAt hrow

theorem outcomes_eventAt {ρ : Type} {c : RowContext (References ρ)} {s : References ρ}
    {rows : List SignInRow} :
    ∀ o ∈ outcomes p f c s position rows, ∀ e, o.event = some e →
      ∃ d : IsoTime.Clock, d.valid = true ∧ e.eventAt = d.text := by
  induction rows generalizing s position with
  | nil => simp [outcomes]
  | cons row rows ih =>
    rw [outcomes, forall_mem_cons]
    exact ⟨fun e => outcomeOf_eventAt, ih⟩

theorem mem_eventsFrom {e : BatchEvent} (h : e ∈ eventsFrom position os) :
    position ≤ e.position ∧ ∃ o ∈ os, o.event = some e.event := by
  induction os generalizing position with
  | nil => cases h
  | cons o os ih =>
    rw [eventsFrom, mem_append, mem_toList, map_eq_some_iff] at h
    rcases h with ⟨event, hevent, rfl⟩ | h
    · exact ⟨le_refl _, o, mem_cons_self, hevent⟩
    · obtain ⟨hposition, o', ho', hevent⟩ := ih h
      exact ⟨by omega, o', mem_cons_of_mem _ ho', hevent⟩

theorem nodup_eventsFrom (position : Nat) (os : List RowOutcome) :
    ((eventsFrom position os).map BatchEvent.position).Nodup := by
  induction os generalizing position with
  | nil => exact nodup_nil
  | cons o os ih =>
    rw [eventsFrom, map_append, nodup_append]
    refine ⟨?_, ih _, ?_⟩
    · cases o.event <;> simp
    · intro n hn m hm
      obtain ⟨e, he, rfl⟩ := mem_map.mp hm
      have hlater := (mem_eventsFrom he).1
      obtain ⟨e', he', rfl⟩ := mem_map.mp hn
      rw [mem_toList, map_eq_some_iff] at he'
      obtain ⟨event, -, rfl⟩ := he'
      simp only at hlater ⊢
      omega

theorem inTimeOrder_of {left right : BatchEvent} {c d : IsoTime.Clock} (hc : c.valid = true)
    (hd : d.valid = true) (hleft : left.event.eventAt = c.text)
    (hright : right.event.eventAt = d.text) (h : eventOrder left right) :
    InTimeOrder left right := by
  refine ⟨c, d, hc, hd, hleft, hright, ?_⟩
  rcases h with h | ⟨h, hid⟩
  · rw [hleft, hright] at h
    exact .inl ((IsoTime.Clock.text_lt_iff_millis_lt hc hd).mp h)
  · rw [hleft, hright] at h
    have hforth : ¬c.millis < d.millis := fun hlt =>
      List.lt_irrefl _ (h ▸ (IsoTime.Clock.text_lt_iff_millis_lt hc hd).mpr hlt)
    have hback : ¬d.millis < c.millis := fun hlt =>
      List.lt_irrefl _ (h ▸ (IsoTime.Clock.text_lt_iff_millis_lt hd hc).mpr hlt)
    exact .inr ⟨by omega, hid⟩

/-! ## Conservation -/

/-- The buckets whose rows are events. -/
def Bucket.kept : Bucket → Bool
  | .unprocessable _ => false
  | .unselected _ => false
  | _ => true

/-- The batch counts and keeps what became of the rows. -/
structure NormalizationBatch.Conserves (batch : NormalizationBatch) (os : List RowOutcome) :
    Prop where
  rows : batch.counts.rows = os.length
  counted : ∀ b, batch.count b = (os.map RowOutcome.bucket).count b
  kept : ∀ o ∈ os, o.event.isSome = o.bucket.kept
  events : batch.events.Perm (eventsFrom 0 os)
  apart : (batch.events.map BatchEvent.position).Nodup
  ordered : batch.events.Pairwise InTimeOrder
  applies : batch.applies = batch.events.filter fun e => e.event.classification.bucket = .applies
  appliesCount : batch.applies.length = batch.counts.applies
  riskRemediated : batch.microsoftRiskVerdicts.Disjoint batch.microsoftRemediatedVerdicts
  riskSafety : batch.microsoftRiskVerdicts.Disjoint batch.microsoftSafetyVerdicts
  remediatedSafety : batch.microsoftRemediatedVerdicts.Disjoint batch.microsoftSafetyVerdicts

theorem event_isSome (o : RowOutcome) : o.event.isSome = o.bucket.kept := by
  cases o with
  | normalized result =>
    rw [RowOutcome.bucket]
    cases result.event.classification <;> rfl
  | setAside reason => rfl
  | unselected => rfl

theorem isApplies_eq (classification : EventClassification) :
    classification.isApplies = decide (classification.bucket = .applies) := by
  cases classification <;> simp [EventClassification.isApplies, EventClassification.bucket]

theorem count_applies (position : Nat) (os : List RowOutcome) :
    ((eventsFrom position os).filter fun e => e.event.classification.bucket = .applies).length =
      (os.map RowOutcome.bucket).count .applies := by
  induction os generalizing position with
  | nil => rfl
  | cons o os ih =>
    rw [eventsFrom, filter_append, length_append, ih, map_cons, count_cons]
    cases o with
    | normalized result =>
      simp only [RowOutcome.event, RowOutcome.bucket, map_some, toList_some,
        filter_cons, filter_nil, beq_iff_eq, decide_eq_true_eq]
      split <;> simp [Nat.add_comm]
    | setAside reason => simp [RowOutcome.event, RowOutcome.bucket]
    | unselected => simp [RowOutcome.event, RowOutcome.bucket]

theorem told_disjoint {events : List BatchEvent} {verdictOf : JsMap Nat MicrosoftVerdict}
    {v w : MicrosoftVerdict} (h : v ≠ w) :
    (events.filter fun e => decide (verdictOf.get? e.position = some v)).Disjoint
      (events.filter fun e => decide (verdictOf.get? e.position = some w)) := by
  intro e hv hw
  rw [mem_filter, decide_eq_true_eq] at hv hw
  exact h (Option.some.inj (hv.2.symm.trans hw.2))

section Batch

variable {ρ : Type} {p : Auth.Platform} {f : ProviderFacts} {toLowerCase : JsString → JsString}
  {options : NormalizeBatchOptions ρ} {index : DirectoryIndex}

/-- What becomes of the rows of a batch. -/
def NormalizeBatchOptions.outcomes (p : Auth.Platform) (f : ProviderFacts)
    (toLowerCase : JsString → JsString) (options : NormalizeBatchOptions ρ)
    (index : DirectoryIndex) : List RowOutcome :=
  Normalization.outcomes p f (options.context toLowerCase index)
    ⟨.empty, false, options.caller⟩ 0 options.rows

/-- The batch without the rows of other feeds. -/
def NormalizeBatchOptions.selected (options : NormalizeBatchOptions ρ) : NormalizeBatchOptions ρ :=
  { options with
    rows := options.rows.filter fun row => !OtherFeed options.scope options.source row }

theorem finish_conserves : (options.finish (normalizeRows p f (options.context toLowerCase index)
    (.start options.caller) 0 options.rows)).Conserves
      (options.outcomes p f toLowerCase index) := by
  obtain ⟨hcount, hevents⟩ := @rows_follow ρ p f (options.context toLowerCase index)
    (.start options.caller) 0 options.rows
  change _ = [] ++ eventsFrom 0 (options.outcomes p f toLowerCase index) at hevents
  rw [nil_append] at hevents
  have hcounted : ∀ b, (normalizeRows p f (options.context toLowerCase index)
      (.start options.caller) 0 options.rows).count b =
        ((options.outcomes p f toLowerCase index).map RowOutcome.bucket).count b := by
    intro b
    rw [hcount b]
    cases b <;> exact Nat.zero_add _
  generalize normalizeRows p f (options.context toLowerCase index) (.start options.caller) 0
    options.rows = t at hevents hcounted ⊢
  have hperm : (options.finish t).events.Perm
      (eventsFrom 0 (options.outcomes p f toLowerCase index)) :=
    hevents ▸ perm_insertionSort _ _
  have happlies : (options.finish t).applies = (options.finish t).events.filter fun e =>
      e.event.classification.bucket = .applies :=
    filter_congr fun e _ => isApplies_eq e.event.classification
  constructor
  · exact (length_outcomes _ _ _).symm
  · intro b
    rw [← hcounted b]
    cases b <;> rfl
  · exact fun o _ => event_isSome o
  · exact hperm
  · exact (hperm.map _).nodup_iff.mpr (nodup_eventsFrom _ _)
  · refine (pairwise_insertionSort eventOrder t.events).imp_of_mem ?_
    intro left right hleft hright h
    have hclock : ∀ e ∈ t.events.insertionSort eventOrder,
        ∃ d : IsoTime.Clock, d.valid = true ∧ e.event.eventAt = d.text := by
      intro e he
      obtain ⟨-, o, ho, hevent⟩ := mem_eventsFrom (hperm.mem_iff.mp he)
      exact outcomes_eventAt o ho _ hevent
    obtain ⟨c, hc, hctext⟩ := hclock left hleft
    obtain ⟨d, hd, hdtext⟩ := hclock right hright
    exact inTimeOrder_of hc hd hctext hdtext h
  · exact happlies
  · rw [happlies, (hperm.filter _).length_eq, count_applies, ← hcounted .applies]
    rfl
  · exact told_disjoint (by decide)
  · exact told_disjoint (by decide)
  · exact told_disjoint (by decide)

/-- The events do not depend on rows of other feeds. -/
theorem finish_selected
    (within : ∀ o ∈ options.outcomes p f toLowerCase index, o ≠ .setAside .batchLimitExceeded) :
    (options.selected.finish (normalizeRows p f (options.context toLowerCase index)
      (.start options.caller) 0 options.selected.rows)).events.map BatchEvent.event =
    (options.finish (normalizeRows p f (options.context toLowerCase index)
      (.start options.caller) 0 options.rows)).events.map BatchEvent.event := by
  let byEvent (left right : NormalizedEvent) : Prop :=
    eventOrder ⟨0, left⟩ ⟨0, right⟩
  have hsort : ∀ l : List BatchEvent, (l.insertionSort eventOrder).map BatchEvent.event =
      (l.map BatchEvent.event).insertionSort byEvent := fun l =>
    map_insertionSort eventOrder byEvent _ _ fun _ _ _ _ => Iff.rfl
  have hselected := @outcomes_selected ρ p f (options.context toLowerCase index) _ 0 0
    options.rows within (le_refl 0)
  have hevents : ∀ rows : List SignInRow,
      (normalizeRows p f (options.context toLowerCase index) (.start options.caller) 0
        rows).events.map BatchEvent.event =
      (outcomes p f (options.context toLowerCase index) ⟨.empty, false, options.caller⟩ 0
        rows).filterMap RowOutcome.event := by
    intro rows
    rw [(rows_follow _ _ _).2, map_append, events_eventsFrom]
    rfl
  simp only [NormalizeBatchOptions.finish]
  rw [hsort, hsort, hevents, hevents]
  exact congrArg _ hselected

/-- Every row is counted once, and the bridge finds all of them. -/
theorem normalizeSignInBatch_conserves {batch : NormalizationBatch}
    (scope : AssessTenant.CollectionScopeSource)
    (h : normalizeSignInBatch p f toLowerCase options = some batch) :
    ∃ index, indexDirectory toLowerCase options.scope options.directory = some index ∧
      (options.outcomes p f toLowerCase index).length = options.rows.length ∧
      batch.Conserves (options.outcomes p f toLowerCase index) ∧
      (AssessTenant.assertAccountsForEveryRow batch.handed
          (AssessTenant.toEvaluationCoverage batch.handed scope) options.rows.length = true ↔
        ¬(options.rows ≠ [] ∧
          ∀ row ∈ options.rows, OtherFeed options.scope options.source row = true)) ∧
      (options.rows.length ≤ MAX_ROWS_PER_RUN →
        batch.count (.unprocessable .batchLimitExceeded) = 0) ∧
      (batch.count (.unprocessable .batchLimitExceeded) = 0 →
        ∃ batch', normalizeSignInBatch p f toLowerCase options.selected = some batch' ∧
          batch'.events.map BatchEvent.event = batch.events.map BatchEvent.event) := by
  obtain ⟨index, hindex, rfl⟩ := map_eq_some_iff.mp h
  have hconserves : NormalizationBatch.Conserves _ (options.outcomes p f toLowerCase index) :=
    finish_conserves
  have hlength : (options.outcomes p f toLowerCase index).length = options.rows.length :=
    length_outcomes _ _ _
  have hlimit := hconserves.counted (.unprocessable .batchLimitExceeded)
  have hbucket : ∀ o : RowOutcome, o.bucket = .unprocessable .batchLimitExceeded →
      o = .setAside .batchLimitExceeded := by
    intro o ho
    cases o with
    | normalized result =>
      rw [RowOutcome.bucket] at ho
      cases hclass : result.event.classification <;> rw [hclass] at ho <;> cases ho
    | setAside reason =>
      rw [RowOutcome.bucket, Bucket.unprocessable.injEq] at ho
      rw [ho]
    | unselected => cases ho
  refine ⟨index, hindex, hlength, hconserves, ?_, ?_, ?_⟩
  · have haccounts := accounts_iff hconserves.counted scope
    have hall : (∀ o ∈ options.outcomes p f toLowerCase index, o = .unselected) ↔
        ∀ row ∈ options.rows, OtherFeed options.scope options.source row = true :=
      all_unselected_iff
    rw [hlength, hall, ← length_pos_iff, hlength, length_pos_iff] at haccounts
    exact haccounts
  · intro hrows
    rw [hlimit, count_eq_zero]
    intro hmem
    obtain ⟨o, ho, hunder⟩ := mem_map.mp hmem
    exact outcomes_within (by omega) o ho (hbucket o hunder)
  · intro hzero
    rw [hlimit, count_eq_zero] at hzero
    have hwithin : ∀ o ∈ options.outcomes p f toLowerCase index,
        o ≠ .setAside .batchLimitExceeded := by
      rintro o ho rfl
      exact hzero (mem_map_of_mem ho)
    exact ⟨_, map_eq_some_iff.mpr ⟨index, hindex, rfl⟩, finish_selected hwithin⟩

end Batch

def sampleSignInRow : SignInRow where
  organizationId := js "o"
  customerTenantId := js "t"
  raw := .object [(js "id", .string (js "e")),
    (js "createdDateTime", .string (js "2026-01-01T00:00:00Z")),
    (js "userId", .string (js "00000000-0000-4000-8000-000000000001")),
    (js "appId", .string (js "00000000-0000-4000-8000-000000000002"))]
  ingestedAt := some 1800000000000

def sampleOtherRow : SignInRow :=
  { sampleSignInRow with
    raw := .object [(js "hawkviewSource", .string (js "MICROSOFT_365_MANAGEMENT_ACTIVITY"))] }

def sampleBatchOptions : NormalizeBatchOptions Unit where
  scope := ⟨js "o", js "t", js "m"⟩
  source := .graphSignIns
  rows := [sampleSignInRow, sampleOtherRow]
  directory := [⟨js "o", js "t", js "00000000-0000-4000-8000-000000000001", js "u"⟩]
  reference _ _ _ := (some (some (.string (js "r"))), ())
  caller := ()
  collectionScope := .undeclared

/-- One event and one row of the other feed: both are found. -/
theorem normalizeSignInBatch_conserves_sample :
    ∃ batch, normalizeSignInBatch ⟨fun _ => 0, id, id⟩
        ⟨fun _ => none, fun _ _ => none, fun _ => none, fun _ _ => none⟩ id sampleBatchOptions =
          some batch ∧
      batch.events.length = 1 ∧ batch.count (.unselected .rowFromOtherFeed) = 1 ∧
      AssessTenant.assertAccountsForEveryRow batch.handed
        (AssessTenant.toEvaluationCoverage batch.handed ⟨false, []⟩) 2 = true := by
  have hread : (normalizeSignInBatch ⟨fun _ => 0, id, id⟩
      ⟨fun _ => none, fun _ _ => none, fun _ => none, fun _ _ => none⟩ id sampleBatchOptions).map
        (fun batch => (batch.events.length, batch.count (.unselected .rowFromOtherFeed))) =
          some (1, 1) := by
    decide +kernel
  obtain ⟨batch, hbatch, hcounts⟩ := map_eq_some_iff.mp hread
  obtain ⟨_, _, _, _, haccepted, _⟩ := normalizeSignInBatch_conserves ⟨false, []⟩ hbatch
  obtain ⟨hevents, hunselected⟩ := Prod.mk.inj hcounts
  refine ⟨batch, hbatch, hevents, hunselected, haccepted.mpr ?_⟩
  rintro ⟨-, hall⟩
  exact absurd (hall sampleSignInRow mem_cons_self) (by decide +kernel)

end Normalization
