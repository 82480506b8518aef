import HawkView.RiskyUsers.FleetExact
import HawkView.RiskyUsers.PresentableAssessment
import HawkView.RiskyUsers.RecordRoundTrip

/-!
# The summary reads what the engine writes

The record of an assessment that can be presented passes every check of the
summary.
-/

namespace FleetSummary

open List Option

open Json RunRecord EvaluationContract Evaluate Compose AssessTenant FeedCapability
open Normalization (EventOutcome NormalizationSource)
open ChangeEvidence (Date)

/-! ## The documents are within the budget -/

theorem collectionScope_storable (scope : CollectionScope) :
    Storable 4 (collectionScopeJson scope) := by
  cases scope with
  | declared asked =>
    exact .cons (by decide) (.bool (by omega) _) <| .cons (by decide) (.string (by omega) _) <|
      .nil (by omega)
  | undeclared => exact .cons (by decide) (.bool (by omega) _) <| .nil (by omega)

/-- The counts that are set aside under a vocabulary. -/
def countsUnder (coverage : Coverage) : SetAsideVocabulary → Counts
  | .doesNotApply => coverage.doesNotApply
  | .notYetCited => coverage.notYetCited
  | .unknown => coverage.unknown
  | .unprocessable => coverage.unprocessable

variable {coverage : Coverage}

theorem mem_setAsideOf {v : SetAsideVocabulary} {e : JsString × Nat}
    (h : e ∈ countsUnder coverage v) : (⟨v, e.1, e.2⟩ : SetAside) ∈ setAsideOf coverage := by
  simp only [setAsideOf, mem_append]
  cases v with
  | doesNotApply => exact .inl (.inl (.inl (mem_map_of_mem h)))
  | notYetCited => exact .inl (.inl (.inr (mem_map_of_mem h)))
  | unknown => exact .inl (.inr (mem_map_of_mem h))
  | unprocessable => exact .inr (mem_map_of_mem h)

theorem coverage_storable (h : ShortCoverage coverage) :
    Storable 3 (encodeCoverage coverage) := by
  have hreasons (v : SetAsideVocabulary) : Storable 4 (countsJson (countsUnder coverage v)) :=
    .counts (by omega) fun e he => (h.reasons _ (mem_setAsideOf he)).2
  exact .cons (by decide) (.string (by omega) _) <|
    .cons (by decide) (collectionScope_storable coverage.collectionScope) <|
    .cons (by decide) (.count (by omega) h.applies) <|
    .cons (by decide) (hreasons .doesNotApply) <| .cons (by decide) (hreasons .notYetCited) <|
    .cons (by decide) (hreasons .unknown) <| .cons (by decide) (hreasons .unprocessable) <|
    .nil (by omega)

section Documents

variable {a : TenantAssessment} {sources : List SourceCollection}

theorem runCoverage_storable (h : Presentable a) : Storable 0 (encodeRunCoverage a) := by
  have hstreams : Storable 1 (.array ((a.streams.map streamCoverage).map StreamCoverage.json)) := by
    refine .list (by omega) fun entry hentry => ?_
    obtain ⟨given, hgiven, rfl⟩ := List.mem_map.mp hentry
    exact .cons (by decide) (.string (by omega) _) <|
      .cons (by decide) (coverage_storable (h.streams given hgiven).2) <| .nil (by omega)
  exact .cons (by decide) (.string (by omega) _) <| .cons (by decide) hstreams <| .nil (by omega)

theorem source_storable (source : SourceCollection) : Storable 2 source.json :=
  .cons (by decide) (.string (by omega) _) <| .cons (by decide) (.string (by omega) _) <|
    .cons (by decide) (.nullable (by omega) _) <| .nil (by omega)

variable {scope : CountScope}

theorem scope_storable (h : ∀ e ∈ scope.setAside, e.count ≤ 1000000) :
    Storable 2 (countScopeJson scope) := by
  have hsetAside : Storable 3 (.array (scope.setAside.map setAsideJson)) := by
    refine .list (by omega) fun e he => ?_
    have hcount : Exact e.count := by
      have := h e he
      simp only [Exact]
      omega
    exact .cons (by decide) (.string (by omega) _) <| .cons (by decide) (.string (by omega) _) <|
      .cons (by decide) (.count (by omega) hcount) <| .nil (by omega)
  have hnotCovered : Storable 3 (.array (scope.notCovered.map notCoveredJson)) := by
    refine .list (by omega) fun e _ => ?_
    exact .cons (by decide) (.string (by omega) _) <| .cons (by decide) (.string (by omega) _) <|
      .nil (by omega)
  exact .cons (by decide) (.texts (by omega) _) <| .cons (by decide) hsetAside <|
    .cons (by decide) (.texts (by omega) _) <| .cons (by decide) hnotCovered <| .nil (by omega)

variable {count : Count}

theorem count_storable (hvalue : ∀ n, Compose.value count = some n → n ≤ 1000000)
    (hscope : ∀ e ∈ count.scope.setAside, e.count ≤ 1000000) :
    Storable 1 (.object (countFields count)) := by
  have hnumber : Storable 2 (countValue count) := by
    have hexact : ∀ n, Compose.value count = some n → Storable 2 (ofCount n) := by
      intro n hn
      have := hvalue n hn
      refine .count (by omega) ?_
      simp only [Exact]
      omega
    cases count with
    | exact n scope => exact hexact n rfl
    | atLeast n scope => exact hexact n rfl
    | notAvailable scope => exact .null (by omega)
  exact .cons (by decide) (.string (by omega) _) <| .cons (by decide) hnumber <|
    .cons (by decide) (scope_storable hscope) <| .nil (by omega)

theorem claim_storable (claim : TenantClaim) : Storable 1 (.object (claimFields claim)) := by
  cases claim with
  | permitted => exact .cons (by decide) (.bool (by omega) _) <| .nil (by omega)
  | withheld withheld =>
    have hlist : Storable 2 (.array (withheld.map withholdingJson)) := by
      refine .list (by omega) fun e _ => ?_
      exact .cons (by decide) (.nullable (by omega) _) <|
        .cons (by decide) (.string (by omega) _) <| .nil (by omega)
    exact .cons (by decide) (.bool (by omega) _) <| .cons (by decide) hlist <| .nil (by omega)

theorem correlation_storable (correlation : CorrelationRef) :
    Storable 4 (correlationJson correlation) := by
  cases correlation with
  | available matchedBy ref =>
    exact .cons (by decide) (.bool (by omega) _) <| .cons (by decide) (.string (by omega) _) <|
      .cons (by decide) (.string (by omega) _) <| .nil (by omega)
  | unavailable because =>
    exact .cons (by decide) (.bool (by omega) _) <| .cons (by decide) (.string (by omega) _) <|
      .nil (by omega)

theorem subject_storable (subject : Subject) : Storable 3 (.object (subjectFields subject)) := by
  cases subject with
  | directoryUser userRef correlation =>
    exact .cons (by decide) (.string (by omega) _) <| .cons (by decide) (.string (by omega) _) <|
      .cons (by decide) (correlation_storable correlation) <| .nil (by omega)
  | mailbox mailboxRef binding =>
    exact .cons (by decide) (.string (by omega) _) <| .cons (by decide) (.string (by omega) _) <|
      .cons (by decide) (.string (by omega) _) <| .nil (by omega)

theorem recency_storable (latest : Option SignalRecency) : Storable 5 (recencyJson latest) := by
  cases latest with
  | none => exact .null (by omega)
  | some recency =>
    exact .cons (by decide) (.string (by omega) _) <| .cons (by decide) (.string (by omega) _) <|
      .nil (by omega)

theorem signal_storable {signal : FindingSignal} (h : PlainSignal signal.toDetectorSignal) :
    Storable 4 (signalJson signal) := by
  obtain ⟨n, hn, hexact⟩ := h.count
  have hcount : Storable 5 (ofNumber signal.count) := by
    rw [hn, ofNumber_ofNat]
    exact .count (by omega) hexact
  exact .cons (by decide) (.string (by omega) _) <| .cons (by decide) hcount <|
    .cons (by decide) (recency_storable signal.latest) <|
    .cons (by decide) (.bool (by omega) _) <| .nil (by omega)

theorem finding_storable {finding : Finding}
    (h : ∀ signal ∈ finding.firstSignal :: finding.restSignals,
      PlainSignal signal.toDetectorSignal) : Storable 2 (storedFinding finding).json := by
  have hsignals : Storable 3
      (.array (((finding.firstSignal :: finding.restSignals).map storedSignal).map signalJson)) := by
    refine .list (by omega) fun signal hsignal => ?_
    obtain ⟨given, hgiven, rfl⟩ := List.mem_map.mp hsignal
    have hplain := h given hgiven
    exact signal_storable ⟨hplain.named, hplain.count, hplain.latest⟩
  exact .cons (by decide) (.string (by omega) _) <|
    .cons (by decide) (subject_storable finding.subject) <| .cons (by decide) hsignals <|
    .nil (by omega)

theorem runFindings_storable (h : Presentable a) (limits : WithinLimits a sources) :
    Storable 0 (encodeRunFindings a sources) := by
  have hsources : Storable 1 (.array (sources.map SourceCollection.json)) :=
    .list (by omega) fun source _ => source_storable source
  have hitems : Storable 1
      (.array ((a.findings.items.map storedFinding).map StoredFinding.json)) := by
    refine .list (by omega) fun stored hstored => ?_
    obtain ⟨finding, hfinding, rfl⟩ := List.mem_map.mp hstored
    exact finding_storable (h.signals finding hfinding)
  exact .cons (by decide) (.string (by omega) _) <| .cons (by decide) hsources <|
    .cons (by decide) (count_storable limits.value limits.setAside) <|
    .cons (by decide) (claim_storable a.claim) <| .cons (by decide) (.bool (by omega) _) <|
    .cons (by decide) (.texts (by omega) _) <| .cons (by decide) hitems <| .nil (by omega)

/-! ## The verdict is valid -/

theorem strings_texts {texts : List JsString} (h : ∀ s ∈ texts, shortText s = true) :
    strings (some (textsJson texts)) = true := by
  show (texts.map Json.string).all (fun item => isShortText (some item)) = true
  simp only [List.all_eq_true, List.mem_map]
  rintro _ ⟨s, hs, rfl⟩
  exact h s hs

theorem integer_count {n : Nat} (h : n ≤ 1000000) : integer (some (ofCount n)) = true := by
  rw [integer, countOf_ofCount, any_some]
  exact decide_eq_true h

theorem setAside_valid {e : SetAside} (reason : shortText e.reason = true)
    (count : e.count ≤ 1000000) : validSetAside (setAsideJson e) = true := by
  have hvocabulary : vocabularyTexts.contains (vocabularyText e.vocabulary) = true := by
    cases e.vocabulary <;> decide
  have hcount := integer_count count
  show (vocabularyTexts.contains (vocabularyText e.vocabulary) && shortText e.reason &&
    integer (some (ofCount e.count))) = true
  rw [hvocabulary, reason, hcount]
  rfl

theorem notCovered_valid {e : NotCovered} (detectorId : shortText e.detectorId = true)
    (because : shortText e.because = true) : validNotCovered (notCoveredJson e) = true := by
  show (shortText e.detectorId && shortText e.because) = true
  rw [detectorId, because]
  rfl

theorem countScope_valid {fields : Fields} (hfields : countScopeJson scope = .object fields)
    (h : ShortScope scope) (counts : ∀ e ∈ scope.setAside, e.count ≤ 1000000) :
    validScope fields = true := by
  cases hfields
  have hasked := strings_texts h.asked
  have hcovered := strings_texts h.covered
  have hnotCovered : (scope.notCovered.map notCoveredJson).all validNotCovered = true := by
    simp only [List.all_eq_true, List.mem_map]
    rintro _ ⟨e, he, rfl⟩
    exact notCovered_valid (h.notCovered e he).1 (h.notCovered e he).2
  have hsetAside : (scope.setAside.map setAsideJson).all validSetAside = true := by
    simp only [List.all_eq_true, List.mem_map]
    rintro _ ⟨e, he, rfl⟩
    exact setAside_valid (h.setAside e he) (counts e he)
  show (strings (some (textsJson scope.evidenceRequested)) &&
    strings (some (textsJson scope.covered)) &&
    (scope.notCovered.map notCoveredJson).all validNotCovered &&
    (scope.setAside.map setAsideJson).all validSetAside) = true
  rw [hasked, hcovered, hnotCovered, hsetAside]
  rfl

theorem count_valid (h : ShortScope count.scope)
    (value : ∀ n, Compose.value count = some n → n ≤ 1000000)
    (counts : ∀ e ∈ count.scope.setAside, e.count ≤ 1000000) :
    validCount (countFields count) = true := by
  have hscope := countScope_valid rfl h counts
  cases count with
  | exact n scope =>
    have hvalue := integer_count (value n rfl)
    show (integer (some (ofCount n)) && validScope _) = true
    rw [hvalue]
    exact hscope
  | atLeast n scope =>
    have hvalue := integer_count (value n rfl)
    show (integer (some (ofCount n)) && validScope _) = true
    rw [hvalue]
    exact hscope
  | notAvailable scope => exact hscope

theorem withheld_valid {w : Withholding} (h : ∀ s, w.stream = some s → shortText s = true) :
    validWithheld (withholdingJson w) = true := by
  have hbecause : shortText (withheldText w.because) = true := by
    cases w.because <;> decide
  obtain ⟨stream, because⟩ := w
  cases stream with
  | none => exact hbecause
  | some s =>
    show (shortText s && shortText (withheldText because)) = true
    rw [h s rfl, hbecause]
    rfl

theorem claim_valid {claim : TenantClaim} (h : ∀ ws, claim = .withheld ws →
      ws ≠ [] ∧ ∀ w ∈ ws, ∀ s, w.stream = some s → shortText s = true) :
    validClaim (claimFields claim) = true := by
  cases claim with
  | permitted => rfl
  | withheld ws =>
    obtain ⟨hnonempty, hstreams⟩ := h ws rfl
    have hall : (ws.map withholdingJson).all validWithheld = true := by
      simp only [List.all_eq_true, List.mem_map]
      rintro _ ⟨w, hw, rfl⟩
      exact withheld_valid (hstreams w hw)
    show (!(ws.map withholdingJson).isEmpty && (ws.map withholdingJson).all validWithheld) = true
    rw [hall, isEmpty_map]
    simpa using hnonempty

theorem verdict_valid (h : Presentable a) (limits : WithinLimits a sources) :
    validVerdict (some (encodeRunFindings a sources)) = true := by
  have hcount := count_valid ⟨h.asked, h.covered, h.notCovered, h.setAside⟩ limits.value
    limits.setAside
  have hclaim := claim_valid h.withheld
  show (validCount (countFields a.count) && validClaim (claimFields a.claim)) = true
  rw [hcount, hclaim]
  rfl

/-! ## The run is read -/

theorem ShortCoverage.named {coverage : Coverage} (h : ShortCoverage coverage) :
    Named coverage := by
  have hnamed (v : SetAsideVocabulary) :
      ∀ e ∈ countsUnder coverage v, JsString.blank e.1 = false :=
    fun e he => (shortText_iff.mp (h.reasons _ (mem_setAsideOf he)).1).1
  exact
    { asked := fun asked hasked => (shortText_iff.mp (h.asked asked hasked)).1
      doesNotApply := hnamed .doesNotApply
      notYetCited := hnamed .notYetCited
      unknown := hnamed .unknown
      unprocessable := hnamed .unprocessable }

/-- The record of an assessment under short names is read back. -/
theorem presentable_decoded (h : Presentable a) (completedAt windowStart windowEnd : Int) :
    decodeNativeRunRow (some (persistedRow a sources completedAt windowStart windowEnd)) =
      .ok (recordedRun a sources completedAt windowStart windowEnd) := by
  have hstreams : AllNamed (a.streams.map streamCoverage) := by
    intro entry hentry
    obtain ⟨given, hgiven, rfl⟩ := List.mem_map.mp hentry
    obtain ⟨hname, hcoverage⟩ := h.streams given hgiven
    exact ⟨(shortText_iff.mp hname).1, hcoverage.named⟩
  have hfindings : ∀ finding ∈ (storedFindings a sources).findings, finding.Legible := by
    intro finding hfinding
    obtain ⟨given, hgiven, rfl⟩ := List.mem_map.mp hfinding
    refine storedFinding_legible fun signal hsignal => ?_
    obtain ⟨hnamed, ⟨n, hn, _⟩, hlatest⟩ := h.signals given hgiven signal hsignal
    exact ⟨hnamed, ⟨n, hn⟩, hlatest⟩
  exact @decode_row (recordedRun a sources completedAt windowStart windowEnd) hstreams hfindings _

/-- The row of a run over an assessment, with clocks in order and not ahead of the reader. Over
the limit of the transfer it comes without the documents. -/
structure Stores (row : BatchRow) (a : TenantAssessment) (sources : List SourceCollection)
    (now : Int) (clocks : Clocks) : Prop where
  documents : row.readLimitExceeded = false →
    row.evaluationCoverage = some (encodeRunCoverage a) ∧
      row.evaluationFindings = some (encodeRunFindings a sources)
  completedAt : utcClock row.completedAt = some clocks.completedAt
  windowStart : utcClock row.windowStart = some clocks.windowStart
  windowEnd : utcClock row.windowEnd = some clocks.windowEnd
  expiresAt : (utcClock row.expiresAt).isSome = true
  ordered : clocks.windowStart ≤ clocks.windowEnd ∧ clocks.windowEnd ≤ clocks.completedAt
  past : clocks.completedAt ≤ now

variable {row : BatchRow} {now : Int} {clocks : Clocks}

/-- A run that is current and within the limits is read as it was written. -/
theorem stored_readable (h : Presentable a) (limits : WithinLimits a sources)
    (stores : Stores row a sources now clocks)
    (current : ∃ t, utcClock row.expiresAt = some t ∧ now < t)
    (transferred : row.readLimitExceeded = false)
    (size : ∃ size, sizeOf row = some size ∧ size ≤ runBytes) :
    Readable row now
      (recordedRun a sources clocks.completedAt clocks.windowStart clocks.windowEnd) := by
  obtain ⟨hcoverage, hfindings⟩ := stores.documents transferred
  have hdecoded := @presentable_decoded a sources h clocks.completedAt clocks.windowStart
    clocks.windowEnd
  refine ⟨current, transferred, stores.completedAt, stores.windowStart, stores.windowEnd,
    ⟨stores.ordered.1, stores.ordered.2, stores.past⟩, size, ?_, ?_, ?_, ?_, ?_⟩
  · rw [hcoverage]
    exact (runCoverage_storable h).safe limits.coverage
  · rw [hfindings]
    exact (runFindings_storable h limits).safe limits.findings
  · rw [hfindings]
    exact verdict_valid h limits
  · rw [hcoverage, hfindings]
    exact hdecoded
  · show isNotAvailable (countFields a.count) = true ∨ integer (some (countValue a.count)) = true
    cases hcount : a.count with
    | exact n scope => exact .inr (integer_count (limits.value n (by rw [hcount]; rfl)))
    | atLeast n scope => exact .inr (integer_count (limits.value n (by rw [hcount]; rfl)))
    | notAvailable scope => exact .inl rfl

theorem stored_read (h : Presentable a) (limits : WithinLimits a sources)
    (stores : Stores row a sources now clocks) : readRun row now ≠ .error .invalidRun := by
  obtain ⟨expires, hexpires⟩ := isSome_iff_exists.mp stores.expiresAt
  by_cases hcurrent : expires ≤ now
  · rw [readRun, hexpires, any_some, if_pos (by simpa using hcurrent)]
    rintro ⟨⟩
  cases htransferred : row.readLimitExceeded with
  | true =>
    rw [readRun, hexpires, any_some, if_neg (by simpa using hcurrent), htransferred,
      if_pos rfl]
    rintro ⟨⟩
  | false =>
    obtain ⟨hcoverage, hfindings⟩ := stores.documents htransferred
    have hsize : ∃ size, sizeOf row = some size := by
      simp only [sizeOf, hcoverage, hfindings]
      exact ⟨_, rfl⟩
    obtain ⟨size, hsize⟩ := hsize
    by_cases hlimit : size ≤ runBytes
    · have hreadable := stored_readable h limits stores ⟨expires, hexpires, by omega⟩ htransferred
        ⟨size, hsize, hlimit⟩
      rw [readRun_ok.mpr hreadable]
      rintro ⟨⟩
    · have hclocks : clocksOf row now = some clocks :=
        clocksOf_some.mpr ⟨stores.completedAt, stores.windowStart, stores.windowEnd,
          stores.expiresAt, stores.ordered.1, stores.ordered.2, stores.past⟩
      rw [readRun, hexpires, any_some, if_neg (by simpa using hcurrent), htransferred,
        if_neg Bool.false_ne_true, hclocks, hsize]
      simp only
      rw [if_pos (by omega)]
      rintro ⟨⟩

end Documents

/-! ## The entry of the tenant -/

theorem mem_unique_append {reasons : List Reason} (h : .invalidRun ∉ reasons) :
    .invalidRun ∉ unique reasons := fun hmem => h (mem_unique.mp hmem)

theorem successReasons_valid (value : Option JsString) (bound now : Int) :
    .invalidRun ∉ successReasons value bound now := by
  rw [successReasons]
  split
  · decide
  · split_ifs <;> decide

theorem freshness_valid (run : Run) (row : BatchRow) (now : Int) :
    .invalidRun ∉ freshnessReasons run row now := by
  apply mem_unique_append
  simp only [mem_append, mem_flatMap, not_or, not_exists, not_and]
  refine ⟨⟨?_, ?_⟩, ?_⟩
  · split_ifs <;> decide
  · intro entry _
    rw [streamReasons]
    split_ifs
    · split
      · simp only [sourceReasons, mem_append, not_or]
        refine ⟨successReasons_valid _ _ _, ?_⟩
        split
        · decide
        · split_ifs <;> decide
      · decide
    · decide
  · simp only [collectorReasons, mem_append, not_or]
    refine ⟨successReasons_valid _ _ _, ?_⟩
    split
    · decide
    · split_ifs <;> decide

theorem assessed_valid (tenant : ScopeTenant) (row : BatchRow) (run : Run) (now : Int) :
    .invalidRun ∉ (assessed tenant row run now).limitations := by
  have hfresh := freshness_valid run row now
  simp only [assessed]
  split_ifs
  · apply mem_unique_append
    simp [hfresh]
  · exact not_mem_nil
  · apply mem_unique_append
    simp [hfresh]
  all_goals
    apply mem_unique_append
    simp [hfresh]

variable {row : BatchRow}

theorem summarize_valid {pairs : List JsString} {rows : List BatchRow}
    {m : JsMap JsString BatchRow} {now : Int} {tenant : ScopeTenant} (hm : Indexed pairs rows m)
    (asked : tenant.gate = none → row ∈ rows) (key : row.key = tenant.key)
    (valid : readRun row now ≠ .error .invalidRun) :
    .invalidRun ∉ (summarizeTenant m now tenant).1.limitations := by
  cases hgate : tenant.gate with
  | some gate =>
    simp only [summarizeTenant, hgate]
    cases gate <;> simp [unavailable, Gate.reason]
  | none =>
    have hrow := (hm.found tenant.key row).mpr ⟨asked hgate, key⟩
    cases hrun : readRun row now with
    | error reason =>
      simp only [summarizeTenant, hgate, hrow, hrun, unavailable, mem_singleton]
      rintro rfl
      exact valid hrun
    | ok run =>
      simp only [summarizeTenant, hgate, hrow, hrun]
      exact assessed_valid tenant row run now

/-- The entries of the tenant whose run a row stores. -/
theorem summary_valid {read : List BatchRow} {scope : SummaryScope} {now : Date} {s : Summary}
    (h : readNativeRiskSummary read scope (some now) = .ok s) (mem : row ∈ read)
    (valid : readRun row now.val ≠ .error .invalidRun) :
    Forall₂ (fun tenant entry => row.key = tenant.key → .invalidRun ∉ entry.limitations)
      scope.tenants s.tenants := by
  obtain ⟨m, hm, htenants, _⟩ := summary_ok h
  rw [htenants, forall₂_map_right_iff, forall₂_same]
  intro tenant htenant hkey
  refine summarize_valid hm ?_ hkey valid
  intro hgate
  rw [queried_all ⟨tenant, htenant, hgate⟩]
  exact mem

/-! ## What the classifier counts -/

/-- A reason that may stand as a key of a document and as a text of the verdict. -/
def plainReason (reason : JsString) : Bool := shortText reason && !forbiddenKeys.contains reason

/-- The reasons of the closed vocabularies are short. -/
theorem classified_short {Event : Type} {batch : NormalizationBatch Event}
    {source : CollectionScopeSource} (asked : source.asked.length ≤ 200)
    (applies : Exact batch.counts.applies)
    (counts : ∀ e ∈ setAsideOf (toEvaluationCoverage batch source), Exact e.count) :
    ShortCoverage (toEvaluationCoverage batch source) where
  asked := by
    intro text htext
    have hnamed := (toEvaluationCoverage_named batch source).asked text htext
    simp only [toEvaluationCoverage, collectionScopeOf] at htext
    split at htext
    · cases htext
      exact shortText_iff.mpr ⟨hnamed, asked⟩
    · cases htext
  applies := applies
  reasons := by
    intro e he
    have hplain : plainReason e.reason = true := by
      simp only [setAsideOf, toEvaluationCoverage, mem_append, List.mem_map] at he
      rcases he with ((⟨c, hc, rfl⟩ | ⟨c, hc, rfl⟩) | ⟨c, hc, rfl⟩) | ⟨c, hc, rfl⟩
      · exact List.all_eq_true.mp (by decide +kernel : outOfScopeReasons.all plainReason = true) _
          (batch.counts.doesNotApplyByReason.known c hc)
      · exact List.all_eq_true.mp (by decide +kernel : uncitedReasons.all plainReason = true) _
          (batch.counts.notYetCitedByReason.known c hc)
      · exact List.all_eq_true.mp (by decide +kernel : unknownObservations.all plainReason = true) _
          (batch.counts.unknownByObservation.known c hc)
      · exact List.all_eq_true.mp (by decide +kernel : unprocessableReasons.all plainReason = true) _
          (batch.counts.unprocessableByReason.known c hc)
    obtain ⟨hshort, hallowed⟩ := by simpa [plainReason] using hplain
    exact ⟨hshort, hallowed, counts e he⟩

/-! ## What the summary says of what the engine wrote -/

/-- The verdict of an assessment under short names is valid and its run is read as it was written
or not at all, but never as an invalid one. -/
structure Accepts : Prop where
  verdict : ∀ {Event Key : Type} [LT Key] [DecidableLT Key]
    (inputs : List (StreamInput Event Key)) (sources : List SourceCollection),
    (∀ input ∈ inputs, input.Short) → WithinLimits (assessInputs inputs) sources →
    validVerdict (some (encodeRunFindings (assessInputs inputs) sources)) = true
  read : ∀ {Event Key : Type} [LT Key] [DecidableLT Key]
    (inputs : List (StreamInput Event Key)) (sources : List SourceCollection) (row : BatchRow)
    (now : Int) (clocks : Clocks), (∀ input ∈ inputs, input.Short) →
    WithinLimits (assessInputs inputs) sources →
    Stores row (assessInputs inputs) sources now clocks →
    (∃ t, utcClock row.expiresAt = some t ∧ now < t) → row.readLimitExceeded = false →
    (∃ size, sizeOf row = some size ∧ size ≤ runBytes) →
    readRun row now = .ok (recordedRun (assessInputs inputs) sources clocks.completedAt
      clocks.windowStart clocks.windowEnd)
  summary : ∀ {Event Key : Type} [LT Key] [DecidableLT Key]
    (inputs : List (StreamInput Event Key)) (sources : List SourceCollection)
    (read : List BatchRow) (scope : SummaryScope) (now : Date) (s : Summary) (row : BatchRow)
    (clocks : Clocks), (∀ input ∈ inputs, input.Short) →
    WithinLimits (assessInputs inputs) sources →
    Stores row (assessInputs inputs) sources now.val clocks → row ∈ read →
    readNativeRiskSummary read scope (some now) = .ok s →
    List.Forall₂ (fun tenant entry => row.key = tenant.key → .invalidRun ∉ entry.limitations)
      scope.tenants s.tenants
  classified : ∀ {Event : Type} (batch : NormalizationBatch Event)
    (source : CollectionScopeSource), source.asked.length ≤ 200 → Exact batch.counts.applies →
    (∀ e ∈ setAsideOf (toEvaluationCoverage batch source), Exact e.count) →
    ShortCoverage (toEvaluationCoverage batch source)
  feeds : ∀ {Event : Type} (source : NormalizationSource) (bound : FeedBoundDetector Event),
    bound.requires.Nodup →
    (source = .graphSignIns ∨ ∃ outcome ∈ longOutcomes, outcome ∉ bound.requires) →
    ShortReason (capabilityOf source) bound

theorem summary_accepts : Accepts where
  verdict := fun _ _ short limits => verdict_valid (assessed_presentable short) limits
  read := fun _ _ _ _ _ short limits stores current transferred size =>
    readRun_ok.mpr (stored_readable (assessed_presentable short) limits stores current transferred
      size)
  summary := fun _ _ _ _ _ _ _ _ short limits stores mem h =>
    summary_valid h mem (stored_read (assessed_presentable short) limits stores)
  classified := fun _ _ asked applies counts => classified_short asked applies counts
  feeds := fun _ _ unique short missing => inertReason_short unique short missing

/-! A rule that reads all three of the long outcomes has a reason that the summary refuses. -/

def provenRule (requires : List EventOutcome) : FeedBoundDetector JsString where
  detector :=
    { id := js "proven-credential"
      monotonic := true
      run := fun events => some (.ran (.ofNat events.length) [] []) }
  requires := requires

def auditInput (requires : List EventOutcome) : StreamInput JsString JsString where
  stream := js "M365_AUDIT_STS"
  evidence := .read [js "2026-01-01T00:10:00.000Z"] ⟨.declared (js "all"), 1, [], [], [], []⟩ id
  detectors := [provenRule requires]
  capability := capabilityOf .m365AuditSts
  budget := ⟨.ofNat 10⟩

def auditSources : List SourceCollection :=
  [⟨js "M365_AUDIT_STS", js "SUCCESS", some (js "2026-01-01T00:20:00.000Z")⟩]

def auditRow (requires : List EventOutcome) : BatchRow where
  organizationId := js "o"
  customerTenantId := js "t"
  evaluationCoverage := some (encodeRunCoverage (assessInputs [auditInput requires]))
  evaluationFindings := some (encodeRunFindings (assessInputs [auditInput requires]) auditSources)
  completedAt := some (js "2026-01-01T01:00:00.000Z")
  windowStart := some (js "2025-12-02T01:00:00.000Z")
  windowEnd := some (js "2026-01-01T01:00:00.000Z")
  expiresAt := some (js "2026-04-01T01:00:00.000Z")
  readLimitExceeded := false
  collectorStatus := some (js "IDLE")
  collectorLastSuccessfulAt := some (js "2026-01-01T00:20:00.000Z")

/-- What the summary says of the tenant an hour after the window. -/
theorem auditClock_inRange : IsoTime.InDateRange 1767231000000 := by decide

def auditLimitations (requires : List EventOutcome) : Option (List (List Reason)) :=
  (readNativeRiskSummary [auditRow requires] ⟨.ofNat 1, [⟨js "t", js "o", none⟩]⟩
    (some ⟨1767231000000, auditClock_inRange⟩)).toOption.map
      fun s => s.tenants.map TenantSummary.limitations

/-- The rule as it is bound, where its outcomes are gaps in the order of their texts. -/
def refusal (gaps : List EventOutcome) : Detector JsString where
  id := js "proven-credential"
  monotonic := true
  run := fun _ => some (.inapplicable (js "This check reads outcomes the M365_AUDIT_STS feed " ++
    js "cannot produce (" ++ List.intercalate (js ", ") (gaps.map outcomeText) ++
    js "), so it could never report a finding here."))

theorem auditInput_bound {gaps : List EventOutcome} (some : gaps ≠ [])
    (missing : unreachableRequirements (provenRule gaps) (capabilityOf .m365AuditSts) = gaps)
    (sorted : (gaps.map outcomeText).Pairwise (· ≤ ·)) :
    (auditInput gaps).bound = [refusal gaps] := by
  have hlisted : listed gaps = intercalate (js ", ") (gaps.map outcomeText) := by
    rw [listed, mergeSort_of_pairwise (sorted.imp decide_eq_true)]
  have hempty : gaps.isEmpty = false := by simpa using some
  have hbound : bindToFeed (provenRule gaps) (capabilityOf .m365AuditSts) = refusal gaps := by
    rw [bindToFeed, missing, hempty, inertReason, hlisted]
    rfl
  exact congrArg (fun d => [d]) hbound

theorem long_reason_refused :
    auditLimitations longOutcomes = some [[.invalidRun]] ∧
    auditLimitations [.credentialConfirmedValid, .disabledAccountAttempt] =
      some [[.countWithheld]] := by
  have hthree : (auditInput longOutcomes).bound = [refusal longOutcomes] :=
    auditInput_bound (by decide) (by decide +kernel) (by decide +kernel)
  have htwo : (auditInput [.credentialConfirmedValid, .disabledAccountAttempt]).bound =
      [refusal [.credentialConfirmedValid, .disabledAccountAttempt]] :=
    auditInput_bound (by decide) (by decide +kernel) (by decide +kernel)
  simp only [auditLimitations, auditRow, assessInputs, map_cons, map_nil,
    StreamInput.assess, hthree, htwo]
  decide +kernel

end FleetSummary
