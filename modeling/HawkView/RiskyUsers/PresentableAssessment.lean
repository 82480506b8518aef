import HawkView.RiskyUsers.FeedCapability
import HawkView.RiskyUsers.StorableDocument

/-!
# Assessments that can be presented

Where the names and reasons that the engine is given are short, those of its
assessment are.
-/

namespace FleetSummary

open Json RunRecord EvaluationContract Evaluate EarnedCount Compose FeedCapability List

/-! ## What the engine is given -/

/-- Names that the summary takes, and counts that are numbers of the language. -/
structure ShortCoverage (coverage : Coverage) : Prop where
  asked : ∀ asked, coverage.collectionScope = .declared asked → shortText asked = true
  applies : Exact coverage.applies
  reasons : ∀ e ∈ setAsideOf coverage,
    shortText e.reason = true ∧ e.reason ∉ forbiddenKeys ∧ Exact e.count

/-- A signal that is read back, with a count that is a number of the language. -/
structure PlainSignal (signal : DetectorSignal) : Prop where
  named : JsString.blank signal.signal = false
  count : ∃ n, signal.count = .ofNat n ∧ Exact n
  latest : ∀ recency, signal.latest = some recency → recency.at₀ ≠ []

/-- A detector under a short name that tells short reasons and plain signals. -/
structure ShortDetector {Event : Type} (d : Detector Event) : Prop where
  id : shortText d.id = true
  because : ∀ events because, d.run events = some (.inapplicable because) → because.length ≤ 200
  signals : ∀ events assessed declined findings,
    d.run events = some (.ran assessed declined findings) →
      ∀ finding ∈ findings, ∀ signal ∈ finding.firstSignal :: finding.restSignals,
        PlainSignal signal

/-- What one stream of a tenant is assessed from. -/
structure StreamInput (Event Key : Type) where
  stream : JsString
  evidence : Evidence Event Key
  detectors : List (FeedBoundDetector Event)
  capability : Capability
  budget : Budget

variable {Event Key : Type}

def StreamInput.bound (input : StreamInput Event Key) : List (Detector Event) :=
  input.detectors.map fun d => bindToFeed d input.capability

def StreamInput.assess [LT Key] [DecidableLT Key] (input : StreamInput Event Key) :
    StreamAssessment :=
  ⟨input.stream, evaluate input.evidence input.bound input.budget⟩

/-- What a tenant is told of its streams. -/
def assessInputs [LT Key] [DecidableLT Key] (inputs : List (StreamInput Event Key)) :
    TenantAssessment :=
  composeTenantAssessment (inputs.map StreamInput.assess)

/-- The reason that stands in for a rule is as short as those of the detectors. -/
def ShortReason (capability : Capability) (d : FeedBoundDetector Event) : Prop :=
  unreachableRequirements d capability ≠ [] →
    (inertReason capability (unreachableRequirements d capability)).length ≤ 200

structure StreamInput.Short (input : StreamInput Event Key) : Prop where
  stream : shortText input.stream = true
  coverage : ∀ applies coverage timeOf, input.evidence = .read applies coverage timeOf →
    ShortCoverage coverage
  detectors : ∀ d ∈ input.detectors, ShortDetector d.detector ∧ ShortReason input.capability d

/-! ## What the engine writes -/

/-- An assessment that the summary can present. -/
structure Presentable (a : TenantAssessment) : Prop where
  streams : ∀ e ∈ a.streams, shortText e.stream = true ∧ ShortCoverage e.assessment.coverage
  asked : ∀ s ∈ a.count.scope.evidenceRequested, shortText s = true
  covered : ∀ s ∈ a.count.scope.covered, shortText s = true
  notCovered : ∀ e ∈ a.count.scope.notCovered,
    shortText e.detectorId = true ∧ shortText e.because = true
  setAside : ∀ e ∈ a.count.scope.setAside, shortText e.reason = true
  withheld : ∀ ws, a.claim = .withheld ws →
    ws ≠ [] ∧ ∀ w ∈ ws, ∀ s, w.stream = some s → shortText s = true
  signals : ∀ finding ∈ a.findings.items, ∀ signal ∈ finding.firstSignal :: finding.restSignals,
    PlainSignal signal.toDetectorSignal

/-- The numbers of a verdict, and the values of both documents, are within the limits. -/
structure WithinLimits (a : TenantAssessment) (sources : List SourceCollection) : Prop where
  value : ∀ n, Compose.value a.count = some n → n ≤ 1000000
  setAside : ∀ e ∈ a.count.scope.setAside, e.count ≤ 1000000
  coverage : nodes (encodeRunCoverage a) ≤ 50000
  findings : nodes (encodeRunFindings a sources) ≤ 50000

/-! ## One stream -/

theorem shortText_iff {s : JsString} :
    shortText s = true ↔ JsString.blank s = false ∧ s.length ≤ 200 := by
  simp [shortText]

theorem noCoverage_short : ShortCoverage noCoverage where
  asked := by
    intro asked h
    cases h
    decide
  applies := by simp [Exact, noCoverage]
  reasons := fun _ h => absurd h not_mem_nil

/-- Whatever is bound to a feed tells short reasons. -/
theorem bindToFeed_short {capability : Capability} {d : FeedBoundDetector Event}
    (h : ShortDetector d.detector) (hreason : ShortReason capability d) :
    ShortDetector (bindToFeed d capability) := by
  cases hmissing : unreachableRequirements d capability with
  | nil =>
    have hsame : bindToFeed d capability = d.detector := by simp [bindToFeed, hmissing]
    rw [hsame]
    exact h
  | cons first rest =>
    have hnonempty : unreachableRequirements d capability ≠ [] := by simp [hmissing]
    have hreplaced : bindToFeed d capability = ⟨d.detector.id, d.detector.monotonic,
        fun _ => some (.inapplicable (inertReason capability
          (unreachableRequirements d capability)))⟩ := by
      simp [bindToFeed, hmissing]
    rw [hreplaced]
    refine ⟨h.id, ?_, nofun⟩
    intro events because hrun
    cases hrun
    exact hreason hnonempty

/-- What one detector reports. -/
structure ShortReport (report : DetectorReport) : Prop where
  covered : ∀ s, covered report = some s → shortText s = true
  notCovered : ∀ e, notCovered report = some e →
    shortText e.detectorId = true ∧ shortText e.because = true

theorem ShortReport.failed (id : JsString) : ShortReport (.failed id) := ⟨nofun, nofun⟩

variable {id : JsString}

theorem ShortReport.inapplicable {because : JsString} (hid : shortText id = true)
    (hbecause : shortText because = true) : ShortReport (.inapplicable id because) := by
  refine ⟨nofun, ?_⟩
  intro e he
  cases he
  exact ⟨hid, hbecause⟩

theorem ShortReport.ran (hid : shortText id = true) (assessed : JsNumber) (declined : Declined)
    (matched : Nat) : ShortReport (.ran id assessed declined matched) := by
  refine ⟨?_, nofun⟩
  intro s hs
  cases hs
  exact hid

variable {events : List Event} {fits : Bool} {d : Detector Event}

theorem examine_short (h : ShortDetector d) : ShortReport (examine events fits d).2 := by
  rw [examine]
  split
  · exact .inapplicable h.id (by decide)
  · cases hrun : d.run events with
    | none => exact .failed d.id
    | some result =>
      cases result with
      | inapplicable because =>
        simp only
        split
        · exact .failed d.id
        · rename_i hnamed
          have hlength := h.because events because hrun
          exact .inapplicable h.id (shortText_iff.mpr ⟨by simpa using hnamed, hlength⟩)
      | ran assessed declined findings =>
        simp only
        split
        · exact .ran h.id assessed declined findings.length
        · exact .failed d.id

theorem examine_plain (h : ShortDetector d) : ∀ finding ∈ (examine events fits d).1,
      ∀ signal ∈ finding.firstSignal :: finding.restSignals,
        PlainSignal signal.toDetectorSignal := by
  have hmarked : ∀ assessed declined findings,
      d.run events = some (.ran assessed declined findings) →
      ∀ finding ∈ findings.map fun f => cappedWhenTruncated f !fits,
        ∀ signal ∈ finding.firstSignal :: finding.restSignals,
          PlainSignal signal.toDetectorSignal := by
    intro assessed declined findings hrun finding hfinding signal hsignal
    obtain ⟨given, hgiven, rfl⟩ := mem_map.mp hfinding
    obtain ⟨plain, hplain, rfl⟩ : ∃ plain ∈ given.firstSignal :: given.restSignals,
        (⟨plain, !fits⟩ : FindingSignal) = signal := mem_map.mp hsignal
    exact h.signals events assessed declined findings hrun given hgiven plain hplain
  have hnone : ∀ finding ∈ ([] : List Finding),
      ∀ signal ∈ finding.firstSignal :: finding.restSignals,
        PlainSignal signal.toDetectorSignal := fun _ hmem => absurd hmem not_mem_nil
  rw [examine]
  split
  · exact hnone
  · cases hrun : d.run events with
    | none => exact hnone
    | some result =>
      cases result with
      | inapplicable because =>
        simp only
        split <;> exact hnone
      | ran assessed declined findings =>
        simp only
        split <;> exact hmarked assessed declined findings hrun

/-- The scope of a count of which every text is short. -/
structure ShortScope (scope : CountScope) : Prop where
  asked : ∀ s ∈ scope.evidenceRequested, shortText s = true
  covered : ∀ s ∈ scope.covered, shortText s = true
  notCovered : ∀ e ∈ scope.notCovered, shortText e.detectorId = true ∧ shortText e.because = true
  setAside : ∀ e ∈ scope.setAside, shortText e.reason = true

theorem scopeOf_short {reports : List DetectorReport} {coverage : Coverage}
    (hreports : ∀ report ∈ reports, ShortReport report) (hcoverage : ShortCoverage coverage) :
    ShortScope (scopeOf reports coverage) where
  asked := by
    intro s hs
    simp only [scopeOf] at hs
    cases hscope : coverage.collectionScope with
    | declared asked =>
      rw [hscope, mem_singleton] at hs
      rw [hs]
      exact hcoverage.asked asked hscope
    | undeclared =>
      rw [hscope] at hs
      cases hs
  covered := by
    intro s hs
    obtain ⟨report, hreport, hsome⟩ := mem_filterMap.mp hs
    exact (hreports report hreport).covered s hsome
  notCovered := by
    intro e he
    obtain ⟨report, hreport, hsome⟩ := mem_filterMap.mp he
    exact (hreports report hreport).notCovered e hsome
  setAside := fun e he => (hcoverage.reasons e he).1

/-- What is said of one stream. -/
structure ShortAssessment (a : Assessment) : Prop where
  coverage : ShortCoverage a.coverage
  scope : ShortScope a.count.scope
  signals : ∀ finding ∈ a.findings.items, ∀ signal ∈ finding.firstSignal :: finding.restSignals,
    PlainSignal signal.toDetectorSignal

theorem unread_short (state : EvidenceState) (because : Unread) :
    ShortAssessment (unreadAssessment state because) where
  coverage := noCoverage_short
  scope := by
    rw [unreadAssessment, countOf_scope]
    exact ⟨fun _ h => absurd h not_mem_nil, fun _ h => absurd h not_mem_nil,
      fun _ h => absurd h not_mem_nil, fun _ h => absurd h not_mem_nil⟩
  signals := fun _ hmem => absurd hmem not_mem_nil

variable {input : StreamInput Event Key}

theorem StreamInput.Short.bound (h : input.Short) :
    ∀ d ∈ input.bound, ShortDetector d := by
  intro d hd
  obtain ⟨given, hgiven, rfl⟩ := mem_map.mp hd
  exact bindToFeed_short (h.detectors given hgiven).1 (h.detectors given hgiven).2

theorem StreamInput.Short.assess [LT Key] [DecidableLT Key] (h : input.Short) :
    ShortAssessment input.assess.assessment := by
  have hbound := h.bound
  cases hevidence : input.evidence with
  | neverCollected =>
    rw [StreamInput.assess, hevidence]
    exact unread_short _ _
  | unreadableNow =>
    rw [StreamInput.assess, hevidence]
    exact unread_short _ _
  | read applies coverage timeOf =>
    have hcoverage := h.coverage applies coverage timeOf hevidence
    obtain ⟨hitems, hreports, _, hcount⟩ :=
      evaluate_read applies coverage timeOf input.bound input.budget
    rw [StreamInput.assess, hevidence]
    constructor
    · exact hcoverage
    · rw [hcount, countOf_scope]
      refine scopeOf_short ?_ hcoverage
      intro report hreport
      rw [hreports] at hreport
      obtain ⟨d, hd, rfl⟩ := mem_map.mp hreport
      exact examine_short (hbound d hd)
    · intro finding hfinding
      rw [hitems] at hfinding
      obtain ⟨d, hd, hfound⟩ := mem_flatMap.mp hfinding
      exact examine_plain (hbound d hd) finding hfound

/-! ## The tenant -/

/-- Merging keeps the reasons. -/
theorem merged_reasons {P : JsString → Prop} {entries : List SetAside}
    {merged : JsMap JsString SetAside} (hmerged : ∀ e ∈ merged.values, P e.reason)
    (hentries : ∀ e ∈ entries, P e.reason) :
    ∀ e ∈ (entries.foldl mergeSetAside merged).values, P e.reason := by
  induction entries generalizing merged with
  | nil => exact hmerged
  | cons entry rest ih =>
    refine ih ?_ fun e he => hentries e (mem_cons_of_mem _ he)
    have hentry := hentries entry mem_cons_self
    intro e he
    rw [mergeSetAside] at he
    split at he
    · rcases JsMap.mem_values_set he with rfl | he
      · exact hentry
      · exact hmerged e he
    · rcases JsMap.mem_values_set he with rfl | he
      · exact hentry
      · exact hmerged e he

variable {streams : List StreamAssessment}

theorem withheldOf_short (h : ∀ e ∈ streams, shortText e.stream = true) :
    ∀ w ∈ withheldOf streams, ∀ s, w.stream = some s → shortText s = true := by
  intro w hw s hs
  rw [withheldOf] at hw
  split at hw
  · rw [mem_singleton.mp hw] at hs
    cases hs
  · obtain ⟨entry, hentry, hreason⟩ := mem_flatMap.mp hw
    obtain ⟨because, _, rfl⟩ := mem_map.mp hreason
    cases hs
    exact h entry hentry

theorem compose_presentable
    (h : ∀ e ∈ streams, shortText e.stream = true ∧ ShortAssessment e.assessment) :
    Presentable (composeTenantAssessment streams) where
  streams := fun e he => ⟨(h e he).1, (h e he).2.coverage⟩
  asked := by
    intro s hs
    simp only [composeTenantAssessment, countOf_scope, mem_eraseDups, mem_flatMap,
      mem_map] at hs
    obtain ⟨_, ⟨e, he, rfl⟩, hs⟩ := hs
    exact (h e he).2.scope.asked s hs
  covered := by
    intro s hs
    simp only [composeTenantAssessment, countOf_scope, mem_flatMap, mem_map] at hs
    obtain ⟨_, ⟨e, he, rfl⟩, hs⟩ := hs
    exact (h e he).2.scope.covered s hs
  notCovered := by
    intro s hs
    simp only [composeTenantAssessment, countOf_scope, mem_flatMap, mem_map] at hs
    obtain ⟨_, ⟨e, he, rfl⟩, hs⟩ := hs
    exact (h e he).2.scope.notCovered s hs
  setAside := by
    intro entry hentry
    simp only [composeTenantAssessment, countOf_scope] at hentry
    have hempty : ∀ e ∈ (JsMap.empty : JsMap JsString SetAside).values,
        shortText e.reason = true := fun e he => absurd he not_mem_nil
    refine merged_reasons (P := fun s => shortText s = true) hempty ?_ entry hentry
    intro e he
    simp only [mem_flatMap, mem_map] at he
    obtain ⟨_, ⟨stream, hstream, rfl⟩, he⟩ := he
    exact (h stream hstream).2.scope.setAside e he
  withheld := by
    intro ws hws
    simp only [composeTenantAssessment] at hws
    split at hws
    · cases hws
    · rename_i hnonempty
      cases hws
      refine ⟨?_, withheldOf_short fun e he => (h e he).1⟩
      simpa using hnonempty
  signals := by
    intro finding hfinding
    obtain ⟨e, he, hitem⟩ := mem_flatMap.mp hfinding
    exact (h e he).2.signals finding hitem

/-- What the engine says of streams under short names. -/
theorem assessed_presentable [LT Key] [DecidableLT Key] {inputs : List (StreamInput Event Key)}
    (h : ∀ input ∈ inputs, input.Short) :
    Presentable (assessInputs inputs) := by
  apply compose_presentable
  intro e he
  obtain ⟨input, hinput, rfl⟩ := mem_map.mp he
  exact ⟨(h input hinput).stream, (h input hinput).assess⟩

end FleetSummary
