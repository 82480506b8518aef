import HawkView.Evaluation.MostRecent
import HawkView.RiskyUsers.FeedCapability

/-!
# Lockouts and rejected passwords

A subject is reported for a lockout, or for as many rejected passwords as a
threshold asks for. A run that does not have room for its window reports nobody
whom it would not report of more of it.
-/

namespace CredentialFailure

open EvaluationContract Evaluate EarnedCount FeedCapability Normalization List Option

/-! ## References to events -/

/-- No text of an event id has it. -/
def control (c : UInt16) : Bool :=
  decide (c ≤ 0x20) || decide (0x7F ≤ c ∧ c ≤ 0x9F) || decide (0x202A ≤ c ∧ c ≤ 0x202E) ||
    decide (0x2066 ≤ c ∧ c ≤ 0x2069)

/-- What a reference says of its feed, and the longest id that it takes from it. -/
def referenceKind : NormalizationSource → SubjectBindingMethod →
    Option (SourceKind × EvaluationContract.SubjectBinding × Nat)
  | .graphSignIns, .directoryObjectId => some (.graphSignIns, .directoryObjectId, 200)
  | .m365AuditSts, .normalizedUpn => some (.m365AuditSts, .normalizedUpn, 189)
  | .graphSignIns, .normalizedUpn | .m365AuditSts, .directoryObjectId => none

/-- `readSourceEventReference` of the fields of an event. -/
def sourceEventReference (event : NormalizedEvent) : Option SourceEventReference := do
  let (source, subjectBinding, longest) ← referenceKind event.source event.subjectBinding
  guard (isUuid event.organizationId && isUuid event.customerTenantId &&
    JsString.startsWith event.subjectRef (js "subject:") && isUuid (event.subjectRef.drop 8) &&
    decide (1 ≤ event.eventId.length ∧ event.eventId.length ≤ longest) &&
    !event.eventId.any control &&
    decide (IsoTime.Canonical event.eventAt) && (IsoTime.utcTime event.eventAt).isSome)
  return ⟨event.organizationId, event.customerTenantId, source, event.eventId, event.eventAt,
    event.subjectRef, subjectBinding⟩

def SourceEventReference.order (reference : SourceEventReference) : JsString :=
  let source := match reference.source with
    | .graphSignIns => js "GRAPH_SIGN_INS"
    | .m365AuditSts => js "M365_AUDIT_STS"
  reference.eventAt ++ js "|" ++ source ++ js "|" ++ reference.eventId

def latestSourceReference : Option SourceEventReference → Option SourceEventReference →
    Option SourceEventReference
  | previous, none => previous
  | none, some next => some next
  | some previous, some next =>
    if SourceEventReference.order previous < SourceEventReference.order next then some next
    else some previous

/-! ## The rule -/

def FAMILY : List EventOutcome := [.lockedOutAfterRepeatedFailures, .passwordRejected]

def outcomeOf (event : NormalizedEvent) : Option EventOutcome :=
  match event.classification with
  | .applies outcome => some outcome
  | .doesNotApply _ | .notYetCited _ | .unknown _ => none

def correlationFor (event : NormalizedEvent) : CorrelationRef :=
  match event.subjectBinding with
  | .directoryObjectId => .available .directoryObjectId event.subjectRef
  | .normalizedUpn => .available .userPrincipalName event.subjectRef

structure SignalTally where
  count : Nat
  latest : Option SignalRecency
  sourceEvent : Option SourceEventReference

def SignalTally.blank : SignalTally := ⟨0, none, none⟩

def SignalTally.add (running : SignalTally) (event : NormalizedEvent) : SignalTally where
  count := running.count + 1
  latest := some ⟨event.eventAt, .eventOccurred⟩
  sourceEvent := latestSourceReference running.sourceEvent (sourceEventReference event)

structure Tally where
  signals : EventOutcome → SignalTally
  latestEvent : NormalizedEvent

def blank (event : NormalizedEvent) : Tally := ⟨fun _ => .blank, event⟩

def Tally.add (running : Tally) (outcome : EventOutcome) (event : NormalizedEvent) : Tally where
  signals := Function.update running.signals outcome ((running.signals outcome).add event)
  latestEvent := event

structure Scan where
  bySubject : JsMap JsString Tally
  assessed : Nat
  otherOutcome : Nat

/-- The body of the loop over the events. -/
def Scan.visit (s : Scan) (event : NormalizedEvent) : Scan :=
  match (outcomeOf event).filter FAMILY.contains with
  | none => { s with otherOutcome := s.otherOutcome + 1 }
  | some outcome =>
    let running := (s.bySubject.get? event.subjectRef).getD (blank event)
    { s with
      bySubject := s.bySubject.set event.subjectRef (running.add outcome event)
      assessed := s.assessed + 1 }

def scan (applicable : List NormalizedEvent) : Scan :=
  applicable.foldl Scan.visit ⟨.empty, 0, 0⟩

def signalOf (outcome : EventOutcome) (tally : Tally) : DetectorSignal where
  signal := outcomeText outcome
  count := .ofNat (tally.signals outcome).count
  latest := (tally.signals outcome).latest
  sourceEvent := (tally.signals outcome).sourceEvent

/-- Whether the loop over the subjects goes on to report one. -/
def reported (rejectionThreshold : JsNumber) (tally : Tally) : Bool :=
  !(decide ((tally.signals .lockedOutAfterRepeatedFailures).count = 0) &&
    (JsNumber.ofNat (tally.signals .passwordRejected).count).lt rejectionThreshold)

def findingOf (entry : JsString × Tally) : DetectorFinding where
  detectorId := js "repeated-credential-failure"
  subject := .directoryUser entry.1 (correlationFor entry.2.latestEvent)
  firstSignal := signalOf .lockedOutAfterRepeatedFailures entry.2
  restSignals := [signalOf .passwordRejected entry.2]

def credentialFailureDetector (rejectionThreshold : JsNumber) :
    FeedBoundDetector NormalizedEvent where
  requires := FAMILY
  detector :=
    { id := js "repeated-credential-failure"
      monotonic := true
      run := fun applicable =>
        let s := scan applicable
        some (.ran (.ofNat s.assessed)
          (if 0 < s.otherOutcome then
            [(js "NOT_A_CREDENTIAL_FAILURE_OUTCOME", .ofNat s.otherOutcome)] else [])
          ((s.bySubject.entries.filter fun entry => reported rejectionThreshold entry.2).map
            findingOf)) }

/-! ## What the loop collects -/

variable {events : List NormalizedEvent} {subject : JsString} {outcome : EventOutcome}
  {rejectionThreshold : JsNumber} {budget : Budget}

/-- The events of a subject with an outcome. -/
def about (events : List NormalizedEvent) (subject : JsString) (outcome : EventOutcome) :
    List NormalizedEvent :=
  events.filter fun event => outcomeOf event = some outcome ∧ event.subjectRef = subject

/-- The events that the rule reads of a subject. -/
def family (events : List NormalizedEvent) (subject : JsString) : List NormalizedEvent :=
  events.filter fun event =>
    (outcomeOf event).filter FAMILY.contains ≠ none ∧ event.subjectRef = subject

/-- The tally of one signal; there may be none for a subject that has none. -/
def signalIn (s : Scan) (subject : JsString) (outcome : EventOutcome) : SignalTally :=
  ((s.bySubject.get? subject).map fun tally => tally.signals outcome).getD .blank

theorem visit_signal (s : Scan) (event : NormalizedEvent) (houtcome : outcome ∈ FAMILY) :
    signalIn (s.visit event) subject outcome =
      if outcomeOf event = some outcome ∧ event.subjectRef = subject then
        (signalIn s subject outcome).add event
      else signalIn s subject outcome := by
  rw [Scan.visit]
  cases hread : (outcomeOf event).filter FAMILY.contains with
  | none =>
    rw [if_neg]
    · rfl
    · rintro ⟨hevent, _⟩
      simp [hevent, houtcome] at hread
  | some other =>
    have hevent := (filter_eq_some_iff.mp hread).1
    simp only [hevent, Option.some.injEq, signalIn, JsMap.get?_set]
    by_cases hsubject : event.subjectRef = subject
    · rw [if_pos hsubject, hsubject, map_some, getD_some]
      by_cases hother : other = outcome
      · rw [if_pos ⟨hother, rfl⟩]
        cases s.bySubject.get? subject <;> simp [Tally.add, blank, hother]
      · rw [if_neg fun h => hother h.1]
        cases s.bySubject.get? subject <;> simp [Tally.add, blank, Function.update, Ne.symm hother]
    · rw [if_neg hsubject, if_neg fun h => hsubject h.2]

theorem visit_latest (s : Scan) (event : NormalizedEvent) :
    ((s.visit event).bySubject.get? subject).map Tally.latestEvent =
      if (outcomeOf event).filter FAMILY.contains ≠ none ∧ event.subjectRef = subject then
        some event
      else (s.bySubject.get? subject).map Tally.latestEvent := by
  rw [Scan.visit]
  cases (outcomeOf event).filter FAMILY.contains with
  | none => simp
  | some other =>
    rw [JsMap.get?_set]
    by_cases hsubject : event.subjectRef = subject
    · simp [hsubject, Tally.add]
    · simp [hsubject]

theorem scan_append (events : List NormalizedEvent) (event : NormalizedEvent) :
    scan (events ++ [event]) = (scan events).visit event := foldl_concat ..

/-- A signal is tallied from its own events, and the latest event is the last of the family. -/
theorem scan_signal (events : List NormalizedEvent) (subject : JsString)
    (houtcome : outcome ∈ FAMILY) :
    signalIn (scan events) subject outcome =
      (about events subject outcome).foldl SignalTally.add .blank := by
  induction events using reverseRecOn with
  | nil => rfl
  | append_singleton events event ih =>
    rw [scan_append, visit_signal _ _ houtcome, ih]
    by_cases h : outcomeOf event = some outcome ∧ event.subjectRef = subject
    · simp [h, about]
    · simp [h, about]

theorem scan_latest (events : List NormalizedEvent) (subject : JsString) :
    ((scan events).bySubject.get? subject).map Tally.latestEvent =
      (family events subject).getLast? := by
  induction events using reverseRecOn with
  | nil => rfl
  | append_singleton events event ih =>
    rw [scan_append, visit_latest, ih]
    by_cases h : (outcomeOf event).filter FAMILY.contains ≠ none ∧ event.subjectRef = subject
    · rw [if_pos h, family, filter_append, filter_cons_of_pos (by simpa using h)]
      simp
    · rw [if_neg h, family, family, filter_append, filter_cons_of_neg (by simpa using h)]
      simp

theorem foldl_add (events : List NormalizedEvent) :
    (events.foldl SignalTally.add .blank).count = events.length ∧
      (events.foldl SignalTally.add .blank).latest =
        events.getLast?.map fun event => ⟨event.eventAt, .eventOccurred⟩ := by
  induction events using reverseRecOn with
  | nil => exact ⟨rfl, rfl⟩
  | append_singleton events event ih =>
    rw [foldl_concat, length_append, getLast?_concat]
    exact ⟨congrArg (· + 1) ih.1, rfl⟩

/-! ## What is found -/

def tallyOf (events : List NormalizedEvent) (subject : JsString) (outcome : EventOutcome) :
    SignalTally := (about events subject outcome).foldl SignalTally.add .blank

/-- With a lockout, or with a rejection and not with fewer than the threshold. -/
def Qualifies (rejectionThreshold : JsNumber) (events : List NormalizedEvent)
    (subject : JsString) : Prop :=
  (about events subject .lockedOutAfterRepeatedFailures).length ≠ 0 ∨
    (about events subject .passwordRejected).length ≠ 0 ∧
      (JsNumber.ofNat (about events subject .passwordRejected).length).lt rejectionThreshold =
        false

def findings (rejectionThreshold : JsNumber) (events : List NormalizedEvent) :
    List DetectorFinding :=
  ((scan events).bySubject.entries.filter fun entry => reported rejectionThreshold entry.2).map
    findingOf

theorem family_nil : family events subject = [] ↔
    ∀ outcome ∈ FAMILY, about events subject outcome = [] := by
  simp only [family, about, filter_eq_nil_iff, decide_eq_true_eq, not_and]
  constructor
  · intro h outcome houtcome event hmem hevent
    exact h event hmem (by simp [hevent, houtcome])
  · intro h event hmem hread
    obtain ⟨outcome, houtcome⟩ := ne_none_iff_exists'.mp hread
    obtain ⟨hevent, hfamily⟩ := filter_eq_some_iff.mp houtcome
    exact h outcome (by simpa using hfamily) event hmem hevent

variable {tally : Tally}

section

variable (h : (scan events).bySubject.get? subject = some tally)
include h

/-- The tally of a subject, as its events have it. -/
theorem tally_eq :
    (family events subject).getLast? = some tally.latestEvent ∧
      ∀ outcome ∈ FAMILY, tally.signals outcome = tallyOf events subject outcome := by
  have hlatest := scan_latest events subject
  rw [h] at hlatest
  refine ⟨hlatest.symm, fun outcome houtcome => ?_⟩
  have hsignal := scan_signal events subject houtcome
  rwa [signalIn, h] at hsignal

theorem tally_count :
    ∀ outcome ∈ FAMILY, (tally.signals outcome).count = (about events subject outcome).length := by
  intro outcome houtcome
  rw [(tally_eq h).2 outcome houtcome]
  exact (foldl_add _).1

theorem reported_iff :
    reported rejectionThreshold tally = true ↔ Qualifies rejectionThreshold events subject := by
  have hlatest := (tally_eq h).1
  have hcounts := tally_count h
  have hsome : ¬ ∀ outcome ∈ FAMILY, about events subject outcome = [] := by
    rw [← family_nil]
    intro hnil
    rw [hnil] at hlatest
    cases hlatest
  rw [reported, hcounts _ (by decide), hcounts _ (by decide), Qualifies]
  simp only [FAMILY, forall_mem_cons, ← length_eq_zero_iff] at hsome
  by_cases hlock : (about events subject .lockedOutAfterRepeatedFailures).length = 0
  · simp [hlock] at hsome ⊢
    simp [hsome]
  · simp [hlock]

end

variable {finding : DetectorFinding}

/-- A finding is there for every subject that qualifies, with the tallies of its own events. -/
theorem mem_findings :
    finding ∈ findings rejectionThreshold events ↔ ∃ subject tally,
      (scan events).bySubject.get? subject = some tally ∧
      Qualifies rejectionThreshold events subject ∧ findingOf (subject, tally) = finding := by
  simp only [findings, List.mem_map, mem_filter, Prod.exists, ← JsMap.get?_eq_some]
  constructor
  · rintro ⟨subject, tally, ⟨hget, hreported⟩, rfl⟩
    exact ⟨subject, tally, hget, (reported_iff hget).mp hreported, rfl⟩
  · rintro ⟨subject, tally, hget, hqualifies, rfl⟩
    exact ⟨subject, tally, ⟨hget, (reported_iff hget).mpr hqualifies⟩, rfl⟩

theorem qualifies_known (h : Qualifies rejectionThreshold events subject) :
    ∃ tally, (scan events).bySubject.get? subject = some tally := by
  cases hget : (scan events).bySubject.get? subject with
  | some tally => exact ⟨tally, rfl⟩
  | none =>
    have hlatest := scan_latest events subject
    rw [hget, map_none, eq_comm, getLast?_eq_none_iff, family_nil] at hlatest
    obtain hlock | ⟨hreject, _⟩ := h
    · exact absurd (length_eq_zero_iff.mpr (hlatest _ (by decide))) hlock
    · exact absurd (length_eq_zero_iff.mpr (hlatest _ (by decide))) hreject

/-! ## More events -/

/-- The same signal with no smaller count, and as late as before where it had occurred. -/
def Grown (before after : DetectorSignal) : Prop :=
  after.signal = before.signal ∧ before.count.le after.count = true ∧
    (before.count ≠ .ofNat 0 → after.latest = before.latest)

theorem about_append (front events : List NormalizedEvent) (subject : JsString)
    (outcome : EventOutcome) : about (front ++ events) subject outcome =
      about front subject outcome ++ about events subject outcome := filter_append ..

variable {n : Nat} {x : JsNumber}

theorem not_lt_mono {m : Nat} (hle : m ≤ n) (h : (JsNumber.ofNat m).lt x = false) :
    (JsNumber.ofNat n).lt x = false := by
  cases x with
  | finite q =>
    simp only [JsNumber.ofNat, JsNumber.lt, decide_eq_false_iff_not, not_lt] at h ⊢
    exact h.trans (by exact_mod_cast hle)
  | infinite negative => exact h
  | nan => rfl

theorem qualifies_append (front : List NormalizedEvent)
    (h : Qualifies rejectionThreshold events subject) :
    Qualifies rejectionThreshold (front ++ events) subject := by
  rw [Qualifies, about_append, about_append, length_append, length_append]
  obtain hlock | ⟨hreject, hthreshold⟩ := h
  · exact .inl (by omega)
  · exact .inr ⟨by omega, not_lt_mono (by omega) hthreshold⟩

theorem signalOf_grown {front : List NormalizedEvent} {before after : Tally}
    (hbefore : before.signals outcome = tallyOf events subject outcome)
    (hafter : after.signals outcome = tallyOf (front ++ events) subject outcome) :
    Grown (signalOf outcome before) (signalOf outcome after) := by
  obtain ⟨hcount, hlatest⟩ := foldl_add (about events subject outcome)
  obtain ⟨hcount', hlatest'⟩ := foldl_add (about (front ++ events) subject outcome)
  rw [about_append] at hcount' hlatest'
  simp only [Grown, signalOf, hbefore, hafter, tallyOf, about_append, hcount, hcount', hlatest,
    hlatest', JsNumber.ofNat_le, length_append, true_and]
  refine ⟨by omega, fun hne => ?_⟩
  have hsome : about events subject outcome ≠ [] := by
    rintro hnil
    simp [hnil] at hne
  rw [List.getLast?_append_of_ne_nil _ hsome]

/-- A subject that is found in the end of a window is found in the window. -/
theorem findings_append (front : List NormalizedEvent)
    (h : finding ∈ findings rejectionThreshold events) :
    ∃ more ∈ findings rejectionThreshold (front ++ events), more.subject = finding.subject ∧
      Forall₂ Grown (finding.firstSignal :: finding.restSignals)
        (more.firstSignal :: more.restSignals) := by
  obtain ⟨subject, tally, hget, hqualifies, rfl⟩ := mem_findings.mp h
  have hmore := qualifies_append front hqualifies
  obtain ⟨tally', hget'⟩ := qualifies_known hmore
  obtain ⟨hlatest, hsignals⟩ := tally_eq hget
  obtain ⟨hlatest', hsignals'⟩ := tally_eq hget'
  refine ⟨_, mem_findings.mpr ⟨subject, tally', hget', hmore, rfl⟩, ?_, ?_⟩
  · rw [family, filter_append] at hlatest'
    rw [family] at hlatest
    rw [getLast?_append, hlatest, some_or, Option.some.injEq] at hlatest'
    simp only [findingOf, hlatest']
  · have hgrown : ∀ outcome ∈ FAMILY, Grown (signalOf outcome tally) (signalOf outcome tally') :=
      fun outcome houtcome =>
        signalOf_grown (hsignals outcome houtcome) (hsignals' outcome houtcome)
    exact .cons (hgrown _ (by decide)) (.cons (hgrown _ (by decide)) .nil)

/-! ## Budgets -/

/-- The order in which the classifier hands events on. -/
def Classified (events : List NormalizedEvent) : Prop :=
  events.Pairwise fun left right => left.eventAt < right.eventAt ∨
    left.eventAt = right.eventAt ∧ left.eventId ≤ right.eventId

/-- How many events a budget has room for. -/
def room (events : List NormalizedEvent) (budget : Budget) : Nat :=
  if withinBudget events budget then events.length else MostRecent.capacity budget.maxEvents

/-- The latest events are the end of the list. -/
theorem applicable_eq (ordered : Classified events) (budget : Budget) :
    applicable events NormalizedEvent.eventAt budget =
      events.drop (events.length - room events budget) := by
  cases hfits : withinBudget events budget with
  | true => simp [applicable, room, hfits]
  | false =>
    have htimes : events.Pairwise fun left right => ¬ right.eventAt < left.eventAt := by
      refine ordered.imp fun {left right} h => ?_
      obtain h | ⟨h, _⟩ := h
      · exact List.lt_asymm h
      · exact h ▸ List.lt_irrefl _
    rw [applicable, hfits, if_neg Bool.false_ne_true,
      MostRecent.mostRecent_eq NormalizedEvent.eventAt events hfits,
      MostRecent.latest_sorted _ htimes, room, hfits, if_neg Bool.false_ne_true]

theorem finite_le {p q : ℚ} (h : (JsNumber.finite p).le (.finite q) = true) : p ≤ q := by
  simpa [JsNumber.le, JsNumber.lt, ← le_iff_lt_or_eq] using h

variable {y : JsNumber}

theorem bounds_mono (h : x.le y = true) (hx : JsNumber.bounds n x = true) :
    JsNumber.bounds n y = true := by
  match x, y with
  | .finite p, .finite q =>
    simp only [JsNumber.bounds, decide_eq_true_eq] at hx ⊢
    exact hx.trans (finite_le h)
  | .finite _, .infinite false | .infinite false, .infinite false => rfl
  | .infinite true, _ | .nan, _ => cases hx

/-- A budget that leaves events out has room for as many as a smaller one. -/
theorem capacity_mono (h : x.le y = true) (hy : JsNumber.bounds n y = false) :
    MostRecent.capacity x ≤ MostRecent.capacity y := by
  match x, y with
  | .finite p, .finite q => exact Int.toNat_le_toNat (Int.floor_mono (finite_le h))
  | .finite _, .infinite false => cases hy
  | .infinite _, _ | .nan, _ => exact Nat.zero_le _

theorem room_mono {b c : Budget} (hle : b.maxEvents.le c.maxEvents = true) :
    room events b ≤ room events c := by
  rw [room, room]
  split_ifs with hb hc hc
  · exact le_rfl
  · exact absurd (bounds_mono hle hb) hc
  · exact (MostRecent.capacity_le (Bool.eq_false_of_not_eq_true hb)).1
  · exact capacity_mono hle (Bool.eq_false_of_not_eq_true hc)

/-! ## The findings of a run -/

/-- What a run of the rule alone finds. -/
def items (rejectionThreshold : JsNumber) (events : List NormalizedEvent) (coverage : Coverage)
    (budget : Budget) : List Finding :=
  (evaluate (.read events coverage NormalizedEvent.eventAt)
    [(credentialFailureDetector rejectionThreshold).detector] budget).findings.items

theorem items_eq (coverage : Coverage) : items rejectionThreshold events coverage budget =
    (findings rejectionThreshold (applicable events NormalizedEvent.eventAt budget)).map
      (cappedWhenTruncated · !withinBudget events budget) := by
  rw [items, (evaluate_read events coverage NormalizedEvent.eventAt _ budget).1, found,
    flatMap_singleton, examine]
  simp only [credentialFailureDetector, Bool.true_eq_false, and_false, if_false]
  split_ifs <;> rfl

def signals (finding : Finding) : List DetectorSignal :=
  (finding.firstSignal :: finding.restSignals).map FindingSignal.toDetectorSignal

/-- A finding for every subject that qualifies, and for no other, with the counts of its
events. -/
structure Exact (rejectionThreshold : JsNumber) (events : List NormalizedEvent)
    (items : List Finding) : Prop where
  subjects : ∀ subject, some subject ∈ items.map userRef ↔
    Qualifies rejectionThreshold events subject
  once : (items.map userRef).Nodup
  counts : ∀ finding ∈ items, ∃ subject, userRef finding = some subject ∧
    (finding.firstSignal :: finding.restSignals).map
      (fun signal => (signal.signal, signal.count, signal.capped)) =
      FAMILY.map fun outcome =>
        (outcomeText outcome, .ofNat (about events subject outcome).length, false)

theorem findings_exact (rejectionThreshold : JsNumber) (events : List NormalizedEvent) :
    Exact rejectionThreshold events
      ((findings rejectionThreshold events).map (cappedWhenTruncated · false)) where
  subjects subject := by
    rw [List.map_map, List.mem_map]
    constructor
    · rintro ⟨finding, hmem, huser⟩
      obtain ⟨other, tally, _, hqualifies, rfl⟩ := mem_findings.mp hmem
      cases huser
      exact hqualifies
    · intro hqualifies
      obtain ⟨tally, hget⟩ := qualifies_known hqualifies
      exact ⟨_, mem_findings.mpr ⟨subject, tally, hget, hqualifies, rfl⟩, rfl⟩
  once := by
    rw [List.map_map, findings, List.map_map]
    change (List.map (some ∘ Prod.fst) _).Nodup
    rw [← List.map_map]
    refine List.Nodup.map (some_injective _) ?_
    exact (scan events).bySubject.unique.sublist (filter_sublist.map _)
  counts := by
    intro finding hmem
    obtain ⟨plain, hplain, rfl⟩ := List.mem_map.mp hmem
    obtain ⟨subject, tally, hget, _, rfl⟩ := mem_findings.mp hplain
    refine ⟨subject, rfl, ?_⟩
    have hcounts := tally_count hget
    simp only [cappedWhenTruncated, findingOf, signalOf, map_cons, map_nil, FAMILY]
    rw [hcounts .lockedOutAfterRepeatedFailures (by decide), hcounts .passwordRejected (by decide)]

/-- A smaller budget fabricates no finding, and a window that is read in full has the exact
ones. -/
theorem truncation_fabricates_nothing (rejectionThreshold : JsNumber)
    (events : List NormalizedEvent) (ordered : Classified events) (coverage : Coverage)
    (b c : Budget) (hle : b.maxEvents.le c.maxEvents = true) :
    (∀ finding ∈ items rejectionThreshold events coverage b,
      ∃ more ∈ items rejectionThreshold events coverage c, more.subject = finding.subject ∧
        List.Forall₂ Grown (signals finding) (signals more)) ∧
    (withinBudget events c = true →
      Exact rejectionThreshold events (items rejectionThreshold events coverage c)) := by
  constructor
  · intro finding hmem
    rw [items_eq, applicable_eq ordered] at hmem
    obtain ⟨plain, hplain, rfl⟩ := List.mem_map.mp hmem
    obtain ⟨front, hfront⟩ := drop_suffix_drop_left events
      (Nat.sub_le_sub_left (room_mono hle) events.length)
    obtain ⟨more, hmore, hsubject, hgrown⟩ := findings_append front hplain
    rw [items_eq, applicable_eq ordered, ← hfront]
    refine ⟨_, mem_map_of_mem hmore, hsubject, ?_⟩
    simpa [signals, cappedWhenTruncated, Function.comp_def] using hgrown
  · intro hfits
    have happlicable : applicable events NormalizedEvent.eventAt c = events := by
      simp [applicable, hfits]
    rw [items_eq, happlicable, hfits]
    exact findings_exact rejectionThreshold events

def sampleEvent (outcome : EventOutcome) (eventAt : String) : NormalizedEvent where
  organizationId := js "o"
  customerTenantId := js "c"
  microsoftTenantId := js "m"
  source := .graphSignIns
  eventId := js "e"
  eventAt := js eventAt
  ingestedAt := js eventAt
  subjectRef := js "subject:s"
  subjectBinding := .directoryObjectId
  applicationRef := js "a"
  errorCode := none
  clientSource := ⟨.notReported, none⟩
  classification := .applies outcome

def rejectedThenLocked : List NormalizedEvent :=
  [sampleEvent .passwordRejected "2026-01-01", sampleEvent .lockedOutAfterRepeatedFailures
    "2026-01-02"]

theorem truncation_fabricates_nothing_sample :
    (∀ finding ∈ items (.ofNat 5) rejectedThenLocked noCoverage ⟨.ofNat 1⟩,
      ∃ more ∈ items (.ofNat 5) rejectedThenLocked noCoverage ⟨.ofNat 2⟩,
        more.subject = finding.subject ∧
          List.Forall₂ Grown (signals finding) (signals more)) ∧
    Exact (.ofNat 5) rejectedThenLocked
      (items (.ofNat 5) rejectedThenLocked noCoverage ⟨.ofNat 2⟩) := by
  have hordered : Classified rejectedThenLocked := by
    simp only [Classified, rejectedThenLocked, pairwise_pair]
    decide
  obtain ⟨hmore, hexact⟩ := truncation_fabricates_nothing (.ofNat 5) rejectedThenLocked hordered
    noCoverage ⟨.ofNat 1⟩ ⟨.ofNat 2⟩ (by decide)
  exact ⟨hmore, hexact (by decide)⟩

/-- A subject without a rejection is not reported by a threshold of none. -/
theorem zero_threshold_unreported :
    Classified [sampleEvent .passwordAcceptedCompleted "2026-01-01"] ∧
    withinBudget [sampleEvent .passwordAcceptedCompleted "2026-01-01"] ⟨.ofNat 9⟩ = true ∧
    (JsNumber.ofNat 0).le (.ofNat (about [sampleEvent .passwordAcceptedCompleted "2026-01-01"]
      (js "subject:s") .passwordRejected).length) = true ∧
    items (.ofNat 0) [sampleEvent .passwordAcceptedCompleted "2026-01-01"] noCoverage
      ⟨.ofNat 9⟩ = [] :=
  ⟨pairwise_singleton .., by decide, by decide, by decide +kernel⟩

end CredentialFailure
