import HawkView.IdentityRisk.SignalGate
import HawkView.Lib.Runs
import HawkView.Lib.Traverse
import Mathlib.Data.Finset.Max

/-!
# Failures that end in a success

The rules `HV-ID-AUTH-005.v1` and `HV-ID-AUTH-006.v1` look for a success after a burst of
failures. The search returns the burst of the earliest success and the earliest first failure,
and only that burst is held against the approved retries.
-/

namespace IdentitySignal

open Json List Option

/-! ## The search -/

def minuteMs : Int := 60 * 1000

def occurredMs (event : AuthEvent) : Int := (parseTime event.occurredAt).getD 0

def timeWithin (value : JsString) (startExclusive endInclusive : Int) : Bool :=
  (parseTime value).any fun t => decide (startExclusive < t ∧ t ≤ endInclusive)

/-- The order of the search: by instant, then by identifier. -/
def Earlier (a b : AuthEvent) : Prop :=
  occurredMs a < occurredMs b ∨ (occurredMs a = occurredMs b ∧ a.id ≤ b.id)

instance : DecidableRel Earlier := fun a b =>
  inferInstanceAs (Decidable (occurredMs a < occurredMs b ∨
    (occurredMs a = occurredMs b ∧ a.id ≤ b.id)))

/-- The events, each identifier once. -/
def distinctEvents (events : List AuthEvent) : List AuthEvent :=
  (JsMap.ofList (events.map fun event => (event.id, event))).values

/-- The failures and the success of a burst. -/
structure Burst where
  failures : List AuthEvent
  success : AuthEvent

def burstAt (candidates : List AuthEvent) (threshold : Nat) (success : AuthEvent) (successAt : Int)
    (anchor : AuthEvent) : Option Burst :=
  (parseTime anchor.occurredAt).bind fun anchorAt =>
    if successAt ≤ anchorAt ∨ anchorAt + 25 * minuteMs < successAt then none
    else
      let failures := candidates.filter fun entry =>
        timeWithin entry.occurredAt (anchorAt - 1) (anchorAt + 10 * minuteMs)
      let last := (failures.getLast?.bind fun entry => parseTime entry.occurredAt).getD 0
      if threshold ≤ failures.length ∧ successAt ≤ last + 15 * minuteMs then
        some ⟨failures, success⟩
      else none

def burstBefore (distinct : List AuthEvent) (failureKinds : List AuthOutcome) (threshold : Nat)
    (success : AuthEvent) : Option Burst :=
  (parseTime success.occurredAt).bind fun successAt =>
    let candidates := distinct.filter fun entry => entry.outcome ∈ failureKinds &&
      timeWithin entry.occurredAt (successAt - 25 * minuteMs) successAt
    candidates.findSome? (burstAt candidates threshold success successAt)

def firstBurst (events : List AuthEvent) (failureKinds : List AuthOutcome) (threshold : Nat) :
    Option Burst :=
  let distinct := distinctEvents (events.insertionSort Earlier)
  (distinct.filter fun entry => entry.outcome = .success).findSome?
    (burstBefore distinct failureKinds threshold)

structure EventSequence where
  found : Bool
  failures : List AuthEvent
  success : Option AuthEvent

def hasEventSequence (events : List AuthEvent) (failureKinds : List AuthOutcome)
    (threshold : Nat) : EventSequence :=
  match firstBurst events failureKinds threshold with
  | some burst => ⟨true, burst.failures, some burst.success⟩
  | none => ⟨false, [], none⟩

/-! ## The rules -/

def AuthEvent.contextValues (event : AuthEvent) : ContextValues :=
  ⟨some event.subjectId, event.appId, event.client, event.deviceFingerprint,
    event.sourceFingerprint⟩

/-- An approved retry is expected for every one of the events. -/
def expectedRetry (sha256 : JsString → JsString) (context : EvaluationContext)
    (events : List AuthEvent) : Bool :=
  (contextEntries sha256 context .expectedAuthRetry).any fun entry =>
    contextCoversEvents entry events &&
      events.all fun event => exactContextMatch entry event.contextValues

def ownEvents (candidate : IdentitySignalCandidate) (events : List AuthEvent) : List AuthEvent :=
  events.filter fun event => event.subjectId = candidate.subject.opaqueId

/-- The case `HV-ID-AUTH-005.v1` of the evaluator. -/
def evaluateAuth005 (sha256 : JsString → JsString) (context : EvaluationContext)
    (candidate : IdentitySignalCandidate) (events : List AuthEvent) : SignalResult :=
  match gate sha256 context candidate with
  | some blocked => blocked
  | none =>
    match requireHumanClass sha256 context candidate with
    | some reason => notEvaluated candidate reason .unavailable
    | none =>
      let sequence := hasEventSequence (ownEvents candidate events) [.failure] 10
      match sequence.found, sequence.success with
      | true, some success =>
        if expectedRetry sha256 context (success :: sequence.failures) then
          suppressed candidate .expectedAuthRetry
        else matchedResult candidate .medium (js "FAILURE_BURST_FOLLOWED_BY_SUCCESS")
          [js "USER_MISTAKES_OR_HEALTH_CHECKS"] .medium
      | _, _ => notMatched candidate

/-- The case `HV-ID-AUTH-006.v1` of the evaluator. -/
def evaluateAuth006 (sha256 : JsString → JsString) (context : EvaluationContext)
    (candidate : IdentitySignalCandidate) (events : List AuthEvent)
    (normalizedMfaDetailComplete : Bool) : SignalResult :=
  match gate sha256 context candidate with
  | some blocked => blocked
  | none =>
    if normalizedMfaDetailComplete = false then notEvaluated candidate .evidencePartial .incomplete
    else if (hasEventSequence (ownEvents candidate events) [.mfaDenied, .mfaTimeout] 3).found then
      matchedResult candidate .high (js "MFA_DENIAL_OR_TIMEOUT_BURST_FOLLOWED_BY_SUCCESS")
        [js "LEGITIMATE_MFA_RETRIES"] .high
    else notMatched candidate

/-! ## Bursts, whatever the search -/

/-- Enough failures in ten minutes, none after the success, the first before it and the last at
most fifteen minutes before it. -/
structure Episode (events : List AuthEvent) (kinds : List AuthOutcome) (threshold : Nat)
    (failures : Finset AuthEvent) (success : AuthEvent) : Prop where
  success_mem : success ∈ events
  succeeded : success.outcome = .success
  failed : ∀ e ∈ failures, e ∈ events ∧ e.outcome ∈ kinds
  enough : threshold ≤ failures.card
  narrow : ∀ a ∈ failures, ∀ b ∈ failures, occurredMs b ≤ occurredMs a + 10 * minuteMs
  before : ∀ e ∈ failures, occurredMs e ≤ occurredMs success
  opens : ∃ e ∈ failures, occurredMs e < occurredMs success
  recent : ∃ e ∈ failures, occurredMs success ≤ occurredMs e + 15 * minuteMs

/-- The first failure is less than twenty-five minutes before the success. -/
def Near (failures : Finset AuthEvent) (success : AuthEvent) : Prop :=
  ∀ e ∈ failures, occurredMs success < occurredMs e + 25 * minuteMs

/-- The whole burst of the earliest success and the earliest first failure. -/
structure Foremost (events : List AuthEvent) (kinds : List AuthOutcome) (threshold : Nat)
    (failures : Finset AuthEvent) (success : AuthEvent) : Prop where
  episode : Episode events kinds threshold failures success
  near : Near failures success
  whole : ∃ a ∈ failures, ∀ e, e ∈ failures ↔ (e ∈ events ∧ e.outcome ∈ kinds ∧
    occurredMs a ≤ occurredMs e ∧ occurredMs e ≤ occurredMs a + 10 * minuteMs ∧
    occurredMs e ≤ occurredMs success)
  earliest : ∀ others other, Episode events kinds threshold others other → Near others other →
    Earlier success other ∧
      (other = success → ∀ e ∈ others, ∃ a ∈ failures, occurredMs a ≤ occurredMs e)

/-- One approved entry covers the success and each of the failures. -/
def Approved (entries : List NetworkContextEntry) (failures : Finset AuthEvent)
    (success : AuthEvent) : Prop :=
  ∃ entry ∈ entries, ∀ e ∈ insert success failures,
    contextCoversEvents entry [e] = true ∧ exactContextMatch entry e.contextValues = true

instance (entries : List NetworkContextEntry) (failures : Finset AuthEvent) (success : AuthEvent) :
    Decidable (Approved entries failures success) :=
  inferInstanceAs (Decidable (∃ entry ∈ entries, ∀ e ∈ insert success failures,
    contextCoversEvents entry [e] = true ∧ exactContextMatch entry e.contextValues = true))

/-- What the validator promises of a list of events. -/
structure Accepted (events : List AuthEvent) : Prop where
  timed : ∀ e ∈ events, ∃ t, parseTime e.occurredAt = some t
  identified : ∀ a ∈ events, ∀ b ∈ events, a.id = b.id → a = b
  named : ∀ e ∈ events, ∀ s, e.sourceFingerprint = some s → isOpaqueIdentityReference 256 s = true

/-! ## Accepted lists -/

/-- An identifier that comes twice comes with one fingerprint. -/
theorem fingerprint_unique {entries : List (JsString × JsString)}
    (h : duplicateIdsAreIdentical entries = true) :
    ∀ a ∈ entries, ∀ b ∈ entries, a.1 = b.1 → a.2 = b.2 := by
  obtain ⟨seen, hseen⟩ := isSome_iff_exists.mp h
  have hheld : ∀ e ∈ entries, seen.get? e.1 = some e.2 := by
    refine Runs.foldlM_carries (P := fun as (m : JsMap JsString JsString) =>
      ∀ e ∈ as, m.get? e.1 = some e.2) (fun e he => absurd he not_mem_nil) ?_ hseen
    intro as a m m' hold hstep e he
    split at hstep
    · cases hstep
    · rename_i hsame
      obtain rfl := Option.some.inj hstep
      rw [JsMap.get?_set]
      rcases mem_append.mp he with he | he
      · split
        · rename_i hkey
          have hprevious := hold e he
          rw [← hkey] at hprevious
          rw [hprevious, any_some, bne_iff_ne, not_not] at hsame
          rw [hsame]
        · exact hold e he
      · rw [mem_singleton.mp he, if_pos rfl]
  intro a ha b hb hkey
  have hvalue := hheld a ha
  rw [hkey, hheld b hb] at hvalue
  exact (Option.some.inj hvalue).symm

theorem orNull_injective : Function.Injective orNull := by
  intro s t h
  cases s <;> cases t <;> cases h <;> rfl

theorem AuthOutcome.text_injective : Function.Injective AuthOutcome.text := by
  intro a b h
  revert h
  cases a <;> cases b <;> decide

theorem AuthEvent.fingerprint_injective : Function.Injective AuthEvent.fingerprint := by
  intro a b h
  have hfields := Json.array.inj (stringify_injective h)
  simp only [List.cons.injEq, Json.string.injEq, Json.bool.injEq, orNull_injective.eq_iff,
    AuthOutcome.text_injective.eq_iff, and_true] at hfields
  obtain ⟨hid, hat, houtcome, hinteractive, hsubject, hsource, hasn, happ, hclient, hdevice⟩ :=
    hfields
  have hnumber : a.sourceAsn = b.sourceAsn := by
    cases ha : a.sourceAsn with
    | none =>
      cases hb : b.sourceAsn with
      | none => rfl
      | some n =>
        rw [ha, hb] at hasn
        cases hasn
    | some m =>
      cases hb : b.sourceAsn with
      | none =>
        rw [ha, hb] at hasn
        cases hasn
      | some n =>
        rw [ha, hb] at hasn
        exact congrArg some (ofCount_injective hasn)
  obtain ⟨id, at_, outcome, interactive, subject, source, asn, app, client, device⟩ := a
  simp only at hid hat houtcome hinteractive hsubject hsource hnumber happ hclient hdevice
  subst hid hat houtcome hinteractive hsubject hsource hnumber happ hclient hdevice
  rfl

variable {event : AuthEvent}

/-- The instant of an event that is read, and the reference of its origin. -/
theorem fields_of_readAuthEvent {item : Json} (h : readAuthEvent item = some event) :
    (∃ t, parseTime event.occurredAt = some t) ∧
      ∀ s, event.sourceFingerprint = some s → isOpaqueIdentityReference 256 s = true := by
  obtain ⟨fields, _, h⟩ := bind_eq_some_iff.mp h
  obtain ⟨id, _, h⟩ := bind_eq_some_iff.mp h
  obtain ⟨occurredAt, hat, h⟩ := bind_eq_some_iff.mp h
  obtain ⟨outcome, _, h⟩ := bind_eq_some_iff.mp h
  obtain ⟨interactive, _, h⟩ := bind_eq_some_iff.mp h
  obtain ⟨subjectId, _, h⟩ := bind_eq_some_iff.mp h
  obtain ⟨source, hsource, h⟩ := bind_eq_some_iff.mp h
  obtain ⟨asn, _, h⟩ := bind_eq_some_iff.mp h
  obtain ⟨appId, _, h⟩ := bind_eq_some_iff.mp h
  obtain ⟨client, _, h⟩ := bind_eq_some_iff.mp h
  obtain ⟨device, _, h⟩ := bind_eq_some_iff.mp h
  cases h
  refine ⟨isSome_iff_exists.mp (filter_eq_some_iff.mp hat).2, ?_⟩
  rintro s rfl
  cases hvalue : fields.lookup (js "sourceFingerprint") with
  | none =>
    rw [hvalue] at hsource
    cases hsource
  | some v =>
    rw [hvalue] at hsource
    obtain ⟨s', hs, heq⟩ := map_eq_some_iff.mp hsource
    obtain rfl := Option.some.inj heq
    exact (filter_eq_some_iff.mp hs).2

variable {events : List AuthEvent}

theorem accepted_of_read {value : Option Json} (h : readAuthEvents value = some events) :
    Accepted events := by
  obtain ⟨hlist, hunique⟩ := filter_eq_some_iff.mp h
  obtain ⟨items, _, hread⟩ := bind_eq_some_iff.mp hlist
  constructor
  · intro e he
    obtain ⟨item, _, hitem⟩ := Traverse.mem_source (Traverse.option_iff.mp hread) he
    exact (fields_of_readAuthEvent hitem).1
  · intro a ha b hb hid
    exact AuthEvent.fingerprint_injective (fingerprint_unique hunique _ (mem_map_of_mem ha) _
      (mem_map_of_mem hb) hid)
  · intro e he
    obtain ⟨item, _, hitem⟩ := Traverse.mem_source (Traverse.option_iff.mp hread) he
    exact (fields_of_readAuthEvent hitem).2

theorem Accepted.filter (h : Accepted events) (p : AuthEvent → Bool) :
    Accepted (events.filter p) where
  timed e he := h.timed e (mem_of_mem_filter he)
  identified a ha b hb := h.identified a (mem_of_mem_filter ha) b (mem_of_mem_filter hb)
  named e he := h.named e (mem_of_mem_filter he)

variable {e : AuthEvent}

theorem parseTime_occurredMs (h : Accepted events) (he : e ∈ events) :
    parseTime e.occurredAt = some (occurredMs e) := by
  obtain ⟨t, ht⟩ := h.timed e he
  rw [occurredMs, ht, getD_some]

theorem timeWithin_iff (h : Accepted events) (he : e ∈ events) (low high : Int) :
    timeWithin e.occurredAt low high = true ↔ low < occurredMs e ∧ occurredMs e ≤ high := by
  rw [timeWithin, parseTime_occurredMs h he, any_some, decide_eq_true_eq]

instance : Std.Total Earlier := ⟨fun a b => by
  rcases lt_trichotomy (occurredMs a) (occurredMs b) with hlt | heq | hgt
  · exact .inl (.inl hlt)
  · rcases List.le_total a.id b.id with hle | hle
    · exact .inl (.inr ⟨heq, hle⟩)
    · exact .inr (.inr ⟨heq.symm, hle⟩)
  · exact .inr (.inl hgt)⟩

instance : IsTrans AuthEvent Earlier := ⟨fun a b c hab hbc => by
  rcases hab with hlt | ⟨heq, hid⟩
  · rcases hbc with hlt' | ⟨heq', -⟩
    · exact .inl (hlt.trans hlt')
    · exact .inl (heq' ▸ hlt)
  · rcases hbc with hlt' | ⟨heq', hid'⟩
    · exact .inl (heq ▸ hlt')
    · exact .inr ⟨heq.trans heq', List.le_trans hid hid'⟩⟩

variable {a b : AuthEvent}

theorem Earlier.le (h : Earlier a b) : occurredMs a ≤ occurredMs b := by
  rcases h with hlt | ⟨heq, -⟩
  · exact hlt.le
  · exact heq.le

/-- The list that the search goes through. -/
structure Listed (events distinct : List AuthEvent) : Prop where
  nodup : distinct.Nodup
  sorted : distinct.Pairwise Earlier
  mem : ∀ e, e ∈ distinct ↔ e ∈ events

theorem listed (h : Accepted events) :
    Listed events (distinctEvents (events.insertionSort Earlier)) := by
  have hsorted : ∀ e, e ∈ events.insertionSort Earlier ↔ e ∈ events :=
    fun e => (perm_insertionSort Earlier events).mem_iff
  have hidentified : ∀ a ∈ events.insertionSort Earlier, ∀ b ∈ events.insertionSort Earlier,
      a.id = b.id → a = b :=
    fun a ha b hb => h.identified a ((hsorted a).mp ha) b ((hsorted b).mp hb)
  obtain ⟨hsub, hmem⟩ := JsMap.values_keyed hidentified
  exact ⟨JsMap.nodup_values_keyed AuthEvent.id _,
    (pairwise_insertionSort Earlier events).sublist hsub,
    fun e => (hmem e).trans (hsorted e)⟩

/-! ## The search, anchor by anchor -/

/-- The candidates that a burst starting at an event holds. -/
def window (candidates : List AuthEvent) (a : AuthEvent) : List AuthEvent :=
  candidates.filter fun e => occurredMs a ≤ occurredMs e ∧ occurredMs e ≤ occurredMs a + 10 * minuteMs

theorem mem_window {candidates : List AuthEvent} :
    e ∈ window candidates a ↔ e ∈ candidates ∧ occurredMs a ≤ occurredMs e ∧
      occurredMs e ≤ occurredMs a + 10 * minuteMs := by
  rw [window, mem_filter, decide_eq_true_eq]

variable {l : List AuthEvent}

/-- The last of a sorted list is the latest. -/
theorem getLast_latest (sorted : l.Pairwise Earlier) (ha : a ∈ l) :
    ∃ z ∈ l, l.getLast? = some z ∧ ∀ e ∈ l, occurredMs e ≤ occurredMs z := by
  have hne : l ≠ [] := ne_nil_of_mem ha
  refine ⟨l.getLast hne, getLast_mem hne, List.getLast?_eq_some_getLast hne, fun e he => ?_⟩
  rw [← dropLast_append_getLast hne] at sorted he
  rcases mem_append.mp he with hfront | hlast
  · exact ((pairwise_append.mp sorted).2.2 e hfront _ (mem_singleton_self _)).le
  · rw [mem_singleton.mp hlast]

/-- The failures that the search keeps for a success. -/
structure Candidates (events : List AuthEvent) (kinds : List AuthOutcome) (success : AuthEvent)
    (candidates : List AuthEvent) : Prop where
  nodup : candidates.Nodup
  sorted : candidates.Pairwise Earlier
  mem : ∀ e, e ∈ candidates ↔ e ∈ events ∧ e.outcome ∈ kinds ∧
    occurredMs success < occurredMs e + 25 * minuteMs ∧ occurredMs e ≤ occurredMs success

section Search

variable {events candidates : List AuthEvent} {kinds : List AuthOutcome} {threshold : Nat}
  {success a : AuthEvent}

theorem burstAt_eq_some (accepted : Accepted events)
    (kept : Candidates events kinds success candidates) (ha : a ∈ candidates) {b : Burst} :
    burstAt candidates threshold success (occurredMs success) a = some b ↔
      b = ⟨window candidates a, success⟩ ∧ occurredMs a < occurredMs success ∧
        threshold ≤ (window candidates a).length ∧
        ∃ e ∈ window candidates a, occurredMs success ≤ occurredMs e + 15 * minuteMs := by
  have hmem : ∀ e ∈ candidates, e ∈ events := fun e he => ((kept.mem e).mp he).1
  have hnear := ((kept.mem a).mp ha).2.2.1
  have hwindow : (candidates.filter fun entry => timeWithin entry.occurredAt (occurredMs a - 1)
      (occurredMs a + 10 * minuteMs)) = window candidates a := by
    apply filter_congr
    intro e he
    rw [Bool.eq_iff_iff, timeWithin_iff accepted (hmem e he), decide_eq_true_eq]
    omega
  have hself : a ∈ window candidates a := mem_window.mpr ⟨ha, le_rfl, by unfold minuteMs; omega⟩
  obtain ⟨z, hz, hlast, hlatest⟩ := getLast_latest
    (kept.sorted.sublist filter_sublist : (window candidates a).Pairwise Earlier) hself
  have htimed := parseTime_occurredMs accepted (hmem z (mem_window.mp hz).1)
  unfold burstAt
  rw [parseTime_occurredMs accepted (hmem a ha), bind_some, hwindow]
  simp only [hlast, bind_some, htimed, getD_some]
  by_cases horder : occurredMs a < occurredMs success
  · rw [if_neg (by omega)]
    by_cases hhit : threshold ≤ (window candidates a).length ∧
        occurredMs success ≤ occurredMs z + 15 * minuteMs
    · rw [if_pos hhit, Option.some.injEq]
      constructor
      · rintro rfl
        exact ⟨rfl, horder, hhit.1, z, hz, hhit.2⟩
      · rintro ⟨rfl, -⟩
        rfl
    · rw [if_neg hhit]
      constructor
      · rintro ⟨⟩
      · rintro ⟨-, -, henough, e, he, hrecent⟩
        have hle := hlatest e he
        exact absurd ⟨henough, by omega⟩ hhit
  · rw [if_pos (.inl (by omega))]
    constructor
    · rintro ⟨⟩
    · rintro ⟨-, hlt, -⟩
      exact absurd hlt horder

/-- What the search returns at an anchor is a burst. -/
theorem episode_of_burstAt (accepted : Accepted events)
    (kept : Candidates events kinds success candidates) (hs : success ∈ events)
    (succeeded : success.outcome = .success) (ha : a ∈ candidates) {b : Burst}
    (h : burstAt candidates threshold success (occurredMs success) a = some b) :
    Episode events kinds threshold b.failures.toFinset b.success ∧
      Near b.failures.toFinset b.success ∧ b = ⟨window candidates a, success⟩ := by
  obtain ⟨rfl, horder, henough, e, he, hrecent⟩ := (burstAt_eq_some accepted kept ha).mp h
  have hself : a ∈ window candidates a := mem_window.mpr ⟨ha, le_rfl, by unfold minuteMs; omega⟩
  have hmem : ∀ x, x ∈ (window candidates a).toFinset → x ∈ candidates ∧
      occurredMs a ≤ occurredMs x ∧ occurredMs x ≤ occurredMs a + 10 * minuteMs :=
    fun x hx => mem_window.mp (List.mem_toFinset.mp hx)
  refine ⟨⟨hs, succeeded, ?_, ?_, ?_, ?_, ?_, ?_⟩, ?_, rfl⟩
  · intro x hx
    obtain ⟨hevent, hkind, -⟩ := (kept.mem x).mp (hmem x hx).1
    exact ⟨hevent, hkind⟩
  · have hnodup : (window candidates a).Nodup := kept.nodup.filter _
    show threshold ≤ (window candidates a).toFinset.card
    rw [toFinset_card_of_nodup hnodup]
    exact henough
  · intro x hx y hy
    have hfirst := (hmem x hx).2.1
    have hlast := (hmem y hy).2.2
    omega
  · exact fun x hx => ((kept.mem x).mp (hmem x hx).1).2.2.2
  · exact ⟨a, List.mem_toFinset.mpr hself, horder⟩
  · exact ⟨e, List.mem_toFinset.mpr he, hrecent⟩
  · exact fun x hx => ((kept.mem x).mp (hmem x hx).1).2.2.1

/-- A burst that is near enough is found at its first failure. -/
theorem burstAt_of_episode (accepted : Accepted events)
    (kept : Candidates events kinds success candidates) {failures : Finset AuthEvent}
    (episode : Episode events kinds threshold failures success) (near : Near failures success) :
    ∃ a ∈ failures, a ∈ candidates ∧ (∀ e ∈ failures, occurredMs a ≤ occurredMs e) ∧
      burstAt candidates threshold success (occurredMs success) a =
        some ⟨window candidates a, success⟩ := by
  have hmem : ∀ e ∈ failures, e ∈ candidates := fun e he =>
    (kept.mem e).mpr ⟨(episode.failed e he).1, (episode.failed e he).2, near e he,
      episode.before e he⟩
  obtain ⟨first, hfirst, hopens⟩ := episode.opens
  obtain ⟨a, ha, hleast⟩ := failures.exists_min_image occurredMs ⟨first, hfirst⟩
  have hsub : failures ⊆ (window candidates a).toFinset := fun e he =>
    List.mem_toFinset.mpr (mem_window.mpr ⟨hmem e he, hleast e he, episode.narrow a ha e he⟩)
  refine ⟨a, ha, hmem a ha, hleast, ?_⟩
  rw [burstAt_eq_some accepted kept (hmem a ha)]
  refine ⟨rfl, lt_of_le_of_lt (hleast first hfirst) hopens, ?_, ?_⟩
  · calc threshold ≤ failures.card := episode.enough
      _ ≤ (window candidates a).toFinset.card := Finset.card_le_card hsub
      _ ≤ (window candidates a).length := toFinset_card_le _
  · obtain ⟨e, he, hrecent⟩ := episode.recent
    exact ⟨e, List.mem_toFinset.mp (hsub he), hrecent⟩

end Search

/-! ## The search as a whole -/

/-- The failures that the search looks at for a success. -/
def candidatesFor (distinct : List AuthEvent) (kinds : List AuthOutcome) (success : AuthEvent) :
    List AuthEvent :=
  distinct.filter fun entry => entry.outcome ∈ kinds &&
    timeWithin entry.occurredAt (occurredMs success - 25 * minuteMs) (occurredMs success)

variable {distinct : List AuthEvent}

theorem candidates_for (accepted : Accepted events) (list : Listed events distinct)
    (kinds : List AuthOutcome) (success : AuthEvent) :
    Candidates events kinds success (candidatesFor distinct kinds success) where
  nodup := list.nodup.filter _
  sorted := list.sorted.sublist filter_sublist
  mem e := by
    rw [candidatesFor, mem_filter, list.mem, Bool.and_eq_true, decide_eq_true_eq]
    constructor
    · rintro ⟨he, hkind, hwithin⟩
      rw [timeWithin_iff accepted he] at hwithin
      exact ⟨he, hkind, by omega, hwithin.2⟩
    · rintro ⟨he, hkind, hnear, hle⟩
      refine ⟨he, hkind, ?_⟩
      rw [timeWithin_iff accepted he]
      omega

variable {success : AuthEvent}

theorem burstBefore_eq (accepted : Accepted events) (hs : success ∈ events)
    (kinds : List AuthOutcome) (threshold : Nat) :
    burstBefore distinct kinds threshold success =
      (candidatesFor distinct kinds success).findSome?
        (burstAt (candidatesFor distinct kinds success) threshold success (occurredMs success)) := by
  rw [burstBefore, parseTime_occurredMs accepted hs]
  rfl

variable {kinds : List AuthOutcome} {threshold : Nat} {failures : Finset AuthEvent}

/-- A success is passed over only when no burst that is near enough ends in it. -/
theorem burstBefore_none (accepted : Accepted events) (list : Listed events distinct)
    (h : burstBefore distinct kinds threshold success = none)
    (episode : Episode events kinds threshold failures success) :
    ¬ Near failures success := by
  intro near
  rw [burstBefore_eq accepted episode.success_mem] at h
  obtain ⟨a, _, ha, _, hfound⟩ := burstAt_of_episode accepted
    (candidates_for accepted list kinds success) episode near
  have hnone := List.findSome?_eq_none_iff.mp h a ha
  rw [hfound] at hnone
  cases hnone

/-- The order of a sorted list, around one of its members. -/
theorem earlier_of_split {front back : List AuthEvent} (sorted : l.Pairwise Earlier)
    (split : l = front ++ a :: back) (hb : b ∈ l) (later : b ∉ front) : Earlier a b := by
  rw [split] at sorted hb
  rcases mem_append.mp hb with hfront | hrest
  · exact absurd hfront later
  · rcases mem_cons.mp hrest with rfl | hback
    · exact .inr ⟨rfl, List.le_refl _⟩
    · exact (pairwise_cons.mp (pairwise_append.mp sorted).2.1).1 b hback

section

variable (accepted : Accepted events)
include accepted

theorem firstBurst_none
    (h : firstBurst events kinds threshold = none)
    (episode : Episode events kinds threshold failures success) : ¬ Near failures success := by
  have list := listed accepted
  refine burstBefore_none accepted list (List.findSome?_eq_none_iff.mp h success ?_) episode
  exact mem_filter.mpr ⟨(list.mem success).mpr episode.success_mem,
    decide_eq_true episode.succeeded⟩

/-- What the search returns is the whole burst of the earliest success. -/
theorem firstBurst_foremost {b : Burst}
    (h : firstBurst events kinds threshold = some b) :
    Foremost events kinds threshold b.failures.toFinset b.success := by
  have list := listed accepted
  obtain ⟨front, success, back, hsplit, hfound, hpassed⟩ := List.findSome?_eq_some_iff.mp h
  have hmem : success ∈ (distinctEvents (events.insertionSort Earlier)).filter
      fun entry => entry.outcome = .success := hsplit ▸ mem_append_right _ mem_cons_self
  obtain ⟨hdistinct, hsucceeded⟩ := mem_filter.mp hmem
  have hs := (list.mem success).mp hdistinct
  rw [burstBefore_eq accepted hs] at hfound
  obtain ⟨older, a, newer, hanchors, hburst, hskipped⟩ := List.findSome?_eq_some_iff.mp hfound
  have kept := candidates_for accepted list kinds success
  have ha : a ∈ candidatesFor (distinctEvents (events.insertionSort Earlier)) kinds success :=
    hanchors ▸ mem_append_right _ mem_cons_self
  obtain ⟨hepisode, hnear, rfl⟩ :=
    episode_of_burstAt accepted kept hs (of_decide_eq_true hsucceeded) ha hburst
  refine ⟨hepisode, hnear, ⟨a, ?_, fun e => ?_⟩, fun others other hother hnearOther => ⟨?_, ?_⟩⟩
  · exact List.mem_toFinset.mpr (mem_window.mpr ⟨ha, le_rfl, by unfold minuteMs; omega⟩)
  · have hfirst := ((kept.mem a).mp ha).2.2.1
    rw [List.mem_toFinset, mem_window, kept.mem]
    constructor
    · rintro ⟨⟨he, hkind, -, hle⟩, hlow, hhigh⟩
      exact ⟨he, hkind, hlow, hhigh, hle⟩
    · rintro ⟨he, hkind, hlow, hhigh, hle⟩
      exact ⟨⟨he, hkind, by omega, hle⟩, hlow, hhigh⟩
  · refine earlier_of_split (list.sorted.sublist filter_sublist) hsplit ?_ fun hfront =>
      burstBefore_none accepted list (hpassed other hfront) hother hnearOther
    exact mem_filter.mpr ⟨(list.mem other).mpr hother.success_mem,
      decide_eq_true hother.succeeded⟩
  · intro hsame e he
    obtain rfl : other = success := hsame
    obtain ⟨first, hfirst, hcandidate, hleast, hhit⟩ :=
      burstAt_of_episode accepted kept hother hnearOther
    have horder := earlier_of_split kept.sorted hanchors hcandidate fun holder => by
      have hnone := hskipped first holder
      rw [hhit] at hnone
      cases hnone
    refine ⟨a, List.mem_toFinset.mpr (mem_window.mpr ⟨ha, le_rfl, by unfold minuteMs; omega⟩), ?_⟩
    exact le_trans horder.le (hleast e he)

/-- There is one foremost burst. -/
theorem Foremost.unique {others : Finset AuthEvent}
    {other : AuthEvent} (h : Foremost events kinds threshold failures success)
    (h' : Foremost events kinds threshold others other) : others = failures ∧ other = success := by
  obtain ⟨horder, hstart⟩ := h.earliest others other h'.episode h'.near
  obtain ⟨horder', hstart'⟩ := h'.earliest failures success h.episode h.near
  have htime := le_antisymm horder.le horder'.le
  have hid : success.id = other.id := by
    rcases horder with hlt | ⟨-, hle⟩
    · omega
    · rcases horder' with hlt | ⟨-, hle'⟩
      · omega
      · exact List.le_antisymm hle hle'
  obtain rfl := accepted.identified _ h.episode.success_mem _ h'.episode.success_mem hid
  refine ⟨?_, rfl⟩
  obtain ⟨a, ha, hwhole⟩ := h.whole
  obtain ⟨b, hb, hwhole'⟩ := h'.whole
  obtain ⟨x, hx, hxb⟩ := hstart rfl b hb
  obtain ⟨y, hy, hya⟩ := hstart' rfl a ha
  have hax := ((hwhole x).mp hx).2.2.1
  have hby := ((hwhole' y).mp hy).2.2.1
  have heq : occurredMs a = occurredMs b := by omega
  ext e
  rw [hwhole, hwhole', heq]

/-! ## What is found and what is suppressed -/

theorem found_iff (kinds : List AuthOutcome) (threshold : Nat) :
    (hasEventSequence events kinds threshold).found = true ↔
      ∃ failures success, Episode events kinds threshold failures success ∧
        Near failures success := by
  unfold hasEventSequence
  split
  · rename_i burst hburst
    have foremost := firstBurst_foremost accepted hburst
    exact ⟨fun _ => ⟨_, _, foremost.episode, foremost.near⟩, fun _ => rfl⟩
  · rename_i hnone
    constructor
    · rintro ⟨⟩
    · rintro ⟨failures, success, episode, near⟩
      exact absurd near (firstBurst_none accepted hnone episode)

end

theorem contextCoversEvents_iff (entry : NetworkContextEntry) (mem : event ∈ events) :
    contextCoversEvents entry events = true ↔
      ∀ e ∈ events, contextCoversEvents entry [e] = true := by
  unfold contextCoversEvents
  split
  · simp only [List.all_eq_true, mem_singleton, forall_eq]
  · constructor
    · rintro ⟨⟩
    · exact fun h => h event mem

variable {sha256 : JsString → JsString} {context : EvaluationContext}

theorem expectedRetry_iff (burst : Burst) :
    expectedRetry sha256 context (burst.success :: burst.failures) = true ↔
      Approved (contextEntries sha256 context .expectedAuthRetry) burst.failures.toFinset
        burst.success := by
  have hmem : ∀ e, e ∈ insert burst.success burst.failures.toFinset ↔
      e ∈ burst.success :: burst.failures := fun e => by
    rw [Finset.mem_insert, List.mem_toFinset, mem_cons]
  rw [expectedRetry, List.any_eq_true, Approved]
  refine exists_congr fun entry => and_congr_right fun _ => ?_
  rw [Bool.and_eq_true, contextCoversEvents_iff entry mem_cons_self, List.all_eq_true]
  simp only [hmem, forall_and]

/-- An account is suppressed when its first burst is approved. -/
theorem suppressed_iff {candidate : IdentitySignalCandidate} :
    (evaluateAuth005 sha256 context candidate events).status = .suppressed ↔
      gate sha256 context candidate = none ∧ requireHumanClass sha256 context candidate = none ∧
      ∃ burst, firstBurst (ownEvents candidate events) [.failure] 10 = some burst ∧
        Approved (contextEntries sha256 context .expectedAuthRetry) burst.failures.toFinset
          burst.success := by
  unfold evaluateAuth005
  cases hgate : gate sha256 context candidate with
  | some blocked =>
    obtain ⟨failure, -, rfl⟩ := map_eq_some_iff.mp hgate
    constructor
    · rintro ⟨⟩
    · rintro ⟨⟨⟩, -⟩
  | none =>
    cases hclass : requireHumanClass sha256 context candidate with
    | some reason =>
      constructor
      · rintro ⟨⟩
      · rintro ⟨-, ⟨⟩, -⟩
    | none =>
      cases hburst : firstBurst (ownEvents candidate events) [.failure] 10 with
      | none =>
        simp only [hasEventSequence, hburst]
        constructor
        · rintro ⟨⟩
        · rintro ⟨-, -, _, ⟨⟩, -⟩
      | some burst =>
        simp only [hasEventSequence, hburst, true_and, Option.some.injEq, exists_eq_left']
        rw [← expectedRetry_iff]
        cases expectedRetry sha256 context (burst.success :: burst.failures) with
        | true => exact ⟨fun _ => rfl, fun _ => rfl⟩
        | false =>
          constructor
          · rintro ⟨⟩
          · rintro ⟨⟩

/-! ## Exactness -/

/-- The search reports a match exactly when there is a burst with its success. -/
def Exact (events : List AuthEvent) (kinds : List AuthOutcome) (threshold : Nat) : Prop :=
  (hasEventSequence events kinds threshold).found = true ↔
    ∃ failures success, Episode events kinds threshold failures success

/-- A suppressed account has no burst that is not approved. -/
def SuppressedOnlyApproved (sha256 : JsString → JsString) (context : EvaluationContext)
    (candidate : IdentitySignalCandidate) (events : List AuthEvent) : Prop :=
  (evaluateAuth005 sha256 context candidate events).status = .suppressed →
    ∀ failures success, Episode (ownEvents candidate events) [.failure] 10 failures success →
      Approved (contextEntries sha256 context .expectedAuthRetry) failures success

/-- The search is exact unless every burst begins twenty-five minutes before its success, and a
suppressed account is approved as a whole unless its foremost burst is approved alone. -/
theorem bursts_exact_when (sha256 : JsString → JsString) (context : EvaluationContext)
    (candidate : IdentitySignalCandidate) {value : Option Json} {events : List AuthEvent}
    (h : readAuthEvents value = some events) (kinds : List AuthOutcome) (threshold : Nat) :
    (Exact events kinds threshold ↔
      ((∃ failures success, Episode events kinds threshold failures success) →
        ∃ failures success, Episode events kinds threshold failures success ∧
          Near failures success)) ∧
    (SuppressedOnlyApproved sha256 context candidate events ↔
      (gate sha256 context candidate = none → requireHumanClass sha256 context candidate = none →
        (∃ failures success, Foremost (ownEvents candidate events) [.failure] 10 failures success ∧
          Approved (contextEntries sha256 context .expectedAuthRetry) failures success) →
        ∀ failures success, Episode (ownEvents candidate events) [.failure] 10 failures success →
          Approved (contextEntries sha256 context .expectedAuthRetry) failures success)) := by
  have accepted := accepted_of_read h
  have own : Accepted (ownEvents candidate events) := accepted.filter _
  constructor
  · rw [Exact, found_iff accepted]
    constructor
    · exact fun hexact hany => hexact.mpr hany
    · intro hnear
      refine ⟨?_, hnear⟩
      rintro ⟨failures, success, episode, -⟩
      exact ⟨failures, success, episode⟩
  · rw [SuppressedOnlyApproved, suppressed_iff]
    constructor
    · rintro honly hgate hclass ⟨failures, success, foremost, approved⟩
      refine honly ⟨hgate, hclass, ?_⟩
      cases hburst : firstBurst (ownEvents candidate events) [.failure] 10 with
      | none => exact absurd foremost.near (firstBurst_none own hburst foremost.episode)
      | some burst =>
        obtain ⟨hfailures, hsuccess⟩ := foremost.unique own (firstBurst_foremost own hburst)
        refine ⟨burst, rfl, ?_⟩
        rw [hfailures, hsuccess]
        exact approved
    · rintro hwhole ⟨hgate, hclass, burst, hburst, approved⟩
      exact hwhole hgate hclass ⟨_, _, firstBurst_foremost own hburst, approved⟩

/-! ## A burst that is passed over -/

def sampleReference (kind : JsString) (n : Nat) : JsString :=
  js "hvr1_" ++ kind ++ [0x5F] ++ List.replicate 62 0x30 ++ IsoTime.pad 2 n

/-- A minute of the hour that begins at 11:00 on the second of September 2026. -/
def sampleTime (minute : Int) : JsString := IsoTime.toISOString (1788346800000 + minute * minuteMs)

def dayMinutes : Int := 24 * 60

/-- The sixty-four hexadecimal digits of a number. -/
def hexadecimal (n : Nat) : JsString :=
  (List.range 64).map fun i => hexDigit (Fin.ofNat 16 (n / 16 ^ (63 - i)))

def sampleEvent (outcome : AuthOutcome) (id subject source minute : Nat) : AuthEvent where
  id := sampleReference (js "event") id
  occurredAt := sampleTime minute
  outcome := outcome
  interactive := true
  subjectId := sampleReference (js "subject") subject
  sourceFingerprint := some (sampleReference (js "source") source)
  sourceAsn := none
  appId := none
  client := none
  deviceFingerprint := none

def AuthEvent.json (event : AuthEvent) : Json :=
  .object ([(js "id", .string event.id), (js "occurredAt", .string event.occurredAt),
    (js "outcome", .string event.outcome.text), (js "interactive", .bool event.interactive),
    (js "subjectId", .string event.subjectId)] ++
    present (js "sourceFingerprint") (event.sourceFingerprint.map .string) ++
    present (js "sourceAsn") (event.sourceAsn.map ofCount) ++
    present (js "appId") (event.appId.map .string) ++
    present (js "client") (event.client.map .string) ++
    present (js "deviceFingerprint") (event.deviceFingerprint.map .string))

def eventsValue (events : List AuthEvent) : Json := .array (events.map AuthEvent.json)

/-- Ten failures of one account, the last ten minutes after the first. -/
def distantFailures : List AuthEvent :=
  [0, 1, 2, 3, 4, 5, 6, 7, 8, 10].map fun minute => sampleEvent .failure minute 1 1 minute

/-- The success comes fifteen minutes after the last failure. -/
def distantEvents : List AuthEvent := distantFailures ++ [sampleEvent .success 25 1 1 25]

/-- Ten failures from one origin. -/
def expectedFailures : List AuthEvent :=
  (List.range 10).map fun minute => sampleEvent .failure minute 1 1 minute

/-- The last nine of them and a failure from another origin. -/
def otherFailures : List AuthEvent := expectedFailures.tail ++ [sampleEvent .failure 11 1 2 11]

/-- Each of the two bursts ends in a success of its origin. -/
def twoBursts : List AuthEvent :=
  expectedFailures ++ [sampleEvent .success 10 1 1 10, sampleEvent .failure 11 1 2 11,
    sampleEvent .success 12 1 2 12]

def sampleClasses : ApprovedCatalog where
  catalogType := .accountClass
  version := js "account_class/1"
  digest := hexadecimal 0x1d7804162014e7024e00f30448f6bde3a234f96d6219374e1fdc578f25d1fd27
  status := .approved
  approverIds := [sampleReference (js "reviewer") 1, sampleReference (js "reviewer") 2]
  effectiveAt := sampleTime (-32 * dayMinutes - 660)
  expiresAt := none
  values := []
  accountClasses := some ([1, 2, 3, 4, 5].map fun n => (sampleReference (js "subject") n, .human))
  contextEntries := none

/-- One origin is approved, as a retry of an account and as a shared egress. -/
def sampleNetwork : ApprovedCatalog where
  catalogType := .networkContext
  version := js "network_context/1"
  digest := hexadecimal 0x13fb4159cccff309dc0e3a983fd016e65915f54a203563432266354f94665d4d
  status := .approved
  approverIds := [sampleReference (js "reviewer") 1, sampleReference (js "reviewer") 2]
  effectiveAt := sampleTime (-32 * dayMinutes - 660)
  expiresAt := none
  values := []
  accountClasses := none
  contextEntries := some [
    { id := sampleReference (js "context") 1
      type := .expectedAuthRetry
      startsAt := sampleTime (-dayMinutes - 660)
      expiresAt := sampleTime (dayMinutes - 660)
      subjectId := some (sampleReference (js "subject") 1)
      appId := none
      client := none
      deviceFingerprint := none
      sourceFingerprint := some (sampleReference (js "source") 1) },
    { id := sampleReference (js "context") 2
      type := .sharedEgress
      startsAt := sampleTime (-dayMinutes - 660)
      expiresAt := sampleTime (dayMinutes - 660)
      subjectId := none
      appId := none
      client := none
      deviceFingerprint := none
      sourceFingerprint := some (sampleReference (js "source") 1) }]

/-- The digests of the two catalogs, whose texts differ in length. -/
def sampleSha256 (text : JsString) : JsString :=
  if text.length = 769 then sampleClasses.digest else sampleNetwork.digest

def sampleContext : EvaluationContext where
  evaluatedAt := sampleTime 60
  engineVersion := riskEngineVersion
  catalogVersion := signalCatalogVersion
  readiness := .ready
  capability := .full
  futureClockSkewToleranceMs := some 0
  featureFlags := some [(.auth005, true), (.auth008, true)]
  catalogs := some [sampleClasses, sampleNetwork]

def sampleCandidate (rule : RuleFields) : IdentitySignalCandidate where
  subject := ⟨.user, sampleReference (js "subject") 1⟩
  evidenceReferences := []
  evidence := [⟨sampleTime 30, .ofNat 2⟩]
  evidenceState := .complete
  requiresFullCapability := none
  rule := rule

instance (events : List AuthEvent) (kinds : List AuthOutcome) (threshold : Nat)
    (failures : Finset AuthEvent) (success : AuthEvent) :
    Decidable (Episode events kinds threshold failures success) :=
  decidable_of_iff ((success ∈ events ∧ success.outcome = .success) ∧
    (∀ e ∈ failures, e ∈ events ∧ e.outcome ∈ kinds) ∧ threshold ≤ failures.card ∧
    (∀ a ∈ failures, ∀ b ∈ failures, occurredMs b ≤ occurredMs a + 10 * minuteMs) ∧
    (∀ e ∈ failures, occurredMs e ≤ occurredMs success) ∧
    (∃ e ∈ failures, occurredMs e < occurredMs success) ∧
    ∃ e ∈ failures, occurredMs success ≤ occurredMs e + 15 * minuteMs)
    ⟨fun ⟨⟨hmem, hsucceeded⟩, hfailed, henough, hnarrow, hbefore, hopens, hrecent⟩ =>
      ⟨hmem, hsucceeded, hfailed, henough, hnarrow, hbefore, hopens, hrecent⟩,
    fun h => ⟨⟨h.success_mem, h.succeeded⟩, h.failed, h.enough, h.narrow, h.before, h.opens,
      h.recent⟩⟩

theorem read_distant : readAuthEvents (some (eventsValue distantEvents)) = some distantEvents := by
  decide +kernel

/-- A burst that begins twenty-five minutes before its success is missed, and the approved burst
of one origin hides the burst of another. -/
theorem bursts_missed_and_hidden :
    (readAuthEvents (some (eventsValue distantEvents)) = some distantEvents ∧
      ¬ Exact distantEvents [.failure] 10) ∧
    readAuthEvents (some (eventsValue twoBursts)) = some twoBursts ∧
      ¬ SuppressedOnlyApproved sampleSha256 sampleContext (sampleCandidate (.auth005 twoBursts))
        twoBursts := by
  refine ⟨⟨read_distant, fun exactly => ?_⟩, by decide +kernel, fun only => ?_⟩
  · have hepisode : Episode distantEvents [.failure] 10 distantFailures.toFinset
        (sampleEvent .success 25 1 1 25) := by decide +kernel
    exact absurd (exactly.mpr ⟨_, _, hepisode⟩) (by decide +kernel)
  · have hepisode : Episode (ownEvents (sampleCandidate (.auth005 twoBursts)) twoBursts) [.failure]
        10 otherFailures.toFinset (sampleEvent .success 12 1 2 12) := by decide +kernel
    exact absurd (only (by decide +kernel) _ _ hepisode) (by decide +kernel)

/-- The characterization at a list that is accepted. -/
theorem bursts_exact_when_distant :
    Exact distantEvents [.failure] 10 ↔
      ((∃ failures success, Episode distantEvents [.failure] 10 failures success) →
        ∃ failures success, Episode distantEvents [.failure] 10 failures success ∧
          Near failures success) :=
  (bursts_exact_when sampleSha256 sampleContext (sampleCandidate (.auth005 distantEvents))
    read_distant [.failure] 10).1

/-! ## Prompts that are refused -/

/-- Enough prompts are refused soon before a success. -/
def Prompted (events : List AuthEvent) : Prop :=
  ∃ failures success, Episode events [.mfaDenied, .mfaTimeout] 3 failures success ∧
    Near failures success

theorem Prompted.more {others : List AuthEvent} (h : Prompted events) (more : events ⊆ others) :
    Prompted others := by
  obtain ⟨failures, success, episode, near⟩ := h
  exact ⟨failures, success, { episode with
    success_mem := more episode.success_mem
    failed := fun e he => (episode.failed e he).imp_left (more ·) }, near⟩

theorem hit_iff (accepted : Accepted events) {candidate : IdentitySignalCandidate}
    {complete : Bool} :
    (evaluateAuth006 sha256 context candidate events complete).status = .hit ↔
      gate sha256 context candidate = none ∧ complete = true ∧
        Prompted (ownEvents candidate events) := by
  have own : Accepted (ownEvents candidate events) := accepted.filter _
  rw [Prompted, ← found_iff own]
  unfold evaluateAuth006
  cases hgate : gate sha256 context candidate with
  | some blocked =>
    obtain ⟨failure, -, rfl⟩ := map_eq_some_iff.mp hgate
    exact ⟨nofun, nofun⟩
  | none =>
    cases complete with
    | false => exact ⟨nofun, nofun⟩
    | true =>
      cases (hasEventSequence (ownEvents candidate events) [.mfaDenied, .mfaTimeout] 3).found <;>
        simp [matchedResult, notMatched, result]

/-- Three prompts that are refused, and a success. -/
def refusedPrompts : List AuthEvent :=
  [0, 1, 2].map (fun n => sampleEvent .mfaDenied n 1 1 n) ++ [sampleEvent .success 3 1 1 3]

end IdentitySignal
