import HawkView.IdentityRisk.FailureSequence
import HawkView.Lib.FirstHit

/-!
# Password sprays

The rule `HV-ID-AUTH-008.v1` looks for failures of many accounts from one origin that end in a
success. From every first failure it takes all failures of ten minutes, also those after a
success, and it returns at the first hit. What it returns and what it passes over are both said
in terms of these whole windows.
-/

namespace IdentitySignal

open Json List Option

/-! ## The rule -/

def isHumanClass : AccountClass → Bool
  | .human | .privilegedHuman => true
  | _ => false

def asnText (n : Nat) : JsString := js "asn:" ++ JsString.decimal n

/-- The key of a source, empty when nothing is known of it. -/
def sourceKeyOrEmpty (event : AuthEvent) : JsString :=
  event.sourceFingerprint.getD ((event.sourceAsn.map asnText).getD [])

/-- The key that is compared. -/
def sourceKey (event : AuthEvent) : JsString :=
  event.sourceFingerprint.getD ((event.sourceAsn.map asnText).getD (js "asn:undefined"))

def sprayAt (sourceFailures successes : List AuthEvent) (source : JsString) (anchor : AuthEvent) :
    Option Burst :=
  (parseTime anchor.occurredAt).bind fun anchorAt =>
    let windowFailures := sourceFailures.filter fun event =>
      timeWithin event.occurredAt (anchorAt - 1) (anchorAt + 10 * minuteMs)
    let identities := JsSet.ofList (windowFailures.map AuthEvent.subjectId)
    let success := (windowFailures.map occurredMs).max?.bind fun lastFailure =>
      successes.find? fun event => identities.has event.subjectId && sourceKey event == source &&
        timeWithin event.occurredAt lastFailure (lastFailure + 15 * minuteMs)
    if 10 ≤ windowFailures.length ∧ 5 ≤ identities.size then
      success.map fun success => ⟨windowFailures, success⟩
    else none

def classified (sha256 : JsString → JsString) (context : EvaluationContext)
    (events : List AuthEvent) : List (AuthEvent × AccountClass) :=
  (distinctEvents events).map fun event => (event, accountClass sha256 context event.subjectId)

/-- The first spray, with its source. -/
def firstSpray (classified : List (AuthEvent × AccountClass)) : Option (JsString × Burst) :=
  let eligible := (classified.filter fun c => isHumanClass c.2).map Prod.fst
  let failures := eligible.filter fun event => event.outcome = .failure
  let successes := eligible.filter fun event => event.outcome = .success
  (sortedUnique (failures.map sourceKeyOrEmpty)).findSome? fun source =>
    let sourceFailures := failures.filter fun event => sourceKey event = source
    (sourceFailures.findSome? (sprayAt sourceFailures successes source)).map fun burst =>
      (source, burst)

def originValues (source : JsString) : ContextValues := ⟨none, none, none, none, some source⟩

def deviceValues (device : Option JsString) : ContextValues := ⟨none, none, none, device, none⟩

/-- An approved egress or an approved device is behind the burst. -/
def sharedContext (sha256 : JsString → JsString) (context : EvaluationContext) (source : JsString)
    (burst : Burst) : Bool :=
  let episodeEvents := burst.failures ++ [burst.success]
  ((contextEntries sha256 context .sharedEgress).any fun entry =>
      contextCoversEvents entry episodeEvents && exactContextMatch entry (originValues source)) ||
    (contextEntries sha256 context .sharedDevice).any fun entry =>
      contextCoversEvents entry episodeEvents &&
        burst.failures.all fun event => exactContextMatch entry (deviceValues event.deviceFingerprint)

/-- The case `HV-ID-AUTH-008.v1` of the evaluator. -/
def evaluateAuth008 (sha256 : JsString → JsString) (context : EvaluationContext)
    (candidate : IdentitySignalCandidate) (events : List AuthEvent) (tenantWideComplete : Bool) :
    SignalResult :=
  match gate sha256 context candidate with
  | some blocked => blocked
  | none =>
    if tenantWideComplete = false then notEvaluated candidate .evidencePartial .incomplete
    else
      match firstSpray (classified sha256 context events) with
      | some (source, burst) =>
        if sharedContext sha256 context source burst then
          suppressed candidate .approvedSharedContext
        else matchedResult candidate .medium (js "PASSWORD_SPRAY_PATTERN_FOLLOWED_BY_SUCCESS")
          [js "SHARED_EGRESS_OR_HEALTH_CHECKS"] .medium
      | none =>
        if (classified sha256 context events).any fun c => c.2 = .unknown then
          notEvaluated candidate .accountClassCoverageIncomplete .incomplete
        else notMatched candidate

/-! ## Sprays, whatever the search -/

/-- Where an event comes from, when that is known. -/
def origin (event : AuthEvent) : Option JsString :=
  event.sourceFingerprint.or (event.sourceAsn.map asnText)

/-- A failure of a human account from a source. -/
def Counted (human : JsString → Bool) (source : JsString) (event : AuthEvent) : Prop :=
  event.outcome = .failure ∧ human event.subjectId = true ∧ origin event = some source

instance (human : JsString → Bool) (source : JsString) : DecidablePred (Counted human source) :=
  fun event => inferInstanceAs (Decidable (event.outcome = .failure ∧
    human event.subjectId = true ∧ origin event = some source))

/-- Ten failures of five accounts in ten minutes, and a success of one of them from the same
source after the last and within fifteen minutes. -/
structure Spray (events : List AuthEvent) (human : JsString → Bool) (source : JsString)
    (failures : Finset AuthEvent) (success : AuthEvent) : Prop where
  counted : ∀ e ∈ failures, e ∈ events ∧ Counted human source e
  many : 10 ≤ failures.card
  subjects : 5 ≤ (failures.image AuthEvent.subjectId).card
  narrow : ∀ a ∈ failures, ∀ b ∈ failures, occurredMs b ≤ occurredMs a + 10 * minuteMs
  success_mem : success ∈ events
  succeeded : success.outcome = .success
  same : origin success = some source
  targeted : ∃ e ∈ failures, e.subjectId = success.subjectId
  after : ∀ e ∈ failures, occurredMs e < occurredMs success
  recent : ∃ e ∈ failures, occurredMs success ≤ occurredMs e + 15 * minuteMs

/-- All failures of a source in the ten minutes from an event on. -/
def wholeWindow (events : List AuthEvent) (human : JsString → Bool) (source : JsString)
    (a : AuthEvent) : Finset AuthEvent :=
  ((distinctEvents events).filter fun e => Counted human source e ∧
    occurredMs a ≤ occurredMs e ∧ occurredMs e ≤ occurredMs a + 10 * minuteMs).toFinset

/-- From this failure on, the whole window ends in a success. -/
def Closes (events : List AuthEvent) (human : JsString → Bool) (source : JsString)
    (a : AuthEvent) : Prop :=
  Counted human source a ∧
    ∃ success, Spray events human source (wholeWindow events human source a) success

/-- The first window that closes: of the least source, from its first failure, with its first
success, in the order of the events. -/
structure Leading (events : List AuthEvent) (human : JsString → Bool) (source : JsString)
    (failures : Finset AuthEvent) (success : AuthEvent) : Prop where
  opens : ∃ a, FirstHit (Closes events human source) (distinctEvents events) a ∧
    failures = wholeWindow events human source a
  ends : FirstHit (Spray events human source failures) (distinctEvents events) success
  least : ∀ other, ∀ a ∈ events, Closes events human other a → source ≤ other

/-- One approved entry of the egress covers the spray, or one of the devices. -/
def Shared (egress device : List NetworkContextEntry) (source : JsString)
    (failures : Finset AuthEvent) (success : AuthEvent) : Prop :=
  (∃ entry ∈ egress, (∀ e ∈ insert success failures, contextCoversEvents entry [e] = true) ∧
    exactContextMatch entry (originValues source) = true) ∨
  ∃ entry ∈ device, (∀ e ∈ insert success failures, contextCoversEvents entry [e] = true) ∧
    ∀ e ∈ failures, exactContextMatch entry (deviceValues e.deviceFingerprint) = true

/-! ## Sources -/

theorem referenced {s : JsString} (h : isOpaqueIdentityReference 256 s = true) :
    ∃ rest, s = 0x68 :: rest := by
  obtain ⟨kind, hkind, -⟩ := (Option.any_eq_true _ _).mp (Bool.and_eq_true_iff.mp h).2
  unfold referenceKind at hkind
  split at hkind
  · rename_i hstart
    obtain ⟨rest, rfl⟩ := isPrefixOf_iff_prefix.mp hstart
    exact ⟨_, rfl⟩
  · cases hkind

theorem asnText_ne (n : Nat) : asnText n ≠ js "asn:undefined" := by
  intro h
  have hsplit : js "asn:undefined" = js "asn:" ++ js "undefined" := rfl
  rw [hsplit] at h
  have htail : JsString.decimal n = js "undefined" := append_cancel_left h
  have hdigit : (0x75 : UInt16) ∈ JsString.decimal n := by
    rw [htail]
    decide
  exact absurd (JsString.decimal_digit hdigit).2 (by decide)

variable {k : JsString}

/-- A known source is neither empty nor the text of an unknown one. -/
theorem origin_known {events : List AuthEvent} (accepted : Accepted events) {e : AuthEvent}
    (he : e ∈ events) (h : origin e = some k) :
    k ≠ [] ∧ k ≠ js "asn:undefined" := by
  unfold origin at h
  cases hsource : e.sourceFingerprint with
  | some s =>
    rw [hsource] at h
    obtain rfl : s = k := Option.some.inj h
    obtain ⟨rest, rfl⟩ := referenced (accepted.named e he s hsource)
    constructor
    · exact cons_ne_nil _ _
    · exact fun heq => absurd (List.cons.inj heq).1 (by decide)
  | none =>
    rw [hsource] at h
    obtain ⟨n, -, rfl⟩ := map_eq_some_iff.mp h
    constructor
    · exact fun heq => cons_ne_nil _ _ heq
    · exact asnText_ne n

theorem sourceKeyOrEmpty_eq (e : AuthEvent) : sourceKeyOrEmpty e = (origin e).getD [] := by
  unfold sourceKeyOrEmpty origin
  cases e.sourceFingerprint <;> rfl

theorem sourceKey_eq (e : AuthEvent) : sourceKey e = (origin e).getD (js "asn:undefined") := by
  unfold sourceKey origin
  cases e.sourceFingerprint <;> rfl

/-- The keys of a known source are those of the events that come from it. -/
theorem sourceKey_iff (known : k ≠ js "asn:undefined") (e : AuthEvent) :
    sourceKey e = k ↔ origin e = some k := by
  rw [sourceKey_eq]
  cases origin e with
  | none =>
    constructor
    · exact fun h => absurd h.symm known
    · rintro ⟨⟩
  | some s => rw [getD_some, Option.some.injEq]

theorem mem_sortedUnique {values : List JsString} :
    k ∈ sortedUnique values ↔ k ∈ values ∧ k ≠ [] := by
  rw [sortedUnique, (perm_insertionSort _ _).mem_iff, JsSet.mem_ofList, mem_filter]
  cases k <;> simp

theorem sortedUnique_sorted (values : List JsString) :
    (sortedUnique values).Pairwise (· ≤ ·) := pairwise_insertionSort _ _

/-! ## The lists that the rule goes through -/

section Rule

variable {sha256 : JsString → JsString} {context : EvaluationContext} {events : List AuthEvent}
  {source : JsString} {a : AuthEvent}

/-- The accounts that count. -/
def humanIn (sha256 : JsString → JsString) (context : EvaluationContext) (subject : JsString) :
    Bool := isHumanClass (accountClass sha256 context subject)

variable {e : AuthEvent}

theorem mem_distinct (accepted : Accepted events) :
    e ∈ distinctEvents events ↔ e ∈ events :=
  (JsMap.values_keyed accepted.identified).2 e

theorem nodup_distinct : (distinctEvents events).Nodup := JsMap.nodup_values_keyed AuthEvent.id _

theorem eligible_eq : ((classified sha256 context events).filter fun c => isHumanClass c.2).map
    Prod.fst = (distinctEvents events).filter fun e => humanIn sha256 context e.subjectId := by
  rw [classified, List.filter_map, List.map_map]
  exact List.map_id _

/-- The failures of a source, in the order of the events. -/
def sourceFailures (events : List AuthEvent) (human : JsString → Bool) (source : JsString) :
    List AuthEvent := (distinctEvents events).filter fun e => Counted human source e

theorem sourceFailures_eq (human : JsString → Bool) (known : source ≠ js "asn:undefined") :
    ((((distinctEvents events).filter fun e => human e.subjectId).filter fun event =>
      event.outcome = .failure).filter fun event => sourceKey event = source) =
        sourceFailures events human source := by
  rw [List.filter_filter, List.filter_filter, sourceFailures]
  apply List.filter_congr
  intro e _
  rw [Bool.eq_iff_iff]
  simp only [Bool.and_eq_true, decide_eq_true_eq, sourceKey_iff known]
  unfold Counted
  tauto

/-- The failures of a source in the ten minutes from an event on, in their order. -/
def windowList (events : List AuthEvent) (human : JsString → Bool) (source : JsString)
    (a : AuthEvent) : List AuthEvent :=
  (distinctEvents events).filter fun e => Counted human source e ∧
    occurredMs a ≤ occurredMs e ∧ occurredMs e ≤ occurredMs a + 10 * minuteMs

variable {human : JsString → Bool}

theorem mem_windowList (accepted : Accepted events) :
    e ∈ windowList events human source a ↔ e ∈ events ∧ Counted human source e ∧
      occurredMs a ≤ occurredMs e ∧ occurredMs e ≤ occurredMs a + 10 * minuteMs := by
  rw [windowList, mem_filter, mem_distinct accepted, decide_eq_true_eq]

theorem mem_wholeWindow (accepted : Accepted events) :
    e ∈ wholeWindow events human source a ↔ e ∈ events ∧ Counted human source e ∧
      occurredMs a ≤ occurredMs e ∧ occurredMs e ≤ occurredMs a + 10 * minuteMs := by
  rw [wholeWindow, List.mem_toFinset, ← windowList, mem_windowList accepted]

theorem card_wholeWindow : (wholeWindow events human source a).card =
    (windowList events human source a).length :=
  toFinset_card_of_nodup (nodup_distinct.filter _)

theorem size_ofList {κ : Type} [DecidableEq κ] (ks : List κ) :
    (JsSet.ofList ks).size = ks.toFinset.card := by
  rw [← JsSet.length_elements, ← toFinset_card_of_nodup (JsSet.nodup_elements _)]
  congr 1
  ext k
  rw [List.mem_toFinset, List.mem_toFinset, JsSet.mem_ofList]

theorem size_identities : (JsSet.ofList ((windowList events human source a).map
    AuthEvent.subjectId)).size = ((wholeWindow events human source a).image
      AuthEvent.subjectId).card := by
  rw [size_ofList]
  congr 1
  ext k
  rw [List.mem_toFinset, List.mem_map, Finset.mem_image]
  simp only [wholeWindow, windowList, List.mem_toFinset]

/-! ## One window -/

/-- A success that the rule accepts at a window. -/
theorem spray_iff (accepted : Accepted events) (known : source ≠ js "asn:undefined")
    (many : 10 ≤ (wholeWindow events human source a).card)
    (subjects : 5 ≤ ((wholeWindow events human source a).image AuthEvent.subjectId).card)
    {last : Int} (hlast : ∃ e ∈ wholeWindow events human source a, occurredMs e = last)
    (hmax : ∀ e ∈ wholeWindow events human source a, occurredMs e ≤ last) {s : AuthEvent}
    (hs : s ∈ events) :
    Spray events human source (wholeWindow events human source a) s ↔
      human s.subjectId = true ∧ s.outcome = .success ∧
        (∃ e ∈ wholeWindow events human source a, e.subjectId = s.subjectId) ∧
        sourceKey s = source ∧ timeWithin s.occurredAt last (last + 15 * minuteMs) = true := by
  rw [sourceKey_iff known, timeWithin_iff accepted hs]
  obtain ⟨z, hz, hzlast⟩ := hlast
  constructor
  · intro spray
    obtain ⟨e, he, hsame⟩ := spray.targeted
    have hhuman := (spray.counted e he).2.2.1
    rw [hsame] at hhuman
    obtain ⟨r, hr, hrecent⟩ := spray.recent
    have hafter := spray.after z hz
    have hle := hmax r hr
    exact ⟨hhuman, spray.succeeded, ⟨e, he, hsame⟩, spray.same, by omega, by omega⟩
  · rintro ⟨-, hsucceeded, htargeted, hsame, hafter, hrecent⟩
    refine ⟨?_, many, subjects, ?_, hs, hsucceeded, hsame, htargeted, ?_, z, hz, by omega⟩
    · intro e he
      obtain ⟨hevent, hcounted, -⟩ := (mem_wholeWindow accepted).mp he
      exact ⟨hevent, hcounted⟩
    · intro x hx y hy
      have hlow := ((mem_wholeWindow accepted).mp hx).2.2.1
      have hhigh := ((mem_wholeWindow accepted).mp hy).2.2.2
      omega
    · intro e he
      have hle := hmax e he
      omega

/-- The successes of human accounts, in the order of the events. -/
def humanSuccesses (events : List AuthEvent) (human : JsString → Bool) : List AuthEvent :=
  ((distinctEvents events).filter fun e => human e.subjectId).filter fun event =>
    event.outcome = .success

/-- At a failure the rule returns its whole window, with the first success that ends it. -/
theorem sprayAt_eq_some (accepted : Accepted events) (known : source ≠ js "asn:undefined")
    (ha : a ∈ events) (counted : Counted human source a) {b : Burst} :
    sprayAt (sourceFailures events human source) (humanSuccesses events human) source a = some b ↔
      ∃ s, FirstHit (Spray events human source (wholeWindow events human source a))
        (distinctEvents events) s ∧ b = ⟨windowList events human source a, s⟩ := by
  have hwindow : ((sourceFailures events human source).filter fun event =>
      timeWithin event.occurredAt (occurredMs a - 1) (occurredMs a + 10 * minuteMs)) =
        windowList events human source a := by
    rw [sourceFailures, windowList, List.filter_filter]
    apply List.filter_congr
    intro e he
    rw [Bool.eq_iff_iff, Bool.and_eq_true, timeWithin_iff accepted ((mem_distinct accepted).mp he),
      decide_eq_true_eq, decide_eq_true_eq]
    constructor
    · rintro ⟨⟨hlow, hhigh⟩, hcounted⟩
      exact ⟨hcounted, by omega, hhigh⟩
    · rintro ⟨hcounted, hlow, hhigh⟩
      exact ⟨⟨by omega, hhigh⟩, hcounted⟩
  have hself : a ∈ wholeWindow events human source a :=
    (mem_wholeWindow accepted).mpr ⟨ha, counted, le_rfl, by unfold minuteMs; omega⟩
  have hmem : ∀ e, e ∈ windowList events human source a ↔
      e ∈ wholeWindow events human source a := fun e => by
    rw [mem_windowList accepted, mem_wholeWindow accepted]
  obtain ⟨last, hmax⟩ : ∃ last, ((windowList events human source a).map occurredMs).max? =
      some last := by
    apply isSome_iff_exists.mp
    rw [isSome_max?_iff]
    exact ne_nil_of_mem (mem_map_of_mem ((hmem a).mpr hself))
  obtain ⟨hlast, hgreatest⟩ := List.max?_eq_some_iff.mp hmax
  obtain ⟨z, hz, hzlast⟩ := List.mem_map.mp hlast
  have hle : ∀ e ∈ wholeWindow events human source a, occurredMs e ≤ last :=
    fun e he => hgreatest _ (mem_map_of_mem ((hmem e).mpr he))
  unfold sprayAt
  rw [parseTime_occurredMs accepted ha, bind_some]
  simp only [hwindow, hmax, bind_some, size_identities, ← card_wholeWindow]
  by_cases henough : 10 ≤ (wholeWindow events human source a).card ∧
      5 ≤ ((wholeWindow events human source a).image AuthEvent.subjectId).card
  · rw [if_pos henough, map_eq_some_iff]
    apply exists_congr
    intro s
    rw [FirstHit.find_iff, humanSuccesses, FirstHit.filter_iff, FirstHit.filter_iff, eq_comm]
    refine and_congr_left fun _ => FirstHit.congr fun e he => ?_
    rw [spray_iff accepted known henough.1 henough.2 ⟨z, (hmem z).mp hz, hzlast⟩ hle
      ((mem_distinct accepted).mp he)]
    simp only [Bool.and_eq_true, decide_eq_true_eq, JsSet.has_iff, JsSet.mem_ofList, List.mem_map,
      hmem, beq_iff_eq]
    tauto
  · rw [if_neg henough]
    constructor
    · rintro ⟨⟩
    · rintro ⟨s, hfirst, -⟩
      exact absurd ⟨hfirst.holds.many, hfirst.holds.subjects⟩ henough

theorem closes_iff (accepted : Accepted events) (known : source ≠ js "asn:undefined")
    (ha : a ∈ events) : Closes events human source a ↔ Counted human source a ∧
      (sprayAt (sourceFailures events human source) (humanSuccesses events human) source
        a).isSome = true := by
  refine and_congr_right fun counted => ?_
  rw [isSome_iff_exists]
  simp only [sprayAt_eq_some accepted known ha counted]
  constructor
  · rintro ⟨s, spray⟩
    obtain ⟨first, hfirst⟩ := FirstHit.exists_of_mem ((mem_distinct accepted).mpr
      spray.success_mem) spray
    exact ⟨_, first, hfirst, rfl⟩
  · rintro ⟨b, s, hfirst, -⟩
    exact ⟨s, hfirst.holds⟩

/-! ## The first spray -/

/-- The sources that the rule goes through. -/
def sourceKeys (events : List AuthEvent) (human : JsString → Bool) : List JsString :=
  sortedUnique ((((distinctEvents events).filter fun e => human e.subjectId).filter fun event =>
    event.outcome = .failure).map sourceKeyOrEmpty)

/-- What the rule returns for a source. -/
def sprayFrom (events : List AuthEvent) (human : JsString → Bool) (source : JsString) :
    Option Burst :=
  (sourceFailures events human source).findSome?
    (sprayAt (sourceFailures events human source) (humanSuccesses events human) source)

theorem mem_sourceKeys (accepted : Accepted events) :
    source ∈ sourceKeys events human ↔ ∃ e ∈ events, Counted human source e := by
  rw [sourceKeys, mem_sortedUnique, List.mem_map]
  constructor
  · rintro ⟨⟨e, he, hkey⟩, hne⟩
    obtain ⟨he, hfailed⟩ := mem_filter.mp he
    obtain ⟨he, hhuman⟩ := mem_filter.mp he
    refine ⟨e, (mem_distinct accepted).mp he, of_decide_eq_true hfailed, hhuman, ?_⟩
    rw [sourceKeyOrEmpty_eq] at hkey
    cases horigin : origin e with
    | none =>
      rw [horigin] at hkey
      exact absurd hkey.symm hne
    | some k =>
      rw [horigin] at hkey
      exact congrArg some hkey
  · rintro ⟨e, he, hfailed, hhuman, horigin⟩
    refine ⟨⟨e, ?_, ?_⟩, (origin_known accepted he horigin).1⟩
    · exact mem_filter.mpr ⟨mem_filter.mpr ⟨(mem_distinct accepted).mpr he, hhuman⟩,
        decide_eq_true hfailed⟩
    · rw [sourceKeyOrEmpty_eq, horigin, getD_some]

theorem known_of_mem (accepted : Accepted events) (h : source ∈ sourceKeys events human) :
    source ≠ js "asn:undefined" := by
  obtain ⟨e, he, counted⟩ := (mem_sourceKeys accepted).mp h
  exact (origin_known accepted he counted.2.2).2

section

variable (accepted : Accepted events)
include accepted

theorem firstSpray_eq :
    firstSpray (classified sha256 context events) =
      (sourceKeys events (humanIn sha256 context)).findSome? fun source =>
        (sprayFrom events (humanIn sha256 context) source).map fun burst => (source, burst) := by
  unfold firstSpray
  simp only [eligible_eq]
  apply FirstHit.findSome_congr
  intro source hsource
  rw [sourceFailures_eq _ (known_of_mem accepted hsource)]
  rfl

theorem sprayFrom_isSome (known : source ≠ js "asn:undefined") :
    (sprayFrom events human source).isSome = true ↔
      ∃ a ∈ events, Closes events human source a := by
  rw [sprayFrom, findSome?_isSome_iff]
  constructor
  · rintro ⟨a, ha, hsome⟩
    obtain ⟨hdistinct, hcounted⟩ := mem_filter.mp ha
    have hmem := (mem_distinct accepted).mp hdistinct
    exact ⟨a, hmem, (closes_iff accepted known hmem).mpr ⟨of_decide_eq_true hcounted, hsome⟩⟩
  · rintro ⟨a, ha, closes⟩
    obtain ⟨counted, hsome⟩ := (closes_iff accepted known ha).mp closes
    exact ⟨a, mem_filter.mpr ⟨(mem_distinct accepted).mpr ha, decide_eq_true counted⟩, hsome⟩

/-- The rule returns the leading window. -/
theorem leading_of_firstSpray {b : Burst}
    (h : firstSpray (classified sha256 context events) = some (source, b)) :
    Leading events (humanIn sha256 context) source b.failures.toFinset b.success := by
  rw [firstSpray_eq accepted] at h
  obtain ⟨k, hfirst, hburst⟩ := FirstHit.findSome_iff.mp h
  obtain ⟨b', hfrom, heq⟩ := map_eq_some_iff.mp hburst
  obtain ⟨rfl, rfl⟩ := Prod.mk.inj heq
  have known := known_of_mem accepted hfirst.mem
  obtain ⟨a, hanchor, hat⟩ := FirstHit.findSome_iff.mp hfrom
  obtain ⟨hdistinct, hcounted⟩ := mem_filter.mp hanchor.mem
  have ha := (mem_distinct accepted).mp hdistinct
  obtain ⟨s, hends, rfl⟩ :=
    (sprayAt_eq_some accepted known ha (of_decide_eq_true hcounted)).mp hat
  refine ⟨⟨a, ?_, rfl⟩, hends, ?_⟩
  · refine (FirstHit.congr fun e he => ?_).mp (FirstHit.filter_iff.mp hanchor)
    rw [closes_iff accepted known ((mem_distinct accepted).mp he), decide_eq_true_eq]
  · intro other c hc closes
    have hother := (mem_sourceKeys accepted).mpr ⟨c, hc, closes.1⟩
    refine hfirst.le_of_sorted (sortedUnique_sorted _) List.le_refl hother ?_
    rw [isSome_map]
    exact (sprayFrom_isSome accepted (known_of_mem accepted hother)).mpr ⟨c, hc, closes⟩

/-- Where the rule finds nothing, no window closes. -/
theorem open_of_firstSpray
    (h : firstSpray (classified sha256 context events) = none) (ha : a ∈ events) :
    ¬ Closes events (humanIn sha256 context) source a := by
  intro closes
  rw [firstSpray_eq accepted, findSome?_eq_none_iff] at h
  have hsource := (mem_sourceKeys accepted).mpr ⟨a, ha, closes.1⟩
  have hnone := map_eq_none_iff.mp (h source hsource)
  have hsome := (sprayFrom_isSome accepted (known_of_mem accepted hsource)).mpr ⟨a, ha, closes⟩
  rw [hnone] at hsome
  cases hsome

end

variable {failures : Finset AuthEvent} {success : AuthEvent}

theorem Leading.closes (accepted : Accepted events)
    (h : Leading events human source failures success) :
    ∃ a ∈ events, Closes events human source a := by
  obtain ⟨a, hfirst, -⟩ := h.opens
  exact ⟨a, (mem_distinct accepted).mp hfirst.mem, hfirst.holds⟩

/-- There is one leading window. -/
theorem Leading.unique (accepted : Accepted events) {others : Finset AuthEvent} {last : AuthEvent}
    {other : JsString} (h : Leading events human source failures success)
    (h' : Leading events human other others last) :
    other = source ∧ others = failures ∧ last = success := by
  obtain ⟨x, hx, hxcloses⟩ := h.closes accepted
  obtain ⟨y, hy, hycloses⟩ := h'.closes accepted
  obtain rfl : other = source :=
    List.le_antisymm (h'.least source x hx hxcloses) (h.least other y hy hycloses)
  obtain ⟨a, hfirst, rfl⟩ := h.opens
  obtain ⟨c, hfirst', rfl⟩ := h'.opens
  obtain rfl := hfirst.unique hfirst'
  exact ⟨rfl, rfl, h.ends.unique h'.ends⟩

theorem sharedContext_iff (burst : Burst) : sharedContext sha256 context source burst = true ↔
    Shared (contextEntries sha256 context .sharedEgress)
      (contextEntries sha256 context .sharedDevice) source burst.failures.toFinset
      burst.success := by
  have hlast : burst.success ∈ burst.failures ++ [burst.success] :=
    mem_append_right _ (mem_singleton_self _)
  have hmem : ∀ e, e ∈ burst.failures ++ [burst.success] ↔
      e ∈ insert burst.success burst.failures.toFinset := fun e => by
    rw [Finset.mem_insert, List.mem_toFinset, mem_append, mem_singleton, or_comm]
  rw [sharedContext, Bool.or_eq_true, List.any_eq_true, List.any_eq_true, Shared]
  refine or_congr ?_ ?_
  · refine exists_congr fun entry => and_congr_right fun _ => ?_
    rw [Bool.and_eq_true, contextCoversEvents_iff entry hlast]
    simp only [hmem]
  · refine exists_congr fun entry => and_congr_right fun _ => ?_
    rw [Bool.and_eq_true, contextCoversEvents_iff entry hlast, List.all_eq_true]
    simp only [hmem, List.mem_toFinset]

end Rule

/-! ## What the rule says of an input -/

/-- A candidate of the rule and what it is evaluated in. -/
structure SprayInput where
  context : EvaluationContext
  candidate : IdentitySignalCandidate
  events : List AuthEvent

namespace SprayInput

variable (sha256 : JsString → JsString) (x : SprayInput)

/-- The status with the coverage of the whole tenant. -/
def status : SignalStatus := (evaluateAuth008 sha256 x.context x.candidate x.events true).status

def human : JsString → Bool := humanIn sha256 x.context

def Sprayed (source : JsString) : Finset AuthEvent → AuthEvent → Prop :=
  Spray x.events (x.human sha256) source

def Covered : JsString → Finset AuthEvent → AuthEvent → Prop :=
  Shared (contextEntries sha256 x.context .sharedEgress)
    (contextEntries sha256 x.context .sharedDevice)

def Leads (source : JsString) : Finset AuthEvent → AuthEvent → Prop :=
  Leading x.events (x.human sha256) source

/-- Some whole window ends in a success. -/
def AnyCloses : Prop := ∃ source, ∃ a ∈ x.events, Closes x.events (x.human sha256) source a

def Unclassified : Prop := ∃ e ∈ x.events, accountClass sha256 x.context e.subjectId = .unknown

/-- The leading window is not covered. -/
def Reports : Prop := ∃ source failures success, x.Leads sha256 source failures success ∧
  ¬ x.Covered sha256 source failures success

/-- No spray is passed over. -/
def Detects : Prop :=
  (∃ source failures success, x.Sprayed sha256 source failures success) →
    x.status sha256 ≠ .notMatched

/-- A spray that is not covered is reported. -/
def Reveals : Prop :=
  (∃ source failures success, x.Sprayed sha256 source failures success ∧
    ¬ x.Covered sha256 source failures success) → x.status sha256 = .hit

/-- What was reported is neither passed over nor suppressed in another input. -/
def Stays (y : SprayInput) : Prop :=
  x.status sha256 = .hit → y.status sha256 ≠ .notMatched ∧ y.status sha256 ≠ .suppressed

/-- More failures, and more entries for other sources than that of a spray that is not covered. -/
structure Extends (y : SprayInput) : Prop where
  more : ∀ e ∈ x.events, e ∈ y.events
  failures : ∀ e ∈ y.events, e ∈ x.events ∨ e.outcome = .failure
  classes : ∀ s, accountClass sha256 y.context s = accountClass sha256 x.context s
  elsewhere : ∃ source failures success, x.Sprayed sha256 source failures success ∧
    ¬ x.Covered sha256 source failures success ∧
    ∀ type, ∀ entry ∈ contextEntries sha256 y.context type,
      entry ∈ contextEntries sha256 x.context type ∨
        ∃ k, k ≠ [] ∧ k ≠ source ∧ entry.sourceFingerprint = some k

variable {sha256} {x}

theorem status_of_blocked (h : gate sha256 x.context x.candidate ≠ none) :
    x.status sha256 = .notEvaluated := by
  unfold status evaluateAuth008
  cases hgate : gate sha256 x.context x.candidate with
  | none => exact absurd hgate h
  | some blocked =>
    obtain ⟨failure, -, rfl⟩ := map_eq_some_iff.mp hgate
    rfl

variable (accepted : Accepted x.events) (hgate : gate sha256 x.context x.candidate = none)

include accepted hgate in
/-- The status of a candidate that passes the gate. -/
theorem status_cases :
    (x.status sha256 = .hit ∧ x.AnyCloses sha256 ∧ x.Reports sha256) ∨
    (x.status sha256 = .suppressed ∧ x.AnyCloses sha256 ∧ ¬ x.Reports sha256) ∨
    (x.status sha256 = .notEvaluated ∧ ¬ x.AnyCloses sha256 ∧ ¬ x.Reports sha256 ∧
      x.Unclassified sha256) ∨
    (x.status sha256 = .notMatched ∧ ¬ x.AnyCloses sha256 ∧ ¬ x.Reports sha256 ∧
      ¬ x.Unclassified sha256) := by
  unfold status evaluateAuth008
  rw [hgate]
  simp only [Bool.true_eq_false, if_false]
  cases hspray : firstSpray (classified sha256 x.context x.events) with
  | some hit =>
    obtain ⟨source, burst⟩ := hit
    have leading := leading_of_firstSpray accepted hspray
    have closes : x.AnyCloses sha256 := ⟨source, leading.closes accepted⟩
    by_cases hshared : sharedContext sha256 x.context source burst = true
    · refine .inr (.inl ⟨by simp only [hshared, if_true]; rfl, closes, ?_⟩)
      rintro ⟨other, failures, success, leads, uncovered⟩
      obtain ⟨rfl, rfl, rfl⟩ := leading.unique accepted leads
      exact uncovered ((sharedContext_iff burst).mp hshared)
    · refine .inl ⟨by simp only [hshared]; rfl, closes, source, _, _, leading, fun covered => ?_⟩
      exact hshared ((sharedContext_iff burst).mpr covered)
  | none =>
    have hopen : ¬ x.AnyCloses sha256 := by
      rintro ⟨source, a, ha, closes⟩
      exact open_of_firstSpray accepted hspray ha closes
    have hquiet : ¬ x.Reports sha256 := by
      rintro ⟨source, failures, success, leads, -⟩
      exact hopen ⟨source, leads.closes accepted⟩
    have hunknown : ((classified sha256 x.context x.events).any fun c => c.2 = .unknown) = true ↔
        x.Unclassified sha256 := by
      simp only [classified, List.any_map, List.any_eq_true, Function.comp, decide_eq_true_eq,
        mem_distinct accepted, Unclassified]
    by_cases hclass : x.Unclassified sha256
    · refine .inr (.inr (.inl ⟨?_, hopen, hquiet, hclass⟩))
      simp only [hunknown.mpr hclass, if_true]
      rfl
    · refine .inr (.inr (.inr ⟨?_, hopen, hquiet, hclass⟩))
      simp only [mt hunknown.mp hclass]
      rfl

variable {y : SprayInput}

/-- A spray that is not covered is there in every extension. -/
theorem Extends.uncovered (h : x.Extends sha256 y) :
    ∃ source failures success, y.Sprayed sha256 source failures success ∧
      ¬ y.Covered sha256 source failures success := by
  obtain ⟨source, failures, success, spray, uncovered, elsewhere⟩ := h.elsewhere
  have hhuman : y.human sha256 = x.human sha256 := by
    funext s
    unfold human humanIn
    rw [h.classes]
  have hother : ∀ type, ∀ entry ∈ contextEntries sha256 y.context type,
      entry.sourceFingerprint = none ∨ entry.sourceFingerprint = some source ∨
        entry.sourceFingerprint = some [] → entry ∈ contextEntries sha256 x.context type := by
    intro type entry hentry hsource
    rcases elsewhere type entry hentry with hold | ⟨k, hk, hne, hkey⟩
    · exact hold
    · rcases hsource with hnone | hsame | hempty
      · rw [hkey] at hnone
        cases hnone
      · exact absurd (Option.some.inj (hkey.symm.trans hsame)) hne
      · exact absurd (Option.some.inj (hkey.symm.trans hempty)) hk
  have hasks : ∀ {wanted value : Option JsString}, asks wanted value = true →
      wanted = none ∨ wanted = value ∨ wanted = some [] := by
    intro wanted value h
    rcases Bool.or_eq_true_iff.mp h with hempty | hsame
    · cases wanted with
      | none => exact .inl rfl
      | some s =>
        cases s with
        | nil => exact .inr (.inr rfl)
        | cons c s => simp [truthy] at hempty
    · exact .inr (.inl (beq_iff_eq.mp hsame))
  refine ⟨source, failures, success, ?_, fun covered => uncovered ?_⟩
  · refine ⟨fun e he => ?_, spray.many, spray.subjects, spray.narrow,
      h.more _ spray.success_mem, spray.succeeded, spray.same, spray.targeted, spray.after,
      spray.recent⟩
    obtain ⟨hevent, hcounted⟩ := spray.counted e he
    rw [hhuman]
    exact ⟨h.more e hevent, hcounted⟩
  · rcases covered with ⟨entry, hentry, hcovers, hmatch⟩ | ⟨entry, hentry, hcovers, hmatch⟩
    · have hfield := hasks (Bool.and_eq_true_iff.mp hmatch).2
      exact .inl ⟨entry, hother _ entry hentry hfield, hcovers, hmatch⟩
    · obtain ⟨e, he⟩ : failures.Nonempty := by
        rw [← Finset.card_pos]
        have hmany := spray.many
        omega
      have hfield := hasks (Bool.and_eq_true_iff.mp (hmatch e he)).2
      refine .inr ⟨entry, hother _ entry hentry ?_, hcovers, hmatch⟩
      rcases hfield with hnone | hnone | hempty
      · exact .inl hnone
      · exact .inl hnone
      · exact .inr (.inr hempty)

include accepted hgate in
theorem hit_iff :
    x.status sha256 = .hit ↔ x.Reports sha256 := by
  rcases status_cases accepted hgate with ⟨hs, -, hr⟩ | ⟨hs, -, hr⟩ | ⟨hs, -, hr, -⟩ | ⟨hs, -, hr, -⟩
  · exact ⟨fun _ => hr, fun _ => hs⟩
  · rw [hs]
    exact ⟨nofun, fun h => absurd h hr⟩
  · rw [hs]
    exact ⟨nofun, fun h => absurd h hr⟩
  · rw [hs]
    exact ⟨nofun, fun h => absurd h hr⟩

include accepted hgate in
theorem notMatched_iff :
    x.status sha256 = .notMatched ↔ ¬ (x.AnyCloses sha256 ∨ x.Unclassified sha256) := by
  rcases status_cases accepted hgate with ⟨hs, hc, -⟩ | ⟨hs, hc, -⟩ | ⟨hs, -, -, hu⟩ |
    ⟨hs, hc, -, hu⟩
  · rw [hs]
    exact ⟨nofun, fun h => absurd (.inl hc) h⟩
  · rw [hs]
    exact ⟨nofun, fun h => absurd (.inl hc) h⟩
  · rw [hs]
    exact ⟨nofun, fun h => absurd (.inr hu) h⟩
  · exact ⟨fun _ h => h.elim hc hu, fun _ => hs⟩

include accepted hgate in
/-- What is reported stays so exactly when the other input is blocked, reported or undecided. -/
theorem stays_iff (accepted' : Accepted y.events) :
    x.Stays sha256 y ↔ (x.Reports sha256 → gate sha256 y.context y.candidate ≠ none ∨
      y.Reports sha256 ∨ (¬ y.AnyCloses sha256 ∧ y.Unclassified sha256)) := by
  rw [Stays, hit_iff accepted hgate]
  refine imp_congr_right fun _ => ?_
  by_cases hblocked : gate sha256 y.context y.candidate = none
  · rcases status_cases accepted' hblocked with ⟨hs, hc, hr⟩ | ⟨hs, hc, hr⟩ | ⟨hs, hc, hr, hu⟩ |
      ⟨hs, hc, hr, hu⟩ <;> simp [hs, hc, hr, hblocked]
    · exact hu
    · exact hu
  · have hs := status_of_blocked hblocked
    simp [hs, hblocked]

/-- Sprays are found when a whole window closes or an account has no class, they are reported when
the leading window is not covered, and what extends an input keeps its report under the same
conditions. -/
theorem sprays_exact_when (sha256 : JsString → JsString) (x : SprayInput) {value : Option Json}
    (h : readAuthEvents value = some x.events)
    (hgate : gate sha256 x.context x.candidate = none) :
    (x.Detects sha256 ↔
      ((∃ source failures success, x.Sprayed sha256 source failures success) →
        x.AnyCloses sha256 ∨ x.Unclassified sha256)) ∧
    (x.Reveals sha256 ↔
      ((∃ source failures success, x.Sprayed sha256 source failures success ∧
        ¬ x.Covered sha256 source failures success) → x.Reports sha256)) ∧
    ∀ (y : SprayInput) (value' : Option Json), readAuthEvents value' = some y.events →
      x.Extends sha256 y → (y.Reveals sha256 → x.Stays sha256 y) ∧
        (x.Stays sha256 y ↔ (x.Reports sha256 → gate sha256 y.context y.candidate ≠ none ∨
          y.Reports sha256 ∨ (¬ y.AnyCloses sha256 ∧ y.Unclassified sha256))) := by
  have accepted := accepted_of_read h
  refine ⟨?_, ?_, fun y value' h' extended => ⟨fun reveals _ => ?_, ?_⟩⟩
  · rw [Detects, Ne, notMatched_iff accepted hgate, not_not]
  · rw [Reveals, hit_iff accepted hgate]
  · rw [reveals extended.uncovered]
    exact ⟨by decide, by decide⟩
  · exact stays_iff accepted hgate (accepted_of_read h')

end SprayInput

/-! ## A spray that is hidden -/

/-- Ten failures of five accounts in five minutes. -/
def sprayedFailures : List AuthEvent :=
  (List.range 10).map fun n => sampleEvent .failure n (n % 5 + 1) 2 (n / 2)

/-- A success of the first account, and one more failure a minute later. -/
def hiddenSpray : List AuthEvent :=
  sprayedFailures ++ [sampleEvent .success 10 1 2 6, sampleEvent .failure 11 3 2 7]

def hiddenInput : SprayInput :=
  ⟨sampleContext, sampleCandidate (.auth008 hiddenSpray true), hiddenSpray⟩

theorem read_hidden : readAuthEvents (some (eventsValue hiddenSpray)) = some hiddenSpray := by
  decide +kernel

theorem gate_hidden : gate sampleSha256 hiddenInput.context hiddenInput.candidate = none := by
  decide +kernel

instance (events : List AuthEvent) (human : JsString → Bool) (source : JsString)
    (failures : Finset AuthEvent) (success : AuthEvent) :
    Decidable (Spray events human source failures success) :=
  decidable_of_iff ((∀ e ∈ failures, e ∈ events ∧ Counted human source e) ∧ 10 ≤ failures.card ∧
    5 ≤ (failures.image AuthEvent.subjectId).card ∧
    (∀ a ∈ failures, ∀ b ∈ failures, occurredMs b ≤ occurredMs a + 10 * minuteMs) ∧
    (success ∈ events ∧ success.outcome = .success ∧ origin success = some source) ∧
    (∃ e ∈ failures, e.subjectId = success.subjectId) ∧
    (∀ e ∈ failures, occurredMs e < occurredMs success) ∧
    ∃ e ∈ failures, occurredMs success ≤ occurredMs e + 15 * minuteMs)
    ⟨fun ⟨hcounted, hmany, hsubjects, hnarrow, ⟨hmem, hsucceeded, hsame⟩, htargeted, hafter,
        hrecent⟩ =>
      ⟨hcounted, hmany, hsubjects, hnarrow, hmem, hsucceeded, hsame, htargeted, hafter, hrecent⟩,
    fun h => ⟨h.counted, h.many, h.subjects, h.narrow, ⟨h.success_mem, h.succeeded, h.same⟩,
      h.targeted, h.after, h.recent⟩⟩

/-- A failure after the success hides the spray. -/
theorem spray_hidden :
    readAuthEvents (some (eventsValue hiddenSpray)) = some hiddenInput.events ∧
      gate sampleSha256 hiddenInput.context hiddenInput.candidate = none ∧
      ¬ hiddenInput.Detects sampleSha256 := by
  refine ⟨read_hidden, gate_hidden, fun detects => ?_⟩
  have hspray : hiddenInput.Sprayed sampleSha256 (sampleReference (js "source") 2)
      sprayedFailures.toFinset (sampleEvent .success 10 1 2 6) := by
    show Spray _ _ _ _ _
    decide +kernel
  exact detects ⟨_, _, _, hspray⟩ (by decide +kernel)

/-- The characterization at an input that passes the gate. -/
theorem sprays_exact_when_hidden : hiddenInput.Detects sampleSha256 ↔
    ((∃ source failures success, hiddenInput.Sprayed sampleSha256 source failures success) →
      hiddenInput.AnyCloses sampleSha256 ∨ hiddenInput.Unclassified sampleSha256) :=
  (SprayInput.sprays_exact_when sampleSha256 hiddenInput read_hidden gate_hidden).1

end IdentitySignal
