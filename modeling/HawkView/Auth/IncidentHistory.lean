import HawkView.Auth.Incidents
import HawkView.Lib.Runs
import Mathlib.Data.List.Pairwise

/-!
# The history of an incident

Each finding takes the incidents it overlaps out of the ledger and puts one back.
A prior incident is followed through these steps: the incident that stands for it
keeps its key and its disputed ids, and what was never in dispute, as long as the
parts that count hold it.
-/

namespace Auth

open IsoTime Runs List Option

/-! ## Boundaries -/

variable {text t : JsString} {texts : List JsString}

theorem mem_sorted : t ∈ sorted texts ↔ t ∈ texts :=
  (perm_insertionSort _ texts).mem_iff

theorem sorted_ordered (texts : List JsString) : (sorted texts).Pairwise (· ≤ ·) :=
  pairwise_insertionSort _ texts

theorem earliest_mem : earliest text texts ∈ text :: texts := by
  have hmem : ∀ s ∈ sorted (text :: texts), s ∈ text :: texts := fun s => mem_sorted.mp
  unfold earliest
  cases h : sorted (text :: texts) with
  | nil => exact mem_cons_self
  | cons s rest =>
    apply hmem
    rw [h]
    exact mem_cons_self

theorem earliest_le (ht : t ∈ text :: texts) : earliest text texts ≤ t := by
  have hmem := mem_sorted.mpr ht
  have hordered := sorted_ordered (text :: texts)
  unfold earliest
  cases h : sorted (text :: texts) with
  | nil =>
    rw [h] at hmem
    cases hmem
  | cons s rest =>
    rw [h] at hmem hordered
    rcases mem_cons.mp hmem with rfl | hrest
    · exact List.le_refl _
    · exact rel_of_pairwise_cons hordered hrest

theorem latest_mem : latest text texts ∈ text :: texts := by
  rcases mem_cons.mp (getLastD_mem_cons (l := sorted (text :: texts)) (a := text)) with
    heq | hmem
  · unfold latest
    rw [heq]
    exact mem_cons_self
  · exact mem_sorted.mp hmem

theorem le_latest (ht : t ∈ text :: texts) : t ≤ latest text texts := by
  have hmem := mem_sorted.mpr ht
  have hlast := (sorted_ordered (text :: texts)).rel_getLast hmem
  unfold latest
  rw [getLastD_eq_getLast?, List.getLast?_eq_getLast_of_ne_nil (ne_nil_of_mem hmem)]
  exact hlast

/-! ## What one finding merges -/

/-- What the merged incident takes evidence and boundaries from. -/
def contributors (incidents : List AuthIncident) (finding : AuthFinding) : List AuthFinding :=
  finding :: (supported (candidates incidents finding)).map AuthIncident.toAuthFinding

variable {finding : AuthFinding} {i : AuthIncident}

theorem mem_candidates {incidents : List AuthIncident} :
    i ∈ candidates incidents finding ↔ i ∈ incidents ∧ overlaps finding i = true := by
  rw [candidates, (perm_insertionSort _ _).mem_iff, List.mem_filter]

theorem findingKey_eq (h : overlaps finding i = true) :
    findingKey i.toAuthFinding = findingKey finding := by
  simp only [overlaps, Bool.and_eq_true, beq_iff_eq] at h
  exact h.1.1

section Combine

variable (p : Platform) (conflicts : List JsString) (asOf : JsString) (now : Int)
  (incidents : List AuthIncident) (finding : AuthFinding)

theorem findingKey_combine :
    findingKey (combine p conflicts asOf now incidents finding).toAuthFinding =
      findingKey finding := rfl

/-- The ids that count. -/
def merged : List JsString :=
  sorted ((JsSet.ofList ((supported (candidates incidents finding)).flatMap
      (fun i => i.evidenceEventIds) ++ finding.evidenceEventIds)).elements.filter fun id =>
    !(disputedWith conflicts (candidates incidents finding) finding).has id)

theorem evidence_combine :
    (combine p conflicts asOf now incidents finding).evidenceEventIds =
      (merged conflicts incidents finding).take maxAuthEvents := rfl

variable {id : JsString}

theorem mem_merged :
    id ∈ merged conflicts incidents finding ↔
      (∃ c ∈ contributors incidents finding, id ∈ c.evidenceEventIds) ∧
        id ∉ (disputedWith conflicts (candidates incidents finding) finding).elements := by
  have hunion : id ∈ (supported (candidates incidents finding)).flatMap
      (fun i => i.evidenceEventIds) ++ finding.evidenceEventIds ↔
      ∃ c ∈ contributors incidents finding, id ∈ c.evidenceEventIds := by
    simp only [contributors, mem_append, List.mem_flatMap, List.exists_mem_cons_iff,
      List.mem_map, exists_exists_and_eq_and]
    exact or_comm
  rw [merged, mem_sorted, List.mem_filter, JsSet.mem_ofList, hunion, Bool.not_eq_true',
    ← Bool.not_eq_true, JsSet.has_iff]

theorem nodup_merged : (merged conflicts incidents finding).Nodup :=
  (perm_insertionSort _ _).nodup_iff.mpr ((JsSet.nodup_elements _).filter _)

/-- Ids the merged parts bring are kept, unless the list is full. -/
theorem kept_combine {ids : List JsString}
    (brought : ∀ id ∈ ids, ∃ c ∈ contributors incidents finding, id ∈ c.evidenceEventIds)
    (undisputed : ∀ id ∈ ids,
      id ∉ (disputedWith conflicts (candidates incidents finding) finding).elements) :
    (∀ id ∈ ids, id ∈ (combine p conflicts asOf now incidents finding).evidenceEventIds) ∨
      (combine p conflicts asOf now incidents finding).evidenceEventIds.length =
        maxAuthEvents := by
  rw [evidence_combine, length_take]
  have hids : ∀ id ∈ ids, id ∈ merged conflicts incidents finding := fun id hid =>
    (mem_merged conflicts incidents finding).mpr ⟨brought id hid, undisputed id hid⟩
  by_cases hfits : (merged conflicts incidents finding).length ≤ maxAuthEvents
  · left
    rw [take_of_length_le hfits]
    exact hids
  · right
    omega

theorem evidence_combine_nodup :
    (combine p conflicts asOf now incidents finding).evidenceEventIds.Nodup := by
  rw [evidence_combine]
  exact (nodup_merged conflicts incidents finding).take

theorem quarantined_combine
    (fits : (disputedWith conflicts (candidates incidents finding) finding).size ≤ maxAuthEvents)
    (h : id ∈ (disputedWith conflicts (candidates incidents finding) finding).elements) :
    id ∈ (combine p conflicts asOf now incidents finding).quarantinedEventIds := by
  have hlength : (sorted (disputedWith conflicts (candidates incidents finding)
      finding).elements).length ≤ maxAuthEvents := by
    rw [sorted, length_insertionSort, JsSet.length_elements]
    exact fits
  have htake : (combine p conflicts asOf now incidents finding).quarantinedEventIds =
      sorted (disputedWith conflicts (candidates incidents finding) finding).elements :=
    take_of_length_le hlength
  rw [htake, mem_sorted]
  exact h

/-- The texts of a boundary compare as their instants do. -/
def InOrder (texts : List JsString) : Prop :=
  ∀ s ∈ texts, ∀ t ∈ texts, s ≤ t → dateParse s ≤ dateParse t

theorem inOrder_of_canonical {texts : List JsString}
    (h : ∀ t ∈ texts, Canonical t ∧ (utcTime t).isSome) : InOrder texts := by
  intro s hs t ht hle
  obtain ⟨hs, hstime⟩ := h s hs
  obtain ⟨ht, httime⟩ := h t ht
  obtain ⟨x, hx⟩ := isSome_iff_exists.mp hstime
  obtain ⟨y, hy⟩ := isSome_iff_exists.mp httime
  have hlt := lt_iff hy hx ht hs
  simp only [dateParse, hx, hy, getD_some]
  by_contra hgt
  exact List.not_lt.mpr hle (hlt.mpr (by omega))

variable {c : AuthFinding}

theorem earliest_combine
    (inOrder : InOrder ((contributors incidents finding).map AuthFinding.firstSeen))
    (hc : c ∈ contributors incidents finding) :
    dateParse (combine p conflicts asOf now incidents finding).firstSeen ≤
      dateParse c.firstSeen := by
  have hparts : (contributors incidents finding).map AuthFinding.firstSeen =
      finding.firstSeen :: (supported (candidates incidents finding)).map fun i => i.firstSeen := by
    simp [contributors]
  have hmem := List.mem_map_of_mem (f := AuthFinding.firstSeen) hc
  rw [hparts] at inOrder hmem
  exact inOrder _ earliest_mem _ hmem (earliest_le hmem)

/-- A boundary of the merged incident that sorts last is the last of its parts. -/
theorem le_latest_parts (x : AuthFinding → JsString)
    (inOrder : InOrder ((contributors incidents finding).map x))
    (hc : c ∈ contributors incidents finding) :
    dateParse (x c) ≤ dateParse (latest (x finding)
      ((supported (candidates incidents finding)).map fun i => x i.toAuthFinding)) := by
  have hparts : (contributors incidents finding).map x =
      x finding :: (supported (candidates incidents finding)).map fun i => x i.toAuthFinding := by
    simp [contributors]
  have hmem := List.mem_map_of_mem (f := x) hc
  rw [hparts] at inOrder hmem
  exact inOrder _ hmem _ latest_mem (le_latest hmem)

end Combine

/-! ## Following a prior incident -/

/-- A prior incident with nothing in dispute. -/
def Undisputed (conflicts : List JsString) (incident : AuthIncident) : Prop :=
  incident.activity ≠ .unknown ∧ incident.quarantinedEventIds = [] ∧
    ∀ id ∈ incident.evidenceEventIds, id ∉ conflicts

/-- The history of a prior incident is in another one. -/
structure Covers (prior standing : AuthIncident) : Prop where
  evidence : (∀ id ∈ prior.evidenceEventIds, id ∈ standing.evidenceEventIds) ∨
    standing.evidenceEventIds.length = maxAuthEvents
  firstSeen : dateParse standing.firstSeen ≤ dateParse prior.firstSeen
  lastSeen : dateParse prior.lastSeen ≤ dateParse standing.lastSeen
  expiresAt : dateParse prior.expiresAt ≤ dateParse standing.expiresAt

structure Represents (conflicts : List JsString) (prior standing : AuthIncident) : Prop where
  key : findingKey standing.toAuthFinding = findingKey prior.toAuthFinding
  disputed : ∀ id ∈ (disputedOf conflicts prior).elements, id ∈ standing.quarantinedEventIds
  undisputed : Undisputed conflicts prior → Covers prior standing

structure Ledger where
  incidents : List AuthIncident
  standing : AuthIncident

/-- One finding, with the incident that stands for the prior one afterwards. -/
def follow (p : Platform) (conflicts : List JsString) (asOf : JsString) (now : Int) (s : Ledger)
    (finding : AuthFinding) : Option Ledger :=
  some {
    incidents := mergeFinding p conflicts asOf now s.incidents finding
    standing :=
      if overlaps finding s.standing then combine p conflicts asOf now s.incidents finding
      else s.standing }

/-- The parts that count hold what the standing incident has of the prior one. -/
structure Sustains (prior standing : AuthIncident) (parts : List AuthFinding)
    (disputed : JsSet JsString) : Prop where
  evidence : ∀ id ∈ standing.evidenceEventIds,
    id ∈ prior.evidenceEventIds ∨ standing.evidenceEventIds.length = maxAuthEvents →
      (∃ c ∈ parts, id ∈ c.evidenceEventIds) ∧ id ∉ disputed.elements
  firstSeen : ∃ c ∈ parts, dateParse c.firstSeen ≤ dateParse standing.firstSeen
  lastSeen : ∃ c ∈ parts, dateParse standing.lastSeen ≤ dateParse c.lastSeen
  expiresAt : ∃ c ∈ parts, dateParse standing.expiresAt ≤ dateParse c.expiresAt
  firstSeenInOrder : InOrder (parts.map AuthFinding.firstSeen)
  lastSeenInOrder : InOrder (parts.map AuthFinding.lastSeen)
  expiresAtInOrder : InOrder (parts.map AuthFinding.expiresAt)

/-- A finding that overlaps the standing incident leaves its history whole. -/
def LeavesWhole (conflicts : List JsString) (prior : AuthIncident) (s : Ledger)
    (finding : AuthFinding) : Prop :=
  overlaps finding s.standing = true →
    (disputedWith conflicts (candidates s.incidents finding) finding).size ≤ maxAuthEvents ∧
    (Undisputed conflicts prior → Sustains prior s.standing (contributors s.incidents finding)
      (disputedWith conflicts (candidates s.incidents finding) finding))

section Follow

variable {p : Platform} {conflicts : List JsString} {asOf : JsString} {now : Int}
  {prior : AuthIncident}

theorem not_disputed_of_undisputed (h : Undisputed conflicts prior) (id : JsString) :
    id ∉ (disputedOf conflicts prior).elements := by
  rw [disputedOf, JsSet.mem_ofList, h.2.1, nil_append, List.mem_filter]
  rintro ⟨hid, hconflict⟩
  exact h.2.2 id hid (contains_iff_mem.mp hconflict)

theorem represents_refresh
    (fits : (disputedOf conflicts prior).size ≤ maxAuthEvents) :
    Represents conflicts prior (refresh conflicts asOf now prior) where
  key := rfl
  disputed id hid := by
    have hlength : (sorted (disputedOf conflicts prior).elements).length ≤ maxAuthEvents := by
      rw [sorted, length_insertionSort, JsSet.length_elements]
      exact fits
    rw [refresh, take_of_length_le hlength, mem_sorted]
    exact hid
  undisputed h := {
    evidence := by
      left
      intro id hid
      simp only [refresh, List.mem_filter]
      refine ⟨hid, ?_⟩
      rw [Bool.not_eq_true', ← Bool.not_eq_true, JsSet.has_iff]
      exact not_disputed_of_undisputed h id
    firstSeen := Int.le_refl _
    lastSeen := Int.le_refl _
    expiresAt := Int.le_refl _ }

variable {finding : AuthFinding}

/-- An active incident is itself one of the parts. -/
theorem sustains_of_active {incidents : List AuthIncident} {standing : AuthIncident}
    (mem : standing ∈ incidents) (overlap : overlaps finding standing = true)
    (active : standing.activity = .active)
    (undisputed : ∀ id ∈ standing.evidenceEventIds,
      id ∉ (disputedWith conflicts (candidates incidents finding) finding).elements)
    (firstSeen : InOrder ((contributors incidents finding).map AuthFinding.firstSeen))
    (lastSeen : InOrder ((contributors incidents finding).map AuthFinding.lastSeen))
    (expiresAt : InOrder ((contributors incidents finding).map AuthFinding.expiresAt)) :
    Sustains prior standing (contributors incidents finding)
      (disputedWith conflicts (candidates incidents finding) finding) := by
  have hpart : standing.toAuthFinding ∈ contributors incidents finding := by
    apply List.mem_cons_of_mem
    apply List.mem_map_of_mem
    rw [supported, List.mem_filter, mem_candidates]
    exact ⟨⟨mem, overlap⟩, decide_eq_true active⟩
  exact {
    evidence := fun id hid _ => ⟨⟨_, hpart, hid⟩, undisputed id hid⟩
    firstSeen := ⟨_, hpart, Int.le_refl _⟩
    lastSeen := ⟨_, hpart, Int.le_refl _⟩
    expiresAt := ⟨_, hpart, Int.le_refl _⟩
    firstSeenInOrder := firstSeen
    lastSeenInOrder := lastSeen
    expiresAtInOrder := expiresAt }

variable {s : Ledger}

theorem covers_combine (nodup : s.standing.evidenceEventIds.Nodup)
    (covers : Covers prior s.standing)
    (sustains : Sustains prior s.standing (contributors s.incidents finding)
      (disputedWith conflicts (candidates s.incidents finding) finding)) :
    Covers prior (combine p conflicts asOf now s.incidents finding) where
  evidence := by
    rcases covers.evidence with hall | hfull
    · exact kept_combine p conflicts asOf now s.incidents finding
        (fun id hid => (sustains.evidence id (hall id hid) (.inl hid)).1)
        fun id hid => (sustains.evidence id (hall id hid) (.inl hid)).2
    · right
      rcases kept_combine p conflicts asOf now s.incidents finding
        (fun id hid => (sustains.evidence id hid (.inr hfull)).1)
        (fun id hid => (sustains.evidence id hid (.inr hfull)).2) with hkept | hcap
      · have hle := nodup.length_le_of_subset hkept
        have hcap : (combine p conflicts asOf now s.incidents finding).evidenceEventIds.length ≤
            maxAuthEvents := by
          rw [evidence_combine]
          exact length_take_le _ _
        omega
      · exact hcap
  firstSeen := by
    obtain ⟨c, hc, hle⟩ := sustains.firstSeen
    have hcombine := earliest_combine p conflicts asOf now s.incidents finding
      sustains.firstSeenInOrder hc
    have hstanding := covers.firstSeen
    omega
  lastSeen := by
    obtain ⟨c, hc, hle⟩ := sustains.lastSeen
    have hcombine := le_latest_parts s.incidents finding AuthFinding.lastSeen
      sustains.lastSeenInOrder hc
    exact covers.lastSeen.trans (hle.trans hcombine)
  expiresAt := by
    obtain ⟨c, hc, hle⟩ := sustains.expiresAt
    have hcombine := le_latest_parts s.incidents finding AuthFinding.expiresAt
      sustains.expiresAtInOrder hc
    exact covers.expiresAt.trans (hle.trans hcombine)

/-- The incident that stands for the prior one is in the ledger and represents it. -/
structure Follows (conflicts : List JsString) (prior : AuthIncident) (s : Ledger) : Prop where
  mem : s.standing ∈ s.incidents
  nodup : s.standing.evidenceEventIds.Nodup
  represents : Represents conflicts prior s.standing

theorem follows_step {s' : Ledger} (h : Follows conflicts prior s)
    (whole : LeavesWhole conflicts prior s finding)
    (step : follow p conflicts asOf now s finding = some s') : Follows conflicts prior s' := by
  cases step
  by_cases hoverlap : overlaps finding s.standing = true
  · obtain ⟨hfits, hsustains⟩ := whole hoverlap
    have hcandidate : s.standing ∈ candidates s.incidents finding :=
      mem_candidates.mpr ⟨h.mem, hoverlap⟩
    simp only [hoverlap, if_true]
    exact {
      mem := mem_append_right _ mem_cons_self
      nodup := evidence_combine_nodup p conflicts asOf now s.incidents finding
      represents := {
        key := by
          rw [findingKey_combine, ← findingKey_eq hoverlap]
          exact h.represents.key
        disputed := by
          intro id hid
          apply quarantined_combine p conflicts asOf now s.incidents finding hfits
          rw [disputedWith, JsSet.mem_ofList, mem_append, List.mem_flatMap]
          exact .inl ⟨_, hcandidate, h.represents.disputed id hid⟩
        undisputed := fun hundisputed =>
          covers_combine h.nodup (h.represents.undisputed hundisputed) (hsustains hundisputed) } }
  · simp only [hoverlap]
    refine ⟨?_, h.nodup, h.represents⟩
    apply mem_append_left
    rw [List.mem_filter]
    exact ⟨h.mem, by simpa using hoverlap⟩

variable (p conflicts asOf now) in
theorem run_follow (s : Ledger) (findings : List AuthFinding) :
    ∃ standing, run (follow p conflicts asOf now) s findings =
      some ⟨findings.foldl (mergeFinding p conflicts asOf now) s.incidents, standing⟩ := by
  induction findings generalizing s with
  | nil => exact ⟨s.standing, rfl⟩
  | cons finding rest ih =>
    obtain ⟨standing, hrun⟩ := ih ⟨mergeFinding p conflicts asOf now s.incidents finding,
      if overlaps finding s.standing then combine p conflicts asOf now s.incidents finding
      else s.standing⟩
    exact ⟨standing, hrun⟩

end Follow

/-! ## Accepted input -/

theorem forM_ok_iff {α : Type} {check : α → Except IncidentError Unit} {l : List α} :
    l.forM check = .ok () ↔ ∀ a ∈ l, check a = .ok () := by
  induction l with
  | nil => simp [pure, Except.pure]
  | cons b rest ih =>
    have hbind : (b :: rest).forM check = (check b).bind fun _ => rest.forM check := rfl
    rw [hbind, forall_mem_cons, ← ih]
    cases hb : check b with
    | error e =>
      constructor
      · intro h
        cases h
      · rintro ⟨h, _⟩
        cases h
    | ok u =>
      constructor
      · exact fun h => ⟨rfl, h⟩
      · exact fun h => h.2

theorem nodup_of_factsValid (h : factsValid finding = true) :
    finding.evidenceEventIds.Nodup := by
  simp only [factsValid, Bool.and_eq_true, decide_eq_true_eq] at h
  exact h.1.1.1.1.2

variable {context : AuthIncidentContext} {now : Int}

theorem checkFinding_iff :
    checkFinding context now finding = .ok () ↔
      (finding.toAuthScope = context.toAuthScope ∧ finding.source.text = context.source) ∧
        factsValid finding = true ∧ clocksValid now finding = true := by
  by_cases hscope : finding.toAuthScope ≠ context.toAuthScope ∨ finding.source.text ≠ context.source
  · have hthrows : checkFinding context now finding = .error .incidentScopeMismatch := by
      simp only [checkFinding, if_pos hscope]
      rfl
    rw [hthrows]
    constructor
    · intro h
      cases h
    · rintro ⟨⟨hsame, hsource⟩, -⟩
      exact absurd hscope (by simp [hsame, hsource])
  · rw [not_or, not_not, not_not] at hscope
    simp only [checkFinding, hscope, true_and]
    cases factsValid finding <;> cases clocksValid now finding <;>
      simp [throw, throwThe, MonadExceptOf.throw, bind, Except.bind, pure, Except.pure]

/-- What an accepted merge was checked for. -/
structure Accepted (prior : List AuthIncident) (current : List AuthFinding)
    (context : AuthIncidentContext) (now : Int) : Prop where
  clock : utcTime context.asOf = some now
  scope : [context.organizationId, context.customerTenantId,
    context.microsoftTenantId].all textValue = true ∧
      (AuthSource.ofText context.source).isNone = false
  few : prior.length + current.length ≤ maxAuthIncidents
  conflicts : context.conflictingEventIds.length ≤ maxAuthEvents ∧
    context.conflictingEventIds.all textValue = true
  evidence : ∃ inputEvidence, countEvidence
    (prior.map (fun i => (i.evidenceEventIds, i.quarantinedEventIds)) ++
      current.map fun f => (f.evidenceEventIds, [])) = .ok inputEvidence
  findings : ∀ f ∈ prior.map AuthIncident.toAuthFinding ++ current,
    checkFinding context now f = .ok ()
  incidents : ∀ i ∈ prior, checkIncident now i = .ok ()

variable {prior : List AuthIncident} {current : List AuthFinding}

theorem accept_iff :
    accept prior current context = .ok now ↔ Accepted prior current context now := by
  constructor
  · intro h
    unfold accept at h
    cases hnow : utcTime context.asOf with
    | none =>
      rw [hnow] at h
      cases h
    | some t =>
      rw [hnow] at h
      simp only [pure_bind] at h
      split at h
      · cases h
      rename_i hscope
      split at h
      · cases h
      rename_i hfew
      split at h
      · cases h
      rename_i hconflicts
      cases hcount : countEvidence
          (prior.map (fun i => (i.evidenceEventIds, i.quarantinedEventIds)) ++
            current.map fun f => (f.evidenceEventIds, [])) with
      | error e =>
        rw [hcount] at h
        cases h
      | ok inputEvidence =>
        rw [hcount] at h
        cases hfindings : (prior.map AuthIncident.toAuthFinding ++ current).forM
            (checkFinding context t) with
        | error e =>
          rw [hfindings] at h
          cases h
        | ok u =>
          rw [hfindings] at h
          cases hincidents : prior.forM (checkIncident t) with
          | error e =>
            rw [hincidents] at h
            cases h
          | ok u =>
            rw [hincidents] at h
            cases h
            simp only [Bool.or_eq_true, Bool.not_eq_true', decide_eq_true_eq, not_or,
              Bool.not_eq_false, Bool.not_eq_true, Nat.not_lt, gt_iff_lt] at hscope hfew hconflicts
            exact ⟨hnow, hscope, hfew, hconflicts, ⟨_, hcount⟩, forM_ok_iff.mp hfindings,
              forM_ok_iff.mp hincidents⟩
  · rintro ⟨hclock, ⟨htexts, hsource⟩, hfew, ⟨hcap, hconflicts⟩, ⟨n, hcount⟩, hfindings, hincidents⟩
    have hfindings := forM_ok_iff.mpr hfindings
    have hincidents := forM_ok_iff.mpr hincidents
    simp only [accept, hclock, htexts, hsource, hconflicts, hcount, hfindings, hincidents,
      Bool.not_true, Bool.or_false, Bool.false_eq_true, if_false, Nat.not_lt.mpr hfew,
      gt_iff_lt, Nat.not_lt.mpr hcap, decide_false, pure_bind]
    rfl

theorem accept_ok (h : accept prior current context = .ok now) :
    utcTime context.asOf = some now ∧ ∀ i ∈ prior, i.evidenceEventIds.Nodup := by
  have haccepted := accept_iff.mp h
  refine ⟨haccepted.clock, fun i hi => ?_⟩
  have hmem : i.toAuthFinding ∈ prior.map AuthIncident.toAuthFinding ++ current :=
    mem_append_left _ (List.mem_map_of_mem hi)
  exact nodup_of_factsValid (checkFinding_iff.mp (haccepted.findings _ hmem)).2.1

/-- The ledger that a merge starts from, with the refreshed prior incident. -/
def opening (prior : List AuthIncident) (context : AuthIncidentContext) (incident : AuthIncident) :
    Ledger :=
  let refresh := refresh context.conflictingEventIds context.asOf (dateParse context.asOf)
  ⟨prior.map refresh, refresh incident⟩

/-- An accepted merge represents every prior incident whose history each finding leaves whole. -/
theorem mergeAuthenticationIncidents_represents (p : Platform) {prior result : List AuthIncident}
    {current : List AuthFinding} {context : AuthIncidentContext} {incident : AuthIncident}
    (accepted : mergeAuthenticationIncidents p prior current context = .ok result)
    (mem : incident ∈ prior)
    (fits : (disputedOf context.conflictingEventIds incident).size ≤ maxAuthEvents)
    (whole : Along (follow p context.conflictingEventIds context.asOf (dateParse context.asOf))
      (LeavesWhole context.conflictingEventIds incident) (opening prior context incident)
      (arrivalOrder current)) :
    ∃ r ∈ result, Represents context.conflictingEventIds incident r := by
  unfold mergeAuthenticationIncidents at accepted
  cases haccept : accept prior current context with
  | error e =>
    rw [haccept] at accepted
    cases accepted
  | ok now =>
    rw [haccept] at accepted
    cases accepted
    obtain ⟨hnow, hnodup⟩ := accept_ok haccept
    have hparse : dateParse context.asOf = now := by rw [dateParse, hnow, getD_some]
    obtain ⟨standing, hrun⟩ := run_follow p context.conflictingEventIds context.asOf
      (dateParse context.asOf) (opening prior context incident) (arrivalOrder current)
    have hstart : Follows context.conflictingEventIds incident (opening prior context incident) := {
      mem := List.mem_map_of_mem mem
      nodup := (hnodup incident mem).filter _
      represents := represents_refresh fits }
    have hend := invariant_along (fun _ _ _ => follows_step) hstart whole hrun
    refine ⟨standing, ?_, hend.represents⟩
    rw [(perm_insertionSort _ _).mem_iff, ← hparse]
    exact hend.mem

section Sample

def sampleFinding : AuthFinding where
  organizationId := js "org"
  customerTenantId := js "customer"
  microsoftTenantId := js "tenant"
  findingId := js "finding-b"
  ruleId := .ruleA
  source := .graphSignIns
  subjectRef := js "human"
  applicationRef := js "app"
  clientAddress := none
  priority := .low
  firstSeen := js "2026-09-10T10:15:00.000Z"
  lastSeen := js "2026-09-10T10:24:00.000Z"
  evaluatedAt := js "2026-09-10T10:25:00.000Z"
  expiresAt := js "2026-09-10T10:39:00.000Z"
  evidenceEventIds := [js "b"]
  evidenceCount := 1
  eventMfa := ⟨.notEvidenced, none⟩
  caveats := []

def samplePrior (expiresAt : JsString) : AuthIncident :=
  { sampleFinding with
    findingId := js "finding-a"
    firstSeen := js "2026-09-10T10:00:00.000Z"
    lastSeen := js "2026-09-10T10:05:00.000Z"
    evaluatedAt := js "2026-09-10T10:06:00.000Z"
    expiresAt
    evidenceEventIds := [js "a"]
    incidentId := js "incident-a"
    activity := .active
    quarantinedEventIds := []
    lastEvaluatedAt := js "2026-09-10T10:06:00.000Z" }

def sampleContext : AuthIncidentContext where
  organizationId := js "org"
  customerTenantId := js "customer"
  microsoftTenantId := js "tenant"
  asOf := js "2026-09-10T10:25:00.000Z"
  source := js "GRAPH_SIGN_INS"
  conflictingEventIds := []

def samplePlatform : Platform := ⟨fun _ => 0, id, id⟩

/-- An incident that has expired by now is taken out with all it holds. -/
theorem expired_incident_is_dropped :
    ¬ ∀ (p : Platform) (prior result : List AuthIncident) (current : List AuthFinding)
      (context : AuthIncidentContext),
      mergeAuthenticationIncidents p prior current context = .ok result →
      ∀ i ∈ prior, ∃ r ∈ result, Represents context.conflictingEventIds i r := by
  intro h
  have hprior := h samplePlatform [samplePrior (js "2026-09-10T10:20:00.000Z")]
    [{ sampleFinding with
      findingId := js "finding-a"
      incidentId := js "incident-a"
      activity := .active
      quarantinedEventIds := []
      lastEvaluatedAt := js "2026-09-10T10:25:00.000Z" }] [sampleFinding] sampleContext
    (by decide +kernel) _ mem_cons_self
  obtain ⟨r, hr, hrepresents⟩ := hprior
  have hcovers := hrepresents.undisputed ⟨by decide, rfl, by simp [sampleContext]⟩
  rw [mem_singleton] at hr
  subst hr
  rcases hcovers.evidence with hall | hfull
  · exact absurd (hall (js "a") (by decide +kernel)) (by decide +kernel)
  · exact absurd hfull (by decide +kernel)

theorem mergeAuthenticationIncidents_represents_active :
    ∃ r ∈ [combine samplePlatform [] sampleContext.asOf (dateParse sampleContext.asOf)
        [refresh [] sampleContext.asOf (dateParse sampleContext.asOf)
          (samplePrior (js "2026-09-10T10:30:00.000Z"))] sampleFinding],
      Represents [] (samplePrior (js "2026-09-10T10:30:00.000Z")) r := by
  apply @mergeAuthenticationIncidents_represents samplePlatform
    [samplePrior (js "2026-09-10T10:30:00.000Z")] _ [sampleFinding] sampleContext
  · decide +kernel
  · exact mem_cons_self
  · decide +kernel
  · refine ⟨fun hoverlap => ⟨by decide +kernel, fun _ => ?_⟩, trivial⟩
    apply sustains_of_active mem_cons_self hoverlap (by decide +kernel)
    · decide +kernel
    · exact inOrder_of_canonical (by decide +kernel)
    · exact inOrder_of_canonical (by decide +kernel)
    · exact inOrder_of_canonical (by decide +kernel)

end Sample

end Auth
