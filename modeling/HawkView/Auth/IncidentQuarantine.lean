import HawkView.Auth.IncidentHistory

/-!
# Quarantine

Incidents of a key stay apart in time, and disputed ids stay out of the evidence.
An id in dispute comes back only where the incident that stands for a prior one
has moved out of the reach of a finding that the prior one overlaps.
-/

namespace Auth

open IsoTime Runs List Option

/-! ## Findings that meet -/

/-- Two findings of a key share an instant. -/
def Meets (a b : AuthFinding) : Prop :=
  findingKey a = findingKey b ∧ dateParse a.firstSeen ≤ dateParse b.expiresAt ∧
    dateParse b.firstSeen ≤ dateParse a.expiresAt

instance : DecidableRel Meets := fun a b =>
  inferInstanceAs (Decidable (findingKey a = findingKey b ∧
    dateParse a.firstSeen ≤ dateParse b.expiresAt ∧
      dateParse b.firstSeen ≤ dateParse a.expiresAt))

theorem Meets.symm {a b : AuthFinding} (h : Meets a b) : Meets b a := ⟨h.1.symm, h.2.2, h.2.1⟩

variable {finding : AuthFinding}

theorem overlaps_iff {incident : AuthIncident} :
    overlaps finding incident = true ↔ Meets incident.toAuthFinding finding := by
  simp only [overlaps, Bool.and_eq_true, beq_iff_eq, decide_eq_true_eq, Meets]
  constructor
  · rintro ⟨⟨hkey, hfirst⟩, hlast⟩
    exact ⟨hkey, hlast, hfirst⟩
  · rintro ⟨hkey, hlast, hfirst⟩
    exact ⟨⟨hkey, hfirst⟩, hlast⟩

/-- The incidents share no instant with one another. -/
def Separate (incidents : List AuthIncident) : Prop :=
  incidents.Pairwise fun a b => ¬Meets a.toAuthFinding b.toAuthFinding

/-- The boundaries are in order, and their texts are among the given ones. -/
structure Bounded (firsts expiries : List JsString) (finding : AuthFinding) : Prop where
  first : finding.firstSeen ∈ firsts
  expiry : finding.expiresAt ∈ expiries
  ordered : dateParse finding.firstSeen ≤ dateParse finding.expiresAt

theorem InOrder.subset {texts texts' : List JsString} (h : InOrder texts')
    (sub : ∀ t ∈ texts, t ∈ texts') : InOrder texts :=
  fun s hs t ht => h s (sub s hs) t (sub t ht)

/-- A finding that begins before it expires. -/
abbrev Ordered (finding : AuthFinding) : Prop :=
  dateParse finding.firstSeen ≤ dateParse finding.expiresAt

section Combine

variable {p : Platform} {conflicts : List JsString} {asOf : JsString} {now : Int}
  {incidents : List AuthIncident} {finding c g : AuthFinding}

theorem mem_contributors :
    c ∈ contributors incidents finding ↔ c = finding ∨
      ∃ i ∈ incidents, overlaps finding i = true ∧ i.activity = .active ∧ i.toAuthFinding = c := by
  simp only [contributors, mem_cons, List.mem_map, supported, mem_filter, mem_candidates,
    decide_eq_true_eq, and_assoc]

theorem contributor_meets (ordered : Ordered finding)
    (hc : c ∈ contributors incidents finding) : Meets c finding := by
  rcases mem_contributors.mp hc with rfl | ⟨i, _, hoverlap, _, rfl⟩
  · exact ⟨rfl, ordered, ordered⟩
  · exact overlaps_iff.mp hoverlap

/-- A value of the finding or of one of its incidents is one of a contributor. -/
theorem mem_contributed {field : AuthFinding → JsString} {v : JsString}
    (hmem : v ∈ field finding :: (supported (candidates incidents finding)).map fun i =>
      field i.toAuthFinding) :
    ∃ c ∈ contributors incidents finding, v = field c := by
  rcases List.mem_cons.mp hmem with heq | hmem
  · exact ⟨finding, mem_cons_self, heq⟩
  · obtain ⟨i, hi, heq⟩ := List.mem_map.mp hmem
    exact ⟨_, mem_cons_of_mem _ (mem_map_of_mem hi), heq.symm⟩

theorem firstSeen_combine :
    ∃ c ∈ contributors incidents finding,
      (combine p conflicts asOf now incidents finding).firstSeen = c.firstSeen :=
  @mem_contributed _ _ AuthFinding.firstSeen _ earliest_mem

theorem expiresAt_combine :
    ∃ c ∈ contributors incidents finding,
      (combine p conflicts asOf now incidents finding).expiresAt = c.expiresAt :=
  @mem_contributed _ _ AuthFinding.expiresAt _ latest_mem

/-- What meets the merged incident meets a part of it, as every part meets the finding. -/
theorem meets_part (ordered : Ordered finding) (ordered' : Ordered g)
    (h : Meets (combine p conflicts asOf now incidents finding).toAuthFinding g) :
    ∃ c ∈ contributors incidents finding, Meets c g := by
  obtain ⟨hkey, hfirst, hlast⟩ := h
  rw [findingKey_combine] at hkey
  obtain ⟨a, ha, hfirstSeen⟩ := @firstSeen_combine p conflicts asOf now incidents finding
  obtain ⟨b, hb, hexpiresAt⟩ := @expiresAt_combine p conflicts asOf now incidents finding
  rw [hfirstSeen] at hfirst
  rw [hexpiresAt] at hlast
  obtain ⟨hakey, hafirst, halast⟩ := contributor_meets ordered ha
  obtain ⟨hbkey, hbfirst, hblast⟩ := contributor_meets ordered hb
  by_cases hbefore : dateParse finding.expiresAt < dateParse g.firstSeen
  · exact ⟨b, hb, hbkey.trans hkey, by omega, hlast⟩
  · by_cases hafter : dateParse g.expiresAt < dateParse finding.firstSeen
    · exact ⟨a, ha, hakey.trans hkey, hfirst, by omega⟩
    · exact ⟨finding, mem_cons_self, hkey, by omega, by omega⟩

variable {firsts expiries : List JsString}

theorem bounded_combine (firstsInOrder : InOrder firsts) (expiriesInOrder : InOrder expiries)
    (bounded : ∀ c ∈ contributors incidents finding, Bounded firsts expiries c) :
    Bounded firsts expiries (combine p conflicts asOf now incidents finding).toAuthFinding where
  first := by
    obtain ⟨c, hc, heq⟩ := @firstSeen_combine p conflicts asOf now incidents finding
    rw [heq]
    exact (bounded c hc).first
  expiry := by
    obtain ⟨c, hc, heq⟩ := @expiresAt_combine p conflicts asOf now incidents finding
    rw [heq]
    exact (bounded c hc).expiry
  ordered := by
    have hfirsts : InOrder ((contributors incidents finding).map AuthFinding.firstSeen) := by
      apply firstsInOrder.subset
      intro t ht
      obtain ⟨c, hc, rfl⟩ := List.mem_map.mp ht
      exact (bounded c hc).first
    have hexpiries : InOrder ((contributors incidents finding).map AuthFinding.expiresAt) := by
      apply expiriesInOrder.subset
      intro t ht
      obtain ⟨c, hc, rfl⟩ := List.mem_map.mp ht
      exact (bounded c hc).expiry
    have hfinding : finding ∈ contributors incidents finding := mem_cons_self
    have hearliest := earliest_combine p conflicts asOf now incidents finding hfirsts hfinding
    have hordered := (bounded finding hfinding).ordered
    have hlatest := le_latest_parts incidents finding AuthFinding.expiresAt hexpiries hfinding
    exact hearliest.trans (hordered.trans hlatest)

variable {id : JsString}

section

variable (h : id ∈ (combine p conflicts asOf now incidents finding).evidenceEventIds)
include h

theorem apart_combine :
    id ∉ (disputedWith conflicts (candidates incidents finding) finding).elements := by
  rw [evidence_combine] at h
  exact ((mem_merged conflicts incidents finding).mp (mem_of_mem_take h)).2

theorem brought_combine :
    ∃ c ∈ contributors incidents finding, id ∈ c.evidenceEventIds := by
  rw [evidence_combine] at h
  exact ((mem_merged conflicts incidents finding).mp (mem_of_mem_take h)).1

end

theorem disputed_of_conflict (h : id ∈ finding.evidenceEventIds) (conflict : id ∈ conflicts) :
    id ∈ (disputedWith conflicts (candidates incidents finding) finding).elements := by
  rw [disputedWith, JsSet.mem_ofList]
  apply mem_append_right
  rw [mem_filter]
  exact ⟨h, contains_iff_mem.mpr conflict⟩

theorem disputed_of_candidate {i : AuthIncident} (mem : i ∈ incidents)
    (overlap : overlaps finding i = true) (h : id ∈ i.quarantinedEventIds) :
    id ∈ (disputedWith conflicts (candidates incidents finding) finding).elements := by
  rw [disputedWith, JsSet.mem_ofList]
  apply mem_append_left
  exact mem_flatMap.mpr ⟨i, mem_candidates.mpr ⟨mem, overlap⟩, h⟩

end Combine

/-! ## Every incident of a merge -/

/-- The boundaries are among those handed in, and no id that counts is disputed. -/
structure Orderly (conflicts firsts expiries : List JsString) (incident : AuthIncident) : Prop where
  bounded : Bounded firsts expiries incident.toAuthFinding
  apart : ∀ id ∈ incident.evidenceEventIds, id ∉ incident.quarantinedEventIds
  agreed : ∀ id ∈ incident.evidenceEventIds, id ∉ conflicts

section Merge

variable {p : Platform} {conflicts : List JsString} {asOf : JsString} {now : Int}
  {firsts expiries : List JsString} {incidents : List AuthIncident} {finding : AuthFinding}

theorem orderly_refresh {incident : AuthIncident}
    (bounded : Bounded firsts expiries incident.toAuthFinding) :
    Orderly conflicts firsts expiries (refresh conflicts asOf now incident) := by
  have hfree : ∀ id ∈ (refresh conflicts asOf now incident).evidenceEventIds,
      id ∈ incident.evidenceEventIds ∧ id ∉ (disputedOf conflicts incident).elements := by
    intro id hid
    simp only [refresh, mem_filter, Bool.not_eq_true', ← Bool.not_eq_true,
      JsSet.has_iff] at hid
    exact hid
  constructor
  · exact ⟨bounded.first, bounded.expiry, bounded.ordered⟩
  · intro id hid hquarantined
    have hmem : id ∈ sorted (disputedOf conflicts incident).elements :=
      mem_of_mem_take hquarantined
    exact (hfree id hid).2 (mem_sorted.mp hmem)
  · intro id hid hconflict
    apply (hfree id hid).2
    rw [disputedOf, JsSet.mem_ofList]
    apply mem_append_right
    rw [mem_filter]
    exact ⟨(hfree id hid).1, contains_iff_mem.mpr hconflict⟩

variable (firstsInOrder : InOrder firsts)
  (expiriesInOrder : InOrder expiries)
  (sound : ∀ i ∈ incidents, Orderly conflicts firsts expiries i)

include firstsInOrder expiriesInOrder sound in
theorem orderly_combine
    (bounded : Bounded firsts expiries finding) :
    Orderly conflicts firsts expiries (combine p conflicts asOf now incidents finding) := by
  constructor
  · apply bounded_combine firstsInOrder expiriesInOrder
    intro c hc
    rcases mem_contributors.mp hc with rfl | ⟨i, hi, _, _, rfl⟩
    · exact bounded
    · exact (sound i hi).bounded
  · intro id hid hquarantined
    exact apart_combine hid (mem_sorted.mp (mem_of_mem_take hquarantined))
  · intro id hid hconflict
    obtain ⟨c, hc, hbrought⟩ := brought_combine hid
    rcases mem_contributors.mp hc with rfl | ⟨i, hi, _, _, rfl⟩
    · exact apart_combine hid (disputed_of_conflict hbrought hconflict)
    · exact (sound i hi).agreed id hbrought hconflict

theorem mem_mergeFinding {r : AuthIncident} :
    r ∈ mergeFinding p conflicts asOf now incidents finding ↔
      r ∈ incidents ∧ overlaps finding r = false ∨
        r = combine p conflicts asOf now incidents finding := by
  rw [mergeFinding, mem_append, mem_filter, mem_singleton, Bool.not_eq_true']

include firstsInOrder expiriesInOrder sound in
theorem orderly_merge
    (bounded : Bounded firsts expiries finding) :
    ∀ r ∈ mergeFinding p conflicts asOf now incidents finding,
      Orderly conflicts firsts expiries r := by
  intro r hr
  rcases mem_mergeFinding.mp hr with ⟨hr, _⟩ | rfl
  · exact sound r hr
  · exact orderly_combine firstsInOrder expiriesInOrder sound bounded

/-- An incident that the finding leaves meets no part of the one it makes. -/
theorem separate_merge (sound : ∀ i ∈ incidents, Orderly conflicts firsts expiries i)
    (ordered : Ordered finding)
    (separate : Separate incidents) :
    Separate (mergeFinding p conflicts asOf now incidents finding) := by
  rw [Separate, mergeFinding, pairwise_append]
  refine ⟨separate.sublist filter_sublist, pairwise_singleton _ _, ?_⟩
  intro i hi r hr hmeets
  obtain rfl := mem_singleton.mp hr
  rw [mem_filter, Bool.not_eq_true'] at hi
  obtain ⟨c, hc, hpart⟩ := meets_part ordered (sound i hi.1).bounded.ordered hmeets.symm
  rcases mem_contributors.mp hc with rfl | ⟨j, hj, hoverlap, _, rfl⟩
  · rw [overlaps_iff.mpr hpart.symm] at hi
    cases hi.2
  · have hne : i ≠ j := by
      rintro rfl
      rw [hoverlap] at hi
      cases hi.2
    have hsymm : Std.Symm fun a b : AuthIncident => ¬Meets a.toAuthFinding b.toAuthFinding :=
      ⟨fun a b h h' => h h'.symm⟩
    exact List.Pairwise.forall separate hi.1 hj hne hpart.symm

include firstsInOrder expiriesInOrder sound in
/-- What a merge of all findings keeps. -/
theorem merged_orderly {findings : List AuthFinding}
    (bounded : ∀ f ∈ findings, Bounded firsts expiries f) :
    (∀ r ∈ findings.foldl (mergeFinding p conflicts asOf now) incidents,
      Orderly conflicts firsts expiries r) ∧
    (Separate incidents → Separate (findings.foldl (mergeFinding p conflicts asOf now)
      incidents)) := by
  induction findings generalizing incidents with
  | nil => exact ⟨sound, id⟩
  | cons f rest ih =>
    have hf := bounded f mem_cons_self
    obtain ⟨hsound, hseparate⟩ := ih
      (orderly_merge firstsInOrder expiriesInOrder sound hf)
      fun f' hf' => bounded f' (mem_cons_of_mem f hf')
    exact ⟨hsound, fun h => hseparate (separate_merge sound hf.ordered h)⟩

end Merge

/-! ## What one prior incident has in dispute -/

/-- A prior incident that meets another holds an id all along. -/
def HeldBefore (conflicts : List JsString) (prior : List AuthIncident) (incident : AuthIncident)
    (id : JsString) : Prop :=
  ∃ i ∈ prior, Meets i.toAuthFinding incident.toAuthFinding ∧ id ∈ i.evidenceEventIds ∧
    id ∉ (disputedOf conflicts i).elements

/-- No incident that meets the prior one holds an id that is disputed in it, unless one did so
before. -/
def KeepsOut (conflicts : List JsString) (prior : List AuthIncident) (incident : AuthIncident)
    (incidents : List AuthIncident) : Prop :=
  ∀ r ∈ incidents, Meets r.toAuthFinding incident.toAuthFinding →
    ∀ id ∈ (disputedOf conflicts incident).elements, id ∈ r.evidenceEventIds →
      HeldBefore conflicts prior incident id

/-- No id of the finding is in conflict or disputed in the prior incident. -/
def Clean (conflicts : List JsString) (incident : AuthIncident) (finding : AuthFinding) : Prop :=
  ∀ id ∈ finding.evidenceEventIds, id ∉ conflicts ∧ id ∉ (disputedOf conflicts incident).elements

/-- A clean finding is merged into the incident that stands for the prior one. -/
def Cleared (p : Platform) (conflicts : List JsString) (asOf : JsString) (now : Int)
    (incident : AuthIncident) (s : Ledger) (findings : List AuthFinding) : Prop :=
  ∃ earlier finding later t, findings = earlier ++ finding :: later ∧
    run (follow p conflicts asOf now) s earlier = some t ∧ overlaps finding t.standing = true ∧
    Clean conflicts incident finding

/-- Where the finding, or an active incident it overlaps, brings a disputed id to the prior
incident, the finding overlaps the incident that stands for it. -/
structure InReach (conflicts : List JsString) (prior : List AuthIncident)
    (incident : AuthIncident) (s : Ledger) (finding : AuthFinding) : Prop where
  fits : overlaps finding s.standing = true →
    (disputedWith conflicts (candidates s.incidents finding) finding).size ≤ maxAuthEvents
  reach : ∀ id ∈ (disputedOf conflicts incident).elements, ¬HeldBefore conflicts prior incident id →
    (∃ c ∈ contributors s.incidents finding, id ∈ c.evidenceEventIds) →
    (∃ c ∈ contributors s.incidents finding, Meets c incident.toAuthFinding) →
      id ∈ (disputedWith conflicts (candidates s.incidents finding) finding).elements ∨
        overlaps finding s.standing = true

/-- The standing incident has the disputed ids of the prior one, and no other holds them. -/
structure Remembers (conflicts : List JsString) (prior : List AuthIncident)
    (incident : AuthIncident) (s : Ledger) : Prop where
  mem : s.standing ∈ s.incidents
  quarantined : ∀ id ∈ (disputedOf conflicts incident).elements,
    id ∈ s.standing.quarantinedEventIds
  keepsOut : KeepsOut conflicts prior incident s.incidents

section Remember

variable {p : Platform} {conflicts : List JsString} {asOf : JsString} {now : Int}
  {prior : List AuthIncident} {incident : AuthIncident} {s s' : Ledger} {finding : AuthFinding}

theorem keepsOut_step (h : Remembers conflicts prior incident s)
    (reach : InReach conflicts prior incident s finding)
    (ordered : Ordered finding) (ordered' : Ordered incident.toAuthFinding) :
    KeepsOut conflicts prior incident
      (mergeFinding p conflicts asOf now s.incidents finding) := by
  intro r hr hmeets id hid hevidence
  rcases mem_mergeFinding.mp hr with ⟨hr, _⟩ | rfl
  · exact h.keepsOut r hr hmeets id hid hevidence
  · by_contra hheld
    have hundisputed := apart_combine hevidence
    rcases reach.reach id hid hheld (brought_combine hevidence)
      (meets_part ordered ordered' hmeets) with hdisputed | hoverlap
    · exact hundisputed hdisputed
    · exact hundisputed (disputed_of_candidate h.mem hoverlap (h.quarantined id hid))

theorem remembers_step (h : Remembers conflicts prior incident s)
    (reach : InReach conflicts prior incident s finding)
    (ordered : Ordered finding) (ordered' : Ordered incident.toAuthFinding)
    (step : follow p conflicts asOf now s finding = some s') :
    Remembers conflicts prior incident s' := by
  cases step
  have hkeeps : KeepsOut conflicts prior incident
      (mergeFinding p conflicts asOf now s.incidents finding) :=
    keepsOut_step h reach ordered ordered'
  by_cases hoverlap : overlaps finding s.standing = true
  · simp only [hoverlap, if_true]
    constructor
    · exact mem_mergeFinding.mpr (.inr rfl)
    · intro id hid
      apply quarantined_combine p conflicts asOf now s.incidents finding (reach.fits hoverlap)
      exact disputed_of_candidate h.mem hoverlap (h.quarantined id hid)
    · exact hkeeps
  · simp only [hoverlap]
    constructor
    · exact mem_mergeFinding.mpr (.inl ⟨h.mem, by simpa using hoverlap⟩)
    · exact h.quarantined
    · exact hkeeps

/-- A finding makes an incident active only with ids that nothing disputes. -/
theorem undisputed_of_active {incidents : List AuthIncident}
    (h : (combine p conflicts asOf now incidents finding).activity = .active) :
    ∀ id ∈ finding.evidenceEventIds,
      id ∉ (disputedWith conflicts (candidates incidents finding) finding).elements := by
  intro id hid hdisputed
  have hwitness : finding.evidenceEventIds.any
      (disputedWith conflicts (candidates incidents finding) finding).has = true :=
    List.any_eq_true.mpr ⟨id, hid, JsSet.has_iff.mpr hdisputed⟩
  simp only [combine, activityOf, hwitness] at h
  split at h <;> cases h

theorem clean_of_active (h : Remembers conflicts prior incident s)
    (overlap : overlaps finding s.standing = true)
    (active : (combine p conflicts asOf now s.incidents finding).activity = .active) :
    Clean conflicts incident finding := by
  intro id hid
  have hundisputed := undisputed_of_active active id hid
  constructor
  · intro hconflict
    exact hundisputed (disputed_of_conflict hid hconflict)
  · intro hdisputed
    exact hundisputed (disputed_of_candidate h.mem overlap (h.quarantined id hdisputed))

/-- A standing incident that a run makes active was cleared in the run. -/
theorem run_remembers (ordered : Ordered incident.toAuthFinding)
    {findings : List AuthFinding}
    (orderedFindings : ∀ f ∈ findings, Ordered f)
    (h : Remembers conflicts prior incident s)
    (reach : Along (follow p conflicts asOf now) (InReach conflicts prior incident) s findings)
    (hrun : run (follow p conflicts asOf now) s findings = some s') :
    Remembers conflicts prior incident s' ∧ (s'.standing.activity = .active →
      s.standing.activity = .active ∨ Cleared p conflicts asOf now incident s findings) := by
  induction findings generalizing s with
  | nil =>
    cases hrun
    exact ⟨h, .inl⟩
  | cons finding rest ih =>
    obtain ⟨t, ht, hrest⟩ := run_cons.mp hrun
    obtain ⟨hreach, hguard⟩ := reach
    rw [ht] at hguard
    have hnext := remembers_step h hreach (orderedFindings finding mem_cons_self) ordered ht
    obtain ⟨hend, hactive⟩ := ih (fun f hf => orderedFindings f (mem_cons_of_mem _ hf))
      hnext hguard hrest
    refine ⟨hend, fun hs' => ?_⟩
    rcases hactive hs' with hstanding | ⟨earlier, f, later, u, rfl, hu, hoverlap, hclean⟩
    · by_cases hoverlap : overlaps finding s.standing = true
      · right
        cases ht
        simp only [hoverlap, if_true] at hstanding
        exact ⟨[], finding, rest, s, rfl, rfl, hoverlap, clean_of_active h hoverlap hstanding⟩
      · left
        cases ht
        simp only [if_neg hoverlap] at hstanding
        exact hstanding
    · right
      exact ⟨finding :: earlier, f, later, u, rfl, run_cons.mpr ⟨t, ht, hu⟩, hoverlap, hclean⟩

theorem remembers_opening {context : AuthIncidentContext} (mem : incident ∈ prior)
    (fits : (disputedOf context.conflictingEventIds incident).size ≤ maxAuthEvents) :
    Remembers context.conflictingEventIds prior incident (opening prior context incident) := by
  constructor
  · exact mem_map_of_mem mem
  · exact (represents_refresh fits).disputed
  · intro r hr hmeets id hid hevidence
    obtain ⟨i, hi, rfl⟩ := List.mem_map.mp hr
    refine ⟨i, hi, hmeets, ?_⟩
    simp only [refresh, mem_filter, Bool.not_eq_true', ← Bool.not_eq_true,
      JsSet.has_iff] at hevidence
    exact hevidence

end Remember

/-! ## Accepted input -/

theorem ordered_of_check {context : AuthIncidentContext} {now : Int}
    (h : checkFinding context now finding = .ok ()) :
    dateParse finding.firstSeen ≤ dateParse finding.expiresAt := by
  obtain ⟨-, -, hclocks⟩ := checkFinding_iff.mp h
  unfold clocksValid at hclocks
  split at hclocks
  · rename_i first last expiry evaluated hfirst hlast hexpiry hevaluated
    have hbounds := of_decide_eq_true hclocks
    rw [dateParse, dateParse, hfirst, hexpiry, getD_some, getD_some]
    omega
  · cases hclocks

/-- The boundaries of each kind are texts that compare as their instants do. -/
def OneForm (findings : List AuthFinding) : Prop :=
  InOrder (findings.map AuthFinding.firstSeen) ∧ InOrder (findings.map AuthFinding.expiresAt)

/-- What a merge does with the disputed ids of a prior incident. -/
structure Quarantines (p : Platform) (prior : List AuthIncident) (current : List AuthFinding)
    (context : AuthIncidentContext) (result : List AuthIncident) (incident : AuthIncident) :
    Prop where
  keepsOut : KeepsOut context.conflictingEventIds prior incident result
  cleared : ∃ s, run (follow p context.conflictingEventIds context.asOf (dateParse context.asOf))
      (opening prior context incident) (arrivalOrder current) = some s ∧
    s.standing ∈ result ∧ (s.standing.activity = .active →
      (opening prior context incident).standing.activity = .active ∨
      Cleared p context.conflictingEventIds context.asOf (dateParse context.asOf) incident
        (opening prior context incident) (arrivalOrder current))

/-- An accepted merge keeps the incidents of a key apart and their evidence undisputed, and the
disputed ids of a prior incident away while the incident that stands for it is in reach. -/
theorem mergeAuthenticationIncidents_quarantines (p : Platform)
    {prior result : List AuthIncident} {current : List AuthFinding}
    {context : AuthIncidentContext}
    (accepted : mergeAuthenticationIncidents p prior current context = .ok result)
    (oneForm : OneForm (prior.map AuthIncident.toAuthFinding ++ current)) :
    (Separate prior → Separate result) ∧
    (∀ r ∈ result, ∀ id ∈ r.evidenceEventIds,
      id ∉ r.quarantinedEventIds ∧ id ∉ context.conflictingEventIds) ∧
    ∀ incident ∈ prior,
      (disputedOf context.conflictingEventIds incident).size ≤ maxAuthEvents →
      Along (follow p context.conflictingEventIds context.asOf (dateParse context.asOf))
        (InReach context.conflictingEventIds prior incident) (opening prior context incident)
        (arrivalOrder current) →
      Quarantines p prior current context result incident := by
  unfold mergeAuthenticationIncidents at accepted
  cases haccept : accept prior current context with
  | error e =>
    rw [haccept] at accepted
    cases accepted
  | ok now =>
    rw [haccept] at accepted
    cases accepted
    obtain ⟨hnow, -, -, -, -, hfindings, -⟩ := accept_iff.mp haccept
    have hparse : dateParse context.asOf = now := by rw [dateParse, hnow, getD_some]
    have hbounded : ∀ f ∈ prior.map AuthIncident.toAuthFinding ++ current,
        Bounded ((prior.map AuthIncident.toAuthFinding ++ current).map AuthFinding.firstSeen)
          ((prior.map AuthIncident.toAuthFinding ++ current).map AuthFinding.expiresAt) f :=
      fun f hf => ⟨mem_map_of_mem hf, mem_map_of_mem hf,
        ordered_of_check (hfindings f hf)⟩
    have hprior : ∀ i ∈ prior, i.toAuthFinding ∈ prior.map AuthIncident.toAuthFinding ++ current :=
      fun i hi => mem_append_left _ (mem_map_of_mem hi)
    have hcurrent : ∀ f ∈ arrivalOrder current,
        f ∈ prior.map AuthIncident.toAuthFinding ++ current := fun f hf =>
      mem_append_right _ ((perm_insertionSort _ _).mem_iff.mp hf)
    have hstart : ∀ i ∈ prior.map (refresh context.conflictingEventIds context.asOf now),
        Orderly context.conflictingEventIds
          ((prior.map AuthIncident.toAuthFinding ++ current).map AuthFinding.firstSeen)
          ((prior.map AuthIncident.toAuthFinding ++ current).map AuthFinding.expiresAt) i := by
      intro r hr
      obtain ⟨i, hi, rfl⟩ := List.mem_map.mp hr
      exact orderly_refresh (hbounded _ (hprior i hi))
    obtain ⟨horderly, hseparate⟩ := @merged_orderly p _ context.asOf now _ _ _ oneForm.1 oneForm.2
      hstart (arrivalOrder current) fun f hf => hbounded f (hcurrent f hf)
    have hmem : ∀ (findings : List AuthIncident) (i : AuthIncident),
        i ∈ findings.insertionSort (fun a b => a.incidentId ≤ b.incidentId) ↔ i ∈ findings :=
      fun findings i => (perm_insertionSort _ findings).mem_iff
    refine ⟨fun hprior => ?_, fun r hr id hid => ?_, fun incident hincident hfits hreach => ?_⟩
    · have hrefreshed : Separate (prior.map (refresh context.conflictingEventIds context.asOf now)) :=
        pairwise_map.mpr hprior
      exact ((perm_insertionSort _ _).pairwise_iff fun h h' => h h'.symm).mpr
        (hseparate hrefreshed)
    · have hr := horderly r ((hmem _ r).mp hr)
      exact ⟨hr.apart id hid, hr.agreed id hid⟩
    · obtain ⟨standing, hrun⟩ := run_follow p context.conflictingEventIds context.asOf
        (dateParse context.asOf) (opening prior context incident) (arrivalOrder current)
      have hordered : ∀ f ∈ arrivalOrder current, Ordered f := fun f hf =>
        (hbounded f (hcurrent f hf)).ordered
      obtain ⟨hend, hactive⟩ := run_remembers (hbounded _ (hprior incident hincident)).ordered
        hordered (remembers_opening hincident hfits) hreach hrun
      rw [← hparse]
      constructor
      · intro r hr
        exact hend.keepsOut r ((hmem _ r).mp hr)
      · exact ⟨_, hrun, (hmem _ _).mpr hend.mem, hactive⟩

section Sample

/-- An incident of which an id is in dispute. -/
def disputedPrior : AuthIncident :=
  { samplePrior (js "2026-09-10T10:39:00.000Z") with
    lastSeen := js "2026-09-10T10:24:00.000Z"
    activity := .unknown
    quarantinedEventIds := [js "b"] }

/-- A short finding at the start of that incident. -/
def earlyFinding : AuthFinding :=
  { sampleFinding with
    findingId := js "finding-c"
    firstSeen := js "2026-09-10T10:00:00.000Z"
    lastSeen := js "2026-09-10T10:01:00.000Z"
    expiresAt := js "2026-09-10T10:10:00.000Z"
    evidenceEventIds := [js "c"] }

def sampleMerge (current : List AuthFinding) : List AuthIncident :=
  ((arrivalOrder current).foldl (mergeFinding samplePlatform [] sampleContext.asOf
    (dateParse sampleContext.asOf)) [refresh [] sampleContext.asOf (dateParse sampleContext.asOf)
      disputedPrior]).insertionSort fun a b => a.incidentId ≤ b.incidentId

theorem mergeAuthenticationIncidents_quarantines_sample :
    (∀ r ∈ sampleMerge [sampleFinding], ∀ id ∈ r.evidenceEventIds,
      id ∉ r.quarantinedEventIds ∧ id ∉ sampleContext.conflictingEventIds) ∧
    Quarantines samplePlatform [disputedPrior] [sampleFinding] sampleContext
      (sampleMerge [sampleFinding]) disputedPrior := by
  have haccepted : mergeAuthenticationIncidents samplePlatform [disputedPrior] [sampleFinding]
      sampleContext = .ok (sampleMerge [sampleFinding]) := by decide +kernel
  have hforms : OneForm ([disputedPrior].map AuthIncident.toAuthFinding ++ [sampleFinding]) :=
    ⟨inOrder_of_canonical (by decide +kernel), inOrder_of_canonical (by decide +kernel)⟩
  obtain ⟨-, hapart, hquarantines⟩ :=
    mergeAuthenticationIncidents_quarantines samplePlatform haccepted hforms
  refine ⟨hapart, hquarantines _ mem_cons_self (by decide +kernel) ⟨?_, trivial⟩⟩
  exact ⟨fun _ => by decide +kernel, fun _ _ _ _ _ => .inr (by decide +kernel)⟩

/-- A clean finding takes the incident over, and what it had in dispute comes back beside it. -/
theorem disputed_id_returns :
    ¬ ∀ (p : Platform) (prior result : List AuthIncident) (current : List AuthFinding)
      (context : AuthIncidentContext),
      mergeAuthenticationIncidents p prior current context = .ok result →
      OneForm (prior.map AuthIncident.toAuthFinding ++ current) →
      (Separate prior → Separate result) ∧
      (∀ r ∈ result, ∀ id ∈ r.evidenceEventIds,
        id ∉ r.quarantinedEventIds ∧ id ∉ context.conflictingEventIds) ∧
      ∀ incident ∈ prior, Quarantines p prior current context result incident := by
  intro h
  have haccepted : mergeAuthenticationIncidents samplePlatform [disputedPrior]
      [earlyFinding, sampleFinding] sampleContext =
        .ok (sampleMerge [earlyFinding, sampleFinding]) := by decide +kernel
  have hforms : OneForm ([disputedPrior].map AuthIncident.toAuthFinding ++
      [earlyFinding, sampleFinding]) :=
    ⟨inOrder_of_canonical (by decide +kernel), inOrder_of_canonical (by decide +kernel)⟩
  obtain ⟨-, -, hquarantines⟩ := h _ _ _ _ _ haccepted hforms
  have hreturned : ∃ r ∈ sampleMerge [earlyFinding, sampleFinding],
      Meets r.toAuthFinding disputedPrior.toAuthFinding ∧ js "b" ∈ r.evidenceEventIds := by
    decide +kernel
  obtain ⟨r, hr, hmeets, hevidence⟩ := hreturned
  obtain ⟨i, hi, _, hheld, _⟩ := (hquarantines _ mem_cons_self).keepsOut r hr hmeets (js "b")
    (by decide +kernel) hevidence
  rw [mem_singleton.mp hi] at hheld
  exact absurd hheld (by decide)

end Sample

end Auth
