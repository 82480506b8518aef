import HawkView.Alerts.FindingDecision

/-!
# A decision accounts for its findings and keeps organizations apart

Every finding has one outcome, every open finding with a type has its incident,
a job goes out only for an incident that the decision opens, and the part of one
organization does not depend on what belongs to the others.
-/

namespace DecisionSound

open IncidentKey SendTables FindingPipeline FindingDecision List Option

variable {c c' : Context} {opened opened' : List JsString} {fs : List FindingRow}
  {existing existing' : List ExistingIncident}

/-- Each finding with what became of it. -/
def outcomes (fs : List FindingRow) (existing : List ExistingIncident) (c : Context) :
    List (FindingRow × Outcome) :=
  (decisionEntries fs existing c).map fun e => (e.finding, e.outcome)

/-- Every finding is in a decision exactly once, with a job or with a reason. -/
structure Accounted (fs : List FindingRow) (d : PipelineDecision)
    (outcomes : List (FindingRow × Outcome)) : Prop where
  findings : outcomes.map Prod.fst = fs
  jobs : d.jobs = outcomes.filterMap fun p => p.2.toJob
  skipped : d.skipped = outcomes.filterMap fun p => p.2.toSkipped p.1
  unmapped : ∀ r, r ∈ d.unmappedRules ↔
    ∃ f, (f, .skipped .noAlertType) ∈ outcomes ∧ f.ruleId = r
  noProblem : d.accountingProblems = []

/-- When a job may go out for a finding. -/
structure JobAllowed (existing : List ExistingIncident) (c : Context) (d : PipelineDecision)
    (f : FindingRow) (job : SendJobWrite) : Prop where
  typed : ∃ t, openType f = some t ∧ job = jobFor c f t ∧
    incidentFor f t ∈ d.incidents ∧ c.effectiveTier f t ≠ .recordOnly
  newlyOpened : ⟨job.organizationId, job.incidentKey⟩ ∉ existing
  afterWatermark : c.watermark.holdsBack f.observedAtIso = false
  recipient : c.dispositions.anyRecipientByOrganization f.organizationId = some true

/-! ## Accounting -/

theorem length_outcomes (os : List (FindingRow × Outcome)) :
    (os.filterMap fun p => p.2.toJob).length +
      (os.filterMap fun p => p.2.toSkipped p.1).length = os.length := by
  induction os with
  | nil => rfl
  | cons p os ih =>
    have hone : p.2.toJob.toList.length + (p.2.toSkipped p.1).toList.length = 1 := by
      cases p.2 <;> rfl
    have happend : p :: os = [p] ++ os := rfl
    rw [happend, filterMap_append, filterMap_append, filterMap_one, filterMap_one]
    simp only [length_append, length_singleton]
    omega

theorem mem_unmapped {r : RuleId} {rules : List RuleId} {es : List Entry} :
    r ∈ es.foldl (fun rules e =>
      if e.outcome = .skipped .noAlertType then rules.insert e.finding.ruleId else rules) rules ↔
    r ∈ rules ∨ ∃ e ∈ es, e.outcome = .skipped .noAlertType ∧ e.finding.ruleId = r := by
  induction es generalizing rules with
  | nil => simp
  | cons e es ih =>
    rw [foldl_cons, ih]
    by_cases h : e.outcome = .skipped .noAlertType
    · simp only [h, if_true, mem_insert_iff, mem_cons, exists_eq_or_imp, true_and]
      rw [eq_comm (a := r)]
      tauto
    · simp [h]

theorem accounted (fs : List FindingRow) (existing : List ExistingIncident) (c : Context) :
    Accounted fs (FindingPipeline.decide fs existing c) (outcomes fs existing c) := by
  have hfindings : (outcomes fs existing c).map Prod.fst = fs := by
    rw [outcomes, List.map_map]
    exact entries_findings
  have hjobs : (FindingPipeline.decide fs existing c).jobs =
      (outcomes fs existing c).filterMap fun p => p.2.toJob := by
    rw [decide_jobs, outcomes, filterMap_map]
    rfl
  have hskipped : (FindingPipeline.decide fs existing c).skipped =
      (outcomes fs existing c).filterMap fun p => p.2.toSkipped p.1 := by
    rw [decide_skipped, outcomes, filterMap_map]
    rfl
  refine ⟨hfindings, hjobs, hskipped, ?_, ?_⟩
  · intro r
    simp only [FindingPipeline.decide, decide_loop, sortedRules, mem_insertionSort, added,
      mem_unmapped, outcomes, List.mem_map, Prod.mk.injEq]
    simp only [start, List.not_mem_nil, false_or]
    constructor
    · rintro ⟨e, he, houtcome, hrule⟩
      exact ⟨e.finding, ⟨e, he, rfl, houtcome⟩, hrule⟩
    · rintro ⟨f, ⟨e, he, rfl, houtcome⟩, hrule⟩
      exact ⟨e, he, houtcome, hrule⟩
  · have hlength := length_outcomes (outcomes fs existing c)
    rw [← hjobs, ← hskipped, ← length_map (f := Prod.fst), hfindings] at hlength
    exact if_pos hlength

/-! ## Incidents and jobs -/

theorem mem_openBefore {a : Uuid} {k : JsString} :
    scopedText a k ∈ openBefore existing ↔ ⟨a, k⟩ ∈ existing := by
  simp only [openBefore, List.mem_map]
  constructor
  · rintro ⟨each, heach, hscope⟩
    obtain ⟨rfl, rfl⟩ := scopedText_injective hscope
    exact heach
  · intro h
    exact ⟨⟨a, k⟩, h, rfl⟩

/-- The incident of a finding is stored or among the writes. -/
theorem incident_exists (existing : List ExistingIncident) (c : Context) (f : FindingRow)
    (hf : f ∈ fs) (t : AlertTypeId)
    (ht : openType f = some t) :
    ⟨f.organizationId, incidentKeyOf f t⟩ ∈ existing ∨
    ∃ i ∈ (FindingPipeline.decide fs existing c).incidents,
      i.organizationId = f.organizationId ∧ i.incidentKey = incidentKeyOf f t := by
  have hopened := scope_opened c (openBefore existing) hf ht
  obtain hbefore | hnew := mem_append.mp hopened
  · exact .inl (mem_openBefore.mp hbefore)
  · right
    simp only [List.mem_flatMap, Entry.opens, List.mem_map, Option.mem_toList] at hnew
    obtain ⟨e, he, i, hi, hscope⟩ := hnew
    obtain ⟨horganization, hkey⟩ := scopedText_injective hscope
    refine ⟨i, ?_, horganization, hkey⟩
    rw [decide_incidents, mem_filterMap]
    exact ⟨e, he, hi⟩

variable {f : FindingRow} {t : AlertTypeId} {job : SendJobWrite}

theorem told_job (h : told c f t = .job job) : silence c f t = none ∧ job = jobFor c f t := by
  simp only [told] at h
  split at h
  · cases h
  · next hsilence =>
    cases h
    exact ⟨hsilence, rfl⟩

theorem not_silent (h : silence c f t = none) :
    c.watermark.holdsBack f.observedAtIso = false ∧ c.effectiveTier f t ≠ .recordOnly ∧
      c.dispositions.anyRecipientByOrganization f.organizationId = some true := by
  simp only [silence] at h
  split at h
  · cases h
  · next hwatermark =>
    split at h
    · cases h
    · next htier =>
      split at h
      · cases h
      · next hrecipient =>
        exact ⟨Bool.eq_false_iff.mpr hwatermark, htier, not_not.mp hrecipient⟩

/-- An entry with a job opens the incident of the job. -/
theorem entry_job (h : (entry c opened f).outcome = .job job) :
    ∃ t, openType f = some t ∧ incidentScope f t ∉ opened ∧
      (entry c opened f).incident = some (incidentFor f t) ∧ told c f t = .job job := by
  cases ht : openType f with
  | none => simp [entry, ht] at h
  | some t =>
    rw [entry_typed ht] at h ⊢
    split at h
    · cases h
    · next hmem => exact ⟨t, rfl, hmem, by simp [hmem], h⟩

theorem job_allowed (f : FindingRow) (job : SendJobWrite)
    (h : (f, .job job) ∈ outcomes fs existing c) :
    JobAllowed existing c (FindingPipeline.decide fs existing c) f job := by
  simp only [outcomes, List.mem_map, Prod.mk.injEq] at h
  obtain ⟨e, he, rfl, houtcome⟩ := h
  obtain ⟨before, after, _, hentry⟩ := entries_split he
  have hjob := houtcome
  rw [hentry] at hjob
  obtain ⟨t, ht, hfresh, hincident, htold⟩ := entry_job hjob
  rw [← hentry] at hincident
  obtain ⟨hsilence, rfl⟩ := told_job htold
  obtain ⟨hwatermark, htier, hrecipient⟩ := not_silent hsilence
  refine ⟨⟨t, ht, rfl, ?_, htier⟩, ?_, hwatermark, hrecipient⟩
  · rw [decide_incidents, mem_filterMap]
    exact ⟨e, he, hincident⟩
  · intro hexisting
    exact hfresh (mem_append_left _ (mem_openBefore.mpr hexisting))

def SendJobWrite.scope (job : SendJobWrite) : JsString :=
  scopedText job.organizationId job.incidentKey

/-- The incidents of the jobs are among the opened ones, in their order. -/
theorem jobs_sublist (c : Context) (opened : List JsString) (fs : List FindingRow) :
    (((entries c opened fs).filterMap Entry.toJob).map
    SendJobWrite.scope).Sublist ((entries c opened fs).flatMap Entry.opens) := by
  induction fs generalizing opened with
  | nil => exact List.Sublist.refl _
  | cons f fs ih =>
    rw [entries, flatMap_cons, filterMap_cons]
    cases houtcome : (entry c opened f).outcome with
    | skipped because =>
      simp only [Entry.toJob, houtcome, Outcome.toJob]
      exact (ih _).trans (sublist_append_right _ _)
    | job write =>
      obtain ⟨t, _, _, hincident, htold⟩ := entry_job houtcome
      obtain ⟨_, rfl⟩ := told_job htold
      simp only [Entry.toJob, houtcome, Outcome.toJob, Entry.opens, hincident, Option.toList,
        map_cons, map_nil, cons_append, nil_append]
      exact (ih _).cons_cons _

/-- At most one job for an incident of an organization. -/
theorem jobs_distinct : ((FindingPipeline.decide fs existing c).jobs.map
    fun job => (job.organizationId, job.incidentKey)).Nodup := by
  have hsublist := jobs_sublist c (openBefore existing) fs
  have hnodup := hsublist.nodup (opens_fresh c (openBefore existing) fs).1
  rw [decide_jobs]
  refine List.Nodup.of_map (fun p : Uuid × JsString => scopedText p.1 p.2) ?_
  rw [List.map_map]
  exact hnodup

/-! ## Organizations -/

/-- Two contexts that agree on what belongs to one organization. -/
structure AgreesOn (a : Uuid) (c c' : Context) : Prop where
  dispositions : ∀ t, c.dispositions.byOrganizationAndAlertType (dispositionKey a t) =
    c'.dispositions.byOrganizationAndAlertType (dispositionKey a t)
  recipients : c.dispositions.anyRecipientByOrganization a =
    c'.dispositions.anyRecipientByOrganization a
  decided : ∀ key, scopedNoticeKey a key ∈ c.alreadyDecided ↔
    scopedNoticeKey a key ∈ c'.alreadyDecided
  watermark : c.watermark = c'.watermark
  tick : c.tickAtIso = c'.tickAtIso

/-- The findings of one organization. -/
def findingsOf (a : Uuid) (fs : List FindingRow) : List FindingRow :=
  fs.filter (·.organizationId = a)

/-- The part of a decision that concerns one organization. -/
structure OrganizationPart where
  incidents : List IncidentWrite
  notifications : List NotificationWrite
  withheld : List WithheldNoticeWrite
  jobs : List SendJobWrite
  outcomes : List (FindingRow × Outcome)

def partOf (a : Uuid) (fs : List FindingRow) (existing : List ExistingIncident) (c : Context) :
    OrganizationPart :=
  let d := FindingPipeline.decide fs existing c
  { incidents := d.incidents.filter (·.organizationId = a)
    notifications := d.notifications.filter (·.organizationId = a)
    withheld := d.withheld.filter (·.organizationId = a)
    jobs := d.jobs.filter (·.organizationId = a)
    outcomes := (outcomes fs existing c).filter (·.1.organizationId = a) }

section Agree

variable {a : Uuid} {f : FindingRow}

section

variable (agree : AgreesOn a c c')
include agree

section

variable (hf : f.organizationId = a)
include hf

theorem effectiveTier_agrees
    (t : AlertTypeId) : c.effectiveTier f t = c'.effectiveTier f t := by
  simp only [Context.effectiveTier, hf, agree.dispositions]

theorem decidedBefore_agrees :
    c.decidedBefore f = c'.decidedBefore f := by
  simp only [Context.decidedBefore, hf, agree.decided]

theorem told_agrees (t : AlertTypeId) :
    told c f t = told c' f t := by
  simp only [told, silence, jobFor, effectiveTier_agrees agree hf, hf, agree.recipients,
    agree.watermark, agree.tick]

theorem entry_agrees
    (same : ∀ key, scopedText a key ∈ opened ↔ scopedText a key ∈ opened') :
    entry c opened f = entry c' opened' f := by
  have hopened : ∀ t, incidentScope f t ∈ opened ↔ incidentScope f t ∈ opened' := by
    intro t
    simp only [incidentScope, hf, same]
  simp only [entry, hopened, told_agrees agree hf, notified, withholds,
    effectiveTier_agrees agree hf, decidedBefore_agrees agree hf]

end

end

theorem entry_owned (c : Context) (opened : List JsString) (f : FindingRow) :
    (∀ i ∈ (entry c opened f).incident, i.organizationId = f.organizationId) ∧
    (∀ n ∈ (entry c opened f).notification, n.organizationId = f.organizationId) ∧
    (∀ w ∈ (entry c opened f).withheld, w.organizationId = f.organizationId) ∧
    (∀ j ∈ (entry c opened f).toJob, j.organizationId = f.organizationId) := by
  cases ht : openType f with
  | none => simp [entry, ht, Entry.toJob, Outcome.toJob]
  | some t =>
    have hnotified : ∀ n ∈ notified c f t, n.organizationId = f.organizationId := by
      intro n hn
      simp only [notified, notificationFor] at hn
      split at hn
      · cases hn
      · simp only [mem_def, map_eq_some_iff] at hn
        obtain ⟨declared, _, rfl⟩ := hn
        rfl
    have hwithheld : ∀ w ∈ withholds c f t, w.organizationId = f.organizationId := by
      intro w hw
      simp only [withholds] at hw
      split at hw
      · cases hw
        rfl
      · cases hw
    have hjob : ∀ j ∈ (told c f t).toJob, j.organizationId = f.organizationId := by
      intro j hj
      cases htold : told c f t with
      | skipped because => simp [htold, Outcome.toJob] at hj
      | job write =>
        obtain ⟨_, rfl⟩ := told_job htold
        simp only [htold, Outcome.toJob, mem_def, Option.some.injEq] at hj
        rw [← hj]
        rfl
    rw [entry_typed ht]
    split
    · refine ⟨?_, hnotified, hwithheld, ?_⟩ <;> simp [Entry.toJob, Outcome.toJob]
    · refine ⟨?_, hnotified, hwithheld, hjob⟩
      simp [incidentFor]

/-- What a finding opens belongs to its organization. -/
theorem opens_owned {k : JsString} (h : k ∈ (entry c opened f).opens) :
    ∃ key, k = scopedText f.organizationId key := by
  simp only [Entry.opens, List.mem_map, Option.mem_toList] at h
  obtain ⟨i, hi, rfl⟩ := h
  exact ⟨i.incidentKey, by rw [IncidentWrite.scope, (entry_owned c opened f).1 i hi]⟩

/-- The entries of one organization are those of its findings alone. -/
theorem entries_agree (fs : List FindingRow) (agree : AgreesOn a c c')
    (same : ∀ key, scopedText a key ∈ opened ↔ scopedText a key ∈ opened') :
    (entries c opened fs).filter (·.finding.organizationId = a) =
      entries c' opened' (findingsOf a fs) := by
  induction fs generalizing opened opened' with
  | nil => rfl
  | cons f fs ih =>
    rw [entries, filter_cons, entry_finding, findingsOf, filter_cons]
    by_cases hf : f.organizationId = a
    · have hentry := entry_agrees agree hf same
      simp only [hf, decide_true, if_true, entries, hentry]
      congr 1
      apply ih
      intro key
      simp only [mem_append, same]
    · simp only [hf, decide_false, Bool.false_eq_true, if_false]
      apply ih
      intro key
      rw [mem_append, ← same]
      constructor
      · rintro (hopened | hopens)
        · exact hopened
        · obtain ⟨_, hkey⟩ := opens_owned hopens
          exact absurd (scopedText_injective hkey).1.symm hf
      · exact .inl

theorem filter_filterMap {α β : Type} {g : α → Option β} {p : β → Bool} {q : α → Bool}
    {l : List α} (h : ∀ x ∈ l, ∀ y ∈ g x, p y = q x) :
    (l.filterMap g).filter p = (l.filter q).filterMap g := by
  induction l with
  | nil => rfl
  | cons x l ih =>
    have hrest := ih fun y hy => h y (mem_cons_of_mem _ hy)
    have hx := h x (mem_cons_self ..)
    rw [filter_cons]
    cases hg : g x with
    | none =>
      rw [filterMap_cons_none hg, hrest]
      split
      · rw [filterMap_cons_none hg]
      · rfl
    | some y =>
      rw [filterMap_cons_some hg, filter_cons, hx y hg, hrest]
      split
      · rw [filterMap_cons_some hg]
      · rfl

/-- The part of an organization, read off its entries. -/
theorem partOf_entries (a : Uuid) (fs : List FindingRow) (existing : List ExistingIncident)
    (c : Context) : partOf a fs existing c =
      let es := (decisionEntries fs existing c).filter (·.finding.organizationId = a)
      { incidents := es.filterMap Entry.incident
        notifications := es.filterMap Entry.notification
        withheld := es.filterMap Entry.withheld
        jobs := es.filterMap Entry.toJob
        outcomes := es.map fun e => (e.finding, e.outcome) } := by
  have howned : ∀ e ∈ decisionEntries fs existing c, ∃ opened, e = entry c opened e.finding := by
    intro e he
    obtain ⟨before, after, _, hentry⟩ := entries_split he
    exact ⟨_, hentry⟩
  simp only [partOf, decide_incidents, decide_notifications, decide_withheld, decide_jobs,
    outcomes, OrganizationPart.mk.injEq]
  refine ⟨?_, ?_, ?_, ?_, ?_⟩
  · apply filter_filterMap
    intro e he i hi
    obtain ⟨opened, hentry⟩ := howned e he
    rw [hentry] at hi
    rw [(entry_owned c opened e.finding).1 i hi]
  · apply filter_filterMap
    intro e he n hn
    obtain ⟨opened, hentry⟩ := howned e he
    rw [hentry] at hn
    rw [(entry_owned c opened e.finding).2.1 n hn]
  · apply filter_filterMap
    intro e he w hw
    obtain ⟨opened, hentry⟩ := howned e he
    rw [hentry] at hw
    rw [(entry_owned c opened e.finding).2.2.1 w hw]
  · apply filter_filterMap
    intro e he j hj
    obtain ⟨opened, hentry⟩ := howned e he
    rw [hentry] at hj
    rw [(entry_owned c opened e.finding).2.2.2 j hj]
  · rw [List.filter_map]
    rfl

end Agree

/-- Inputs that agree on an organization give it the same part. -/
theorem partOf_agrees {a : Uuid} {fs' : List FindingRow} (agree : AgreesOn a c c')
    (findings : findingsOf a fs = findingsOf a fs')
    (incidents : ∀ key, (⟨a, key⟩ : ExistingIncident) ∈ existing ↔ ⟨a, key⟩ ∈ existing') :
    partOf a fs existing c = partOf a fs' existing' c' := by
  have hopened : ∀ key, scopedText a key ∈ openBefore existing ↔
      scopedText a key ∈ openBefore existing' := by
    intro key
    rw [mem_openBefore, mem_openBefore, incidents]
  have hself : AgreesOn a c' c' := ⟨fun _ => rfl, rfl, fun _ => Iff.rfl, rfl, rfl⟩
  have hleft := entries_agree fs agree hopened
  have hright : (entries c' (openBefore existing') fs').filter (·.finding.organizationId = a) =
      entries c' (openBefore existing') (findingsOf a fs') :=
    entries_agree fs' hself fun _ => Iff.rfl
  rw [partOf_entries, partOf_entries]
  simp only [decisionEntries, hleft, hright, findings]

/-- Every decision accounts for its findings, writes their incidents, sends at most one job
for an incident and only where it may, and decides for each organization on its own. -/
theorem decision_sound (fs : List FindingRow) (existing : List ExistingIncident) (c : Context) :
    Accounted fs (FindingPipeline.decide fs existing c) (outcomes fs existing c) ∧
    (∀ f ∈ fs, ∀ t, openType f = some t →
      ⟨f.organizationId, incidentKeyOf f t⟩ ∈ existing ∨
      ∃ i ∈ (FindingPipeline.decide fs existing c).incidents,
        i.organizationId = f.organizationId ∧ i.incidentKey = incidentKeyOf f t) ∧
    ((FindingPipeline.decide fs existing c).jobs.map
      fun job => (job.organizationId, job.incidentKey)).Nodup ∧
    (∀ f job, (f, .job job) ∈ outcomes fs existing c →
      JobAllowed existing c (FindingPipeline.decide fs existing c) f job) ∧
    (∀ a fs' existing' c', AgreesOn a c c' → findingsOf a fs = findingsOf a fs' →
      (∀ key, (⟨a, key⟩ : ExistingIncident) ∈ existing ↔ ⟨a, key⟩ ∈ existing') →
      partOf a fs existing c = partOf a fs' existing' c') := by
  refine ⟨accounted fs existing c, incident_exists existing c, jobs_distinct, job_allowed, ?_⟩
  intro a fs' existing' c' agree findings incidents
  exact partOf_agrees agree findings incidents

end DecisionSound
