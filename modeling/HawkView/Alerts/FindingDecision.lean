import HawkView.Alerts.FindingPipeline

/-!
# What a decision contains

The loop of `decide` adds one entry for each finding, and an entry depends on
the earlier ones only through the incidents that they opened. A decision is the
list of its entries.
-/

namespace FindingDecision

open IncidentKey SendTables FindingPipeline List

/-- What became of the finding itself. -/
inductive Outcome
  | job (write : SendJobWrite)
  | skipped (because : SkipReason)
  deriving DecidableEq

def Outcome.toJob : Outcome → Option SendJobWrite
  | .job write => some write
  | .skipped _ => none

def Outcome.toSkipped (finding : FindingRow) : Outcome → Option Skipped
  | .job _ => none
  | .skipped because => some ⟨finding.id, because⟩

/-- What one finding adds to a decision. -/
structure Entry where
  finding : FindingRow
  incident : Option IncidentWrite
  notification : Option NotificationWrite
  withheld : Option WithheldNoticeWrite
  outcome : Outcome

/-- The alert type of a finding that is open. -/
def openType (finding : FindingRow) : Option AlertTypeId :=
  if finding.state = .open then alertTypeForRule finding.ruleId else none

def incidentScope (finding : FindingRow) (alertTypeId : AlertTypeId) : JsString :=
  scopedText finding.organizationId (incidentKeyOf finding alertTypeId)

section Entries

variable (c : Context)

def notified (finding : FindingRow) (alertTypeId : AlertTypeId) : Option NotificationWrite :=
  if c.decidedBefore finding ∨ c.effectiveTier finding alertTypeId = .recordOnly then none
  else notificationFor finding alertTypeId (incidentKeyOf finding alertTypeId)
    (c.effectiveTier finding alertTypeId)

def withholds (finding : FindingRow) (alertTypeId : AlertTypeId) : Option WithheldNoticeWrite :=
  if ¬ c.decidedBefore finding ∧ c.effectiveTier finding alertTypeId = .recordOnly then
    some (withheldFor finding alertTypeId)
  else none

/-- Why nobody is told of an incident that the finding opens. -/
def silence (finding : FindingRow) (alertTypeId : AlertTypeId) : Option SkipReason :=
  if c.watermark.holdsBack finding.observedAtIso then some .beforeWatermark
  else if c.effectiveTier finding alertTypeId = .recordOnly then some .recordOnly
  else if c.dispositions.anyRecipientByOrganization finding.organizationId ≠ some true then
    some .noEligibleRecipient
  else none

def told (finding : FindingRow) (alertTypeId : AlertTypeId) : Outcome :=
  match silence c finding alertTypeId with
  | some because => .skipped because
  | none => .job (jobFor c finding alertTypeId)

def entry (opened : List JsString) (finding : FindingRow) : Entry :=
  match openType finding with
  | none => ⟨finding, none, none, none,
      .skipped (if finding.state = .open then .noAlertType else .notOpen)⟩
  | some alertTypeId =>
    if incidentScope finding alertTypeId ∈ opened then
      ⟨finding, none, notified c finding alertTypeId, withholds c finding alertTypeId,
        .skipped .incidentAlreadyOpen⟩
    else
      ⟨finding, some (incidentFor finding alertTypeId), notified c finding alertTypeId,
        withholds c finding alertTypeId, told c finding alertTypeId⟩

def IncidentWrite.scope (incident : IncidentWrite) : JsString :=
  scopedText incident.organizationId incident.incidentKey

def Entry.opens (e : Entry) : List JsString := e.incident.toList.map IncidentWrite.scope

/-- The entries of the findings, from the incidents that are open before them. -/
def entries : List JsString → List FindingRow → List Entry
  | _, [] => []
  | opened, finding :: rest =>
    entry c opened finding :: entries (opened ++ (entry c opened finding).opens) rest

end Entries

def Entry.toSkipped (e : Entry) : Option Skipped := e.outcome.toSkipped e.finding

def Entry.toJob (e : Entry) : Option SendJobWrite := e.outcome.toJob

/-- The loop state with the entries added. -/
def added (s : Progress) (es : List Entry) : Progress where
  opened := s.opened ++ es.flatMap Entry.opens
  incidents := s.incidents ++ es.filterMap Entry.incident
  notifications := s.notifications ++ es.filterMap Entry.notification
  withheld := s.withheld ++ es.filterMap Entry.withheld
  jobs := s.jobs ++ es.filterMap Entry.toJob
  skipped := s.skipped ++ es.filterMap Entry.toSkipped
  unmapped := es.foldl (fun rules e =>
    if e.outcome = .skipped .noAlertType then rules.insert e.finding.ruleId else rules) s.unmapped

variable (s : Progress)

variable (c : Context)

variable (f : FindingRow)

theorem notice_spec (t : AlertTypeId) :
    s.notice c f t = { s with
      notifications := s.notifications ++ (notified c f t).toList
      withheld := s.withheld ++ (withholds c f t).toList } := by
  simp only [Progress.notice, notified, withholds]
  by_cases hdecided : c.decidedBefore f = true
  · simp [hdecided]
  · by_cases htier : c.effectiveTier f t = .recordOnly
    · simp [hdecided, htier]
    · simp only [hdecided, htier]
      cases notificationFor f t (incidentKeyOf f t) (c.effectiveTier f t) <;> simp

theorem tell_spec (t : AlertTypeId) :
    s.tell c f t = { s with
      jobs := s.jobs ++ (told c f t).toJob.toList
      skipped := s.skipped ++ ((told c f t).toSkipped f).toList } := by
  simp only [Progress.tell, told, silence]
  split
  · simp [Progress.skip, Outcome.toJob, Outcome.toSkipped]
  · split
    · simp [Progress.skip, Outcome.toJob, Outcome.toSkipped]
    · split <;> simp [Progress.skip, Outcome.toJob, Outcome.toSkipped]

theorem told_ne_noAlertType (t : AlertTypeId) :
    told c f t ≠ .skipped .noAlertType := by
  simp only [told, silence]
  split <;> rename_i h
  · split at h <;> (try split at h) <;> (try split at h) <;> cases h <;> simp
  · simp

theorem filterMap_one {α β : Type} (f : α → Option β) (a : α) :
    [a].filterMap f = (f a).toList := by
  cases h : f a <;> simp [h]

/-- One turn of the loop adds one entry. -/
theorem visit_spec :
    s.visit c f = added s [entry c s.opened f] := by
  simp only [Progress.visit, entry, openType, added, filterMap_one]
  by_cases hopen : f.state = .open
  · simp only [hopen, ne_eq, not_true_eq_false, if_false, if_true]
    cases htype : alertTypeForRule f.ruleId with
    | none => simp [Progress.skip, Entry.opens, Entry.toJob, Entry.toSkipped,
        Outcome.toJob, Outcome.toSkipped]
    | some t =>
      simp only [notice_spec, incidentScope]
      by_cases hmem : scopedText f.organizationId (incidentKeyOf f t) ∈ s.opened
      · simp [hmem, Progress.skip, Entry.opens, Entry.toJob, Entry.toSkipped,
          Outcome.toJob, Outcome.toSkipped]
      · simp [hmem, tell_spec, Entry.opens, Entry.toJob, Entry.toSkipped, told_ne_noAlertType,
          IncidentWrite.scope, incidentFor]
  · simp [hopen, Progress.skip, Entry.opens, Entry.toJob, Entry.toSkipped,
      Outcome.toJob, Outcome.toSkipped]

theorem added_added (es es' : List Entry) :
    added (added s es) es' = added s (es ++ es') := by
  simp [added]

theorem added_nil : added s [] = s := by
  simp [added]

theorem loop_spec (s : Progress) (fs : List FindingRow) :
    fs.foldl (fun s f => s.visit c f) s = added s (entries c s.opened fs) := by
  induction fs generalizing s with
  | nil => exact (added_nil s).symm
  | cons f fs ih =>
    rw [foldl_cons, ih, visit_spec, added_added]
    simp [entries, added]

/-- The incidents that are open before a decision. -/
def openBefore (existing : List ExistingIncident) : List JsString :=
  existing.map fun each => scopedText each.organizationId each.incidentKey

section Decide

variable (fs : List FindingRow) (existing : List ExistingIncident) (c : Context)

/-- The entries of a decision. -/
def decisionEntries : List Entry := entries c (openBefore existing) fs

theorem decide_loop :
    fs.foldl (fun s f => s.visit c f) (start existing) =
      added (start existing) (decisionEntries fs existing c) := loop_spec c (start existing) fs

theorem decide_incidents : (FindingPipeline.decide fs existing c).incidents =
    (decisionEntries fs existing c).filterMap Entry.incident := by
  simp only [FindingPipeline.decide, decide_loop]
  rfl

theorem decide_notifications : (FindingPipeline.decide fs existing c).notifications =
    (decisionEntries fs existing c).filterMap Entry.notification := by
  simp only [FindingPipeline.decide, decide_loop]
  rfl

theorem decide_withheld : (FindingPipeline.decide fs existing c).withheld =
    (decisionEntries fs existing c).filterMap Entry.withheld := by
  simp only [FindingPipeline.decide, decide_loop]
  rfl

theorem decide_jobs : (FindingPipeline.decide fs existing c).jobs =
    (decisionEntries fs existing c).filterMap Entry.toJob := by
  simp only [FindingPipeline.decide, decide_loop]
  rfl

theorem decide_skipped : (FindingPipeline.decide fs existing c).skipped =
    (decisionEntries fs existing c).filterMap Entry.toSkipped := by
  simp only [FindingPipeline.decide, decide_loop]
  rfl

end Decide

/-! ## Rules of entries -/

section Rules

variable {c : Context} {opened opened' : List JsString} {fs gs : List FindingRow}

theorem entry_finding (c : Context) (opened : List JsString) (f : FindingRow) :
    (entry c opened f).finding = f := by
  simp only [entry]
  split
  · rfl
  · split <;> rfl

theorem entries_findings : (entries c opened fs).map Entry.finding = fs := by
  induction fs generalizing opened with
  | nil => rfl
  | cons f fs ih => rw [entries, map_cons, entry_finding, ih]

theorem entries_append : entries c opened (fs ++ gs) =
    entries c opened fs ++ entries c (opened ++ (entries c opened fs).flatMap Entry.opens) gs := by
  induction fs generalizing opened with
  | nil => simp [entries]
  | cons f fs ih => simp [entries, ih]

variable {f : FindingRow} {t : AlertTypeId}

/-- The entries of open findings with a type. -/
theorem entry_typed (h : openType f = some t) :
    entry c opened f =
      if incidentScope f t ∈ opened then
        ⟨f, none, notified c f t, withholds c f t, .skipped .incidentAlreadyOpen⟩
      else ⟨f, some (incidentFor f t), notified c f t, withholds c f t, told c f t⟩ := by
  simp only [entry, h]

theorem scope_incidentFor (f : FindingRow) (t : AlertTypeId) :
    IncidentWrite.scope (incidentFor f t) = incidentScope f t := rfl

/-- Every entry is the entry of its finding after the entries before it. -/
theorem entries_split {e : Entry} (h : e ∈ entries c opened fs) :
    ∃ before after, fs = before ++ e.finding :: after ∧
      e = entry c (opened ++ (entries c opened before).flatMap Entry.opens) e.finding := by
  induction fs generalizing opened with
  | nil => simp [entries] at h
  | cons f fs ih =>
    rw [entries, mem_cons] at h
    obtain rfl | h := h
    · refine ⟨[], fs, ?_, ?_⟩
      · rw [entry_finding, nil_append]
      · simp [entries, entry_finding]
    · obtain ⟨before, after, hfs, he⟩ := ih h
      refine ⟨f :: before, after, ?_, ?_⟩
      · rw [hfs, cons_append]
      · simpa [entries] using he

/-- The incident of every open finding with a type is open afterwards. -/
theorem scope_opened (c : Context) (opened : List JsString) (hf : f ∈ fs)
    (ht : openType f = some t) :
    incidentScope f t ∈ opened ++ (entries c opened fs).flatMap Entry.opens := by
  obtain ⟨before, after, rfl⟩ := append_of_mem hf
  rw [entries_append, entries, flatMap_append, flatMap_cons, ← append_assoc]
  by_cases hmem : incidentScope f t ∈ opened ++ (entries c opened before).flatMap Entry.opens
  · exact mem_append_left _ hmem
  · apply mem_append_right
    apply mem_append_left
    simp [entry_typed ht, hmem, Entry.opens, scope_incidentFor]

/-- No incident is opened twice, and none that was open before. -/
theorem opens_fresh (c : Context) (opened : List JsString) (fs : List FindingRow) :
    ((entries c opened fs).flatMap Entry.opens).Nodup ∧
    ∀ k ∈ (entries c opened fs).flatMap Entry.opens, k ∉ opened := by
  induction fs generalizing opened with
  | nil => simp [entries]
  | cons f fs ih =>
    obtain ⟨hnodup, hfresh⟩ := ih (opened ++ (entry c opened f).opens)
    have hone : (entry c opened f).opens.Nodup ∧ ∀ k ∈ (entry c opened f).opens, k ∉ opened := by
      cases ht : openType f with
      | none => simp [entry, ht, Entry.opens]
      | some t =>
        rw [entry_typed ht]
        split
        · simp [Entry.opens]
        · next hmem => simpa [Entry.opens, scope_incidentFor] using hmem
    rw [entries, flatMap_cons]
    constructor
    · rw [nodup_append]
      refine ⟨hone.1, hnodup, ?_⟩
      rintro k hk _ hk' rfl
      exact hfresh k hk' (mem_append_right _ hk)
    · intro k hk
      obtain hk | hk := mem_append.mp hk
      · exact hone.2 k hk
      · intro hopened
        exact hfresh k hk (mem_append_left _ hopened)

end Rules

end FindingDecision
