import HawkView.Alerts.IncidentKey
import HawkView.Lib.JsMap
import Mathlib.Order.Lattice

/-!
# From the engine's runs to the queue

The queue after a sequence of runs. An incident learns from what is emitted again, is announced
once and is never cleared; a run that failed leaves nothing but its record. Dates are valid, as
the columns they come from hold them.
-/

namespace FindingIntake

open IncidentKey List Option

inductive FindingCoverage
  | FULL | PARTIAL | UNAVAILABLE
  deriving DecidableEq, Repr

structure EmittedFinding where
  id : JsString
  organizationId : JsString
  customerTenantId : JsString
  ruleId : JsString
  subjectType : JsString
  subjectId : JsString
  coverage : FindingCoverage
  observedAt : Int
  deriving DecidableEq, Repr

inductive IntakeRun
  | completed (completedAt : Int) (emitted : List EmittedFinding)
  | failed (failedAt : Int) (because : JsString)

inductive IncidentState
  | OPEN | CLEARED | RESOLVED
  deriving DecidableEq, Repr

structure QueuedNotification where
  incidentKey : JsString
  fromFindingId : JsString
  organizationId : JsString
  occurredAt : Int
  deriving DecidableEq, Repr

structure QueuedIncident where
  key : JsString
  organizationId : JsString
  customerTenantId : JsString
  subject : ResolvedSubject
  ruleId : JsString
  state : IncidentState
  coverage : FindingCoverage
  firstEventAt : Int
  latestEventAt : Int
  notifications : List QueuedNotification
  deriving DecidableEq, Repr

structure LastCompletedRun where
  completedAt : Int
  emitted : Nat
  deriving DecidableEq, Repr

structure FailedRun where
  failedAt : Int
  because : JsString
  deriving DecidableEq, Repr

/-- The account of a finding. One without a subject is not grouped with any other. -/
def accountOf (finding : EmittedFinding) : ResolvedSubject :=
  if (JsString.trim finding.subjectId).length > 0 then .resolved finding.subjectId
  else .unresolved (js "the finding carries no subjectId (subjectType " ++ finding.subjectType ++
    js ")")

/-- The place in `COVERAGE_ORDER`. -/
def FindingCoverage.order : FindingCoverage → Nat
  | .UNAVAILABLE => 0
  | .PARTIAL => 1
  | .FULL => 2

def leastComplete (left right : FindingCoverage) : FindingCoverage :=
  if left.order ≤ right.order then left else right

def keyOf (finding : EmittedFinding) : JsString :=
  match incidentGrouping ⟨finding.ruleId, .account⟩
      ⟨finding.organizationId, finding.customerTenantId⟩ (accountOf finding) with
  | .groups key => key
  | .alone _ _ => js "ungrouped:" ++ finding.id

/-- The incident that a finding opens, with the only notification there will be. -/
def opened (finding : EmittedFinding) : QueuedIncident where
  key := keyOf finding
  organizationId := finding.organizationId
  customerTenantId := finding.customerTenantId
  subject := accountOf finding
  ruleId := finding.ruleId
  state := .OPEN
  coverage := finding.coverage
  firstEventAt := finding.observedAt
  latestEventAt := finding.observedAt
  notifications := [⟨keyOf finding, finding.id, finding.organizationId, finding.observedAt⟩]

def QueuedIncident.learn (incident : QueuedIncident) (finding : EmittedFinding) :
    QueuedIncident :=
  { incident with
    coverage := leastComplete incident.coverage finding.coverage
    firstEventAt :=
      if finding.observedAt < incident.firstEventAt then finding.observedAt
      else incident.firstEventAt
    latestEventAt :=
      if finding.observedAt > incident.latestEventAt then finding.observedAt
      else incident.latestEventAt }

def receive (byKey : JsMap JsString QueuedIncident) (finding : EmittedFinding) :
    JsMap JsString QueuedIncident :=
  match byKey.get? (keyOf finding) with
  | none => byKey.set (keyOf finding) (opened finding)
  | some existing => byKey.set (keyOf finding) (existing.learn finding)

structure Fold where
  byKey : JsMap JsString QueuedIncident
  completedRuns : Nat
  lastCompletedRun : Option LastCompletedRun
  lastRunAttemptedAt : Option Int
  failedRuns : List FailedRun

def IntakeRun.attemptedAt : IntakeRun → Int
  | completed completedAt _ => completedAt
  | failed failedAt _ => failedAt

/-- The later of two times, the first when they are the same. -/
def later (latest : Option Int) (t : Int) : Option Int :=
  if latest.all fun latest => decide (t > latest) then some t else latest

def Fold.run (fold : Fold) (run : IntakeRun) : Fold :=
  let lastRunAttemptedAt := later fold.lastRunAttemptedAt run.attemptedAt
  match run with
  | .failed failedAt because =>
    { fold with
      lastRunAttemptedAt := lastRunAttemptedAt
      failedRuns := fold.failedRuns ++ [⟨failedAt, because⟩] }
  | .completed completedAt emitted =>
    { fold with
      byKey := emitted.foldl receive fold.byKey
      completedRuns := fold.completedRuns + 1
      lastCompletedRun :=
        if fold.lastCompletedRun.all fun latest => decide (completedAt > latest.completedAt) then
          some ⟨completedAt, emitted.length⟩
        else fold.lastCompletedRun
      lastRunAttemptedAt := lastRunAttemptedAt }

structure QueueState where
  incidents : List QueuedIncident
  runsSeen : Nat
  completedRuns : Nat
  lastCompletedRun : Option LastCompletedRun
  lastRunAttemptedAt : Option Int
  failedRuns : List FailedRun

def folded (runs : List IntakeRun) : Fold := runs.foldl Fold.run ⟨.empty, 0, none, none, []⟩

def intake (runs : List IntakeRun) : QueueState :=
  let fold := folded runs
  { incidents := fold.byKey.values
    runsSeen := runs.length
    completedRuns := fold.completedRuns
    lastCompletedRun := fold.lastCompletedRun
    lastRunAttemptedAt := fold.lastRunAttemptedAt
    failedRuns := fold.failedRuns }

def STALE_AFTER_MS : Int := 30 * 60 * 1000

inductive Freshness
  | current (lastCompletedAt sinceMs : Int)
  | stale (lastCompletedAt sinceMs : Int)
  | neverCompleted (because : JsString)

def latestCompleted (runs : List IntakeRun) : Option Int :=
  runs.foldl (fun latest run =>
    match run with
    | .completed completedAt _ => later latest completedAt
    | .failed _ _ => latest) none

def IntakeRun.isFailed : IntakeRun → Bool
  | failed _ _ => true
  | completed _ _ => false

def freshnessOf (runs : List IntakeRun) (now : Int) : Freshness :=
  match latestCompleted runs with
  | none =>
    let failures := (runs.filter IntakeRun.isFailed).length
    .neverCompleted (if failures > 0 then
      JsString.decimal failures ++ js " run(s) attempted, none completed"
      else js "no run has been attempted")
  | some latest =>
    let sinceMs := now - latest
    if sinceMs > STALE_AFTER_MS then .stale latest sinceMs else .current latest sinceMs

/-! ## One incident -/

/-- What a finding makes of the incident under its key. -/
def absorb (incident : Option QueuedIncident) (finding : EmittedFinding) : Option QueuedIncident :=
  some (incident.elim (opened finding) fun existing => existing.learn finding)

variable (byKey : JsMap JsString QueuedIncident)

theorem get?_receive (finding : EmittedFinding)
    (key : JsString) : (receive byKey finding).get? key =
      if keyOf finding = key then absorb (byKey.get? key) finding else byKey.get? key := by
  unfold receive absorb
  by_cases hkey : keyOf finding = key
  · subst hkey
    cases hget : byKey.get? (keyOf finding) <;> simp [JsMap.get?_set]
  · cases hget : byKey.get? (keyOf finding) <;> simp [JsMap.get?_set, hkey]

variable (findings : List EmittedFinding)

theorem get?_foldl
    (key : JsString) : (findings.foldl receive byKey).get? key =
      (findings.filter fun f => keyOf f = key).foldl absorb (byKey.get? key) := by
  induction findings generalizing byKey with
  | nil => rfl
  | cons finding findings ih =>
    rw [foldl_cons, ih, get?_receive, filter_cons]
    by_cases hkey : keyOf finding = key <;> simp [hkey]

/-- What the order of the findings does not change. -/
def QueuedIncident.summary (incident : QueuedIncident) : Int × Int × FindingCoverage :=
  (incident.firstEventAt, incident.latestEventAt, incident.coverage)

def joined (known : Option (Int × Int × FindingCoverage)) (finding : EmittedFinding) :
    Option (Int × Int × FindingCoverage) :=
  some (known.elim (finding.observedAt, finding.observedAt, finding.coverage) fun known =>
    (min known.1 finding.observedAt, max known.2.1 finding.observedAt,
      leastComplete known.2.2 finding.coverage))

theorem summary_absorb (incident : Option QueuedIncident) (finding : EmittedFinding) :
    (absorb incident finding).map QueuedIncident.summary =
      joined (incident.map QueuedIncident.summary) finding := by
  cases incident with
  | none => rfl
  | some incident =>
    have hfirst : (if finding.observedAt < incident.firstEventAt then finding.observedAt
        else incident.firstEventAt) = min incident.firstEventAt finding.observedAt := by
      split <;> omega
    have hlatest : (if finding.observedAt > incident.latestEventAt then finding.observedAt
        else incident.latestEventAt) = max incident.latestEventAt finding.observedAt := by
      split <;> omega
    simp only [absorb, joined, map_some, elim_some, QueuedIncident.learn,
      QueuedIncident.summary, hfirst, hlatest]

theorem joined_comm (known : Option (Int × Int × FindingCoverage)) (f g : EmittedFinding) :
    joined (joined known f) g = joined (joined known g) f := by
  have hcoverage : ∀ a b c : FindingCoverage,
      leastComplete a b = leastComplete b a ∧
        leastComplete (leastComplete a b) c = leastComplete (leastComplete a c) b := by
    intro a b c
    cases a <;> cases b <;> cases c <;> decide
  cases known with
  | none =>
    simp only [joined, elim_none, elim_some, Option.some.injEq, Prod.mk.injEq]
    exact ⟨min_comm _ _, max_comm _ _, (hcoverage _ _ .FULL).1⟩
  | some known =>
    simp only [joined, elim_some, Option.some.injEq, Prod.mk.injEq]
    exact ⟨by omega, by omega, (hcoverage _ _ _).2⟩

theorem summary_foldl (incident : Option QueuedIncident) :
    (findings.foldl absorb incident).map QueuedIncident.summary =
      findings.foldl joined (incident.map QueuedIncident.summary) := by
  induction findings generalizing incident with
  | nil => rfl
  | cons finding findings ih => rw [foldl_cons, ih, summary_absorb, foldl_cons]

/-- The one notification an incident was opened with, and never anything but open. -/
structure Announced (key : JsString) (incident : QueuedIncident) : Prop where
  own : incident.key = key
  stays : incident.state = .OPEN
  once : ∃ n, incident.notifications = [n] ∧ n.incidentKey = key

variable {key : JsString} {incident : Option QueuedIncident}

theorem announced_absorb {finding : EmittedFinding} (hkey : keyOf finding = key)
    (h : ∀ i ∈ incident, Announced key i) : ∀ i ∈ absorb incident finding, Announced key i := by
  rintro _ ⟨⟩
  subst hkey
  cases incident with
  | none => exact ⟨rfl, rfl, _, rfl, rfl⟩
  | some incident =>
    obtain ⟨hincident, hstate, honce⟩ := h incident rfl
    exact ⟨hincident, hstate, honce⟩

theorem announced_foldl {findings : List EmittedFinding} (hkey : ∀ f ∈ findings, keyOf f = key)
    (h : ∀ i ∈ incident, Announced key i) :
    ∀ i ∈ findings.foldl absorb incident, Announced key i := by
  induction findings generalizing incident with
  | nil => exact h
  | cons finding findings ih =>
    rw [forall_mem_cons] at hkey
    exact ih hkey.2 (announced_absorb hkey.1 h)

/-- What is emitted again changes nothing of the announcement. -/
theorem kept_foldl (incident : QueuedIncident) :
    ∃ i, findings.foldl absorb (some incident) = some i ∧ i.key = incident.key ∧
      i.notifications = incident.notifications := by
  induction findings generalizing incident with
  | nil => exact ⟨incident, rfl, rfl, rfl⟩
  | cons finding findings ih =>
    obtain ⟨i, hi, hkey, hnotifications⟩ := ih (incident.learn finding)
    exact ⟨i, hi, hkey, hnotifications⟩

/-! ## Runs -/

def IntakeRun.emissions : IntakeRun → List EmittedFinding
  | completed _ emitted => emitted
  | failed _ _ => []

variable {runs others : List IntakeRun}

theorem byKey_folded (runs : List IntakeRun) :
    (folded runs).byKey = (runs.flatMap IntakeRun.emissions).foldl receive .empty := by
  induction runs using reverseRecOn with
  | nil => rfl
  | append_singleton runs run ih =>
    rw [folded, foldl_append, flatMap_append, foldl_append, ← ih]
    cases run <;> simp [folded, Fold.run, IntakeRun.emissions]

theorem get?_folded (runs : List IntakeRun) (key : JsString) :
    (folded runs).byKey.get? key =
      ((runs.flatMap IntakeRun.emissions).filter fun f => keyOf f = key).foldl absorb none := by
  rw [byKey_folded, get?_foldl, JsMap.get?_empty]

theorem announced {incident : QueuedIncident} (h : (folded runs).byKey.get? key = some incident) :
    Announced key incident := by
  rw [get?_folded] at h
  exact announced_foldl (fun f hf => of_decide_eq_true (mem_filter.mp hf).2)
    (by simp) incident h

theorem mem_incidents {incident : QueuedIncident} : incident ∈ (intake runs).incidents ↔
    (folded runs).byKey.get? incident.key = some incident := by
  constructor
  · intro hmem
    obtain ⟨⟨key, _⟩, hentry, rfl⟩ := mem_map.mp hmem
    have hget := JsMap.get?_eq_some.mpr hentry
    rw [(announced hget).own]
    exact hget
  · exact fun h => mem_map.mpr ⟨_, JsMap.get?_eq_some.mp h, rfl⟩

/-- The same run, with its emissions in some order. -/
inductive SameRun : IntakeRun → IntakeRun → Prop
  | completed {emitted emitted' : List EmittedFinding} (t : Int) (perm : emitted.Perm emitted') :
      SameRun (.completed t emitted) (.completed t emitted')
  | failed (t : Int) (because : JsString) : SameRun (.failed t because) (.failed t because)

/-- The same runs in some order, and their emissions in some order. -/
def Reordered (runs others : List IntakeRun) : Prop :=
  ∃ between, runs.Perm between ∧ List.Forall₂ SameRun between others

theorem Reordered.emissions (h : Reordered runs others) :
    (runs.flatMap IntakeRun.emissions).Perm (others.flatMap IntakeRun.emissions) := by
  obtain ⟨between, hperm, hsame⟩ := h
  refine (hperm.flatMap_right _).trans ?_
  clear hperm
  induction hsame with
  | nil => exact .refl _
  | cons hrun _ ih =>
    rw [flatMap_cons, flatMap_cons]
    refine List.Perm.append ?_ ih
    cases hrun with
    | completed t perm => exact perm
    | failed t because => exact .refl _

theorem summary_reordered (h : Reordered runs others) (key : JsString) :
    ((folded runs).byKey.get? key).map QueuedIncident.summary =
      ((folded others).byKey.get? key).map QueuedIncident.summary := by
  rw [get?_folded, get?_folded, summary_foldl, summary_foldl]
  exact (h.emissions.filter _).foldl_eq' (fun f _ g _ known => joined_comm known f g) _

theorem lastCompletedRun_folded (runs : List IntakeRun) :
    (folded runs).lastCompletedRun.map LastCompletedRun.completedAt = latestCompleted runs := by
  induction runs using reverseRecOn with
  | nil => rfl
  | append_singleton runs run ih =>
    rw [folded, latestCompleted, foldl_append, foldl_append, foldl_cons,
      foldl_cons, foldl_nil, foldl_nil, ← folded, ← latestCompleted, ← ih]
    cases run with
    | failed t because => rfl
    | completed t emitted =>
      cases hlast : (folded runs).lastCompletedRun with
      | none => simp [Fold.run, later, hlast]
      | some last =>
        by_cases hlt : last.completedAt < t <;> simp [Fold.run, later, hlast, hlt]

/-- Whatever the order of the runs and of what they emitted, there are the same incidents with the
same times and coverage; each is announced once for all further runs, stays open, and a failed run
changes none; and the queue is as fresh as its last completed run. -/
theorem intake_accounts (runs : List IntakeRun) :
    (∀ others, Reordered runs others → ∀ i ∈ (intake runs).incidents,
      ∃ j ∈ (intake others).incidents, j.key = i.key ∧ j.firstEventAt = i.firstEventAt ∧
        j.latestEventAt = i.latestEventAt ∧ j.coverage = i.coverage) ∧
    (∀ others, Reordered runs others → ∀ j ∈ (intake others).incidents,
      ∃ i ∈ (intake runs).incidents, i.key = j.key) ∧
    ((intake runs).incidents.map QueuedIncident.key).Nodup ∧
    (∀ i ∈ (intake runs).incidents, i.state = .OPEN ∧
      (∃ n, i.notifications = [n] ∧ n.incidentKey = i.key) ∧
      ∀ more, ∃ j ∈ (intake (runs ++ more)).incidents,
        j.key = i.key ∧ j.notifications = i.notifications) ∧
    (∀ failedAt because,
      (intake (runs ++ [.failed failedAt because])).incidents = (intake runs).incidents) ∧
    ∀ now, match (intake runs).lastCompletedRun with
      | none => ∃ because, freshnessOf runs now = .neverCompleted because
      | some last => freshnessOf runs now =
        if now - last.completedAt > STALE_AFTER_MS then
          .stale last.completedAt (now - last.completedAt)
        else .current last.completedAt (now - last.completedAt) := by
  refine ⟨fun others hsame i hi => ?_, fun others hsame j hj => ?_, ?_, fun i hi => ?_,
    fun failedAt because => ?_, fun now => ?_⟩
  · rw [mem_incidents] at hi
    have hsummary := summary_reordered hsame i.key
    rw [hi, eq_comm] at hsummary
    obtain ⟨j, hj, hequal⟩ := map_eq_some_iff.mp hsummary
    simp only [QueuedIncident.summary, Prod.mk.injEq] at hequal
    have hkey := (announced hj).own
    exact ⟨j, mem_incidents.mpr (hkey ▸ hj), hkey, hequal.1, hequal.2.1, hequal.2.2⟩
  · rw [mem_incidents] at hj
    have hsummary := summary_reordered hsame j.key
    rw [hj] at hsummary
    obtain ⟨i, hi, _⟩ := map_eq_some_iff.mp hsummary
    have hkey := (announced hi).own
    exact ⟨i, mem_incidents.mpr (hkey ▸ hi), hkey⟩
  · have hkeys : (intake runs).incidents.map QueuedIncident.key =
        (folded runs).byKey.entries.map Prod.fst := by
      change ((folded runs).byKey.entries.map Prod.snd).map QueuedIncident.key = _
      rw [List.map_map]
      exact map_congr_left fun e he => (announced (JsMap.get?_eq_some.mpr he)).own
    rw [hkeys]
    exact (folded runs).byKey.unique
  · rw [mem_incidents] at hi
    obtain ⟨_, hstate, honce⟩ := announced hi
    refine ⟨hstate, honce, fun more => ?_⟩
    rw [get?_folded] at hi
    obtain ⟨j, hj, hkey, hnotifications⟩ := kept_foldl
      ((more.flatMap IntakeRun.emissions).filter fun f => keyOf f = i.key) i
    refine ⟨j, mem_incidents.mpr ?_, hkey, hnotifications⟩
    rw [hkey, get?_folded, flatMap_append, filter_append, foldl_append, hi, hj]
  · have hsame : (folded (runs ++ [.failed failedAt because])).byKey = (folded runs).byKey := by
      rw [byKey_folded, byKey_folded, flatMap_append]
      simp [IntakeRun.emissions]
    simp only [intake, hsame]
  · have hlatest := lastCompletedRun_folded runs
    simp only [intake, freshnessOf, ← hlatest]
    cases (folded runs).lastCompletedRun with
    | none => exact ⟨_, rfl⟩
    | some last => rfl

end FindingIntake
