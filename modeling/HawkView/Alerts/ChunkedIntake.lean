import HawkView.Alerts.IntakeRuns

/-!
# Chunks, restarts and one decision

What a tick commits in chunks is what one decision over its findings writes. The
stored rows agree as well where no notice key is both given and withheld, and
ticks that were cut short leave nothing to a later one but what is missing.
-/

namespace ChunkedIntake

open IncidentKey SendTables FindingPipeline FindingDecision DecisionSound PipelineStore Intake
open IntakeKeys IntakeRuns List Option

/-! ## The writes -/

structure DecisionWrites where
  incidents : List IncidentWrite
  notifications : List NotificationWrite
  withheld : List WithheldNoticeWrite
  jobs : List SendJobWrite

def writesOf (d : PipelineDecision) : DecisionWrites :=
  ⟨d.incidents, d.notifications, d.withheld, d.jobs⟩

/-- The writes of several decisions, in their order. -/
def union (ds : List PipelineDecision) : DecisionWrites :=
  ⟨ds.flatMap (·.incidents), ds.flatMap (·.notifications), ds.flatMap (·.withheld),
    ds.flatMap (·.jobs)⟩

/-- The decisions of the chunks, each with the incidents that the earlier ones opened. -/
def decisions (c : Context) : List ExistingIncident → List (List FindingRow) →
    List PipelineDecision
  | _, [] => []
  | opened, chunk :: rest =>
    let decision := FindingPipeline.decide chunk opened c
    decision :: decisions c (opened ++ decision.incidents.map fun each =>
      ⟨each.organizationId, each.incidentKey⟩) rest

variable {l : LoopContext} {cs : List (List FindingRow)}

theorem run_committed {s : Loop} (h : TickResult.completes (l.run s cs) = true) :
    (l.run s cs).committed = s.committed ++ decisions l.context s.opened cs := by
  induction cs generalizing s with
  | nil => simp [LoopContext.run, decisions]
  | cons chunk cs ih =>
    simp only [LoopContext.run] at h ⊢
    split at h
    · simp [TickResult.completes, LoopContext.report] at h
    · next hlate =>
      rw [if_neg hlate]
      split at h
      · simp [TickResult.completes] at h
      · next t' written hcommit =>
        rw [ih h]
        simp [Loop.after, decisions]

theorem openBefore_after (c : Context) (opened : List ExistingIncident) (fs : List FindingRow) :
    openBefore (opened ++ (FindingPipeline.decide fs opened c).incidents.map fun each =>
      ⟨each.organizationId, each.incidentKey⟩) =
    openBefore opened ++ (entries c (openBefore opened) fs).flatMap Entry.opens := by
  have hopens : ∀ es : List Entry, (es.filterMap Entry.incident).map
      FindingDecision.IncidentWrite.scope = es.flatMap Entry.opens := by
    intro es
    induction es with
    | nil => rfl
    | cons e es ih =>
      cases he : e.incident <;> simp [Entry.opens, he, ih]
  rw [decide_incidents, ← decisionEntries, ← hopens]
  simp only [openBefore, map_append, List.map_map]
  rfl

/-- The incidents that are open after a decision. -/
def openedBy (c : Context) (opened : List ExistingIncident) (fs : List FindingRow) :
    List ExistingIncident :=
  opened ++ (FindingPipeline.decide fs opened c).incidents.map fun each =>
    ⟨each.organizationId, each.incidentKey⟩

theorem decisionEntries_append (c : Context) (opened : List ExistingIncident)
    (fs gs : List FindingRow) : decisionEntries (fs ++ gs) opened c =
      decisionEntries fs opened c ++ decisionEntries gs (openedBy c opened fs) c := by
  simp only [decisionEntries, entries_append, openedBy, openBefore_after]

variable {c : Context}

/-- Chunk by chunk, a list of the writes comes out as in one decision. -/
theorem flatMap_decisions {β : Type} {g : PipelineDecision → List β} {r : Entry → Option β}
    (read : ∀ fs opened, g (FindingPipeline.decide fs opened c) =
      (decisionEntries fs opened c).filterMap r)
    (opened : List ExistingIncident) (cs : List (List FindingRow)) :
    (decisions c opened cs).flatMap g = g (FindingPipeline.decide cs.flatten opened c) := by
  induction cs generalizing opened with
  | nil => exact (read [] opened).symm
  | cons chunk cs ih =>
    rw [decisions, flatMap_cons, flatten_cons, read (chunk ++ cs.flatten),
      decisionEntries_append, filterMap_append, ← read, ← read]
    congr 1
    exact ih (openedBy c opened chunk)

theorem union_decisions (c : Context) (opened : List ExistingIncident)
    (cs : List (List FindingRow)) :
    union (decisions c opened cs) = writesOf (FindingPipeline.decide cs.flatten opened c) := by
  simp only [union, writesOf, DecisionWrites.mk.injEq]
  refine ⟨?_, ?_, ?_, ?_⟩
  · exact flatMap_decisions (fun fs opened => decide_incidents fs opened c) opened cs
  · exact flatMap_decisions (fun fs opened => decide_notifications fs opened c) opened cs
  · exact flatMap_decisions (fun fs opened => decide_withheld fs opened c) opened cs
  · exact flatMap_decisions (fun fs opened => decide_jobs fs opened c) opened cs

/-- What `decide` reads at the start of a tick over the findings. -/
def oneShotContext (t : PipelineTables) (p : Policy) (tickAtIso : Millis)
    (fs : List FindingRow) : Context :=
  p.context tickAtIso (findDecidedNoticeKeys t (organizationIds fs) (fs.map noticeKeyFor))

/-- One call of `decide` over all findings of a tick. -/
def oneShot (t : PipelineTables) (p : Policy) (tickAtIso : Millis) (fs : List FindingRow) :
    PipelineDecision :=
  FindingPipeline.decide fs (findExistingIncidents t (organizationIds fs))
    (oneShotContext t p tickAtIso fs)

/-! ## The rows -/

/-- A job row without the time of its transaction. -/
def untimed (r : JobRow) : JobRow := { r with createdAt := 0 }

def jobRow (w : SendJobWrite) : JobRow := (newJob 0 w).row

/-- The rows after a list of writes, whatever transactions they were spread over. -/
structure Stored (t : PipelineTables) (w : DecisionWrites) (t' : PipelineTables) : Prop where
  incidents : ∀ k, t'.incident k = (t.incident k).or
    ((w.incidents.find? (PipelineStore.IncidentWrite.key · = k)).map incidentRow)
  notifications : ∀ k, t'.notification k = (t.notification k).or
    (if (t.withheldNotice k).isNone then
      (w.notifications.find? (NotificationWrite.key · = k)).map notificationRow else none)
  jobs : ∀ m, (t'.job m).map untimed = ((t.job m).map untimed).or
    ((w.jobs.find? (·.messageId = m)).map jobRow)
  withheld : ∀ k, t'.withheldNotice k = (t.withheldNotice k).or
    (if (t'.notification k).isNone then
      (w.withheld.find? (WithheldNoticeWrite.key · = k)).map withheldRow else none)

/-- No notice key is both given and withheld. -/
def KeysApart (w : DecisionWrites) : Prop :=
  ∀ n ∈ w.notifications, ∀ m ∈ w.withheld, NotificationWrite.key n ≠ WithheldNoticeWrite.key m

variable {t t' : PipelineTables} {d : PipelineDecision}

theorem stored_of_committed {createdAt : Micros} (h : Committed t createdAt d t') :
    Stored t (writesOf d) t' := by
  refine ⟨h.incidents, h.notifications, fun m => ?_, h.withheld⟩
  rw [h.jobs, map_or, Option.map_map]
  rfl

def DecisionWrites.append (v w : DecisionWrites) : DecisionWrites :=
  ⟨v.incidents ++ w.incidents, v.notifications ++ w.notifications, v.withheld ++ w.withheld,
    v.jobs ++ w.jobs⟩

theorem find_none_of_apart {α : Type} {l : List α} {g : α → ScopedKey} {k : ScopedKey}
    (h : ∀ x ∈ l, g x ≠ k) : l.find? (g · = k) = none := by
  simpa using h

variable {t₁ t₂ : PipelineTables} {w : DecisionWrites}

theorem Stored.append {v : DecisionWrites} (apart : KeysApart (DecisionWrites.append v w))
    (first : Stored t v t₁) (second : Stored t₁ w t₂) :
    Stored t (DecisionWrites.append v w) t₂ := by
  have happart : ∀ k, (∀ n ∈ v.notifications ++ w.notifications, NotificationWrite.key n ≠ k) ∨
      ∀ m ∈ v.withheld ++ w.withheld, WithheldNoticeWrite.key m ≠ k := by
    intro k
    by_cases hk : ∃ n ∈ v.notifications ++ w.notifications, NotificationWrite.key n = k
    · obtain ⟨n, hn, rfl⟩ := hk
      exact .inr fun m hm => (apart n hn m hm).symm
    · push Not at hk
      exact .inl hk
  constructor
  · intro k
    rw [second.incidents, first.incidents, Option.or_assoc, DecisionWrites.append,
      find?_append, map_or]
  · intro k
    rw [second.notifications, first.notifications, first.withheld, first.notifications]
    obtain hnone | hnone := happart k
    · have hv := find_none_of_apart fun n hn => hnone n (mem_append_left _ hn)
      have hw := find_none_of_apart fun n hn => hnone n (mem_append_right _ hn)
      simp [DecisionWrites.append, find?_append, hv, hw]
    · have hv := find_none_of_apart fun n hn => hnone n (mem_append_left _ hn)
      simp only [hv, DecisionWrites.append, find?_append]
      cases t.withheldNotice k <;> simp [Option.or_assoc, map_or]
  · intro m
    rw [second.jobs, first.jobs, Option.or_assoc, DecisionWrites.append, find?_append,
      map_or]
  · intro k
    rw [second.withheld, first.withheld]
    obtain hnone | hnone := happart k
    · have hv := find_none_of_apart fun n hn => hnone n (mem_append_left _ hn)
      have hw := find_none_of_apart fun n hn => hnone n (mem_append_right _ hn)
      have hsame : t₂.notification k = t₁.notification k := by
        simp [second.notifications, hw]
      rw [hsame, DecisionWrites.append, find?_append, map_or]
      cases t₁.notification k <;> simp [Option.or_assoc]
    · have hv := find_none_of_apart fun n hn => hnone n (mem_append_left _ hn)
      have hw := find_none_of_apart fun n hn => hnone n (mem_append_right _ hn)
      simp [DecisionWrites.append, find?_append, hv, hw]

theorem stored_nil (t : PipelineTables) : Stored t (union []) t := by
  constructor <;> intro k <;> simp [union]

theorem union_cons (d : PipelineDecision) (ds : List PipelineDecision) :
    union (d :: ds) = DecisionWrites.append (writesOf d) (union ds) := rfl

theorem apart_tail {ds : List PipelineDecision} (h : KeysApart (union (d :: ds))) :
    KeysApart (union ds) :=
  fun n hn m hm => h n (mem_append_right _ hn) m (mem_append_right _ hm)

/-- The rows after a loop that was not interrupted. -/
theorem run_stored {s : Loop} (apart : KeysApart (union (decisions l.context s.opened cs)))
    (h : TickResult.completes (l.run s cs) = true) :
    Stored s.tables (union (decisions l.context s.opened cs)) (l.run s cs).tables := by
  induction cs generalizing s with
  | nil => exact stored_nil s.tables
  | cons chunk cs ih =>
    simp only [LoopContext.run] at h ⊢
    split at h
    · simp [TickResult.completes, LoopContext.report] at h
    · next hlate =>
      rw [if_neg hlate]
      split at h
      · simp [TickResult.completes] at h
      · next t' written hcommit =>
        have hfirst := stored_of_committed (commit_spec hcommit)
        have hrest := ih (s := s.after chunk _ t' written) (apart_tail apart) h
        rw [decisions, union_cons] at apart ⊢
        exact hfirst.append apart hrest

/-- The stored rows agree, up to the times of the transactions. -/
structure SameRows (t t' : PipelineTables) : Prop where
  incidents : ∀ k, t.incident k = t'.incident k
  notifications : ∀ k, t.notification k = t'.notification k
  withheld : ∀ k, t.withheldNotice k = t'.withheldNotice k
  jobs : ∀ m, (t.job m).map untimed = (t'.job m).map untimed

theorem Stored.same (first : Stored t w t₁) (second : Stored t w t₂) : SameRows t₁ t₂ := by
  have hnotifications : ∀ k, t₁.notification k = t₂.notification k := by
    intro k
    rw [first.notifications, second.notifications]
  refine ⟨fun k => ?_, hnotifications, fun k => ?_, fun m => ?_⟩
  · rw [first.incidents, second.incidents]
  · rw [first.withheld, second.withheld, hnotifications]
  · rw [first.jobs, second.jobs]

/-- No two findings share a notice key of which one is given and the other withheld. -/
def TiersAgree (p : Policy) (fs : List FindingRow) : Prop :=
  ∀ f ∈ fs, ∀ g ∈ fs, ∀ t u, openType f = some t → openType g = some u →
    noticeOf f = noticeOf g → tier p f t = .recordOnly → tier p g u = .recordOnly

variable {p : Policy} {fs : List FindingRow} {existing : List ExistingIncident}

theorem apart_of_agree {tickAtIso : Millis} {decided : List JsString} (agree : TiersAgree p fs) :
    KeysApart (writesOf (FindingPipeline.decide fs existing (p.context tickAtIso decided))) := by
  intro n hn m hm hkey
  obtain ⟨f, hf, t, ht, _, htier, hnotice⟩ := mem_notifications.mp ⟨n, hn, rfl⟩
  obtain ⟨g, hg, u, hu, _, hrecord, hwithheld⟩ := mem_withheld.mp ⟨m, hm, rfl⟩
  exact htier (agree g hg f hf u t hu ht (by rw [hwithheld, ← hkey, hnotice]) hrecord)

/-! ## Ticks that are not cut short -/

/-- The clock never runs out and no read or transaction fails. -/
structure Calm (fs : List FindingRow) (p : Policy) (tick : Tick) : Prop where
  inTime : ∀ i, tick.late i = false
  findings : tick.findings = .ok fs
  dispositions : tick.dispositions = .ok p.dispositions
  watermark : tick.watermark = p.watermark
  committed : ∀ i, (tick.transaction i).fails = false

theorem tryable_decide (fs : List FindingRow) (existing : List ExistingIncident) (c : Context) :
    Tryable (FindingPipeline.decide fs existing c) := by
  intro w hw
  rw [decide_jobs, mem_filterMap] at hw
  obtain ⟨e, he, hjob⟩ := hw
  obtain ⟨before, after, _, hentry⟩ := entries_split he
  cases houtcome : e.outcome with
  | skipped because => simp [Entry.toJob, houtcome, Outcome.toJob] at hjob
  | job write =>
    simp only [Entry.toJob, houtcome, Outcome.toJob, Option.some.injEq] at hjob
    rw [hentry] at houtcome
    obtain ⟨t, _, _, _, htold⟩ := entry_job houtcome
    obtain ⟨_, rfl⟩ := told_job htold
    rw [← hjob]
    exact (by decide : 1 ≤ 3)

theorem run_completes (inTime : ∀ i, l.tick.late i = false)
    (committed : ∀ i, (l.tick.transaction i).fails = false) (s : Loop)
    (cs : List (List FindingRow)) : TickResult.completes (l.run s cs) = true := by
  induction cs generalizing s with
  | nil => rfl
  | cons chunk cs ih =>
    obtain ⟨t', written, hcommit⟩ := commit_total (tryable_decide chunk s.opened l.context)
      _ (committed s.chunksCommitted) s.tables
    simp only [LoopContext.run, inTime, hcommit]
    exact ih _

variable {tick : Tick}

section

variable (calm : Calm fs p tick)
include calm

/-- What a calm tick does after its reads. -/
theorem calm_run (t : PipelineTables)
    (nonempty : fs.take maxFindingsPerTick ≠ []) :
    ∃ l : LoopContext, l.tick = tick ∧
      l.context = oneShotContext t p tick.tickAtIso (fs.take maxFindingsPerTick) ∧
      runIntake t tick = l.run
        (.start t (findExistingIncidents t (organizationIds (fs.take maxFindingsPerTick))))
        (chunks findingsPerChunk (fs.take maxFindingsPerTick)) := by
  have hempty : (fs.take maxFindingsPerTick).isEmpty = false := by
    simpa using nonempty
  simp only [runIntake, calm.inTime, calm.findings, runFindings, hempty, calm.dispositions]
  refine ⟨_, rfl, ?_, rfl⟩
  simp only [LoopContext.context, calm.watermark]
  rfl

theorem calm_completes (t : PipelineTables) :
    TickResult.completes (runIntake t tick) = true := by
  by_cases hempty : fs.take maxFindingsPerTick = []
  · simp [runIntake, calm.inTime, calm.findings, hempty, runFindings, TickResult.completes,
      emptyReport]
  · obtain ⟨l, rfl, _, hrun⟩ := calm_run calm t hempty
    rw [hrun]
    exact run_completes calm.inTime calm.committed _ _

/-- What a calm tick commits is one decision over the findings it takes. -/
theorem calm_writes (t : PipelineTables) :
    union (runIntake t tick).committed =
      writesOf (oneShot t p tick.tickAtIso (fs.take maxFindingsPerTick)) := by
  have hcompletes := calm_completes calm t
  by_cases hempty : fs.take maxFindingsPerTick = []
  · simp only [runIntake, calm.inTime, calm.findings, hempty, runFindings]
    rfl
  · obtain ⟨l, rfl, hcontext, hrun⟩ := calm_run calm t hempty
    rw [hrun] at hcompletes ⊢
    rw [run_committed hcompletes, hcontext]
    simp only [Loop.start, nil_append]
    rw [union_decisions, flatten_chunks findingsPerChunk (by decide)]
    rfl

/-- And the rows agree, where the tiers do. -/
theorem calm_rows {answer : TransactionAnswer} {written : Written}
    (agree : TiersAgree p (fs.take maxFindingsPerTick))
    (h : commit t answer (oneShot t p tick.tickAtIso (fs.take maxFindingsPerTick)) =
      .ok (t', written)) :
    SameRows (runIntake t tick).tables t' := by
  have hone := stored_of_committed (commit_spec h)
  have hcompletes := calm_completes calm t
  by_cases hempty : fs.take maxFindingsPerTick = []
  · simp only [hempty] at hone
    have hsame : (runIntake t tick).tables = t := by
      simp only [runIntake, calm.inTime, calm.findings, hempty, runFindings]
      rfl
    rw [hsame]
    exact (stored_nil t).same hone
  · obtain ⟨l, rfl, hcontext, hrun⟩ := calm_run calm t hempty
    have hunion := union_decisions l.context
      (findExistingIncidents t (organizationIds (fs.take maxFindingsPerTick)))
      (chunks findingsPerChunk (fs.take maxFindingsPerTick))
    rw [flatten_chunks findingsPerChunk (by decide), hcontext] at hunion
    rw [hrun] at hcompletes ⊢
    have hchunks := run_stored (s := .start t _) (l := l) (by
      rw [hcontext]
      simp only [Loop.start]
      rw [hunion]
      exact apart_of_agree agree) hcompletes
    rw [hcontext] at hchunks
    simp only [Loop.start] at hchunks
    rw [hunion] at hchunks
    exact hchunks.same hone

end

/-! ## One decision, chunks and restarts -/

/-- What a tick over the findings leaves after ticks that may have been cut short. -/
structure Resumed (fs : List FindingRow) (single resumed : PipelineTables) : Prop where
  sameKeys : keysOf resumed = keysOf single
  nothingLost : Covered (keysOf resumed) fs
  nothingTwice : Undoubled resumed

theorem resumed {last : Tick} {ticks : List Tick} (calm : Calm fs p tick)
    (reads : ∀ k ∈ ticks ++ [last], Over (fs.take maxFindingsPerTick) p k)
    (completes : TickResult.completes (runIntake (runTicks t ticks) last) = true) :
    Resumed (fs.take maxFindingsPerTick) (runIntake t tick).tables
      (runIntake (runTicks t ticks) last).tables := by
  have hover : Over (fs.take maxFindingsPerTick) p tick := by
    refine ⟨fun read hread => ?_, fun ds hds => ?_, calm.watermark⟩
    · rw [calm.findings] at hread
      cases hread
      rfl
    · rw [calm.dispositions] at hds
      cases hds
      rfl
  have hsingle := completed_keys (t := t) [] (by simp) hover (calm_completes calm _)
  have hlast := completed_keys (t := t) ticks (fun k hk => reads k (mem_append_left _ hk))
    (reads last (by simp)) completes
  refine ⟨hlast.trans hsingle.symm, ?_, undoubled _⟩
  intro f hf
  rw [hlast]
  rw [← flatten_chunks findingsPerChunk (by decide) (fs.take maxFindingsPerTick)] at hf
  obtain ⟨c, hc, hfc⟩ := List.mem_flatten.mp hf
  exact covered_settleAll p (keysOf t) _ c hc f hfc

/-- A tick commits what one decision over its findings writes, stores the same rows where the
tiers agree, and ticks that were cut short make no difference to the keys. -/
theorem chunked_intake {fs : List FindingRow} {p : Policy} {tick : Tick} (calm : Calm fs p tick)
    (t : PipelineTables) :
    TickResult.completes (runIntake t tick) = true ∧
    union (runIntake t tick).committed =
      writesOf (oneShot t p tick.tickAtIso (fs.take maxFindingsPerTick)) ∧
    (TiersAgree p (fs.take maxFindingsPerTick) → ∀ answer t' written,
      commit t answer (oneShot t p tick.tickAtIso (fs.take maxFindingsPerTick)) =
        .ok (t', written) → SameRows (runIntake t tick).tables t') ∧
    (∀ ticks last, (∀ k ∈ ticks ++ [last], Over (fs.take maxFindingsPerTick) p k) →
      TickResult.completes (runIntake (runTicks t ticks) last) = true →
      Resumed (fs.take maxFindingsPerTick) (runIntake t tick).tables
        (runIntake (runTicks t ticks) last).tables) := by
  refine ⟨calm_completes calm t, calm_writes calm t, ?_, ?_⟩
  · intro agree answer t' written h
    exact calm_rows calm agree h
  · intro ticks last reads completes
    exact resumed calm reads completes

def samplePolicy : Policy := ⟨sampleDispositions, ⟨some 0⟩⟩

theorem sampleTick_calm (fs : List FindingRow) : Calm fs samplePolicy (sampleTick fs) :=
  ⟨fun _ => rfl, rfl, rfl, rfl, fun _ => rfl⟩

/-- One finding, from an empty store. -/
theorem one_finding_committed :
    union (runIntake .empty (sampleTick [sampleFinding exposureRule sampleTenant])).committed =
      writesOf (oneShot .empty samplePolicy 2000 [sampleFinding exposureRule sampleTenant]) :=
  (chunked_intake (sampleTick_calm [sampleFinding exposureRule sampleTenant]) .empty).2.1

/-- More findings than a tick takes. -/
def tooManyFindings : List FindingRow :=
  List.replicate maxFindingsPerTick (sampleFinding applicationRule sampleTenant) ++
    [sampleFinding exposureRule sampleTenant]

/-- A notice that is withheld for one tenant in the first chunk and given for another in the
second. -/
def twoTenants : List FindingRow :=
  sampleFinding attemptsRule sampleTenant ::
    List.replicate 199 (sampleFinding applicationRule sampleTenant) ++
    [sampleFinding exposureRule otherTenant]

theorem untyped_incidents (h : ∀ f ∈ fs, openType f = none) :
    (FindingPipeline.decide fs existing c).incidents = [] := by
  rw [eq_nil_iff_forall_not_mem]
  intro w hw
  obtain ⟨f, hf, t, ht, _⟩ := mem_incidents hw
  rw [h f hf] at ht
  cases ht

/-- The rest of a long list is not committed, and a notice that was withheld by an earlier chunk
keeps out the one that a single decision would store. -/
theorem chunks_not_one_decision :
    union (runIntake .empty (sampleTick tooManyFindings)).committed ≠
      writesOf (oneShot .empty samplePolicy 2000 tooManyFindings) ∧
    ∃ t' written, commit .empty ⟨false, [], 0⟩ (oneShot .empty samplePolicy 2000 twoTenants) =
      .ok (t', written) ∧ ¬ SameRows (runIntake .empty (sampleTick twoTenants)).tables t' := by
  constructor
  · intro h
    have htaken : tooManyFindings.take maxFindingsPerTick =
        replicate maxFindingsPerTick (sampleFinding applicationRule sampleTenant) := by
      rw [tooManyFindings, take_append_of_le_length (by simp)]
      exact take_of_length_le (by simp)
    have hnone : (union (runIntake .empty (sampleTick tooManyFindings)).committed).incidents =
        [] := by
      rw [calm_writes (sampleTick_calm tooManyFindings), htaken]
      apply untyped_incidents
      intro f hf
      rw [eq_of_mem_replicate hf]
      decide
    have hopen : openType (sampleFinding exposureRule sampleTenant) =
        some .privilegedDirectoryChange := by decide
    have hmem : sampleFinding exposureRule sampleTenant ∈ tooManyFindings := by
      simp [tooManyFindings]
    obtain hexisting | ⟨w, hw, _⟩ := incident_exists
      (findExistingIncidents .empty (organizationIds tooManyFindings))
      (oneShotContext .empty samplePolicy 2000 tooManyFindings)
      (sampleFinding exposureRule sampleTenant) hmem _ hopen
    · exact absurd (mem_findExistingIncidents.mp hexisting).2 (by decide)
    · rw [h] at hnone
      exact absurd hw (by rw [← oneShot]; simp only [writesOf] at hnone; simp [hnone])
  · obtain ⟨t', written, hcommit⟩ := commit_total
      (tryable_decide twoTenants
        (findExistingIncidents .empty (organizationIds twoTenants))
        (oneShotContext .empty samplePolicy 2000 twoTenants)) ⟨false, [], 0⟩ rfl .empty
    refine ⟨t', written, hcommit, fun same => ?_⟩
    have hnotice := same.notifications (noticeOf (sampleFinding exposureRule otherTenant))
    have hchunked : ((runIntake .empty (sampleTick twoTenants)).tables.notification
        (noticeOf (sampleFinding exposureRule otherTenant))).isSome = false := by
      decide +kernel
    have hone : (match commit .empty ⟨false, [], 0⟩
          (oneShot .empty samplePolicy 2000 twoTenants) with
        | .ok r => (r.1.notification
            (noticeOf (sampleFinding exposureRule otherTenant))).isSome
        | .error _ => false) = true := by
      decide +kernel
    rw [oneShot, hcommit] at hone
    rw [hnotice] at hchunked
    exact Bool.false_ne_true (hchunked.symm.trans hone)

end ChunkedIntake
