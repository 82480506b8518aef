import HawkView.Alerts.IntakeRuns

/-!
# A notice that was withheld stays withheld

Whatever the settings, the recipients and the findings do between ticks, a
notice key has one row, of one kind, and a finding whose notice was withheld
gets neither a notification nor a send job later.
-/

namespace NoReplay

open IncidentKey SendTables FindingPipeline FindingDecision DecisionSound PipelineStore Intake
open IntakeKeys IntakeRuns List Option

/-- No notice key is both given and withheld. -/
def Exclusive (t : PipelineTables) : Prop :=
  ∀ k, (t.notification k).isSome → (t.withheldNotice k).isSome → False

/-- The findings that a tick takes. -/
def taken (tick : Tick) : List FindingRow :=
  match tick.findings with
  | .ok read => read.take maxFindingsPerTick
  | .error _ => []

/-- The settings of a tick. Those of a failed read do not matter. -/
def settings (tick : Tick) : Policy where
  dispositions :=
    match tick.dispositions with
    | .ok ds => ds
    | .error _ => ⟨fun _ => none, [], fun _ => none⟩
  watermark := tick.watermark

theorem over_taken (tick : Tick) : Over (taken tick) (settings tick) tick := by
  refine ⟨fun read hread => ?_, fun ds hds => ?_, rfl⟩
  · simp only [taken, hread]
  · simp only [settings, hds]

section Chunk

variable {t t' : PipelineTables} {createdAt : Micros} {d : PipelineDecision} {k : ScopedKey}

section

variable (h : Committed t createdAt d t')
include h

theorem exclusive_committed (inv : Exclusive t) :
    Exclusive t' := by
  intro k hnotified hwithheld
  rw [h.withheld, isSome_or_guard] at hwithheld
  obtain hstored | ⟨hfree, _⟩ := hwithheld
  · rw [h.notifications, isSome_or_guard] at hnotified
    obtain hnotified | ⟨hfree, _⟩ := hnotified
    · exact inv k hnotified hstored
    · rw [isNone_iff_eq_none.mp hfree] at hstored
      cases hstored
  · rw [isNone_iff_eq_none.mp hfree] at hnotified
    cases hnotified

theorem withheld_committed
    (withheld : (t.withheldNotice k).isSome) : (t'.withheldNotice k).isSome := by
  rw [h.withheld, isSome_or_guard]
  exact .inl withheld

theorem job_committed {m : MessageId}
    (unchanged : ∀ w ∈ d.jobs, w.messageId ≠ m) : t'.job m = t.job m := by
  have hnone : d.jobs.find? (·.messageId = m) = none := by simpa using unchanged
  rw [h.jobs, hnone, map_none, or_none]

end

end Chunk

section Silence

variable {f g : FindingRow} {u v : AlertTypeId} {p : Policy}

theorem incidentKeyOf_type (h : incidentKeyOf f u = incidentKeyOf g v) : u = v := by
  have hgroup : incidentGrouping ⟨u.text, .account⟩
      ⟨f.organizationId.text, f.customerTenantId.text⟩ (.resolved f.subjectId) =
      incidentGrouping ⟨v.text, .account⟩
        ⟨g.organizationId.text, g.customerTenantId.text⟩ (.resolved g.subjectId) := by
    simp only [incidentKeyOf, incidentGrouping] at h ⊢
    rw [h]
  have hid := (incidentGrouping_injective hgroup).1
  exact AlertTypeId.text_injective (congrArg IncidentIdentity.id hid)

theorem messageIdFor_injective {a b : Uuid} {s s' : JsString}
    (h : messageIdFor a s = messageIdFor b s') : a = b ∧ s = s' :=
  scopedText_injective (append_cancel_left h)

theorem silent_of_recordOnly {c : Context} (h : c.effectiveTier f u = .recordOnly) :
    silence c f u ≠ none := by
  intro hsilence
  exact (not_silent hsilence).2.1 h

/-- No job of a decision is for an incident that was open or that is record-only. -/
theorem job_spared {fs : List FindingRow} {existing : List ExistingIncident}
    {tickAtIso : Millis} {decided : List JsString} {incidents : Set ScopedKey}
    (stored : ∀ g ∈ fs, ∀ key, (⟨g.organizationId, key⟩ : ExistingIncident) ∈ existing ↔
      (g.organizationId, key) ∈ incidents)
    (spared : incidentOf f u ∈ incidents ∨ tier p f u = .recordOnly) :
    ∀ w ∈ (FindingPipeline.decide fs existing (p.context tickAtIso decided)).jobs,
      w.messageId ≠ messageIdFor f.organizationId (incidentKeyOf f u) := by
  intro w hw hmessage
  obtain ⟨g, v, ⟨before, after, hfs, hv, hfresh, _⟩, hsilence, hm⟩ :=
    (mem_jobs stored).mp ⟨w, hw, rfl⟩
  obtain ⟨horganization, hkey⟩ := messageIdFor_injective (hm.trans hmessage)
  obtain hopen | hrecord := spared
  · apply hfresh
    rwa [incidentOf, horganization, hkey]
  · simp only [tier, Context.effectiveTier, ← incidentKeyOf_type hkey, ← horganization] at hrecord
    exact silent_of_recordOnly hrecord hsilence

end Silence

/-! ## One tick -/

section Tick

variable {t : PipelineTables} {tick : Tick} {f : FindingRow} {u : AlertTypeId} {k : ScopedKey}

theorem exclusive_tick (inv : Exclusive t) : Exclusive (runIntake t tick).tables := by
  refine tick_rule (P := fun t _ => Exclusive t) (over_taken tick) ?_ inv
  intro t t' ds c existing decided createdAt _ _ h inv
  exact exclusive_committed h inv

theorem exclusive_ticks (ticks : List Tick) (inv : Exclusive t) : Exclusive (runTicks t ticks) := by
  induction ticks generalizing t with
  | nil => exact inv
  | cons tick ticks ih => exact ih (exclusive_tick inv)

theorem withheld_tick (withheld : (t.withheldNotice k).isSome) :
    ((runIntake t tick).tables.withheldNotice k).isSome := by
  refine tick_rule (P := fun t _ => (t.withheldNotice k).isSome) (over_taken tick) ?_ withheld
  intro t t' ds c existing decided createdAt _ _ h withheld
  exact withheld_committed h withheld

/-- A tick adds no job for an incident that was open or that is record-only in it. -/
theorem job_tick (spared : incidentOf f u ∈ (keysOf t).incidents ∨
      tier (settings tick) f u = .recordOnly) :
    (runIntake t tick).tables.job (messageIdFor f.organizationId (incidentKeyOf f u)) =
      t.job (messageIdFor f.organizationId (incidentKeyOf f u)) := by
  refine (tick_rule (P := fun s _ => (incidentOf f u ∈ (keysOf s).incidents ∨
      tier (settings tick) f u = .recordOnly) ∧
      s.job (messageIdFor f.organizationId (incidentKeyOf f u)) =
        t.job (messageIdFor f.organizationId (incidentKeyOf f u)))
    (over_taken tick) ?_ ⟨spared, rfl⟩).2
  intro s s' ds c existing decided createdAt _ stored h ⟨hspared, hjob⟩
  refine ⟨?_, ?_⟩
  · rw [keysOf_committed stored h]
    exact hspared.imp_left .inl
  · rw [job_committed h (job_spared stored.incidents hspared), hjob]

theorem incident_tick {k : ScopedKey} (h : k ∈ (keysOf t).incidents) :
    k ∈ (keysOf (runIntake t tick).tables).incidents := by
  refine tick_rule (P := fun t _ => k ∈ (keysOf t).incidents) (over_taken tick) ?_ h
  intro s s' ds c existing decided createdAt _ stored h hk
  rw [keysOf_committed stored h]
  exact .inl hk

/-- A tick has withheld the notice of a finding, and the row is there. -/
structure Withheld (t : PipelineTables) (tick : Tick) (f : FindingRow) (u : AlertTypeId) : Prop where
  read : f ∈ taken tick
  typed : openType f = some u
  decided : ∃ d ∈ (runIntake t tick).committed, withheldFor f u ∈ d.withheld
  recorded : ((runIntake t tick).tables.withheldNotice (noticeOf f)).isSome

/-- The findings of a tick are rows of one table. -/
def IdsDistinct (tick : Tick) : Prop := ((taken tick).map (·.id)).Nodup

instance (tick : Tick) : Decidable (IdsDistinct tick) := inferInstanceAs (Decidable (List.Nodup _))

/-- What a tick withholds is record-only in it, and its incident is stored. -/
theorem withheld_backed (ids : IdsDistinct tick) (h : Withheld t tick f u) :
    tier (settings tick) f u = .recordOnly ∧
      incidentOf f u ∈ (keysOf (runIntake t tick).tables).incidents := by
  have hrule : ∀ d ∈ (runIntake t tick).committed, ∀ w ∈ d.withheld,
      ∃ g ∈ taken tick, ∃ v, openType g = some v ∧ w = withheldFor g v ∧
        tier (settings tick) g v = .recordOnly ∧
        incidentOf g v ∈ (keysOf (runIntake t tick).tables).incidents := by
    refine tick_rule (P := fun s ds => ∀ d ∈ ds, ∀ w ∈ d.withheld,
      ∃ g ∈ taken tick, ∃ v, openType g = some v ∧ w = withheldFor g v ∧
        tier (settings tick) g v = .recordOnly ∧ incidentOf g v ∈ (keysOf s).incidents)
      (over_taken tick) ?_ (by simp)
    intro s s' ds c existing decided createdAt hc stored h inv d hd w hw
    rw [keysOf_committed stored h]
    obtain hd | hd := mem_append.mp hd
    · obtain ⟨g, hg, v, hv, heq, htier, hincident⟩ := inv d hd w hw
      exact ⟨g, hg, v, hv, heq, htier, .inl hincident⟩
    · rw [mem_singleton.mp hd, decide_withheld, mem_filterMap] at hw
      obtain ⟨e, he, hw⟩ := hw
      obtain ⟨before, after, hfs, hentry⟩ := entries_split he
      have hmem : e.finding ∈ c := by simp [hfs]
      rw [hentry] at hw
      cases hv : openType e.finding with
      | none => simp [(entry_untyped hv).2] at hw
      | some v =>
        rw [(entry_notices hv).2, withholds] at hw
        split at hw
        · next htier =>
          cases hw
          exact ⟨e.finding, hc _ hmem, v, hv, rfl, htier.2, .inr ⟨e.finding, hmem, v, hv, rfl⟩⟩
        · cases hw
  obtain ⟨d, hd, hw⟩ := h.decided
  obtain ⟨g, hg, v, hv, heq, htier, hincident⟩ := hrule d hd _ hw
  have hid : f.id = g.id := congrArg WithheldNoticeWrite.findingId heq
  have hsame : f = g := inj_on_of_nodup_map ids h.read hg hid
  subst hsame
  rw [h.typed] at hv
  cases hv
  exact ⟨htier, hincident⟩

end Tick

variable {t : PipelineTables}

theorem withheld_ticks {k : ScopedKey} (ticks : List Tick)
    (withheld : (t.withheldNotice k).isSome) : ((runTicks t ticks).withheldNotice k).isSome := by
  induction ticks generalizing t with
  | nil => exact withheld
  | cons tick ticks ih => exact ih (withheld_tick withheld)

theorem job_ticks {f : FindingRow} {u : AlertTypeId} (ticks : List Tick)
    (opened : incidentOf f u ∈ (keysOf t).incidents) :
    (runTicks t ticks).job (messageIdFor f.organizationId (incidentKeyOf f u)) =
      t.job (messageIdFor f.organizationId (incidentKeyOf f u)) := by
  induction ticks generalizing t with
  | nil => rfl
  | cons tick ticks ih =>
    rw [runTicks, foldl_cons, ← runTicks, ih (incident_tick opened), job_tick (.inl opened)]

/-- Where no key had two notices, no run of ticks gives it two, and what a tick withholds gets
neither a notification nor a send job in that tick or later. -/
theorem withheld_stays_silent {start : PipelineTables} (exclusive : Exclusive start) :
    (∀ ticks, Exclusive (runTicks start ticks) ∧ Undoubled (runTicks start ticks)) ∧
    ∀ before tick, IdsDistinct tick → ∀ f u, Withheld (runTicks start before) tick f u →
      ∀ later,
        (runTicks start (before ++ tick :: later)).notification (noticeOf f) = none ∧
        (runTicks start (before ++ tick :: later)).job
            (messageIdFor f.organizationId (incidentKeyOf f u)) =
          (runTicks start before).job (messageIdFor f.organizationId (incidentKeyOf f u)) := by
  refine ⟨fun ticks => ⟨exclusive_ticks ticks exclusive, undoubled _⟩, ?_⟩
  intro before tick ids f u withheld later
  obtain ⟨htier, hincident⟩ := withheld_backed ids withheld
  have hrun : runTicks start (before ++ tick :: later) =
      runTicks (runIntake (runTicks start before) tick).tables later := by
    rw [runTicks, foldl_append, foldl_cons]
    rfl
  have hexclusive := exclusive_ticks (before ++ tick :: later) exclusive (noticeOf f)
  rw [hrun] at hexclusive ⊢
  constructor
  · rw [← not_isSome_iff_eq_none]
    intro hnotified
    exact hexclusive hnotified (withheld_ticks later withheld.recorded)
  · rw [job_ticks later hincident, job_tick (.inr htier)]

/-- Credential attacks are off in the first tick and on, with every chunk decided, in the
second. -/
def switchedOn : Tick :=
  { sampleTick [sampleFinding attemptsRule sampleTenant] with
    dispositions := .ok { sampleDispositions with byOrganizationAndAlertType := fun _ => none } }

theorem exclusive_empty : Exclusive .empty := by
  intro k h
  cases h

theorem attempts_stay_silent :
    (runTicks .empty [sampleTick [sampleFinding attemptsRule sampleTenant],
      switchedOn]).notification (noticeOf (sampleFinding attemptsRule sampleTenant)) = none :=
  ((withheld_stays_silent exclusive_empty).2 []
    (sampleTick [sampleFinding attemptsRule sampleTenant]) (by decide)
    (sampleFinding attemptsRule sampleTenant) .suspectedCredentialAttack
    ⟨by decide, by decide, by decide, by decide⟩ [switchedOn]).1

end NoReplay
