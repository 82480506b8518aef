import HawkView.Alerts.IntakeKeys

/-!
# Ticks over the same findings

A tick settles the chunks of its findings in order, and an interrupted one only
the first of them. Ticks over the same findings take up where the last one
stopped, so a tick that completes leaves what a single tick would have left.
-/

namespace IntakeRuns

open IncidentKey SendTables FindingPipeline FindingDecision DecisionSound PipelineStore Intake
open IntakeKeys List

/-! ## Chunks -/

theorem flatten_slices {α : Type} (size : Nat) (xs : List α) (m : Nat) :
    ((List.range m).map fun i => (xs.drop (i * size)).take size).flatten = xs.take (m * size) := by
  induction m with
  | zero => simp
  | succ m ih =>
    rw [range_succ, map_append, flatten_append, ih, Nat.succ_mul, take_add]
    simp

/-- The chunks are the list, cut. -/
theorem flatten_chunks {α : Type} (size : Nat) (hsize : 0 < size) (xs : List α) :
    (chunks size xs).flatten = xs := by
  rw [chunks, flatten_slices]
  apply take_of_length_le
  have hdiv := Nat.div_add_mod (xs.length + size - 1) size
  have hmod := Nat.mod_lt (xs.length + size - 1) hsize
  rw [Nat.mul_comm]
  omega

/-! ## One tick -/

def TickResult.completes (r : TickResult) : Bool :=
  match r.outcome with
  | .ran report => !report.yieldedOnBudget
  | .failed _ _ _ => false

/-- The settings that a tick has loaded. -/
def policyOf (l : LoopContext) : Policy := ⟨l.dispositions, l.tick.watermark⟩

/-- What the loop knows is what is stored. -/
def Ready (l : LoopContext) (s : Loop) (fs : List FindingRow) : Prop :=
  Matches s.opened l.alreadyDecided (keysOf s.tables) fs

section Loop

variable {l : LoopContext} {s : Loop} {fs chunk : List FindingRow} {t' : PipelineTables}
  {createdAt : Micros} {written : Written}

theorem ready_after (written : Written) (ready : Ready l s fs)
    (h : Committed s.tables createdAt (FindingPipeline.decide chunk s.opened l.context) t') :
    Ready l (s.after chunk (FindingPipeline.decide chunk s.opened l.context) t' written) fs := by
  constructor
  · intro f hf key
    change _ ∈ s.opened ++ _ ↔ (t'.incident _).isSome = true
    rw [h.incidents, Option.isSome_or, Bool.or_eq_true, Option.isSome_map, find_isSome,
      mem_append, ready.incidents f hf]
    apply or_congr Iff.rfl
    simp [IncidentWrite.key, Prod.ext_iff]
  · intro f hf hdecided
    obtain hstored | hstored := ready.decided f hf hdecided
    · left
      change (t'.notification _).isSome = true
      rw [h.notifications, isSome_or_guard]
      exact .inl hstored
    · right
      change (t'.withheldNotice _).isSome = true
      rw [h.withheld, isSome_or_guard]
      exact .inl hstored

theorem Matches.subset {existing : List ExistingIncident} {decided : List JsString}
    {keys : StoredKeys} (stored : Matches existing decided keys fs)
    (h : ∀ f ∈ chunk, f ∈ fs) : Matches existing decided keys chunk :=
  ⟨fun f hf => stored.incidents f (h f hf), fun f hf => stored.decided f (h f hf)⟩

theorem keysOf_after (ready : Ready l s fs) (hchunk : ∀ f ∈ chunk, f ∈ fs)
    (h : Committed s.tables createdAt (FindingPipeline.decide chunk s.opened l.context) t') :
    keysOf t' = settle (policyOf l) (keysOf s.tables) chunk :=
  keysOf_committed (p := policyOf l) (Matches.subset ready hchunk) h

/-- The loop settles its chunks up to the one where it stops. -/
theorem run_keys {cs : List (List FindingRow)} (hcs : ∀ c ∈ cs, ∀ f ∈ c, f ∈ fs)
    (ready : Ready l s fs) :
    ∃ j, keysOf (l.run s cs).tables = settleAll (policyOf l) (keysOf s.tables) (cs.take j) ∧
      (TickResult.completes (l.run s cs) = true → cs.length ≤ j) := by
  induction cs generalizing s with
  | nil => exact ⟨0, rfl, fun _ => Nat.le_refl _⟩
  | cons chunk cs ih =>
    simp only [LoopContext.run]
    split
    · exact ⟨0, rfl, by simp [TickResult.completes, LoopContext.report]⟩
    · split
      · exact ⟨0, rfl, by simp [TickResult.completes]⟩
      · next t' written hcommit =>
        have hcommitted := commit_spec hcommit
        have hkeys := keysOf_after ready (hcs chunk (mem_cons_self ..)) hcommitted
        obtain ⟨j, hj, hcompletes⟩ := ih (fun c hc => hcs c (mem_cons_of_mem _ hc))
          (ready_after written ready hcommitted)
        refine ⟨j + 1, ?_, ?_⟩
        · rw [hj, take_succ_cons]
          simp only [settleAll, foldl_cons]
          rw [← hkeys]
          rfl
        · intro h
          have := hcompletes h
          simp only [length_cons]
          omega

end Loop

section Tick

variable {t : PipelineTables} {tick : Tick} {fs : List FindingRow} {ds : Dispositions}

/-- A tick over the findings with the settings, as far as it gets to read them. -/
structure Over (fs : List FindingRow) (p : Policy) (tick : Tick) : Prop where
  findings : ∀ read, tick.findings = .ok read → read.take maxFindingsPerTick = fs
  dispositions : ∀ ds, tick.dispositions = .ok ds → ds = p.dispositions
  watermark : tick.watermark = p.watermark

theorem ready_start (t : PipelineTables) (l : LoopContext) (fs : List FindingRow)
    (decided : l.alreadyDecided =
      findDecidedNoticeKeys t (organizationIds fs) (fs.map noticeKeyFor)) :
    Ready l (.start t (findExistingIncidents t (organizationIds fs))) fs := by
  have horganization : ∀ f ∈ fs, f.organizationId ∈ organizationIds fs := by
    intro f hf
    rw [organizationIds, mem_eraseDups]
    exact mem_map_of_mem hf
  constructor
  · intro f hf key
    simp only [Loop.start]
    rw [mem_findExistingIncidents]
    exact and_iff_right (horganization f hf)
  · intro f _ hdecided
    rw [decided, mem_findDecidedNoticeKeys] at hdecided
    exact hdecided.2

variable {p : Policy}

/-- Either a tick stops before its loop, or it runs the loop over the chunks. -/
theorem tick_cases (reads : Over fs p tick) :
    ((runIntake t tick).tables = t ∧ (runIntake t tick).committed = [] ∧
      (TickResult.completes (runIntake t tick) = true → fs = [])) ∨
    ∃ l : LoopContext, l.tick = tick ∧ policyOf l = p ∧
      Ready l (.start t (findExistingIncidents t (organizationIds fs))) fs ∧
      runIntake t tick = l.run (.start t (findExistingIncidents t (organizationIds fs)))
        (chunks findingsPerChunk fs) := by
  simp only [runIntake]
  split
  · exact .inl ⟨rfl, rfl, by simp [TickResult.completes, emptyReport]⟩
  · split
    · exact .inl ⟨rfl, rfl, by simp [TickResult.completes]⟩
    · next read hread =>
      rw [reads.findings read hread]
      simp only [runFindings]
      split
      · next hempty => exact .inl ⟨rfl, rfl, fun _ => List.isEmpty_iff.mp hempty⟩
      · split
        · exact .inl ⟨rfl, rfl, by simp [TickResult.completes, emptyReport]⟩
        · split
          · exact .inl ⟨rfl, rfl, by simp [TickResult.completes]⟩
          · next ds hds =>
            split
            · exact .inl ⟨rfl, rfl, by simp [TickResult.completes, emptyReport]⟩
            · refine .inr ⟨_, rfl, ?_, ready_start t _ fs rfl, rfl⟩
              rw [policyOf, reads.dispositions ds hds, reads.watermark]

theorem mem_of_chunk {c : List FindingRow} (hc : c ∈ chunks findingsPerChunk fs) :
    ∀ f ∈ c, f ∈ fs := by
  intro f hf
  rw [← flatten_chunks findingsPerChunk (by decide) fs]
  exact mem_flatten_of_mem hc hf

/-- A tick settles the chunks of its findings up to the one where it stops. -/
theorem tick_keys (reads : Over fs p tick) :
    ∃ j, keysOf (runIntake t tick).tables =
        settleAll p (keysOf t) ((chunks findingsPerChunk fs).take j) ∧
      (TickResult.completes (runIntake t tick) = true →
        (chunks findingsPerChunk fs).length ≤ j) := by
  obtain ⟨htables, _, hcompletes⟩ | ⟨l, rfl, rfl, ready, hrun⟩ := tick_cases (t := t) reads
  · refine ⟨0, by rw [htables]; rfl, fun h => ?_⟩
    simp [hcompletes h, chunks, findingsPerChunk]
  · rw [hrun]
    exact run_keys (fun c hc => mem_of_chunk hc) ready

/-- What every committed chunk preserves holds after a tick, of the tables and the decisions. -/
theorem tick_rule {P : PipelineTables → List PipelineDecision → Prop} (reads : Over fs p tick)
    (chunk : ∀ t t' ds c existing decided createdAt, (∀ f ∈ c, f ∈ fs) →
      Matches existing decided (keysOf t) c →
      Committed t createdAt (FindingPipeline.decide c existing
        (p.context tick.tickAtIso decided)) t' → P t ds →
      P t' (ds ++ [FindingPipeline.decide c existing (p.context tick.tickAtIso decided)]))
    (init : P t []) : P (runIntake t tick).tables (runIntake t tick).committed := by
  obtain ⟨htables, hcommitted, _⟩ | ⟨l, rfl, rfl, ready, hrun⟩ := tick_cases (t := t) reads
  · rwa [htables, hcommitted]
  · rw [hrun]
    have hrule : ∀ cs s, (∀ c ∈ cs, ∀ f ∈ c, f ∈ fs) → Ready l s fs → P s.tables s.committed →
        P (l.run s cs).tables (l.run s cs).committed := by
      intro cs
      induction cs with
      | nil => exact fun _ _ _ h => h
      | cons c cs ih =>
        intro s hcs ready h
        simp only [LoopContext.run]
        split
        · exact h
        · split
          · exact h
          · next t' written hcommit =>
            have hcommitted := commit_spec hcommit
            have hc := hcs c (mem_cons_self ..)
            exact ih _ (fun c hc => hcs c (mem_cons_of_mem _ hc))
              (ready_after written ready hcommitted)
              (chunk _ _ _ _ _ _ _ hc (Matches.subset ready hc) hcommitted h)
    exact hrule _ _ (fun c hc => mem_of_chunk hc) ready init

/-- Ticks in a row. -/
def runTicks (t : PipelineTables) (ticks : List Tick) : PipelineTables :=
  ticks.foldl (fun t tick => (runIntake t tick).tables) t

theorem runTicks_keys {ticks : List Tick} (reads : ∀ k ∈ ticks, Over fs p k) :
    ∃ j, keysOf (runTicks t ticks) =
      settleAll p (keysOf t) ((chunks findingsPerChunk fs).take j) := by
  induction ticks using reverseRecOn with
  | nil => exact ⟨0, rfl⟩
  | append_singleton ticks last ih =>
    obtain ⟨i, hi⟩ := ih fun k hk => reads k (mem_append_left _ hk)
    obtain ⟨j, hj, _⟩ := tick_keys (t := runTicks t ticks) (reads last (by simp))
    refine ⟨max i j, ?_⟩
    rw [runTicks, foldl_append, foldl_cons, foldl_nil]
    rw [runTicks] at hi hj
    rw [hj, hi, settleAll_resume]

/-- A tick that completes leaves everything settled, whatever ticks came before it. -/
theorem completed_keys (ticks : List Tick) {last : Tick} (reads : ∀ k ∈ ticks, Over fs p k)
    (readsLast : Over fs p last)
    (completes : TickResult.completes (runIntake (runTicks t ticks) last) = true) :
    keysOf (runIntake (runTicks t ticks) last).tables =
      settleAll p (keysOf t) (chunks findingsPerChunk fs) := by
  obtain ⟨i, hi⟩ := runTicks_keys (t := t) reads
  obtain ⟨j, hj, hall⟩ := tick_keys (t := runTicks t ticks) readsLast
  have hlength := hall completes
  rw [hj, hi, settleAll_resume, take_of_length_le (by omega)]

end Tick

end IntakeRuns
