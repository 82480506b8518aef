import HawkView.Alerts.SendSystem

/-!
# The attempt budget of the drains

A drain spends the budget when its settlement commits, after the provider was
called. So the budget bounds the calls of the provider exactly as far as every
call has been settled, on the count it was made with, before the next one.
-/

namespace SendBudget

open SendTables SendQueue SendStore SendWorker EmailReleaseStore SendSystem List Option

def isSendOf (m : MessageId) : Event → Bool
  | .providerSend send => send.messageId == m
  | _ => false

def isSettlementOf (m : MessageId) : Event → Bool
  | .settled m' _ => m' == m
  | _ => false

/-- How often the provider was called for a message. -/
def sends (log : List Event) (m : MessageId) : Nat := log.countP (isSendOf m)

/-- How many settlements of a message have committed. -/
def settlements (log : List Event) (m : MessageId) : Nat := log.countP (isSettlementOf m)

/-- In every run of drains and cancellations, the provider is called for a message at most
as often as its job may be attempted. -/
def BudgetHolds : Prop :=
  ∀ (db : Database) (as : List Action) (w : World) (m : MessageId) (r : JobRow),
    as.all Action.ofDrains = true → run (.start db) as = some w → w.db.job m = some r →
      sends w.log m ≤ r.maxAttempts

/-- A step of the queue; and before the provider is called for a message, every earlier call
for it has been settled, and its job still has the count that the caller read. -/
def SettledBeforeSend (w : World) (a : Action) : Prop :=
  a.ofDrains = true ∧ match a with
  | .drain i (.attemptSend false) =>
    match (w.drains i).map Drain.phase with
    | some (.opened held _ _) =>
      settlements w.log held.job.messageId = sends w.log held.job.messageId ∧
        ∀ r ∈ w.db.job held.job.messageId, r.attemptsMade = held.job.attemptsMade
    | _ => True
  | _ => True

instance (w : World) : ∀ a, Decidable (SettledBeforeSend w a) := by
  intro a
  unfold SettledBeforeSend
  refine @instDecidableAnd _ _ inferInstance ?_
  split
  · split
    · infer_instance
    · infer_instance
  · infer_instance

/-! ## The invariant -/

/-- A drain is in flight for a message: it called the provider and has not settled. -/
def InFlight (w : World) (i : Nat) (held : Claimed) : Prop :=
  ∃ d, w.drains i = some d ∧ d.phase.inFlight = some held

structure Inv (w : World) : Prop where
  known : ∀ i d, w.drains i = some d → ∀ job ∈ d.snapshots,
    ∃ r, w.db.job job.messageId = some r ∧ r.maxAttempts = job.maxAttempts
  absent : ∀ m, w.db.job m = none → sends w.log m = 0 ∧ settlements w.log m = 0
  oneOpen : ∀ m, sends w.log m ≤ settlements w.log m + 1
  unsettled : ∀ i held, InFlight w i held →
    sends w.log held.job.messageId = settlements w.log held.job.messageId + 1
  alone : ∀ i j held held', InFlight w i held → InFlight w j held' →
    held.job.messageId = held'.job.messageId → i = j
  current : ∀ i held r, InFlight w i held → w.db.job held.job.messageId = some r →
    r.attemptsMade = held.job.attemptsMade
  counted : ∀ m r, w.db.job m = some r →
    settlements w.log m ≤ r.attemptsMade ∧ sends w.log m ≤ r.maxAttempts

theorem inv_start (db : Database) : Inv (.start db) where
  known i d h := by cases h
  absent m _ := ⟨rfl, rfl⟩
  oneOpen m := Nat.zero_le _
  unsettled i held h := by
    obtain ⟨d, hd, _⟩ := h
    cases hd
  alone i j held held' h := by
    obtain ⟨d, hd, _⟩ := h
    cases hd
  current i held r h := by
    obtain ⟨d, hd, _⟩ := h
    cases hd
  counted m r _ := ⟨Nat.zero_le _, Nat.zero_le _⟩

/-- The jobs keep their budget and their count; new ones start at nought. -/
structure SameCounts (db db' : Database) : Prop where
  kept : ∀ m r, db.job m = some r → ∃ r', db'.job m = some r' ∧
    r'.maxAttempts = r.maxAttempts ∧ r'.attemptsMade = r.attemptsMade
  came : ∀ m r', db'.job m = some r' → db.job m = none ∨
    ∃ r, db.job m = some r ∧ r'.maxAttempts = r.maxAttempts ∧
      r'.attemptsMade = r.attemptsMade

variable {db db' : Database}

theorem sameCounts_of_jobs {u : Sql.Update JobRow}
    (budget : ∀ r, (u.set r).maxAttempts = r.maxAttempts ∧ (u.set r).attemptsMade = r.attemptsMade)
    (jobs : ∀ m, db'.job m = (db.job m).map u.on) : SameCounts db db' := by
  have hon : ∀ r, (u.on r).maxAttempts = r.maxAttempts ∧
      (u.on r).attemptsMade = r.attemptsMade := by
    intro r
    by_cases h : u.applies r = true
    · rw [Sql.Update.on_pos h]
      exact budget r
    · rw [Sql.Update.on_neg h]
      exact ⟨rfl, rfl⟩
  refine ⟨?_, ?_⟩
  · intro m r hr
    exact ⟨u.on r, by rw [jobs, hr]; rfl, hon r⟩
  · intro m r' hr'
    rw [jobs, map_eq_some_iff] at hr'
    obtain ⟨r, hr, rfl⟩ := hr'
    exact Or.inr ⟨r, hr, hon r⟩

theorem sameCounts_of_eq (jobs : db'.jobs = db.jobs) :
    SameCounts db db' :=
  ⟨fun m r hr => ⟨r, by simpa [Database.job, jobs] using hr, rfl, rfl⟩,
    fun m r hr => Or.inr ⟨r, by simpa [Database.job, jobs] using hr, rfl, rfl⟩⟩

variable {w w' : World}

/-- A step that calls nobody and settles nothing: every drain has what it had or less, and
new snapshots are of rows that are there. -/
theorem inv_calm (inv : Inv w) (counts : SameCounts w.db w'.db)
    (log : ∀ m, sends w'.log m = sends w.log m ∧ settlements w'.log m = settlements w.log m)
    (known : ∀ i d, w'.drains i = some d → ∀ job ∈ d.snapshots,
      ∃ r, w.db.job job.messageId = some r ∧ r.maxAttempts = job.maxAttempts)
    (inFlight : ∀ i held, InFlight w' i held → InFlight w i held) : Inv w' where
  known i d hd job hjob := by
    obtain ⟨r, hr, hmax⟩ := known i d hd job hjob
    obtain ⟨r', hr', hmax', _⟩ := counts.kept _ r hr
    exact ⟨r', hr', hmax'.trans hmax⟩
  absent m hm := by
    rw [(log m).1, (log m).2]
    apply inv.absent
    cases hr : w.db.job m with
    | none => rfl
    | some r =>
      obtain ⟨r', hr', _⟩ := counts.kept m r hr
      rw [hm] at hr'
      cases hr'
  oneOpen m := by
    rw [(log m).1, (log m).2]
    exact inv.oneOpen m
  unsettled i held h := by
    rw [(log _).1, (log _).2]
    exact inv.unsettled i held (inFlight i held h)
  alone i j held held' h h' heq :=
    inv.alone i j held held' (inFlight i held h) (inFlight j held' h') heq
  current i held r h hr := by
    have h := inFlight i held h
    rcases counts.came _ r hr with hnone | ⟨r₀, hr₀, _, hmade⟩
    · have hzero := (inv.absent _ hnone).1
      have hopen := inv.unsettled i held h
      omega
    · rw [hmade]
      exact inv.current i held r₀ h hr₀
  counted m r hr := by
    rw [(log m).1, (log m).2]
    rcases counts.came m r hr with hnone | ⟨r₀, hr₀, hmax, hmade⟩
    · rw [(inv.absent m hnone).1, (inv.absent m hnone).2]
      exact ⟨Nat.zero_le _, Nat.zero_le _⟩
    · rw [hmax, hmade]
      exact inv.counted m r₀ hr₀

variable {i : Nat} {held : Claimed}

theorem inFlight_withDrain {j : Nat} {d : Option Drain} {events : List Event}
    (h : InFlight (withDrain w db i d events) j held) :
    (j ≠ i ∧ InFlight w j held) ∨
      (j = i ∧ ∃ d', d = some d' ∧ d'.phase.inFlight = some held) := by
  obtain ⟨d', hd', hheld⟩ := h
  rcases update_cases hd' with ⟨hj, hold⟩ | ⟨hj, hnew⟩
  · exact Or.inl ⟨hj, d', hold, hheld⟩
  · exact Or.inr ⟨hj, d', hnew, hheld⟩

variable {d d' : Drain}

/-- A drain's step that calls nobody and settles nothing. -/
theorem inv_calm_drain (inv : Inv w) (running : w.drains i = some d) (counts : SameCounts w.db db)
    (snapshots : ∀ job ∈ d'.snapshots, job ∈ d.snapshots ∨
      ∃ r, w.db.job job.messageId = some r ∧ r.maxAttempts = job.maxAttempts)
    (inFlight : ∀ held, d'.phase.inFlight = some held → d.phase.inFlight = some held) :
    Inv (withDrain w db i (some d') []) := by
  refine inv_calm inv counts (fun m => by simp [withDrain]) (forall_update inv.known ?_) ?_
  · intro d'' hd'' job hjob
    cases hd''
    rcases snapshots job hjob with hold | hnew
    · exact inv.known i d running job hold
    · exact hnew
  · intro j held h
    rcases inFlight_withDrain h with ⟨_, hold⟩ | ⟨rfl, d'', hd'', hheld⟩
    · exact hold
    · cases hd''
      exact ⟨d, running, inFlight held hheld⟩

/-- A drain that starts or is gone. -/
theorem inv_idle_drain {d : Option Drain} (inv : Inv w)
    (idle : ∀ d', d = some d' → d'.snapshots = [] ∧ d'.phase.inFlight = none) :
    Inv (withDrain w w.db i d []) := by
  refine inv_calm inv (sameCounts_of_eq rfl) (fun m => by simp [withDrain])
    (forall_update inv.known ?_) ?_
  · intro d' hd' job hjob
    rw [(idle d' hd').1] at hjob
    cases hjob
  · intro j held h
    rcases inFlight_withDrain h with ⟨_, hold⟩ | ⟨rfl, d', hd', hheld⟩
    · exact hold
    · rw [(idle d' hd').2] at hheld
      cases hheld

variable {recipient : OperatorAddress}

theorem inv_send {body : Body} (inv : Inv w) (running : w.drains i = some d)
    (phase : d.phase = .opened held recipient body)
    (settled : settlements w.log held.job.messageId = sends w.log held.job.messageId)
    (current : ∀ r ∈ w.db.job held.job.messageId, r.attemptsMade = held.job.attemptsMade) :
    Inv (withDrain w w.db i (some (d.goto (.sending held recipient)))
      [.providerSend ⟨held.permit.messageId, held.permit.attemptNo, recipient, body,
        held.job.idempotencyKey⟩]) := by
  have hsends : ∀ m, sends (w.log ++ [.providerSend ⟨held.permit.messageId,
      held.permit.attemptNo, recipient, body, held.job.idempotencyKey⟩]) m =
      sends w.log m + if held.job.messageId = m then 1 else 0 := by
    intro m
    simp [sends, isSendOf, held.permit_eq.1, countP_cons]
  have hsettlements : ∀ m, settlements (w.log ++ [.providerSend ⟨held.permit.messageId,
      held.permit.attemptNo, recipient, body, held.job.idempotencyKey⟩]) m =
      settlements w.log m := by
    intro m
    simp [settlements, isSettlementOf]
  have hjob : held.job ∈ d.snapshots := by
    simp [Drain.snapshots, phase, Phase.job, Phase.held]
  obtain ⟨r, hr, hmax⟩ := inv.known i d running held.job hjob
  have hnone : ∀ j held', InFlight w j held' →
      held'.job.messageId ≠ held.job.messageId := by
    intro j held' h heq
    have hopen := inv.unsettled j held' h
    rw [heq] at hopen
    omega
  refine ⟨forall_update inv.known ?_, ?_, ?_, ?_, ?_, ?_, ?_⟩
  · rintro _ hd' job hjob'
    cases hd'
    refine inv.known i d running job ?_
    simpa [Drain.snapshots, Drain.goto, phase, Phase.job, Phase.held] using hjob'
  · intro m hm
    have habsent := inv.absent m hm
    have hne : held.job.messageId ≠ m := by
      rintro rfl
      rw [show w.db.job held.job.messageId = none from hm] at hr
      cases hr
    simp only [withDrain, hsends, hsettlements, if_neg hne]
    exact habsent
  · intro m
    have hopen := inv.oneOpen m
    simp only [withDrain, hsends, hsettlements]
    split
    · next hm =>
      subst hm
      omega
    · omega
  · intro j held' h
    simp only [withDrain, hsends, hsettlements]
    rcases inFlight_withDrain h with ⟨_, hold⟩ | ⟨_, d', hd', hheld⟩
    · rw [if_neg (fun h => hnone j held' hold h.symm)]
      exact inv.unsettled j held' hold
    · cases hd'
      cases hheld
      simp [settled]
  · intro j k held₁ held₂ h₁ h₂ heq
    rcases inFlight_withDrain h₁ with ⟨_, hold₁⟩ | ⟨hj, d₁, hd₁, hheld₁⟩ <;>
      rcases inFlight_withDrain h₂ with ⟨_, hold₂⟩ | ⟨hk, d₂, hd₂, hheld₂⟩
    · exact inv.alone j k held₁ held₂ hold₁ hold₂ heq
    · cases hd₂
      cases hheld₂
      exact absurd heq (hnone j held₁ hold₁)
    · cases hd₁
      cases hheld₁
      exact absurd heq.symm (hnone k held₂ hold₂)
    · exact hj.trans hk.symm
  · intro j held' r' h hr'
    rcases inFlight_withDrain h with ⟨_, hold⟩ | ⟨_, d', hd', hheld⟩
    · exact inv.current j held' r' hold hr'
    · cases hd'
      cases hheld
      exact current r' hr'
  · intro m r' hr'
    have hcounted := inv.counted m r' hr'
    simp only [withDrain, hsends, hsettlements]
    refine ⟨hcounted.1, ?_⟩
    split
    · next hm =>
      subst hm
      have hsame : r' = r := Option.some.inj (hr'.symm.trans hr)
      subst hsame
      have hmade := current r' hr'
      have hwithin := held.within
      omega
    · exact hcounted.2

variable {settled : Settled}

section Settled

variable {db db' : Database} {held : Claimed} {now : Millis} {settled : Settled}
  (committed : settleAttempt db (beginAttempt held.permit now) settled
    (afterAttempt held.job settled) = some db')

include committed

variable {m : MessageId}

/-- The row of the message takes the count of the snapshot, every other row stays. -/
theorem settled_row
    (current : ∀ r, db.job held.job.messageId = some r → r.attemptsMade = held.job.attemptsMade)
    {r' : JobRow} (h : db'.job m = some r') :
    ∃ r, db.job m = some r ∧ r'.maxAttempts = r.maxAttempts ∧
      r'.attemptsMade = r.attemptsMade + if held.job.messageId = m then 1 else 0 := by
  obtain ⟨_, hjobs, _, _⟩ := settleAttempt_spec committed
  rw [hjobs m, map_eq_some_iff] at h
  obtain ⟨r, hr, rfl⟩ := h
  refine ⟨r, hr, ?_⟩
  have hkey : r.messageId = m := Sql.Table.find_key hr
  by_cases hm : held.job.messageId = m
  · have hmade := current r (by rw [hm]; exact hr)
    rw [Sql.Update.on_pos (by simp [advanceJob, hkey, hm])]
    simp [advanceJob, hm, hmade]
  · rw [Sql.Update.on_neg (by simpa [advanceJob, hkey] using fun h => hm h.symm)]
    simp [hm]

theorem settled_kept {r : JobRow} (h : db.job m = some r) :
    ∃ r', db'.job m = some r' ∧ r'.maxAttempts = r.maxAttempts := by
  obtain ⟨_, hjobs, _, _⟩ := settleAttempt_spec committed
  refine ⟨_, by rw [hjobs, h]; rfl, ?_⟩
  by_cases happlies : (advanceJob settled (afterAttempt held.job settled)).applies r = true
  · rw [Sql.Update.on_pos happlies]
    rfl
  · rw [Sql.Update.on_neg happlies]

end Settled

theorem inv_settle (inv : Inv w) (running : w.drains i = some d)
    (phase : d.phase = .settling held recipient settled)
    (committed : settleAttempt w.db (beginAttempt held.permit d.options.nowIso) settled
      (afterAttempt held.job settled) = some db)
    (quiet : Drain.Quiet d d') (ended : d'.phase.inFlight = none) :
    Inv (withDrain w db i (some d') [.settled held.job.messageId held.permit.attemptNo]) := by
  have hsends : ∀ m, sends (w.log ++ [.settled held.job.messageId held.permit.attemptNo]) m =
      sends w.log m := by
    intro m
    simp [sends, isSendOf]
  have hsettlements : ∀ m, settlements
      (w.log ++ [.settled held.job.messageId held.permit.attemptNo]) m =
      settlements w.log m + if held.job.messageId = m then 1 else 0 := by
    intro m
    simp [settlements, isSettlementOf, countP_cons]
  have hmine : InFlight w i held := ⟨d, running, by rw [phase]; rfl⟩
  have hopen := inv.unsettled i held hmine
  have hothers : ∀ j held', InFlight (withDrain w db i (some d')
      [.settled held.job.messageId held.permit.attemptNo]) j held' →
      InFlight w j held' ∧ held.job.messageId ≠ held'.job.messageId := by
    intro j held' h
    rcases inFlight_withDrain h with ⟨hj, hold⟩ | ⟨_, d'', hd'', hheld⟩
    · exact ⟨hold, fun heq => hj (inv.alone j i held' held hold hmine heq.symm)⟩
    · cases hd''
      rw [ended] at hheld
      cases hheld
  have hcurrent := fun r hr => inv.current i held r hmine hr
  refine ⟨?_, ?_, ?_, ?_, ?_, ?_, ?_⟩
  · refine forall_update ?_ ?_
    · intro j e he job hjob
      obtain ⟨r, hr, hmax⟩ := inv.known j e he job hjob
      obtain ⟨r', hr', hmax'⟩ := settled_kept committed hr
      exact ⟨r', hr', hmax'.trans hmax⟩
    · intro e he job hjob
      cases he
      obtain ⟨r, hr, hmax⟩ := inv.known i d running job (quiet.snapshots hjob)
      obtain ⟨r', hr', hmax'⟩ := settled_kept committed hr
      exact ⟨r', hr', hmax'.trans hmax⟩
  · intro m hm
    cases hr : w.db.job m with
    | some r =>
      obtain ⟨r', hr', _⟩ := settled_kept committed hr
      simp only [withDrain, hr'] at hm
      cases hm
    | none =>
      have habsent := inv.absent m hr
      have hne : held.job.messageId ≠ m := by
        rintro rfl
        omega
      simp only [withDrain, hsends, hsettlements, if_neg hne]
      exact habsent
  · intro m
    have hone := inv.oneOpen m
    simp only [withDrain, hsends, hsettlements]
    omega
  · intro j held' h
    obtain ⟨hold, hne⟩ := hothers j held' h
    simp only [withDrain, hsends, hsettlements, if_neg hne]
    exact inv.unsettled j held' hold
  · intro j k held₁ held₂ h₁ h₂ heq
    exact inv.alone j k held₁ held₂ (hothers j held₁ h₁).1 (hothers k held₂ h₂).1 heq
  · intro j held' r' h hr'
    obtain ⟨hold, hne⟩ := hothers j held' h
    obtain ⟨r, hr, _, hmade⟩ := settled_row committed hcurrent hr'
    rw [hmade, if_neg hne]
    exact inv.current j held' r hold hr
  · intro m r' hr'
    obtain ⟨r, hr, hmax, hmade⟩ := settled_row committed hcurrent hr'
    have hcounted := inv.counted m r hr
    simp only [withDrain, hsends, hsettlements, hmax, hmade]
    omega

/-- The invariant is kept by every step that the guard allows. -/
theorem inv_step {a : Action} (inv : Inv w) (guard : SettledBeforeSend w a)
    (h : step w a = some w') : Inv w' := by
  cases step_effect h with
  | enqueue enqueued =>
    refine inv_calm inv ⟨?_, ?_⟩ (fun m => ⟨rfl, rfl⟩) inv.known (fun _ _ h => h)
    · intro m r hr
      exact ⟨r, by rw [enqueue_job enqueued, hr]; rfl, rfl, rfl⟩
    · intro m r hr
      rw [enqueue_job enqueued] at hr
      cases hold : w.db.job m with
      | none => exact Or.inl rfl
      | some r₀ =>
        rw [hold] at hr
        cases hr
        exact Or.inr ⟨r, rfl, rfl, rfl⟩
  | cancel executed =>
    refine inv_calm inv (sameCounts_of_jobs (fun _ => ⟨rfl, rfl⟩)
      (execute_job (fun _ => rfl) executed)) ?_ inv.known (fun _ _ h => h)
    intro m
    simp [sends, settlements, isSendOf, isSettlementOf]
  | @startDrain i options =>
    have hstart := inv_idle_drain (i := i) (d := some (drainOnce options)) inv
      (by rintro _ ⟨⟩; exact ⟨rfl, rfl⟩)
    simpa [withDrain] using hstart
  | @crashDrain i =>
    have hgone := inv_idle_drain (i := i) (d := none) inv (by rintro _ ⟨⟩)
    simpa [withDrain] using hgone
  | drain running effect =>
    cases effect with
    | quiet quiet =>
      exact inv_calm_drain inv running (sameCounts_of_eq rfl)
        (fun job hjob => Or.inl (quiet.snapshots hjob)) quiet.inFlight
    | read answer due phase =>
      refine inv_calm_drain inv running (sameCounts_of_eq rfl) ?_ ?_
      · intro job hjob
        simp only [Drain.snapshots, due, phase, Phase.job, Phase.held, map_none,
          toList_none, append_nil, List.mem_map] at hjob
        obtain ⟨r, hr, rfl⟩ := hjob
        exact Or.inr ⟨r, mem_of_isDueJobs answer hr, rfl⟩
      · intro held hheld
        rw [phase] at hheld
        cases hheld
    | @claim _ chosen _ rows _ phase executed after =>
      subst after
      refine inv_calm_drain inv running (sameCounts_of_jobs (fun _ => ⟨rfl, rfl⟩)
        (execute_job (fun _ => rfl) executed)) ?_ ?_
      · exact fun job hjob => Or.inl (Drain.claimed_snapshots phase rows hjob)
      · intro held hheld
        rw [Drain.claimed_inFlight] at hheld
        cases hheld
    | withdraw _ executed quiet =>
      exact inv_calm_drain inv running (sameCounts_of_jobs (fun _ => ⟨rfl, rfl⟩)
        (execute_job (fun _ => rfl) executed))
        (fun job hjob => Or.inl (quiet.snapshots hjob)) quiet.inFlight
    | openAttempt phase opened =>
      refine inv_calm_drain inv running (sameCounts_of_eq (openAttempt_tables opened).1)
        (fun job hjob => Or.inl ?_) ?_
      · simpa [Drain.snapshots, Drain.goto, phase, Phase.job, Phase.held] using hjob
      · intro held hheld
        cases hheld
    | send phase =>
      have hguard := guard.2
      simp only [running, map_some, phase] at hguard
      exact inv_send inv running phase hguard.1 hguard.2
    | settle phase committed quiet ended =>
      exact inv_settle inv running phase committed quiet ended
  | startRelease => cases guard.1
  | release _ _ => cases guard.1
  | crashRelease => cases guard.1

/-! ## Runs -/

/-- If every call of the provider for a message was settled, on the count it was made with,
before the next one, the calls stay within the budget of the job. -/
theorem sends_within_budget {db : Database} {as : List Action} {w : World}
    (guarded : Runs.Along step SettledBeforeSend (.start db) as)
    (h : run (.start db) as = some w) {m : MessageId} {r : JobRow}
    (found : w.db.job m = some r) : sends w.log m ≤ r.maxAttempts :=
  ((Runs.invariant_along (fun _ _ _ => inv_step) (inv_start db) guarded h).counted m r found).2

/-- A refused send is settled before the next worker sends again, after the backoff. -/
def settledBetweenSends : List Action :=
  [.enqueue (sampleJob 2)] ++
  sendingDrain 0 ⟨js "a", 0, 1000, 1⟩ (sampleJob 2).row ++
  [.drain 0 (.answer (.refused false (js "busy"))), .drain 0 .settle] ++
  sendingDrain 1 ⟨js "b", 70000, 1000, 1⟩
    { (sampleJob 2).row with attemptsMade := 1, notBeforeAt := timestamptz 60000 }

/-- Two sends with a settlement between them are within a budget of two. -/
theorem settled_sends_within_budget :
    sends (reached settledBetweenSends).log (sampleJob 2).messageId = 2 ∧
      ∃ r, (reached settledBetweenSends).db.job (sampleJob 2).messageId = some r ∧
        sends (reached settledBetweenSends).log (sampleJob 2).messageId ≤ r.maxAttempts := by
  have hfound : ((reached settledBetweenSends).db.job (sampleJob 2).messageId).isSome := by
    decide
  obtain ⟨r, hr⟩ := isSome_iff_exists.mp hfound
  have hrun : run (.start .empty) settledBetweenSends = some (reached settledBetweenSends) :=
    run_reached (by decide)
  exact ⟨by decide, r, hr, sends_within_budget (by decide) hrun hr⟩

/-- Two workers send a message one after the other, the first one dying before it settles. -/
def crashedBetweenSends : List Action :=
  [.enqueue (sampleJob 1)] ++
  sendingDrain 0 ⟨js "a", 0, 1000, 1⟩ (sampleJob 1).row ++ [.crashDrain 0] ++
  sendingDrain 1 ⟨js "b", 5000, 1000, 1⟩ (heldRow (sampleJob 1).row (js "a") 0 1000)

/-- A crash between a send and its settlement spends nothing of the budget. -/
theorem budget_not_held : ¬ BudgetHolds := by
  intro claim
  have hmax : ((reached crashedBetweenSends).db.job (sampleJob 1).messageId).map
      JobRow.maxAttempts = some 1 := by
    decide
  have hsends : sends (reached crashedBetweenSends).log (sampleJob 1).messageId = 2 := by
    decide
  obtain ⟨r, hr, hone⟩ := map_eq_some_iff.mp hmax
  have hbound := claim .empty crashedBetweenSends _ _ r (by decide) (run_reached (by decide)) hr
  omega

end SendBudget
