import HawkView.Alerts.SendSystem

/-!
# Finished jobs

Every statement but one names the live states in its `WHERE` clause, so a
finished job stays as it finished. The settlement of a drain names the message
only. The constraints stop it on a sent, cancelled or withdrawn job, and nothing
stops it on a job that is exhausted or given up.
-/

namespace SendTerminal

open SendTables SendQueue SendStore SendWorker EmailReleaseStore EmailRelease SendSystem Option

/-- The settlement leaves a job that has run out of attempts, or was given up, as it is. -/
def settlesTo (state : SendState) (job : SendJob) (settled : Settled) : Bool :=
  match state, settled with
  | .exhausted, .refusedRetryable _ _ => decide (job.attemptsMade + 1 ≥ job.maxAttempts)
  | .exhausted, _ => false
  | .gaveUp, .refusedPermanent _ _ => true
  | .gaveUp, _ => false
  | _, _ => true

/-- No settlement is about to move an exhausted or given up job to another state. -/
def NoLateSettlement (w : World) : Action → Prop
  | .drain i .settle =>
    match (w.drains i).map Drain.phase with
    | some (.settling held _ settled) =>
      ∀ r ∈ w.db.job held.job.messageId, settlesTo r.state held.job settled = true
    | _ => True
  | _ => True

instance (w : World) : ∀ a, Decidable (NoLateSettlement w a) := by
  intro a
  unfold NoLateSettlement
  split
  · generalize (w.drains _).map Drain.phase = phase
    rcases phase with _ | phase
    · exact instDecidableTrue
    · cases phase <;> infer_instance
  · infer_instance

/-- In every run of drains and cancellations, a job that has finished keeps its state. -/
def TerminalIsFinal : Prop :=
  ∀ (as bs : List Action) (w w' : World) (m : MessageId) (r : JobRow),
    (as ++ bs).all Action.ofDrains = true → run (.start .empty) as = some w →
      run w bs = some w' → w.db.job m = some r → terminal r.state = true →
        ∃ r', w'.db.job m = some r' ∧ r'.state = r.state

/-! ## One step -/

/-- The state of the job, if it has finished, is still the same. -/
def KeepsFinished (db db' : Database) : Prop :=
  ∀ m r, db.job m = some r → terminal r.state = true →
    ∃ r', db'.job m = some r' ∧ r'.state = r.state

theorem keepsFinished_refl (db : Database) : KeepsFinished db db :=
  fun _ r hr _ => ⟨r, hr, rfl⟩

variable {db db' : Database}

theorem keepsFinished_of_liveOnly {u : Sql.Update JobRow} (liveOnly : LiveOnly u)
    (jobs : ∀ m, db'.job m = (db.job m).map u.on) :
    KeepsFinished db db' := by
  intro m r hr hterminal
  refine ⟨r, ?_, rfl⟩
  have hmiss : ¬ u.applies r = true := by
    intro happlies
    rw [liveOnly r happlies] at hterminal
    cases hterminal
  rw [jobs, hr, map_some, Sql.Update.on_neg hmiss]

variable {settled : Settled}

/-- The constraints refuse a settlement of a sent, cancelled or withdrawn job. -/
theorem advanceJob_state {r : JobRow} {job : SendJob} (sound : r.Sound)
    (sound' : ((advanceJob settled (afterAttempt job settled)).set r).Sound)
    (hterminal : terminal r.state = true) (guard : settlesTo r.state job settled = true) :
    (afterAttempt job settled).state = r.state := by
  have hset : ((advanceJob settled (afterAttempt job settled)).set r).state =
      (afterAttempt job settled).state := rfl
  rcases (terminal_iff r.state).mp hterminal with h | h | h | h | h
  · rw [h, ← hset, sound'.sent]
    have hprovider := sound.sent.mp h
    cases hs : settled.providerId with
    | none => simpa [advanceJob, hs] using hprovider
    | some p => simp [advanceJob, hs]
  · rw [h] at guard ⊢
    cases settled with
    | refusedRetryable atIso because =>
      have hspent : job.attemptsMade + 1 ≥ job.maxAttempts := by
        simpa [settlesTo] using guard
      simp [afterAttempt, hspent]
    | accepted p t => simp [settlesTo] at guard
    | refusedPermanent t b => simp [settlesTo] at guard
  · rw [h] at guard ⊢
    cases settled with
    | refusedPermanent t b => rfl
    | accepted p t => simp [settlesTo] at guard
    | refusedRetryable t b => simp [settlesTo] at guard
  · rw [h, ← hset, sound'.cancelled]
    exact sound.cancelled.mp h
  · rw [h, ← hset, sound'.withdrawn]
    exact sound.withdrawn.mp h

theorem settleAttempt_keepsFinished {held : Claimed} {now : Millis}
    (h : settleAttempt db (beginAttempt held.permit now) settled
      (afterAttempt held.job settled) = some db')
    (guard : ∀ r ∈ db.job held.job.messageId, settlesTo r.state held.job settled = true) :
    KeepsFinished db db' := by
  obtain ⟨⟨s, hs, hcheck⟩, hjobs, _, _⟩ := settleAttempt_spec h
  intro m r hr hterminal
  rw [hjobs m, hr]
  refine ⟨_, rfl, ?_⟩
  by_cases happlies : (advanceJob settled (afterAttempt held.job settled)).applies r = true
  · rw [Sql.Update.on_pos happlies]
    have hm : r.messageId = held.job.messageId := by
      simpa [advanceJob] using happlies
    have hsame : s = r := by
      have hkey : r.messageId = m := Sql.Table.find_key hr
      rw [afterAttempt_messageId, ← hm, hkey, hr] at hs
      exact (Option.some.inj hs).symm
    subst hsame
    rw [Sql.Update.on_pos happlies] at hcheck
    have hfound : db.job held.job.messageId = some s := by
      rw [← afterAttempt_messageId held.job settled]
      exact hs
    exact advanceJob_state (JobRow.sound_of_check (Sql.Table.find_check hr))
      (JobRow.sound_of_check hcheck) hterminal (guard s hfound)
  · rw [Sql.Update.on_neg happlies]

variable {events : List Event}

theorem drain_keepsFinished {d d' : Drain} {a : DrainAction}
    (h : Drain.Effect db d a db' d' events)
    (guard : a = .settle → ∀ held recipient settled, d.phase = .settling held recipient settled →
      ∀ r ∈ db.job held.job.messageId, settlesTo r.state held.job settled = true) :
    KeepsFinished db db' := by
  cases h with
  | quiet _ => exact keepsFinished_refl db
  | read _ _ _ => exact keepsFinished_refl db
  | claim _ executed _ =>
    exact keepsFinished_of_liveOnly (claimStatement_liveOnly _ _ _ _)
      (execute_job (fun _ => rfl) executed)
  | withdraw _ executed _ =>
    exact keepsFinished_of_liveOnly (withdrawStatement_liveOnly _ _ _)
      (execute_job (fun _ => rfl) executed)
  | openAttempt _ opened =>
    intro m r hr _
    refine ⟨r, ?_, rfl⟩
    simpa [Database.job, (openAttempt_tables opened).1] using hr
  | send _ => exact keepsFinished_refl db
  | settle phase committed _ _ =>
    exact settleAttempt_keepsFinished committed (guard rfl _ _ _ phase)

theorem release_keepsFinished {r r' : Release} {a : ReleaseAction}
    (h : Release.Effect db r a db' r' events) : KeepsFinished db db' := by
  cases h with
  | quiet _ => exact keepsFinished_refl db
  | finish finishes jobs _ _ _ => exact keepsFinished_of_liveOnly finishes.liveOnly jobs
  | defer _ executed _ =>
    exact keepsFinished_of_liveOnly (EmailRegularRelease.deferJob_liveOnly _ _ _ _)
      (execute_job (fun _ => rfl) executed)
  | claim taken _ =>
    exact keepsFinished_of_liveOnly (claimStatement_liveOnly _ _ _ _) (takeClaim_spec taken).1
  | reserve reserved =>
    obtain ⟨_, _, _, _, jobs, _, _⟩ := reserve_spec reserved
    exact keepsFinished_of_liveOnly (countAttempt_liveOnly _ _ _) jobs
  | send _ => exact keepsFinished_refl db
  | settle committed _ =>
    exact keepsFinished_of_liveOnly (settleJob_liveOnly _ _ _ _) (settle_spec committed).2.1

theorem step_keepsFinished {w w' : World} {a : Action} (guard : NoLateSettlement w a)
    (h : step w a = some w') : KeepsFinished w.db w'.db := by
  cases step_effect h with
  | enqueue enqueued =>
    intro m r hr _
    exact ⟨r, by rw [enqueue_job enqueued, hr]; rfl, rfl⟩
  | cancel executed =>
    exact keepsFinished_of_liveOnly (cancelStatement_liveOnly _ _)
      (execute_job (fun _ => rfl) executed)
  | drain running effect =>
    refine drain_keepsFinished effect ?_
    rintro rfl held recipient settled phase
    simpa [NoLateSettlement, running, phase] using guard
  | release _ effect => exact release_keepsFinished effect
  | startDrain => exact keepsFinished_refl _
  | crashDrain => exact keepsFinished_refl _
  | startRelease => exact keepsFinished_refl _
  | crashRelease => exact keepsFinished_refl _

/-! ## Runs -/

/-- Without a late settlement of an exhausted or given up job, a finished job keeps its
state for the rest of the run, whatever every party does. -/
theorem finished_job_keeps_state {w w' : World} {as : List Action}
    (guarded : Runs.Along step NoLateSettlement w as) (h : run w as = some w')
    {m : MessageId} {r : JobRow} (found : w.db.job m = some r)
    (finished : terminal r.state = true) :
    ∃ r', w'.db.job m = some r' ∧ r'.state = r.state := by
  have keeps : ∀ (s : World) (a : Action) (s' : World),
      (∃ r', s.db.job m = some r' ∧ r'.state = r.state) → NoLateSettlement s a →
        step s a = some s' → ∃ r', s'.db.job m = some r' ∧ r'.state = r.state := by
    rintro s a s' ⟨r', hr', hstate⟩ guard hstep
    obtain ⟨r'', hr'', hstate'⟩ :=
      step_keepsFinished guard hstep m r' hr' (by rw [hstate]; exact finished)
    exact ⟨r'', hr'', hstate'.trans hstate⟩
  exact Runs.invariant_along keeps ⟨r, found, rfl⟩ guarded h

/-- A worker's send is refused for good while the send of another, whose claim ran out,
is still in flight. -/
def givenUpWhileInFlight : List Action :=
  [.enqueue (sampleJob 3)] ++
  sendingDrain 0 ⟨js "a", 0, 1000, 1⟩ (sampleJob 3).row ++
  sendingDrain 1 ⟨js "b", 5000, 1000, 1⟩ (heldRow (sampleJob 3).row (js "a") 0 1000) ++
  [.drain 1 (.answer (.refused true (js "no such mailbox"))), .drain 1 .settle]

/-- The first worker settles late, with the answer that its provider gave. -/
def lateSettlement (permanent : Bool) : List Action :=
  [.drain 0 (.answer (.refused permanent (js "refused"))), .drain 0 .settle]

/-- A stop pressed before a late settlement. -/
theorem spam_notBlank : notBlank (js "spam") = true := by decide

def stopped : List Action :=
  [.cancel ⟨.everything 9000, js "operator", ⟨js "spam", spam_notBlank⟩⟩ 9000]

/-- A stop and a late settlement that agrees with the state of the job change nothing. -/
theorem given_up_job_keeps_state :
    ∃ r', (reached (givenUpWhileInFlight ++ (stopped ++ lateSettlement true))).db.job
      (sampleJob 3).messageId = some r' ∧ r'.state = .gaveUp := by
  have hgaveUp : ((reached givenUpWhileInFlight).db.job (sampleJob 3).messageId).map
      JobRow.state = some .gaveUp := by
    decide
  obtain ⟨r, hr, hstate⟩ := map_eq_some_iff.mp hgaveUp
  have hrun : run (reached givenUpWhileInFlight) (stopped ++ lateSettlement true) =
      some (reached (givenUpWhileInFlight ++ (stopped ++ lateSettlement true))) :=
    run_reached_append (by decide)
  obtain ⟨r', hr', hkept⟩ :=
    finished_job_keeps_state (by decide) hrun hr (by rw [hstate]; rfl)
  exact ⟨r', hr', hkept.trans hstate⟩

/-- A settlement that arrives late can put a given up job back in the queue. -/
theorem terminal_not_final : ¬ TerminalIsFinal := by
  intro claim
  have hgaveUp : ((reached givenUpWhileInFlight).db.job (sampleJob 3).messageId).map
      JobRow.state = some .gaveUp := by
    decide
  have hready : ((reached (givenUpWhileInFlight ++ lateSettlement false)).db.job
      (sampleJob 3).messageId).map JobRow.state = some .ready := by
    decide
  obtain ⟨r, hr, hstate⟩ := map_eq_some_iff.mp hgaveUp
  obtain ⟨r', hr', hstate'⟩ := map_eq_some_iff.mp hready
  obtain ⟨r'', hr'', hkept⟩ := claim givenUpWhileInFlight (lateSettlement false) _ _ _ r
    (by decide) (run_reached (by decide)) (run_reached_append (by decide)) hr
    (by rw [hstate]; rfl)
  have heq : r'' = r' := Option.some.inj (hr''.symm.trans hr')
  rw [heq, hstate', hstate] at hkept
  cases hkept

end SendTerminal
