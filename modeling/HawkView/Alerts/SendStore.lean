import HawkView.Alerts.SendQueue

/-!
# The send store over a database

The statements of `sendStoreOver` on the send tables. A statement that breaks a
constraint throws, and a transaction that throws leaves the tables as they were:
both are `none`.
-/

namespace SendStore

open SendTables SendQueue Option

def jobFrom (row : JobRow) : SendJob where
  messageId := row.messageId
  idempotencyKey := row.idempotencyKey
  state := row.state
  attemptsMade := row.attemptsMade
  maxAttempts := row.maxAttempts
  notBeforeIso := iso row.notBeforeAt
  claim := match row.claimedBy, row.claimedAt, row.claimExpiresAt with
    | some claimedBy, some claimedAt, some expires => some ⟨claimedBy, iso claimedAt, iso expires⟩
    | _, _, _ => none
  providerId := row.providerId

/-- The `WHERE` clause of `dueJobs`. -/
def due (nowIso : Millis) (r : JobRow) : Bool :=
  !terminal r.state && decide (r.notBeforeAt ≤ timestamptz nowIso) &&
  decide (r.attemptsMade < r.maxAttempts)

/-- The answers `dueJobs` can give: the earliest due rows in order, ties in any order. -/
def isDueJobs (db : Database) (nowIso : Millis) (limit : Nat) (rows : List JobRow) : Bool :=
  (rows.all fun r => db.jobs.rows.contains r && due nowIso r) &&
  decide (rows.map JobRow.messageId).Nodup &&
  decide (rows.Pairwise fun a b => a.notBeforeAt ≤ b.notBeforeAt) &&
  decide (rows.length ≤ limit) &&
  db.jobs.rows.all fun r =>
    rows.contains r || !due nowIso r ||
      (decide (rows.length = limit) && rows.all fun a => decide (a.notBeforeAt ≤ r.notBeforeAt))

/-- One update of `alert_send_jobs`, with its row count. -/
def execute (db : Database) (u : Sql.Update JobRow) : Option (Database × Nat) :=
  (db.jobs.update u).map fun (jobs, rows) => ({ db with jobs := jobs }, rows)

def openAttempt (db : Database) (attempt : Attempt) : Option Database :=
  (db.attempts.insertNew AttemptRow.key
    ⟨attempt.messageId, attempt.attemptNo, timestamptz attempt.startedAtIso,
      none, none, none, none⟩).map
    fun attempts => { db with attempts := attempts }

def settleRow (attempt : Attempt) (settled : Settled) : Sql.Update AttemptRow where
  applies r := r.messageId == attempt.messageId && r.attemptNo == attempt.attemptNo
  set r := { r with
    settledKind := some settled.kind
    settledAt := some (timestamptz settled.atIso)
    providerId := settled.providerId
    because := settled.because }

/-- The job half of a settlement: its `WHERE` clause names the message and nothing else. -/
def advanceJob (settled : Settled) (job : SendJob) : Sql.Update JobRow where
  applies r := r.messageId == job.messageId
  set r := { r with
    state := job.state
    attemptsMade := job.attemptsMade
    providerId := settled.providerId <|> r.providerId
    notBeforeAt := timestamptz job.notBeforeIso
    claimedBy := job.claim.map Claim.claimedBy
    claimedAt := job.claim.map fun claim => timestamptz claim.atIso
    claimExpiresAt := job.claim.map fun claim => timestamptz claim.expiresIso }

/-- One transaction: both updates hit exactly one row, or neither happens. -/
def settleAttempt (db : Database) (attempt : Attempt) (settled : Settled) (job : SendJob) :
    Option Database := do
  let attempts ← db.attempts.updateOne (settleRow attempt settled)
  let jobs ← db.jobs.updateOne (advanceJob settled job)
  some { db with attempts := attempts, jobs := jobs }

section Rules

variable {db db' : Database} {u : Sql.Update JobRow} {rows : Nat}

theorem mem_of_isDueJobs {nowIso : Millis} {limit : Nat} {answer : List JobRow}
    (h : isDueJobs db nowIso limit answer = true) {r : JobRow} (hr : r ∈ answer) :
    db.job r.messageId = some r := by
  simp only [isDueJobs, Bool.and_eq_true, List.all_eq_true, List.contains_iff_mem] at h
  exact Sql.Table.find_of_mem jobs_keyed (h.1.1.1.1 r hr).1

/-- An update of the jobs acts on each job by itself and leaves the other tables alone. -/
theorem execute_job (keeps : u.KeepsKey JobRow.messageId)
    (h : execute db u = some (db', rows)) (m : MessageId) :
    db'.job m = (db.job m).map u.on := by
  simp only [execute, map_eq_some_iff, Prod.mk.injEq] at h
  obtain ⟨⟨jobs, n⟩, hupdate, hdb, _⟩ := h
  subst hdb
  exact Sql.Table.find_update keeps hupdate

theorem execute_tables (h : execute db u = some (db', rows)) :
    db'.attempts = db.attempts ∧ db'.envelopes = db.envelopes := by
  simp only [execute, map_eq_some_iff, Prod.mk.injEq] at h
  obtain ⟨_, _, hdb, _⟩ := h
  subst hdb
  exact ⟨rfl, rfl⟩

theorem execute_hit {m : MessageId} (atKey : u.AtKey JobRow.messageId m)
    (h : execute db u = some (db', rows)) (hrows : rows ≠ 0) :
    ∃ r, db.job m = some r ∧ u.applies r = true := by
  simp only [execute, map_eq_some_iff, Prod.mk.injEq] at h
  obtain ⟨⟨jobs, n⟩, hupdate, _, hn⟩ := h
  subst hn
  exact Sql.Table.update_hit jobs_keyed atKey hupdate hrows

variable {attempt : Attempt}

theorem openAttempt_tables (h : openAttempt db attempt = some db') :
    db'.jobs = db.jobs ∧ db'.envelopes = db.envelopes := by
  simp only [openAttempt, map_eq_some_iff] at h
  obtain ⟨_, _, hdb⟩ := h
  subst hdb
  exact ⟨rfl, rfl⟩

/-- Opening an attempt adds its row unless the number is taken, and changes no other. -/
theorem openAttempt_attempt (h : openAttempt db attempt = some db') (m : MessageId) (n : Nat) :
    db'.attempt m n = (db.attempt m n).or
      (if (attempt.messageId, attempt.attemptNo) = (m, n) then
        some ⟨attempt.messageId, attempt.attemptNo, timestamptz attempt.startedAtIso,
          none, none, none, none⟩
      else none) := by
  simp only [openAttempt, map_eq_some_iff] at h
  obtain ⟨attempts, hinsert, hdb⟩ := h
  subst hdb
  exact Sql.Table.find_insertNew hinsert

/-- What a committed settlement did. -/
theorem settleAttempt_spec {settled : Settled} {job : SendJob}
    (h : settleAttempt db attempt settled job = some db') :
    (∃ r, db.job job.messageId = some r ∧ ((advanceJob settled job).on r).check = true) ∧
    (∀ m, db'.job m = (db.job m).map (advanceJob settled job).on) ∧
    (∀ m n, db'.attempt m n = (db.attempt m n).map (settleRow attempt settled).on) ∧
    db'.envelopes = db.envelopes := by
  simp only [settleAttempt, bind_eq_bind, bind_eq_some_iff,
    Option.some.injEq] at h
  obtain ⟨attempts, hattempts, jobs, hjobs, hdb⟩ := h
  subst hdb
  have hattempts := Sql.Table.updateOne_update hattempts
  have hjobs := Sql.Table.updateOne_update hjobs
  have keepsJob : (advanceJob settled job).KeepsKey JobRow.messageId := fun _ => rfl
  have keepsAttempt : (settleRow attempt settled).KeepsKey AttemptRow.key := fun _ => rfl
  have atKey : (advanceJob settled job).AtKey JobRow.messageId job.messageId := by
    intro r hr
    simpa [advanceJob] using hr
  obtain ⟨r, hr, _⟩ := Sql.Table.update_hit jobs_keyed atKey hjobs Nat.one_ne_zero
  refine ⟨⟨r, hr, Sql.Table.find_check_update hjobs (Sql.Table.find_mem hr)⟩, ?_, ?_, rfl⟩
  · intro m
    exact Sql.Table.find_update keepsJob hjobs
  · intro m n
    exact Sql.Table.find_update keepsAttempt hattempts

end Rules

end SendStore
