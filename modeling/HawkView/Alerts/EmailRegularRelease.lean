import HawkView.Alerts.SendWorker

/-!
# Regular email release

The part of the regular mode that reads or writes the send tables. The answers
of its queries on other tables (epochs, owners, notifications, preferences) are
arguments, and so is the database clock, read once for each transaction.
-/

namespace EmailRegularRelease

open SendTables SendQueue SendStore

/-- `EMAIL_ATTEMPTS`, the store's own cap on the attempts of a job. -/
def EMAIL_ATTEMPTS : Nat := 3

def REGULAR_NEW_LIMIT : Nat := 6

def REGULAR_ATTEMPT_LIMIT : Nat := 12

structure EmailReleaseConfig where
  mode : ReleaseMode
  activationId : JsString
  organizationId : JsString
  ownerUserId : JsString
  recipientHash : JsString
  startsAt : Millis
  expiresAt : Millis
  sender : JsString
  appOrigin : JsString
  deriving DecidableEq, Repr

structure EmailClaim where
  job : SendJob
  worker : WorkerId
  config : EmailReleaseConfig
  deriving DecidableEq, Repr

inductive RegularEmailStatus
  | epochClosed | epochConflict | recipientUnavailable | leaseHeld | rateLimited | stale
  | retryExpired
  deriving DecidableEq, Repr

/-- `interval '1 second'`. -/
def second : Micros := 1000000

/-- How long an email claim is held, in milliseconds. -/
def holdForMs : Millis := 30000

def pending (state : SendState) : Bool := state == .ready || state == .claimed

/-- `claim_expires_at IS NULL OR claim_expires_at <= instant`. -/
def claimFree (r : JobRow) (instant : Micros) : Bool :=
  r.claimExpiresAt.all fun expires => decide (expires ≤ instant)

/-- `split_part(message_id, '|', 1) = 'incident/' || organization`. -/
def ofOrganization (organizationId : JsString) (m : MessageId) : Bool :=
  m.takeWhile (· ≠ 0x7C) == js "incident/" ++ organizationId

/-- `claimed_by = $n`, which is not true of a null. -/
def heldBy (r : JobRow) (worker : Option WorkerId) : Bool :=
  r.claimedBy.isSome && r.claimedBy == worker

/-- Durable no-send classification, never a fabricated provider result. -/
def stopJob (m : MessageId) (worker : Option WorkerId) (clock : Micros) :
    Sql.Update JobRow where
  applies r := r.messageId == m && pending r.state && (claimFree r clock || heldBy r worker)
  set r := { r with
    state := .withdrawn
    withdrawnAt := some clock, withdrawnBecause := some .messageContentUnavailable
    claimedBy := none, claimedAt := none, claimExpiresAt := none }

def deferJob (m : MessageId) (worker : Option WorkerId) (atIso : Millis) (clock : Micros) :
    Sql.Update JobRow where
  applies r := r.messageId == m && pending r.state && (claimFree r clock || heldBy r worker)
  set r := { r with
    state := .ready
    notBeforeAt := max r.notBeforeAt (timestamptz atIso + 60 * second)
    claimedBy := none, claimedAt := none, claimExpiresAt := none }

/-- What the queries of `claimRegularEmail` on other tables answered. -/
structure RegularQueries where
  clock : Micros
  /-- The status that `epochFor` refuses with, or the epoch's effective cutoff. -/
  epoch : Except RegularEmailStatus Micros
  ownerMatches : Bool
  candidate : Option MessageId
  evidenceEligible : Bool

def RegularQueries.atIso (q : RegularQueries) : Millis := iso q.clock

/-- The `WHERE` clause of the candidate query. -/
def regularCandidate (db : Database) (config : EmailReleaseConfig) (atIso : Millis)
    (cutoff : Micros) (r : JobRow) : Bool :=
  pending r.state && decide (r.notBeforeAt ≤ timestamptz atIso) &&
  claimFree r (timestamptz atIso) && ofOrganization config.organizationId r.messageId &&
  match db.envelope r.messageId with
  | some v => v.releaseMode == .regular && v.regularEpochId == some config.activationId
  | none => r.attemptsMade == 0 && decide (timestamptz (iso cutoff) ≤ r.createdAt)

/-- The envelopes of an organization in the hour before an instant. -/
def recentEnvelopes (db : Database) (organizationId : JsString) (atIso : Millis) : Nat :=
  db.envelopes.rows.countP fun v =>
    v.organizationId == organizationId && decide (timestamptz atIso - hour ≤ v.createdAt)

/-- The attempts at an organization's messages in the hour before an instant. -/
def recentAttempts (db : Database) (organizationId : JsString) (atIso : Millis) : Nat :=
  db.attempts.rows.countP fun a =>
    (db.envelope a.messageId).any (·.organizationId == organizationId) &&
      decide (timestamptz atIso - hour ≤ a.startedAt)

/-- What `claimRegularEmail` decides before it writes. -/
inductive RegularDecision
  | noJob (status : Option RegularEmailStatus)
  | stop (m : MessageId) (status : RegularEmailStatus)
  | defer (m : MessageId)
  | claim (row : JobRow)
  deriving DecidableEq, Repr

/-- The lease of the organization, over every worker. -/
def leaseHeld (db : Database) (organizationId : JsString) (clock : Micros) : Bool :=
  db.jobs.rows.any fun r =>
    r.state == .claimed && r.claimExpiresAt.any (fun expires => decide (clock < expires)) &&
      ofOrganization organizationId r.messageId

/-- The decision on the row that the candidate query locked. -/
def decideRow (db : Database) (config : EmailReleaseConfig) (q : RegularQueries)
    (row : JobRow) : RegularDecision :=
  let envelope := db.envelope row.messageId
  if row.attemptsMade ≥ min row.maxAttempts 3 ∨
      envelope.any (fun v => decide (iso v.expiresAt ≤ q.atIso + 15000)) = true then
    .stop row.messageId .retryExpired
  else if q.evidenceEligible = false then .stop row.messageId .stale
  else if envelope.isNone ∧
      recentEnvelopes db config.organizationId q.atIso ≥ REGULAR_NEW_LIMIT then
    .defer row.messageId
  else .claim row

def decideRegular (db : Database) (config : EmailReleaseConfig) (q : RegularQueries) :
    RegularDecision :=
  match q.epoch with
  | .error status => .noJob (some status)
  | .ok cutoff =>
    if leaseHeld db config.organizationId q.clock then .noJob (some .leaseHeld)
    else if q.ownerMatches = false then .noJob (some .recipientUnavailable)
    else match q.candidate.bind db.job with
      | none => .noJob none
      | some row =>
        if regularCandidate db config q.atIso cutoff row then decideRow db config q row
        else .noJob none

/-- The job as a claim hands it to its holder. -/
def claimedJob (row : JobRow) (cap : Nat) : SendJob where
  messageId := row.messageId
  idempotencyKey := row.idempotencyKey
  state := row.state
  attemptsMade := row.attemptsMade
  maxAttempts := min row.maxAttempts cap
  notBeforeIso := iso row.notBeforeAt
  claim := none
  providerId := none

def regularEnvelope (config : EmailReleaseConfig) (m : MessageId) (key : IdempotencyKey)
    (atIso : Millis) : EnvelopeRow where
  messageId := m
  activationId := config.activationId
  organizationId := config.organizationId
  ownerUserId := config.ownerUserId
  recipientHash := config.recipientHash
  startsAt := timestamptz atIso
  expiresAt := timestamptz atIso + hour
  fromAddress := config.sender
  appOrigin := config.appOrigin
  recipientAddress := none
  verifiedAt := none
  payload := none
  idempotencyKey := key
  providerId := none
  createdAt := timestamptz atIso
  releaseMode := .regular
  regularEpochId := some config.activationId

/-- Add the envelope of a message that has none. -/
def addEnvelope (db : Database) (v : EnvelopeRow) : Option Database :=
  match db.envelope v.messageId with
  | some _ => some db
  | none => (db.envelopes.insert v).map fun envelopes => { db with envelopes := envelopes }

/-- Claim the locked row and give it an envelope; no claim when the update missed. -/
def takeClaim (db : Database) (config : EmailReleaseConfig) (worker : WorkerId)
    (nowIso : Millis) (cap : Nat) (row : JobRow) (v : EnvelopeRow) :
    Option (Database × Option EmailClaim) := do
  let (db', rows) ← execute db (claimStatement row.messageId worker nowIso holdForMs)
  if rows = 1 then
    let db'' ← addEnvelope db' v
    some (db'', some ⟨claimedJob row cap, worker, config⟩)
  else some (db', none)

/-- The transaction of `claimRegularEmail`, with the ids that it draws at random. -/
def claimRegularEmail (db : Database) (config : EmailReleaseConfig) (q : RegularQueries)
    (worker : WorkerId) (key : IdempotencyKey) :
    Option (Database × Option EmailClaim × Option RegularEmailStatus) :=
  match decideRegular db config q with
  | .noJob status => some (db, none, status)
  | .stop m status =>
    (execute db (stopJob m none q.clock)).map fun (db', _) => (db', none, some status)
  | .defer m =>
    (execute db (deferJob m none q.atIso q.clock)).map
      fun (db', _) => (db', none, some .rateLimited)
  | .claim row =>
    (takeClaim db config worker q.atIso 3 row
      (regularEnvelope config row.messageId key q.atIso)).map
      fun (db', claim) => (db', claim, if claim.isSome then none else some .leaseHeld)

/-- What `regularReservationGate` decides before it writes; `lost` is where it throws. -/
inductive GateDecision
  | pass
  | lost
  | stop (status : RegularEmailStatus)
  | defer
  deriving DecidableEq, Repr

/-- What the queries of `open` on other tables answered. -/
structure OpenQueries where
  clock : Micros
  epochOpen : Bool
  evidenceEligible : Bool
  suppressed : Bool
  /-- `emailPayload` of the message as it renders now. -/
  rendered : JsString
  deriving DecidableEq, Repr

def OpenQueries.atIso (q : OpenQueries) : Millis := iso q.clock

/-- The job is claimed by this worker for some seconds more. -/
def heldFor (claim : EmailClaim) (r : JobRow) (clock : Micros) (seconds : Int) : Bool :=
  r.state == .claimed && heldBy r (some claim.worker) &&
  r.claimExpiresAt.any fun expires => decide (clock + seconds * second < expires)

def regularReservationGate (db : Database) (claim : EmailClaim) (q : OpenQueries) :
    GateDecision :=
  if q.epochOpen = false then .stop .epochClosed
  else match db.job claim.job.messageId, db.envelope claim.job.messageId with
    | some r, some v =>
      if heldFor claim r q.clock 7 = false ∨ v.releaseMode ≠ .regular ∨
          v.regularEpochId ≠ some claim.config.activationId then .lost
      else if iso v.expiresAt ≤ q.atIso + 15000 then .stop .retryExpired
      else if q.evidenceEligible = false then .stop .stale
      else if recentAttempts db claim.config.organizationId q.atIso ≥ REGULAR_ATTEMPT_LIMIT then
        .defer
      else .pass
    | _, _ => .lost

theorem stopJob_liveOnly (m : MessageId) (worker : Option WorkerId) (clock : Micros) :
    LiveOnly (stopJob m worker clock) := by
  intro r h
  simp only [stopJob, Bool.and_eq_true, pending, Bool.or_eq_true, beq_iff_eq] at h
  rcases h.1.2 with hstate | hstate <;> rw [hstate] <;> rfl

theorem deferJob_liveOnly (m : MessageId) (worker : Option WorkerId) (atIso : Millis)
    (clock : Micros) : LiveOnly (deferJob m worker atIso clock) := by
  intro r h
  simp only [deferJob, Bool.and_eq_true, pending, Bool.or_eq_true, beq_iff_eq] at h
  rcases h.1.2 with hstate | hstate <;> rw [hstate] <;> rfl

end EmailRegularRelease
