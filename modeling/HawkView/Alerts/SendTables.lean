import HawkView.Lib.JsString
import HawkView.Lib.Table

/-!
# The send tables

The columns of `alert_send_jobs`, `alert_send_attempts` and
`alert_email_envelopes` that the send path reads or writes, with their CHECK
constraints and unique indexes. A time in a column has microseconds, a time of
the program milliseconds.
-/

namespace SendTables

abbrev MessageId := JsString
abbrev IdempotencyKey := JsString
abbrev ProviderMessageId := JsString
abbrev WorkerId := JsString
abbrev OperatorAddress := JsString
abbrev Body := JsString

/-- A `timestamptz(6)`, in microseconds since the epoch. -/
abbrev Micros := Int

/-- A JavaScript time value. -/
abbrev Millis := Int

/-- `$n::timestamptz`. -/
def timestamptz (t : Millis) : Micros := t * 1000

/-- A column read as a `Date`. -/
def iso (t : Micros) : Millis := t / 1000

inductive SendState
  | ready | claimed | sent | exhausted | gaveUp | cancelled | withdrawn
  deriving DecidableEq, Repr

inductive WithdrawnReason
  | alertTypeDisabled | noVerifiedRecipient | incidentNoLongerActionable
  | messageContentUnavailable
  deriving DecidableEq, Repr

structure JobRow where
  messageId : MessageId
  idempotencyKey : IdempotencyKey
  state : SendState
  attemptsMade : Nat
  maxAttempts : Nat
  notBeforeAt : Micros
  claimedBy : Option WorkerId
  claimedAt : Option Micros
  claimExpiresAt : Option Micros
  providerId : Option ProviderMessageId
  createdAt : Micros
  cancelledAt : Option Micros
  cancelledBy : Option JsString
  cancelledBecause : Option JsString
  withdrawnAt : Option Micros
  withdrawnBecause : Option WithdrawnReason
  deriving DecidableEq, Repr

/-- `num_nonnulls(a, b, c) IN (0, 3)`. -/
def allOrNone {α β γ : Type} (a : Option α) (b : Option β) (c : Option γ) : Bool :=
  a.isSome == b.isSome && b.isSome == c.isSome

/-- `length(btrim(text)) > 0`: `btrim` takes spaces off, nothing else. -/
def notBlank (text : JsString) : Bool := text.any (· ≠ 0x20)

/-- The CHECK constraints of `alert_send_jobs`. -/
def JobRow.check (r : JobRow) : Bool :=
  decide (1 ≤ r.maxAttempts) && decide (r.attemptsMade ≤ r.maxAttempts) &&
  allOrNone r.claimedBy r.claimedAt r.claimExpiresAt &&
  (decide (r.state = .sent) == r.providerId.isSome) &&
  (decide (r.state = .cancelled) ==
    (r.cancelledAt.isSome && r.cancelledBy.isSome && r.cancelledBecause.isSome)) &&
  r.cancelledBecause.all notBlank &&
  (decide (r.state = .withdrawn) == (r.withdrawnAt.isSome && r.withdrawnBecause.isSome))

def JobRow.schema : Sql.Schema JobRow where
  check := JobRow.check
  clash a b := a.messageId == b.messageId

inductive SettledKind
  | accepted | refusedRetryable | refusedPermanent
  deriving DecidableEq, Repr

structure AttemptRow where
  messageId : MessageId
  attemptNo : Nat
  startedAt : Micros
  settledKind : Option SettledKind
  settledAt : Option Micros
  providerId : Option ProviderMessageId
  because : Option JsString
  deriving DecidableEq, Repr

/-- The unique index of `alert_send_attempts`. -/
def AttemptRow.key (r : AttemptRow) : MessageId × Nat := (r.messageId, r.attemptNo)

def AttemptRow.check (r : AttemptRow) : Bool :=
  (r.settledKind.isSome == r.settledAt.isSome) &&
  (decide (r.settledKind = some .accepted) == r.providerId.isSome)

def AttemptRow.schema : Sql.Schema AttemptRow where
  check := AttemptRow.check
  clash a b := a.key == b.key

inductive ReleaseMode
  | controlled | regular
  deriving DecidableEq, Repr

structure EnvelopeRow where
  messageId : MessageId
  activationId : JsString
  organizationId : JsString
  ownerUserId : JsString
  recipientHash : JsString
  startsAt : Micros
  expiresAt : Micros
  fromAddress : JsString
  appOrigin : JsString
  recipientAddress : Option OperatorAddress
  verifiedAt : Option Micros
  payload : Option JsString
  idempotencyKey : IdempotencyKey
  providerId : Option ProviderMessageId
  createdAt : Micros
  releaseMode : ReleaseMode
  regularEpochId : Option JsString
  deriving DecidableEq, Repr

/-- `interval '1 hour'`. -/
def hour : Micros := 3600000000

/-- The window, payload and mode checks of `alert_email_envelopes`. -/
def EnvelopeRow.check (r : EnvelopeRow) : Bool :=
  decide (r.startsAt < r.expiresAt) && decide (r.expiresAt ≤ r.startsAt + hour) &&
  allOrNone r.recipientAddress r.verifiedAt r.payload &&
  (match r.releaseMode with
    | .controlled => r.regularEpochId.isNone
    | .regular => decide (r.regularEpochId = some r.activationId))

/-- The primary key and the unique indexes of `alert_email_envelopes`. -/
def EnvelopeRow.clash (a b : EnvelopeRow) : Bool :=
  a.messageId == b.messageId || a.idempotencyKey == b.idempotencyKey ||
  (a.providerId.isSome && a.providerId == b.providerId) ||
  (a.releaseMode == .controlled && b.releaseMode == .controlled &&
    a.activationId == b.activationId)

def EnvelopeRow.schema : Sql.Schema EnvelopeRow where
  check := EnvelopeRow.check
  clash := EnvelopeRow.clash

structure Database where
  jobs : Sql.Table JobRow.schema
  attempts : Sql.Table AttemptRow.schema
  envelopes : Sql.Table EnvelopeRow.schema

namespace Database

def empty : Database := ⟨.empty, .empty, .empty⟩

def job (db : Database) (m : MessageId) : Option JobRow := db.jobs.find JobRow.messageId m

def attempt (db : Database) (m : MessageId) (n : Nat) : Option AttemptRow :=
  db.attempts.find AttemptRow.key (m, n)

def envelope (db : Database) (m : MessageId) : Option EnvelopeRow :=
  db.envelopes.find EnvelopeRow.messageId m

end Database

theorem jobs_keyed : Sql.Keyed JobRow.schema JobRow.messageId := by
  intro a b h
  simpa [JobRow.schema] using h

theorem attempts_keyed : Sql.Keyed AttemptRow.schema AttemptRow.key := by
  intro a b h
  simpa [AttemptRow.schema] using h

section Checks

variable {r : JobRow}

/-- What the constraints say of a row, one fact for each constraint. -/
structure JobRow.Sound (r : JobRow) : Prop where
  budget : 1 ≤ r.maxAttempts ∧ r.attemptsMade ≤ r.maxAttempts
  sent : r.state = .sent ↔ r.providerId.isSome
  cancelled : r.state = .cancelled ↔
    r.cancelledAt.isSome ∧ r.cancelledBy.isSome ∧ r.cancelledBecause.isSome
  withdrawn : r.state = .withdrawn ↔ r.withdrawnAt.isSome ∧ r.withdrawnBecause.isSome

theorem JobRow.sound_of_check (h : r.check = true) : r.Sound := by
  simp only [JobRow.check, Bool.and_eq_true, decide_eq_true_eq, beq_iff_eq] at h
  obtain ⟨⟨⟨⟨⟨⟨hmax, hmade⟩, _⟩, hsent⟩, hcancelled⟩, _⟩, hwithdrawn⟩ := h
  refine ⟨⟨hmax, hmade⟩, ?_, ?_, ?_⟩
  · rw [← hsent, decide_eq_true_eq]
  · rw [← decide_eq_true_eq (p := r.state = .cancelled), hcancelled]
    simp [and_assoc]
  · rw [← decide_eq_true_eq (p := r.state = .withdrawn), hwithdrawn]
    simp

end Checks

end SendTables
