import HawkView.Alerts.SendTables
import Mathlib.Algebra.Ring.Int.Defs

/-!
# The retry layer

Eligibility, the claim, the attempt, what follows from its settlement, the stop
button and the withdrawal. The clock is a parameter of every function, and
each statement is one conditional update of `alert_send_jobs`.
-/

namespace SendQueue

open SendTables

/-- The states from which no further attempt may be made. -/
def TERMINAL : List SendState := [.sent, .exhausted, .gaveUp, .cancelled, .withdrawn]

def terminal (state : SendState) : Bool := TERMINAL.contains state

structure Claim where
  claimedBy : WorkerId
  atIso : Millis
  expiresIso : Millis
  deriving DecidableEq, Repr

structure SendJob where
  messageId : MessageId
  idempotencyKey : IdempotencyKey
  state : SendState
  attemptsMade : Nat
  maxAttempts : Nat
  notBeforeIso : Millis
  claim : Option Claim
  providerId : Option ProviderMessageId
  deriving DecidableEq, Repr

/-- Why a job may not be attempted now. -/
inductive Ineligible
  | terminal (messageId : MessageId) (state : SendState)
  | budgetSpent (messageId : MessageId) (attemptsMade maxAttempts : Nat)
  | backingOff (messageId : MessageId) (notBeforeIso : Millis)
  | claimedByAnother (messageId : MessageId) (claimedBy : WorkerId) (expiresIso : Millis)
  deriving DecidableEq, Repr

inductive Eligibility
  | mayAttempt
  | mayNot (because : Ineligible)
  deriving DecidableEq, Repr

def eligibility (job : SendJob) (nowIso : Millis) : Eligibility :=
  if terminal job.state then .mayNot (.terminal job.messageId job.state)
  else if job.attemptsMade ≥ job.maxAttempts then
    .mayNot (.budgetSpent job.messageId job.attemptsMade job.maxAttempts)
  else if nowIso < job.notBeforeIso then .mayNot (.backingOff job.messageId job.notBeforeIso)
  else match job.claim with
    | some claim =>
      if nowIso < claim.expiresIso then
        .mayNot (.claimedByAnother job.messageId claim.claimedBy claim.expiresIso)
      else .mayAttempt
    | none => .mayAttempt

/-- Exponential and capped, with the source's default base and cap. -/
def backoffMs (attemptsMade : Nat) : Int := min 900000 (30000 * 2 ^ attemptsMade)

/-- The one-row update that claims a job for a worker. -/
def claimStatement (messageId : MessageId) (worker : WorkerId) (nowIso holdForMs : Millis) :
    Sql.Update JobRow where
  applies r :=
    r.messageId == messageId && !terminal r.state &&
    decide (r.attemptsMade < r.maxAttempts) &&
    decide (r.notBeforeAt ≤ timestamptz nowIso) &&
    r.claimExpiresAt.all fun expires => decide (expires ≤ timestamptz nowIso)
  set r := { r with
    state := .claimed
    claimedBy := some worker
    claimedAt := some (timestamptz nowIso)
    claimExpiresAt := some (timestamptz (nowIso + holdForMs)) }

/-- Permission to send one message once. -/
structure SendPermit where
  messageId : MessageId
  idempotencyKey : IdempotencyKey
  attemptNo : Nat
  deriving DecidableEq, Repr

/-- A permit for a row count of one, and nothing otherwise. -/
def claimOutcome (rowsUpdated : Nat) (job : SendJob) : Option SendPermit :=
  if rowsUpdated = 1 then some ⟨job.messageId, job.idempotencyKey, job.attemptsMade + 1⟩ else none

inductive Settled
  | accepted (providerId : ProviderMessageId) (atIso : Millis)
  | refusedRetryable (atIso : Millis) (because : JsString)
  | refusedPermanent (atIso : Millis) (because : JsString)
  deriving DecidableEq, Repr

namespace Settled

def kind : Settled → SettledKind
  | accepted _ _ => .accepted
  | refusedRetryable _ _ => .refusedRetryable
  | refusedPermanent _ _ => .refusedPermanent

def atIso : Settled → Millis
  | accepted _ t => t
  | refusedRetryable t _ => t
  | refusedPermanent t _ => t

def providerId : Settled → Option ProviderMessageId
  | accepted p _ => some p
  | _ => none

def because : Settled → Option JsString
  | accepted _ _ => none
  | refusedRetryable _ b => some b
  | refusedPermanent _ b => some b

end Settled

structure Attempt where
  messageId : MessageId
  attemptNo : Nat
  startedAtIso : Millis
  settled : Option Settled
  deriving DecidableEq, Repr

def beginAttempt (permit : SendPermit) (startedAtIso : Millis) : Attempt :=
  ⟨permit.messageId, permit.attemptNo, startedAtIso, none⟩

/-- What the job is once an attempt has settled. -/
def afterAttempt (job : SendJob) (settled : Settled) : SendJob :=
  let attemptsMade := job.attemptsMade + 1
  match settled with
  | .accepted providerId _ =>
    { job with
      state := .sent, attemptsMade := attemptsMade, claim := none
      providerId := some providerId }
  | .refusedPermanent _ _ =>
    { job with state := .gaveUp, attemptsMade := attemptsMade, claim := none }
  | .refusedRetryable atIso _ =>
    if attemptsMade ≥ job.maxAttempts then
      { job with state := .exhausted, attemptsMade := attemptsMade, claim := none }
    else
      { job with
        state := .ready, attemptsMade := attemptsMade, claim := none
        notBeforeIso := atIso + backoffMs attemptsMade }

/-! ## The stop button -/

inductive CancelScope
  | everything (createdBeforeIso : Millis)
  | organisation (organizationId : JsString) (createdBeforeIso : Millis)
  deriving DecidableEq, Repr

def CancelScope.createdBeforeIso : CancelScope → Millis
  | everything t => t
  | organisation _ t => t

/-- What `String.prototype.trim` takes off. -/
def whitespace (c : UInt16) : Bool :=
  decide (9 ≤ c ∧ c ≤ 13) || decide (0x2000 ≤ c ∧ c ≤ 0x200A) ||
  [0x20, 0xA0, 0x1680, 0x2028, 0x2029, 0x202F, 0x205F, 0x3000, 0xFEFF].contains c

def trim (text : JsString) : JsString :=
  ((text.dropWhile whitespace).reverse.dropWhile whitespace).reverse

/-- A reason that is not blank, as the constraint on its column asks. -/
structure CancelReason where
  text : JsString
  notBlank : notBlank text = true

theorem trim_notBlank {value : JsString} (h : trim value ≠ []) (n : Nat) :
    notBlank ((trim value).take (n + 1)) = true := by
  have hprefix : trim value <+: value.dropWhile whitespace := by
    have hsuffix := List.dropWhile_suffix whitespace (l := (value.dropWhile whitespace).reverse)
    simpa [trim] using List.reverse_prefix.mpr hsuffix
  cases htrim : trim value with
  | nil => exact absurd htrim h
  | cons c rest =>
    rw [htrim] at hprefix
    obtain ⟨tail, htail⟩ := hprefix
    have hne : value.dropWhile whitespace ≠ [] := by
      rw [← htail]
      simp
    have hhead := List.head_dropWhile_not whitespace hne
    have hc : whitespace c = false := by
      simpa [← htail] using hhead
    have hspace : c ≠ 0x20 := by
      rintro rfl
      revert hc
      decide
    simp [notBlank, hspace]

/-- The only producer of a `CancelReason`; `none` where the source throws. -/
def cancelReason (value : JsString) : Option CancelReason :=
  if h : trim value = [] then none
  else some ⟨(trim value).take 500, trim_notBlank h 499⟩

structure CancelOrder where
  scope : CancelScope
  orderedBy : JsString
  because : CancelReason

/-- What the job's message id starts with for an organisation. -/
def organisationScope (organizationId : JsString) : JsString :=
  js "incident/" ++ organizationId ++ js "|"

/-- The rows that the stop locks. -/
def CancelScope.targets (scope : CancelScope) (r : JobRow) : Bool :=
  !terminal r.state && decide (r.createdAt < timestamptz scope.createdBeforeIso) &&
  match scope with
  | .everything _ => true
  | .organisation organizationId _ =>
    JsString.like (organisationScope organizationId ++ js "%") r.messageId

def cancelStatement (order : CancelOrder) (nowIso : Millis) : Sql.Update JobRow where
  applies := order.scope.targets
  set r := { r with
    state := .cancelled
    claimedBy := none, claimedAt := none, claimExpiresAt := none
    cancelledAt := some (timestamptz nowIso)
    cancelledBy := some order.orderedBy
    cancelledBecause := some order.because.text }

structure CancelledRow where
  messageId : MessageId
  stateBefore : SendState
  attemptsMade : Nat
  wasClaimed : Bool
  deriving DecidableEq, Repr

/-- What the statement returns, read from the locked rows before the update. -/
def cancelledRows (order : CancelOrder) (rows : List JobRow) : List CancelledRow :=
  (rows.filter order.scope.targets).map fun r =>
    ⟨r.messageId, r.state, r.attemptsMade, r.claimedBy.isSome⟩

inductive CancelOutcome
  | stoppedBeforeAnyAttempt | mayHaveReachedProvider
  deriving DecidableEq, Repr

structure CancelledJob where
  messageId : MessageId
  outcome : CancelOutcome
  stateBefore : SendState
  attemptsMade : Nat
  wasClaimed : Bool
  deriving DecidableEq, Repr

def classifyCancellation (rows : List CancelledRow) : List CancelledJob :=
  rows.map fun row =>
    ⟨row.messageId,
      if row.attemptsMade > 0 ∨ row.wasClaimed = true then .mayHaveReachedProvider
      else .stoppedBeforeAnyAttempt,
      row.stateBefore, row.attemptsMade, row.wasClaimed⟩

/-- The preview of a stop. -/
def wouldCancel (job : SendJob) (scope : CancelScope) (createdAtIso : Millis) : Bool :=
  if terminal job.state then false
  else if ¬ createdAtIso < scope.createdBeforeIso then false
  else match scope with
    | .everything _ => true
    | .organisation organizationId _ =>
      JsString.startsWith job.messageId (organisationScope organizationId)

/-! ## Withdrawal -/

def withdrawStatement (messageId : MessageId) (because : WithdrawnReason) (atIso : Millis) :
    Sql.Update JobRow where
  applies r := r.messageId == messageId && !terminal r.state
  set r := { r with
    state := .withdrawn
    withdrawnAt := some (timestamptz atIso), withdrawnBecause := some because
    claimedBy := none, claimedAt := none, claimExpiresAt := none }

/-! ## What the functions guarantee -/

theorem terminal_iff (state : SendState) :
    terminal state = true ↔
      state = .sent ∨ state = .exhausted ∨ state = .gaveUp ∨ state = .cancelled ∨
        state = .withdrawn := by
  cases state <;> simp [terminal, TERMINAL]

theorem eligible_iff {job : SendJob} {nowIso : Millis} :
    eligibility job nowIso = .mayAttempt ↔
      terminal job.state = false ∧ job.attemptsMade < job.maxAttempts ∧
        job.notBeforeIso ≤ nowIso ∧ ∀ claim ∈ job.claim, claim.expiresIso ≤ nowIso := by
  unfold eligibility
  by_cases hterminal : terminal job.state = true
  · simp [hterminal]
  · by_cases hbudget : job.attemptsMade ≥ job.maxAttempts
    · simp [hterminal, hbudget, Nat.not_lt.mpr hbudget]
    · by_cases hbacking : nowIso < job.notBeforeIso
      · simp [hterminal, hbudget, hbacking, Int.not_le.mpr hbacking]
      · have hwithin : job.attemptsMade < job.maxAttempts := Nat.lt_of_not_le hbudget
        have hdue : job.notBeforeIso ≤ nowIso := Int.not_lt.mp hbacking
        cases hclaim : job.claim with
        | none => simp [hterminal, hbudget, hbacking, hwithin, hdue]
        | some claim =>
          by_cases hheld : nowIso < claim.expiresIso
          · simp [hterminal, hbudget, hbacking, hheld, Int.not_le.mpr hheld]
          · simp [hterminal, hbudget, hbacking, hheld, hwithin, hdue, Int.not_lt.mp hheld]

@[simp] theorem afterAttempt_messageId (job : SendJob) (settled : Settled) :
    (afterAttempt job settled).messageId = job.messageId := by
  cases settled <;> simp [afterAttempt]
  split <;> rfl

@[simp] theorem afterAttempt_attemptsMade (job : SendJob) (settled : Settled) :
    (afterAttempt job settled).attemptsMade = job.attemptsMade + 1 := by
  cases settled <;> simp [afterAttempt]
  split <;> rfl

@[simp] theorem afterAttempt_claim (job : SendJob) (settled : Settled) :
    (afterAttempt job settled).claim = none := by
  cases settled <;> simp [afterAttempt]
  split <;> rfl

/-- An update that never touches a finished job. -/
def LiveOnly (u : Sql.Update JobRow) : Prop :=
  ∀ r, u.applies r = true → terminal r.state = false

theorem claimStatement_liveOnly (m : MessageId) (worker : WorkerId) (now hold : Millis) :
    LiveOnly (claimStatement m worker now hold) := by
  intro r h
  simp only [claimStatement, Bool.and_eq_true, Bool.not_eq_true'] at h
  exact h.1.1.1.2

theorem withdrawStatement_liveOnly (m : MessageId) (because : WithdrawnReason) (now : Millis) :
    LiveOnly (withdrawStatement m because now) := by
  intro r h
  simp only [withdrawStatement, Bool.and_eq_true, Bool.not_eq_true'] at h
  exact h.2

theorem cancelStatement_liveOnly (order : CancelOrder) (now : Millis) :
    LiveOnly (cancelStatement order now) := by
  intro r h
  simp only [cancelStatement, CancelScope.targets, Bool.and_eq_true, Bool.not_eq_true'] at h
  exact h.1.1

end SendQueue
