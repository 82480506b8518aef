import HawkView.Alerts.EmailDelivery
import HawkView.Alerts.EmailReleaseStore

/-!
# Reconciling provider events

Events of the provider are kept and joined with the envelopes, both when an
event arrives and when an acceptance is settled. The lock on the provider id is
held until the transaction ends, so that the transactions come one after another.
-/

namespace EmailReconciliation

open SendTables EmailRegularRelease EmailReleaseStore EmailDelivery

/-- The columns of `alert_email_events`. -/
structure EventRow where
  eventId : JsString
  providerId : ProviderMessageId
  kind : OutcomeKind
  bounce : Option BounceClass
  occurredAt : Micros
  deriving DecidableEq

/-- The unique index of `alert_delivery_outcomes`. -/
structure OutcomeKey where
  providerId : ProviderMessageId
  kind : OutcomeKind
  occurredAt : Micros
  deriving DecidableEq

structure OutcomeRow where
  messageId : MessageId
  bounce : Option BounceClass
  deriving DecidableEq

inductive SuppressionReason
  | hardBounce | complaint | manual
  deriving DecidableEq

structure SuppressionRow where
  reason : SuppressionReason
  because : Option JsString
  messageId : Option MessageId
  firstSuppressedAt : Micros
  lastSeenAt : Micros
  deriving DecidableEq

/-- The send tables and those of the events, the outcomes and the suppressed addresses; of
the last two the row for each key. -/
structure Store where
  db : Database
  events : List EventRow
  outcomes : OutcomeKey → Option OutcomeRow
  suppressed : OperatorAddress → Option SuppressionRow

abbrev Joined := EventRow × EnvelopeRow

/-- The order in which a statement reads the rows of its join, which SQL leaves open. -/
structure Scan where
  order : List Joined → List Joined
  perm : ∀ rows, (order rows).Perm rows

/-- The orders of the two statements of a reconciliation. -/
structure Scans where
  outcomes : Scan
  suppressions : Scan

def EventRow.key (e : EventRow) : OutcomeKey := ⟨e.providerId, e.kind, e.occurredAt⟩

/-! ## The statements -/

def joined (s : Store) (providerId : ProviderMessageId) : List Joined :=
  (s.events.filter fun e => e.providerId = providerId).flatMap fun e =>
    (s.db.envelopes.rows.filter fun v => v.providerId = some e.providerId).map fun v => (e, v)

/-- `INSERT … ON CONFLICT (provider_id, kind, occurred_at) DO NOTHING`. -/
def insertOutcome (outcomes : OutcomeKey → Option OutcomeRow) (row : Joined) :
    OutcomeKey → Option OutcomeRow :=
  if (outcomes row.1.key).isSome then outcomes
  else Function.update outcomes row.1.key (some ⟨row.2.messageId, row.1.bounce⟩)

def suppresses (e : EventRow) : Bool :=
  e.kind == .complained || (e.kind == .bounced && e.bounce == some .hard)

/-- A row of the second query, with the address it is about. -/
def candidate (row : Joined) : Option (OperatorAddress × Joined) :=
  if suppresses row.1 then row.2.recipientAddress.map fun address => (address, row) else none

/-- `DISTINCT ON (address) … ORDER BY address, occurred_at`. -/
def keepEarliest (found : JsMap OperatorAddress Joined) (entry : OperatorAddress × Joined) :
    JsMap OperatorAddress Joined :=
  match found.get? entry.1 with
  | none => found.set entry.1 entry.2
  | some old =>
    if entry.2.1.occurredAt < old.1.occurredAt then found.set entry.1 entry.2 else found

def earliest (rows : List Joined) : JsMap OperatorAddress Joined :=
  (rows.filterMap candidate).foldl keepEarliest .empty

/-- `INSERT … ON CONFLICT (address) DO UPDATE`. -/
def suppress (suppressed : OperatorAddress → Option SuppressionRow)
    (entry : OperatorAddress × Joined) : OperatorAddress → Option SuppressionRow :=
  let (e, v) := entry.2
  match suppressed entry.1 with
  | none =>
    Function.update suppressed entry.1 (some
      { reason := if e.kind = .complained then .complaint else .hardBounce
        because := some (js "AUTHENTICATED_PROVIDER_EVENT")
        messageId := some v.messageId
        firstSuppressedAt := e.occurredAt
        lastSeenAt := e.occurredAt })
  | some row =>
    Function.update suppressed entry.1
      (some { row with lastSeenAt := max row.lastSeenAt e.occurredAt })

def reconcileEmailProvider (s : Store) (providerId : ProviderMessageId) (scans : Scans) : Store :=
  { s with
    outcomes := (scans.outcomes.order (joined s providerId)).foldl insertOutcome s.outcomes
    suppressed :=
      (earliest (scans.suppressions.order (joined s providerId))).entries.foldl suppress
        s.suppressed }

/-! ## The transactions -/

/-- `/^[A-Za-z0-9_-]{1,200}$/`. -/
def validEventId (eventId : JsString) : Bool :=
  decide (1 ≤ eventId.length ∧ eventId.length ≤ 200) && eventId.all fun c =>
    decide (0x41 ≤ c ∧ c ≤ 0x5A) || decide (0x61 ≤ c ∧ c ≤ 0x7A) ||
    decide (0x30 ≤ c ∧ c ≤ 0x39) || c == 0x5F || c == 0x2D

/-- The row that an event becomes; `none` where the transaction throws. `readTime` is the cast
of a text to `timestamptz`. -/
def eventRow (readTime : JsString → Option Micros) (eventId : JsString) (event : AuthenticEvent) :
    Option EventRow :=
  if validEventId eventId = false ∨ 200 < event.providerId.length then none
  else (readTime event.atIso).map fun occurredAt =>
    { eventId := eventId
      providerId := event.providerId
      kind := event.kind
      bounce := if event.kind = .bounced then some (event.bounce.getD .hard) else none
      occurredAt := occurredAt }

/-- `INSERT … ON CONFLICT (event_id) DO NOTHING`. -/
def insertEvent (events : List EventRow) (row : EventRow) : List EventRow :=
  if events.any (·.eventId == row.eventId) then events else events ++ [row]

/-- What is left of `recordEmailProviderEvent` once the event is read. -/
def recordRow (s : Store) (row : EventRow) (scans : Scans) : Store :=
  reconcileEmailProvider { s with events := insertEvent s.events row } row.providerId scans

def recordEmailProviderEvent (readTime : JsString → Option Micros) (s : Store)
    (eventId : JsString) (event : AuthenticEvent) (scans : Scans) : Option Store :=
  (eventRow readTime eventId event).map fun row => recordRow s row scans

/-- `settle` with an acceptance: what it does to the send tables, then the reconciliation. -/
def settleAccepted (s : Store) (claim : EmailClaim) (providerId : ProviderMessageId)
    (now : Millis) (clock : Micros) (scans : Scans) : Option Store :=
  (settle s.db claim (.accepted providerId) now clock).map fun db =>
    reconcileEmailProvider { s with db := db } providerId scans

end EmailReconciliation
