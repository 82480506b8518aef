import HawkView.Tenants.ManagementActivity

/-!
# Ingestion of content

A run recovers the leases of runs that were interrupted, discovers blobs, ingests
a few of them one by one, counts what is left and says how it went. Runs overlap,
and each statement of a run is a step of its own.
-/

namespace ManagementActivity

def PROCESSING_LEASE_MS : Int := 15 * MINUTE

def EVIDENCE_RETENTION_MONTHS : Nat := 6

/-- `expiresAt.setUTCMonth(expiresAt.getUTCMonth() + 6)`. -/
def evidenceExpiration (now : Int) : Int :=
  let day := now / DAY + 719468
  let month := IsoTime.civilMonth (day % 146097).toNat + EVIDENCE_RETENTION_MONTHS
  let year := (IsoTime.civilYear day).toNat + if 12 < month then 1 else 0
  let days := IsoTime.daysBeforeYear year +
    IsoTime.daysBeforeMonth year (if 12 < month then month - 12 else month) +
    IsoTime.civilDay (day % 146097).toNat
  ((days : Int) - IsoTime.Clock.epochDays) * DAY + now % DAY

/-! ## Errors -/

inductive SyncError
  | http (status : Nat) (retryAt : Option Int) (message : JsString)
  | deadline (retryAt : Option Int)
  | budget (retryAt : Int) (message : JsString)
  | other (message : JsString)
  deriving DecidableEq

namespace SyncError

def message : SyncError → JsString
  | .http _ _ message => message
  | .deadline _ => js "Microsoft 365 activity feed reached its bounded collection deadline."
  | .budget _ message => message
  | .other message => message

def safeMessage (e : SyncError) : JsString := e.message.take 1000

def permanent : SyncError → Bool
  | .http status _ _ => [400, 401, 403, 404].contains status
  | _ => false

def serverRetryAt : SyncError → Option Int
  | .http _ retryAt _ => retryAt
  | .deadline retryAt => retryAt
  | _ => none

/-- The error ends the run, not only the blob. -/
def rethrown : SyncError → Bool
  | .http status _ _ => [401, 403].contains status
  | _ => false

/-- What is left of a line. -/
def line (s : JsString) : JsString := s.takeWhile fun c => !([0x0A, 0x0D, 0x2028, 0x2029].contains c)

/-- `/does not exist|audit.*not.*enabled|unified audit/i`. -/
def auditDisabled (message : JsString) : Bool :=
  let s := message.lowerLatin
  s.includes (js "does not exist") || s.includes (js "unified audit") ||
    s.tails.any fun t => JsString.startsWith t (js "audit") &&
      (line (t.drop 5)).tails.any fun u => JsString.startsWith u (js "not") &&
        JsString.includes (u.drop 3) (js "enabled")

def code (e : SyncError) : JsString :=
  match e with
  | .http status _ _ =>
    if status = 401 ∨ status = 403 then js "m365-audit-permission-denied"
    else js "m365-audit-http-" ++ JsString.decimal status
  | _ =>
    if auditDisabled e.safeMessage then js "m365-audit-disabled" else js "m365-audit-sync-failed"

end SyncError

/-! ## The ledger -/

namespace Ledger

def update (l : Ledger) (p : Content → Bool) (write : Content → Content) : Ledger :=
  { l with rows := l.rows.map fun c => if p c then write c else c }

def expiredLease (now : Int) (c : Content) : Bool :=
  c.status == .processing && decide (c.updatedAt < now - PROCESSING_LEASE_MS)

def recoverLeases (l : Ledger) (now at' : Int) : Ledger :=
  l.update (expiredLease now) fun c => { c with
    status := .retry
    nextRetryAt := some now
    lastError := some (js "Recovered an interrupted processing lease.")
    updatedAt := at' }

def due (now : Int) (c : Content) : Bool :=
  c.status == .pending ||
    c.status == .retry && c.nextRetryAt.all fun retryAt => decide (retryAt ≤ now)

/-- By the time of creation, unknown last, and then of discovery. -/
def sooner (c d : Content) : Prop :=
  match c.contentCreatedAt, d.contentCreatedAt with
  | some t, some u => t < u ∨ t = u ∧ c.discoveredAt ≤ d.discoveredAt
  | some _, none => True
  | none, some _ => False
  | none, none => c.discoveredAt ≤ d.discoveredAt

instance : DecidableRel sooner := fun c d => by
  unfold sooner
  split <;> infer_instance

def select (l : Ledger) (now : Int) (maxBlobs : Nat) : List Content :=
  ((l.rows.filter (due now)).insertionSort sooner).take maxBlobs

def claimable (id : Nat) (c : Content) : Bool :=
  c.id == id && (c.status == .pending || c.status == .retry)

def claim (l : Ledger) (id : Nat) (at' : Int) : Ledger :=
  l.update (claimable id) fun c => { c with
    status := .processing
    attemptCount := c.attemptCount + 1
    lastError := none
    updatedAt := at' }

def complete (l : Ledger) (id : Nat) (ingestedAt : Int) : Ledger :=
  l.update (·.id == id) fun c => { c with
    status := .completed
    processedAt := some ingestedAt
    nextRetryAt := none
    lastError := none
    updatedAt := ingestedAt }

/-- The failure update; `delay` is the jittered delay of the attempt. -/
def fail (l : Ledger) (id : Nat) (error : SyncError) (at' delay : Int) : Ledger :=
  l.update (·.id == id) fun c => { c with
    status := if error.permanent then .failed else .retry
    nextRetryAt :=
      if error.permanent then none
      else match error with
        | .budget retryAt _ => some retryAt
        | e => some (max (at' + delay) (e.serverRetryAt.getD 0))
    lastError := some error.safeMessage
    ledgerExpiresAt := if error.permanent then evidenceExpiration at' else c.ledgerExpiresAt
    updatedAt := at' }

def expire (l : Ledger) (now : Int) : Ledger :=
  { l with rows := l.rows.filter fun c => !decide (c.ledgerExpiresAt ≤ now) }

def count (l : Ledger) (status : ContentStatus) : Nat := l.rows.countP (·.status == status)

end Ledger

/-! ## Runs -/

inductive SyncStatus
  | running | succeeded | failed
  deriving DecidableEq, Repr

structure SyncState where
  status : SyncStatus
  lastAttemptAt : Int
  lastSuccessfulAt : Option Int
  lastErrorCode : Option JsString
  lastErrorMessage : Option JsString
  consecutiveFailures : Nat
  deriving DecidableEq

structure FailedSubscription where
  contentType : JsString
  lastError : Option JsString
  deriving DecidableEq

/-- What a run knows after discovery. -/
structure Progress where
  now : Int
  enabledContentTypes : Nat
  failedSubscriptions : List FailedSubscription
  discoveryBacklog : Bool
  deriving DecidableEq

/-- The counts of the blobs that are left. -/
structure Backlog where
  pending : Nat
  processing : Nat
  retry : Nat
  failed : Nat

def Progress.subscriptionBacklog (p : Progress) : Int :=
  M365_ACTIVITY_CONTENT_TYPES.length - p.enabledContentTypes

def Progress.blocked (p : Progress) (b : Backlog) : Int :=
  b.pending + b.processing + b.retry + b.failed + p.subscriptionBacklog +
    if p.discoveryBacklog then 1 else 0

def Backlog.text (b : Backlog) : JsString :=
  js "pending=" ++ JsString.decimal b.pending ++ js ", processing=" ++
    JsString.decimal b.processing ++ js ", retry=" ++ JsString.decimal b.retry

def decimalInt (n : Int) : JsString :=
  if n < 0 then 0x2D :: JsString.decimal n.natAbs else JsString.decimal n.toNat

def FailedSubscription.text (f : FailedSubscription) : JsString :=
  f.contentType ++ js ": " ++ f.lastError.getD (js "activation failed")

def Progress.message (p : Progress) (b : Backlog) : JsString :=
  if p.failedSubscriptions ≠ [] then
    (JsString.decimal p.failedSubscriptions.length ++
      js " Microsoft audit subscription(s) failed: " ++
      (js "; ").intercalate (p.failedSubscriptions.map FailedSubscription.text) ++
      js ". Enabled=" ++ JsString.decimal p.enabledContentTypes ++ js "/4; content " ++ b.text ++
      js ", permanently unavailable=" ++ JsString.decimal b.failed ++ js ".").take 1000
  else if 0 < b.failed then
    JsString.decimal b.failed ++
      js " Microsoft audit content blob(s) are permanently unavailable; " ++ b.text ++ js "."
  else
    decimalInt p.subscriptionBacklog ++ js " subscription(s) await activation; discovery backlog=" ++
      (if p.discoveryBacklog then js "true" else js "false") ++ js "; content " ++ b.text ++
      js ", permanently unavailable=" ++ JsString.decimal b.failed ++ js "."

/-- How the run went. -/
def Progress.outcome (p : Progress) (b : Backlog) (at' : Int) (s : SyncState) : SyncState :=
  if 0 < b.failed ∨ p.failedSubscriptions ≠ [] then { s with
    status := .failed
    lastErrorCode := some (if p.failedSubscriptions ≠ [] then
      js "m365-audit-subscription-incomplete" else js "m365-audit-content-unavailable")
    lastErrorMessage := some (p.message b)
    consecutiveFailures := s.consecutiveFailures + 1 }
  else if 0 < p.blocked b then { s with
    status := .running
    lastErrorCode := some (js "m365-audit-backlog")
    lastErrorMessage := some (p.message b)
    consecutiveFailures := 0 }
  else { s with
    status := .succeeded
    lastSuccessfulAt := some at'
    lastErrorCode := none
    lastErrorMessage := none
    consecutiveFailures := 0 }

/-- What the run leaves behind when it throws. -/
def SyncError.outcome (e : SyncError) (s : SyncState) : SyncState :=
  match e with
  | .budget _ _ => { s with
      status := .running
      lastErrorCode := some (js "m365-audit-budget-exhausted")
      lastErrorMessage := some e.safeMessage
      consecutiveFailures := 0 }
  | _ => { s with
      status := .failed
      lastErrorCode := some e.code
      lastErrorMessage := some e.safeMessage
      consecutiveFailures := s.consecutiveFailures + 1 }

/-! ## Overlapping runs -/

structure Config where
  maxBlobs : Nat
  pollMinutes : Int

/-- Where a run stands. A run that ended keeps the number of blobs that were discovered by then. -/
inductive Phase
  | recovering (now : Int)
  | subscribing (now : Int)
  | discovering (now : Int) (enabledContentTypes : Nat)
      (failedSubscriptions : List FailedSubscription)
  | selecting (p : Progress)
  | ingesting (p : Progress) (queue : List Content)
  | processing (p : Progress) (content : Content) (queue : List Content)
  | failing (p : Progress) (content : Content) (queue : List Content) (error : SyncError)
  | counting (p : Progress) (counts : List (ContentStatus × Nat))
  | throwing (error : SyncError)
  | ended (status : SyncStatus) (discovered : Nat)
  | returned
  | crashed

/-- The tables of a tenant and the runs on them; `stored` has the blobs whose records are kept. -/
structure System where
  ledger : Ledger
  sync : Option SyncState
  stored : List Nat
  sessions : List Phase

/-- The statements of the runs; a page of discovery is created at once. -/
inductive Action
  | start (now : Int)
  | recover (i : Nat) (at' : Int)
  | subscribe (i : Nat) (enabledContentTypes : Nat) (failed : List FailedSubscription)
  | discover (i : Nat) (at' : Int) (page : List Discovered)
  | discovered (i : Nat) (hasBacklog : Bool)
  | select (i : Nat)
  | claim (i : Nat) (at' : Int)
  | stop (i : Nat)
  | commit (i : Nat) (ingestedAt : Int)
  | fail (i : Nat) (error : SyncError)
  | release (i : Nat) (at' delay : Int)
  | count (i : Nat) (status : ContentStatus)
  | finish (i : Nat) (at' : Int)
  | throw (i : Nat) (error : SyncError)
  | settle (i : Nat)
  | crash (i : Nat)

namespace System

def put (s : System) (i : Nat) (phase : Phase) : System :=
  { s with sessions := s.sessions.set i phase }

/-- Nothing is due, and the last success is recent. -/
def idle (config : Config) (s : System) (now : Int) : Bool :=
  !s.ledger.rows.any (Ledger.due now) && (s.sync.bind SyncState.lastSuccessfulAt).any fun last =>
    decide (now - last < config.pollMinutes * MINUTE)

def begin (s : System) (now : Int) : System :=
  { s with
    sync := some (match s.sync with
      | some state => { state with
          status := .running
          lastAttemptAt := now
          lastErrorCode := none
          lastErrorMessage := none }
      | none => ⟨.running, now, none, none, none, 0⟩)
    sessions := s.sessions ++ [.recovering now] }

end System

/-- The four counts, once all are taken. -/
def backlogOf (counts : List (ContentStatus × Nat)) : Option Backlog := do
  return ⟨← counts.lookup .pending, ← counts.lookup .processing, ← counts.lookup .retry,
    ← counts.lookup .failed⟩

/-- The last transaction: what expired is deleted, and the outcome is written. -/
def finishRun (s : System) (i : Nat) (p : Progress) (b : Backlog) (at' : Int) : Option System :=
  s.sync.map fun state =>
    let outcome := p.outcome b at' state
    { s with
      ledger := s.ledger.expire p.now
      sync := some outcome
      sessions := s.sessions.set i (.ended outcome.status s.ledger.nextId) }

def step (config : Config) (s : System) : Action → Option System
  | .start now =>
    if s.idle config now then some { s with sessions := s.sessions ++ [.returned] }
    else some (s.begin now)
  | .recover i at' =>
    match s.sessions[i]? with
    | some (.recovering now) =>
      some ({ s with ledger := s.ledger.recoverLeases now at' }.put i (.subscribing now))
    | _ => none
  | .subscribe i enabled failed =>
    match s.sessions[i]? with
    | some (.subscribing now) => some (s.put i (.discovering now enabled failed))
    | _ => none
  | .discover i at' page =>
    match s.sessions[i]? with
    | some (.discovering now _ _) =>
      if page.all (fun d => d.ledgerExpiresAt == now + CONTENT_LEDGER_RETENTION_MS) then
        some { s with ledger := s.ledger.createMany at' page }
      else none
    | _ => none
  | .discovered i hasBacklog =>
    match s.sessions[i]? with
    | some (.discovering now enabled failed) =>
      some (s.put i (.selecting ⟨now, enabled, failed, hasBacklog⟩))
    | _ => none
  | .select i =>
    match s.sessions[i]? with
    | some (.selecting p) => some (s.put i (.ingesting p (s.ledger.select p.now config.maxBlobs)))
    | _ => none
  | .claim i at' =>
    match s.sessions[i]? with
    | some (.ingesting p (content :: queue)) =>
      if s.ledger.rows.any (Ledger.claimable content.id) then
        some ({ s with ledger := s.ledger.claim content.id at' }.put i
          (.processing p content queue))
      else some (s.put i (.ingesting p queue))
    | _ => none
  | .stop i =>
    match s.sessions[i]? with
    | some (.ingesting p _) => some (s.put i (.counting p []))
    | _ => none
  | .commit i ingestedAt =>
    match s.sessions[i]? with
    | some (.processing p content queue) =>
      if s.ledger.rows.any (·.id == content.id) then
        some ({ s with
          ledger := s.ledger.complete content.id ingestedAt
          stored := content.id :: s.stored }.put i (.ingesting p queue))
      else none
    | _ => none
  | .fail i error =>
    match s.sessions[i]? with
    | some (.processing p content queue) => some (s.put i (.failing p content queue error))
    | _ => none
  | .release i at' delay =>
    match s.sessions[i]? with
    | some (.failing p content queue error) =>
      some ({ s with ledger := s.ledger.fail content.id error at' delay }.put i
        (if error.rethrown then .throwing error else .ingesting p queue))
    | _ => none
  | .count i status =>
    match s.sessions[i]? with
    | some (.counting p counts) =>
      if status ≠ .completed ∧ counts.lookup status = none then
        some (s.put i (.counting p ((status, s.ledger.count status) :: counts)))
      else none
    | _ => none
  | .finish i at' =>
    match s.sessions[i]? with
    | some (.counting p counts) => (backlogOf counts).bind fun b => finishRun s i p b at'
    | _ => none
  | .throw i error =>
    match s.sessions[i]? with
    | none => none
    | some (.processing _ _ _) => none
    | some (.throwing _) => none
    | some (.ended _ _) => none
    | some .returned => none
    | some .crashed => none
    | some _ => some (s.put i (.throwing error))
  | .settle i =>
    match s.sessions[i]? with
    | some (.throwing error) => s.sync.map fun state =>
      let outcome := error.outcome state
      { s with
        sync := some outcome
        sessions := s.sessions.set i (.ended outcome.status s.ledger.nextId) }
    | _ => none
  | .crash i =>
    match s.sessions[i]? with
    | some _ => some (s.put i .crashed)
    | none => none

end ManagementActivity
