import HawkView.Microsoft.ManagedConnectorAuthority
import HawkView.Tenants.ActivityContent

/-!
# Directory role receipts

The rows of one tenant: its status, its managed connection, the state of its
role collection and the snapshot that the last completion published. Every call
is one transaction on them. Times are microseconds since 1970.
-/

namespace DirectoryRoles

open ManagedConnectorAuthority

abbrev Micros := Int

def DIRECTORY_ROLE_RECEIPT_SCOPE : JsString := js "directory-role-assignments/v1"

def DIRECTORY_ROLE_REVOKED_SCOPE : JsString := js "directory-role-assignments/revoked-v1"

def ROLE_ATTEMPT : Micros := 5 * 60 * 1000 * 1000

/-- `date_trunc('milliseconds', …)`. -/
def truncMillis (t : Micros) : Micros := t / 1000 * 1000

/-! ## Arguments -/

/-- Ids are texts until they are accepted. -/
structure DirectoryControlIdentity (ι : Type) where
  organizationId : ι
  customerTenantId : ι
  microsoftTenantId : ι
  deriving DecidableEq

structure RoleIdentity (ι : Type) extends DirectoryControlIdentity ι where
  configurationRevision : ι
  deriving DecidableEq

structure RoleContext (ι : Type) extends RoleIdentity ι where
  connectionIncarnation : ι
  scopeIncarnation : ι
  scopeVersion : JsString
  deriving DecidableEq

structure RoleAttempt (ι : Type) extends RoleContext ι where
  attemptId : ι
  deriving DecidableEq

structure DirectoryControlExpectation (ι : Type) where
  configurationRevision : Option ι
  connectionIncarnation : Option ι
  scopeIncarnation : Option ι
  scopeVersion : Option JsString
  deriving DecidableEq

def controlIdentity (input : DirectoryControlIdentity JsString) :
    Option (DirectoryControlIdentity Uuid) := do
  return ⟨← uuid input.organizationId, ← uuid input.customerTenantId,
    ← uuid input.microsoftTenantId⟩

def identity (input : RoleIdentity JsString) : Option (RoleIdentity Uuid) := do
  return ⟨← controlIdentity input.toDirectoryControlIdentity, ← uuid input.configurationRevision⟩

def context (input : RoleContext JsString) : Option (RoleContext Uuid) :=
  if input.scopeVersion = DIRECTORY_ROLE_RECEIPT_SCOPE then do
    return ⟨← identity input.toRoleIdentity, ← uuid input.connectionIncarnation,
      ← uuid input.scopeIncarnation, input.scopeVersion⟩
  else none

def attempt (input : RoleAttempt JsString) : Option (RoleAttempt Uuid) := do
  return ⟨← context input.toRoleContext, ← uuid input.attemptId⟩

def directoryControlExpectation (input : DirectoryControlExpectation JsString) :
    Option (DirectoryControlExpectation Uuid) := do
  if input.scopeVersion.all fun s => decide (1 ≤ s.length ∧ s.length ≤ 100) then
    let configurationRevision ← uuidOrNull input.configurationRevision
    let connectionIncarnation ← uuidOrNull input.connectionIncarnation
    let scopeIncarnation ← uuidOrNull input.scopeIncarnation
    if scopeIncarnation.isNone = input.scopeVersion.isNone then
      return ⟨configurationRevision, connectionIncarnation, scopeIncarnation, input.scopeVersion⟩
    else none
  else none

structure PreparedRoleCollection where
  rows : List Json
  contentDigest : JsString

def PreparedRoleCollection.payload (c : PreparedRoleCollection) : Json := .array c.rows

def hexDigest (s : JsString) : Bool :=
  s.length == 64 && s.all fun c => decide (0x30 ≤ c ∧ c ≤ 0x39) || decide (0x61 ≤ c ∧ c ≤ 0x66)

/-- A collection that is not too large; any other throws. -/
def prepared (c : PreparedRoleCollection) : Bool :=
  decide (c.rows.length ≤ 1000) && hexDigest c.contentDigest &&
    decide (Json.byteLength c.payload.stringify ≤ 180000)

/-! ## Rows -/

inductive TenantStatus
  | active | disconnected | other
  deriving DecidableEq, Repr

structure Tenant extends DirectoryControlIdentity Uuid where
  status : TenantStatus
  deriving DecidableEq

inductive ConnectionStatus
  | connected | revoked | other
  deriving DecidableEq, Repr

inductive ConnectionMode
  | hawkviewManaged | customerManaged
  deriving DecidableEq, Repr

structure Connection where
  incarnation : Option Uuid
  status : ConnectionStatus
  mode : ConnectionMode
  deriving DecidableEq

structure Scope where
  version : JsString
  incarnation : Uuid
  deriving DecidableEq

inductive AttemptOutcome
  | running | complete | failed | partially | expired
  deriving DecidableEq, Repr

/-- The attempt columns, which are all set or none. -/
structure Attempt where
  id : Uuid
  connection : Uuid
  configuration : Uuid
  scope : Uuid
  startedAt : Micros
  expiresAt : Micros
  outcome : AttemptOutcome
  terminalAt : Option Micros
  deriving DecidableEq

/-- The columns of the last completion, which are all set or none. -/
structure Complete where
  id : Uuid
  connection : Uuid
  configuration : Uuid
  scope : Uuid
  scopeVersion : JsString
  microsoftTenantId : Uuid
  checkedAt : Micros
  digest : JsString
  count : Nat
  deriving DecidableEq

inductive SyncStatus
  | idle | running | succeeded | failed
  deriving DecidableEq, Repr

/-- The row of the collection in `sync_states`. -/
structure State where
  status : SyncStatus
  lastAttemptAt : Option Micros
  lastSuccessfulAt : Option Micros
  lastErrorCode : Option JsString
  lastErrorMessage : Option JsString
  consecutiveFailures : Nat
  scope : Option Scope
  attempt : Option Attempt
  complete : Option Complete
  deriving DecidableEq

def Attempt.admitted (t : Attempt) : Bool :=
  decide (t.startedAt < t.expiresAt) && t.startedAt == truncMillis t.startedAt &&
    if t.outcome = .running then t.terminalAt.isNone
    else t.terminalAt.any fun at' => decide (t.startedAt ≤ at')

def Complete.admitted (c : Complete) : Bool :=
  decide (c.count ≤ 1000) && hexDigest c.digest && !c.scopeVersion.isEmpty &&
    c.checkedAt == truncMillis c.checkedAt

/-- The completion is that of the attempt. -/
def Complete.binds (c : Complete) (t : Attempt) : Bool :=
  c.id == t.id && c.connection == t.connection && c.configuration == t.configuration &&
    c.scope == t.scope && some c.checkedAt == t.terminalAt

namespace State

def inserted : State := ⟨.idle, none, none, none, none, 0, none, none, none⟩

/-- The checks of the table. -/
def admitted (s : State) : Bool :=
  s.scope.all (fun c => !c.version.isEmpty) && s.complete.all Complete.admitted &&
    s.attempt.all fun t => t.admitted && s.scope.any (fun c => c.incarnation == t.scope) &&
      (t.outcome != .complete || s.complete.any fun c => c.binds t)

def scopeVersion (s : State) : Option JsString := s.scope.map Scope.version

def scopeIncarnation (s : State) : Option Uuid := s.scope.map Scope.incarnation

end State

/-- The row of the collection in `tenant_entra_snapshots`; a foreign key keeps its organization
that of the tenant. -/
structure Snapshot where
  payload : Json
  observedAt : Micros
  publicationId : Option Uuid

structure EvidenceEvent where
  source : JsString
  sourceEventId : JsString
  details : Json

/-- A claim, as it was handed out. -/
structure Claim where
  attempt : RoleAttempt Uuid
  startedAt : Micros
  expiresAt : Micros
  deriving DecidableEq

/-- A completion, as it was committed. -/
structure Completion where
  attempt : RoleAttempt Uuid
  collection : PreparedRoleCollection
  checkedAt : Micros

/-- The rows of the tenant, the authority, and the logs of what was claimed and completed, the
latest first. -/
structure RoleDb where
  authority : Option ManagedAuthority
  tenant : Option Tenant
  connection : Option Connection
  state : Option State
  snapshot : Option Snapshot
  evidence : List EvidenceEvent
  clock : Micros
  drawn : List Uuid
  claims : List Claim
  completions : List Completion

/-- A sample of the clock, and the random ids of a transaction. -/
structure Draw where
  sampledAt : Micros
  connectionIncarnation : Uuid
  scopeIncarnation : Uuid
  attemptId : Uuid

def Draw.ids (x : Draw) : List Uuid := [x.connectionIncarnation, x.scopeIncarnation, x.attemptId]

/-- What a collection changed against the snapshot before it, and how `jsonb` compares. -/
structure Env where
  buildDifference : Option Json → List Json → Micros → Option Micros → Int →
    Option (List EvidenceEvent)
  canonical : Json → JsString

/-! ## Results -/

inductive RoleRejection
  | superseded | incarnationChanged | unavailable | busy | conflict
  deriving DecidableEq, Repr

structure RoleReceipt where
  attempt : RoleAttempt Uuid
  checkedAt : Micros
  snapshotObservedAt : Micros
  contentDigest : JsString
  rowCount : Nat
  deriving DecidableEq

def receipt (a : RoleAttempt Uuid) (checkedAt : Micros) (digest : JsString) (count : Nat) :
    RoleReceipt := ⟨a, checkedAt, checkedAt, digest, count⟩

inductive Result
  | rejected (reason : RoleRejection)
  | legacy
  | applied (enabled : Bool) (expected : DirectoryControlExpectation Uuid)
  | activated (context : RoleContext Uuid)
  | claimed (attempt : RoleAttempt Uuid) (startedAt expiresAt : Micros)
  | terminal (outcome : AttemptOutcome) (attemptId : Uuid)
  | committed (receipt : RoleReceipt)
  | replayed (receipt : RoleReceipt)
  | removed
  deriving DecidableEq

/-! ## Locked rows -/

namespace RoleDb

/-- An update of the row of the collection, refused by its checks. -/
def write (db : RoleDb) (s : State) : Option RoleDb :=
  if s.admitted then some { db with state := some s } else none

def tenantOf (db : RoleDb) (who : DirectoryControlIdentity Uuid) : Option Tenant :=
  db.tenant.filter fun t => t.toDirectoryControlIdentity = who

end RoleDb

structure Locked where
  state : Option State
  incarnation : Option Uuid

def lockScope (db : RoleDb) (who : DirectoryControlIdentity Uuid) : Option Locked := do
  let tenant ← db.tenantOf who
  let connection ← db.connection
  if tenant.status = .active ∧ connection.status = .connected ∧
      connection.mode = .hawkviewManaged then
    return ⟨db.state, connection.incarnation⟩
  else none

/-- `matches(locked, ctx)`. -/
def Locked.agrees (locked : Locked) (s : State) (ctx : RoleContext Uuid) : Bool :=
  locked.incarnation == some ctx.connectionIncarnation &&
    s.scope == some ⟨ctx.scopeVersion, ctx.scopeIncarnation⟩

def underAuthority (db : RoleDb) (who : RoleIdentity Uuid)
    (work : Option (RoleDb × Result)) : Option (RoleDb × Result) :=
  if db.authority.any fun a => a.configurationRevision = who.configurationRevision then work
  else some (db, .rejected .superseded)

/-- `lockControl`; the connection is a managed one, if there is any. -/
structure Control where
  tenant : Tenant
  connection : Option Connection
  expected : DirectoryControlExpectation Uuid

def lockControl (db : RoleDb) (who : DirectoryControlIdentity Uuid) : Option Control := do
  let tenant ← db.tenantOf who
  if db.connection.all fun c => c.mode = .hawkviewManaged then
    return {
      tenant
      connection := db.connection
      expected := {
        configurationRevision := db.authority.map ManagedAuthority.configurationRevision
        connectionIncarnation := db.connection.bind Connection.incarnation
        scopeIncarnation := db.state.bind State.scopeIncarnation
        scopeVersion := db.state.bind State.scopeVersion } }
  else none

/-- The credential of the authority is its own secret. -/
def ownSecret (a : ManagedAuthority) : Bool :=
  a.credentialReference == SECRET_REFERENCE ++ a.configurationRevision.text

def owns (t : Attempt) (a : RoleAttempt Uuid) : Bool :=
  t.id == a.attemptId && t.connection == a.connectionIncarnation &&
    t.configuration == a.configurationRevision && t.scope == a.scopeIncarnation &&
    t.outcome == .running

/-! ## Control -/

def writeRevokedScope (x : Draw) (db : RoleDb) : Option RoleDb :=
  db.write { db.state.getD .inserted with
    scope := some ⟨DIRECTORY_ROLE_REVOKED_SCOPE, x.scopeIncarnation⟩
    attempt := none
    status := .idle }

/-- The incarnation of the connection after an activation. -/
def nextIncarnation (conn : Option Uuid) (rotateConnection : Bool) (x : Draw) : Uuid :=
  match conn with
  | some incarnation => if rotateConnection then x.connectionIncarnation else incarnation
  | none => x.connectionIncarnation

def activateRoleScope (who : RoleIdentity Uuid) (conn scope : Option Uuid)
    (rotateConnection : Bool) (x : Draw) (db : RoleDb) : Option (RoleDb × Result) :=
  underAuthority db who <|
    match lockScope db who.toDirectoryControlIdentity with
    | none => some (db, .rejected .unavailable)
    | some locked =>
      if locked.incarnation ≠ conn ∨ locked.state.bind State.scopeIncarnation ≠ scope then
        some (db, .rejected .superseded)
      else
        let incarnation := nextIncarnation conn rotateConnection x
        (db.write { locked.state.getD .inserted with
          scope := some ⟨DIRECTORY_ROLE_RECEIPT_SCOPE, x.scopeIncarnation⟩
          attempt := none
          status := .idle }).map fun db =>
        ({ db with connection := db.connection.map fun c =>
            { c with incarnation := some incarnation } },
          .activated ⟨who, incarnation, x.scopeIncarnation, DIRECTORY_ROLE_RECEIPT_SCOPE⟩)

def setDirectoryRoleControl (who : DirectoryControlIdentity Uuid)
    (expected : DirectoryControlExpectation Uuid) (enabled : Bool) (x : Draw) (db : RoleDb) :
    Option (RoleDb × Result) :=
  match lockControl db who with
  | none => some (db, .rejected .unavailable)
  | some current =>
    if current.expected ≠ expected then some (db, .rejected .superseded)
    else if enabled then
      match db.authority with
      | none => some (db, .rejected .unavailable)
      | some authority =>
        if ownSecret authority ∧ current.tenant.status = .active ∧
            current.connection.any (fun c => c.status = .connected) then
          (activateRoleScope ⟨who, authority.configurationRevision⟩
            expected.connectionIncarnation expected.scopeIncarnation false x db).map fun
          | (db, .activated context) =>
            (db, .applied true ⟨some authority.configurationRevision,
              some context.connectionIncarnation, some context.scopeIncarnation,
              some context.scopeVersion⟩)
          | other => other
        else some (db, .rejected .unavailable)
    else (writeRevokedScope x db).map fun db =>
      (db, .applied false { current.expected with
        scopeIncarnation := some x.scopeIncarnation
        scopeVersion := some DIRECTORY_ROLE_REVOKED_SCOPE })

/-- The tenant goes with all its rows. -/
def removeManagedDirectoryTenant (who : DirectoryControlIdentity Uuid)
    (expected : DirectoryControlExpectation Uuid) (x : Draw) (db : RoleDb) :
    Option (RoleDb × Result) :=
  match lockControl db who with
  | none => some (db, .rejected .superseded)
  | some current =>
    if current.expected ≠ expected then some (db, .rejected .superseded)
    else (writeRevokedScope x db).map fun db =>
      ({ db with
          tenant := none
          connection := none
          state := none
          snapshot := none
          evidence := [] }, .removed)

/-! ## Attempts -/

/-- `sampled_at < role_attempt_expires_at`. -/
def Attempt.live (t : Attempt) (sampledAt : Micros) : Bool := decide (sampledAt < t.expiresAt)

def claimRoleAttempt (ctx : RoleContext Uuid) (x : Draw) (db : RoleDb) :
    Option (RoleDb × Result) :=
  underAuthority db ctx.toRoleIdentity <|
    match lockScope db ctx.toDirectoryControlIdentity with
    | none => some (db, .rejected .unavailable)
    | some locked =>
      match locked.state with
      | none => some (db, .rejected .unavailable)
      | some s =>
        if !locked.agrees s ctx then some (db, .rejected .incarnationChanged)
        else if s.attempt.any fun t => t.outcome == .running &&
            t.configuration == ctx.configurationRevision && t.live x.sampledAt then
          some (db, .rejected .busy)
        else
          let checkedAt := truncMillis x.sampledAt
          let claim : Claim := ⟨⟨ctx, x.attemptId⟩, checkedAt, checkedAt + ROLE_ATTEMPT⟩
          (db.write { s with
            attempt := some ⟨x.attemptId, ctx.connectionIncarnation, ctx.configurationRevision,
              ctx.scopeIncarnation, checkedAt, claim.expiresAt, .running, none⟩
            status := .running
            lastAttemptAt := some checkedAt }).map fun db =>
          ({ db with claims := claim :: db.claims },
            .claimed claim.attempt claim.startedAt claim.expiresAt)

def captureRoleAttempt (who : DirectoryControlIdentity Uuid) (x : Draw) (db : RoleDb) :
    Option (RoleDb × Result) :=
  match db.tenantOf who with
  | none => some (db, .rejected .unavailable)
  | some tenant =>
    match db.state.bind State.scope with
    | none =>
      some (db, if db.connection.any fun c => c.mode = .customerManaged then .legacy
        else .rejected .unavailable)
    | some scope =>
      match db.authority, db.connection.bind Connection.incarnation with
      | some authority, some incarnation =>
        if tenant.status = .active ∧ db.connection.any (fun c => c.status = .connected ∧
            c.mode = .hawkviewManaged) ∧ scope.version = DIRECTORY_ROLE_RECEIPT_SCOPE ∧
            ownSecret authority then
          claimRoleAttempt ⟨⟨who, authority.configurationRevision⟩, incarnation,
            scope.incarnation, scope.version⟩ x db
        else some (db, .rejected .unavailable)
      | _, _ => some (db, .rejected .unavailable)

def AttemptOutcome.text : AttemptOutcome → JsString
  | .running => js "RUNNING"
  | .complete => js "COMPLETE"
  | .failed => js "FAILED"
  | .partially => js "PARTIAL"
  | .expired => js "EXPIRED"

/-- `terminal(tx, s, a, time, outcome)`; an update that reaches no row throws. -/
def terminal (s : State) (t : Attempt) (a : RoleAttempt Uuid) (time : Micros)
    (outcome : AttemptOutcome) (db : RoleDb) : Option (RoleDb × Result) :=
  if owns t a then
    (db.write { s with
      attempt := some { t with outcome, terminalAt := some time }
      status := .failed
      lastErrorCode := some outcome.text
      consecutiveFailures := min s.consecutiveFailures 2147483646 + 1 }).map fun db =>
    (db, .terminal outcome a.attemptId)
  else none

/-- The outcomes that a caller may report. -/
inductive Finish
  | failed | partially | expired
  deriving DecidableEq, Repr

def Finish.outcome : Finish → AttemptOutcome
  | .failed => .failed
  | .partially => .partially
  | .expired => .expired

def finishRoleAttempt (a : RoleAttempt Uuid) (finish : Finish) (x : Draw) (db : RoleDb) :
    Option (RoleDb × Result) :=
  underAuthority db a.toRoleIdentity <|
    match lockScope db a.toDirectoryControlIdentity with
    | none => some (db, .rejected .incarnationChanged)
    | some locked =>
      match locked.state with
      | none => some (db, .rejected .incarnationChanged)
      | some s =>
        if !locked.agrees s a.toRoleContext then some (db, .rejected .incarnationChanged)
        else
          match s.attempt.filter fun t => owns t a with
          | none => some (db, .rejected .superseded)
          | some t =>
            if finish = .expired ∧ t.live x.sampledAt then some (db, .rejected .conflict)
            else terminal s t a (truncMillis x.sampledAt)
              (if t.live x.sampledAt then finish.outcome else .expired) db

/-! ## Completion -/

def Completion.complete (c : Completion) : Complete where
  id := c.attempt.attemptId
  connection := c.attempt.connectionIncarnation
  configuration := c.attempt.configurationRevision
  scope := c.attempt.scopeIncarnation
  scopeVersion := c.attempt.scopeVersion
  microsoftTenantId := c.attempt.microsoftTenantId
  checkedAt := c.checkedAt
  digest := c.collection.contentDigest
  count := c.collection.rows.length

def Completion.snapshot (c : Completion) : Snapshot where
  payload := c.collection.payload
  observedAt := c.checkedAt
  publicationId := some c.attempt.attemptId

def Completion.receipt (c : Completion) : RoleReceipt :=
  DirectoryRoles.receipt c.attempt c.checkedAt c.collection.contentDigest c.collection.rows.length

/-- The columns name the incarnations of the attempt. -/
def Complete.names (c : Complete) (a : RoleAttempt Uuid) : Bool :=
  c.connection == a.connectionIncarnation && c.configuration == a.configurationRevision &&
    c.scope == a.scopeIncarnation && c.scopeVersion == a.scopeVersion &&
    c.microsoftTenantId == a.microsoftTenantId

/-- The answer to an attempt that is the one completed last. -/
def replay (env : Env) (a : RoleAttempt Uuid) (collection : PreparedRoleCollection)
    (c : Complete) (previous : Option Snapshot) : Result :=
  if !c.names a then .rejected .incarnationChanged
  else if c.digest = collection.contentDigest ∧ c.count = collection.rows.length ∧
      previous.any (fun p => p.publicationId = some a.attemptId ∧
        env.canonical p.payload = env.canonical collection.payload ∧
        p.observedAt = c.checkedAt) then
    .replayed (receipt a c.checkedAt collection.contentDigest collection.rows.length)
  else .rejected .conflict

def insertEvidence (rows events : List EvidenceEvent) : List EvidenceEvent :=
  events.foldl (fun rows e =>
    if rows.any fun r => r.source == e.source && r.sourceEventId == e.sourceEventId then rows
    else rows ++ [e]) rows

/-- The writes of a completion. -/
def publish (env : Env) (s : State) (t : Attempt) (done : Completion) (db : RoleDb) :
    Option (RoleDb × Result) := do
  let evidence ← env.buildDifference (db.snapshot.map Snapshot.payload) done.collection.rows
    done.checkedAt (db.snapshot.map Snapshot.observedAt)
    (ManagementActivity.evidenceExpiration (done.checkedAt / 1000))
  let db ← db.write { s with
    attempt := some { t with outcome := .complete, terminalAt := some done.checkedAt }
    complete := some done.complete
    status := .succeeded
    lastSuccessfulAt := some done.checkedAt
    lastErrorCode := none
    lastErrorMessage := none
    consecutiveFailures := 0 }
  return ({ db with
    snapshot := some done.snapshot
    evidence := insertEvidence db.evidence evidence
    completions := done :: db.completions }, .committed done.receipt)

def completeRoleAttempt (env : Env) (a : RoleAttempt Uuid) (collection : PreparedRoleCollection)
    (x : Draw) (db : RoleDb) : Option (RoleDb × Result) :=
  underAuthority db a.toRoleIdentity <|
    match lockScope db a.toDirectoryControlIdentity with
    | none => some (db, .rejected .incarnationChanged)
    | some locked =>
      match locked.state with
      | none => some (db, .rejected .incarnationChanged)
      | some s =>
        if !locked.agrees s a.toRoleContext then some (db, .rejected .incarnationChanged)
        else
          match s.complete.filter fun c => c.id = a.attemptId with
          | some c => some (db, replay env a collection c db.snapshot)
          | none =>
            match s.attempt.filter fun t => owns t a with
            | none => some (db, .rejected .superseded)
            | some t =>
              let checkedAt := truncMillis x.sampledAt
              if t.live x.sampledAt then publish env s t ⟨a, collection, checkedAt⟩ db
              else terminal s t a checkedAt .expired db

/-! ## Transactions -/

inductive Call
  | setDirectoryRoleControl (who : DirectoryControlIdentity JsString)
      (expectation : DirectoryControlExpectation JsString) (enabled : Bool)
  | activateRoleScope (who : RoleIdentity JsString) (conn scope : Option JsString)
      (rotateConnection : Bool)
  | captureRoleAttempt (who : DirectoryControlIdentity JsString)
  | claimRoleAttempt (ctx : RoleContext JsString)
  | finishRoleAttempt (a : RoleAttempt JsString) (finish : Finish)
  | completeRoleAttempt (a : RoleAttempt JsString) (collection : PreparedRoleCollection)
  | removeManagedDirectoryTenant (who : DirectoryControlIdentity JsString)
      (expectation : DirectoryControlExpectation JsString)

/-- A call that is accepted runs in one transaction; `none` when it throws. -/
def transact (env : Env) (call : Call) (x : Draw) (db : RoleDb) : Option (RoleDb × Result) :=
  match call with
  | .setDirectoryRoleControl who expectation enabled => do
    setDirectoryRoleControl (← controlIdentity who) (← directoryControlExpectation expectation)
      enabled x db
  | .activateRoleScope who conn scope rotateConnection => do
    activateRoleScope (← identity who) (← uuidOrNull conn) (← uuidOrNull scope)
      rotateConnection x db
  | .captureRoleAttempt who => do captureRoleAttempt (← controlIdentity who) x db
  | .claimRoleAttempt ctx => do claimRoleAttempt (← context ctx) x db
  | .finishRoleAttempt a finish => do finishRoleAttempt (← attempt a) finish x db
  | .completeRoleAttempt a collection => do
    if prepared collection then completeRoleAttempt env (← attempt a) collection x db else none
  | .removeManagedDirectoryTenant who expectation => do
    removeManagedDirectoryTenant (← controlIdentity who)
      (← directoryControlExpectation expectation) x db

/-- A call, or another writer of the authority, the tenant or the connection. -/
inductive Action
  | call (call : Call) (x : Draw)
  | authority (authority : Option ManagedAuthority)
  | tenant (status : TenantStatus)
  | connection (connection : Connection)

/-- The random ids were never drawn before, and the clock does not run backwards. -/
def RoleDb.admits (db : RoleDb) (x : Draw) : Bool :=
  decide x.ids.Nodup && x.ids.all (fun id => !db.drawn.contains id) &&
    decide (db.clock ≤ x.sampledAt)

def RoleDb.advance (db : RoleDb) (x : Draw) : RoleDb :=
  { db with clock := x.sampledAt, drawn := x.ids ++ db.drawn }

/-- A transaction with its result. -/
def perform (env : Env) (db : RoleDb) (call : Call) (x : Draw) : Option (RoleDb × Result) :=
  if db.admits x then transact env call x (db.advance x) else none

def step (env : Env) (db : RoleDb) : Action → Option RoleDb
  | .call call x => (perform env db call x).map Prod.fst
  | .authority authority => some { db with authority }
  | .tenant status => some { db with tenant := db.tenant.map fun t => { t with status } }
  | .connection connection => some { db with connection := db.connection.map fun _ => connection }

end DirectoryRoles
