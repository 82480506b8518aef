import HawkView.Lib.JsMap
import HawkView.Microsoft.ManagedConnectorAuthority

/-!
# Consent operations

An operation is issued for the connection of a tenant, claimed by one callback
and finished once. What a finish does to the connection it does under the
authority that the operation was issued with, and before a deadline.
-/

namespace ConsentOperations

open Locking ManagedConnectorAuthority

/-- Microseconds since 1970. -/
abbrev Micros := Int

def CONSENT_ENTRY : Micros := 15 * 60 * 1000 * 1000

def CONSENT_FINAL : Micros := 5 * 60 * 1000 * 1000

/-- `date_trunc('milliseconds', …)`. -/
def truncMillis (t : Micros) : Micros := t / 1000 * 1000

/-! ## Results -/

inductive Failure
  | consentDenied | tenantMismatch | verificationFailed | missingPermissions
  deriving DecidableEq, Repr

def Failure.text : Failure → JsString
  | .consentDenied => js "CONSENT_DENIED"
  | .tenantMismatch => js "TENANT_MISMATCH"
  | .verificationFailed => js "VERIFICATION_FAILED"
  | .missingPermissions => js "MISSING_PERMISSIONS"

inductive PreparedConsentResult
  | succeeded (displayName : JsString) (primaryDomain : Option JsString)
      (grantedPermissions : List JsString)
  | failed (code : Failure)
  deriving DecidableEq

def letter (c : UInt16) : Bool :=
  decide (0x41 ≤ c ∧ c ≤ 0x5A) || decide (0x61 ≤ c ∧ c ≤ 0x7A)

/-- `/^[A-Za-z][A-Za-z0-9.]{0,199}$/`. -/
def permission : JsString → Bool
  | [] => false
  | c :: rest => letter c && decide (rest.length ≤ 199) &&
      rest.all fun d => letter d || decide (0x30 ≤ d ∧ d ≤ 0x39) || d == 0x2E

/-- `[...new Set(values)].sort()`. -/
def uniqueSorted (values : List JsString) : List JsString :=
  (JsSet.ofList values).elements.insertionSort (· ≤ ·)

/-- The result as it is kept; what is out of bounds throws. -/
def prepared : PreparedConsentResult → Option PreparedConsentResult
  | .failed code => some (.failed code)
  | .succeeded displayName primaryDomain grantedPermissions =>
    if 1 ≤ displayName.length ∧ displayName.length ≤ 200 ∧
        (∀ d ∈ primaryDomain, d.length ≤ 253) ∧ grantedPermissions.length ≤ 200 ∧
        grantedPermissions.all permission then
      some (.succeeded displayName primaryDomain (uniqueSorted grantedPermissions))
    else none

def PreparedConsentResult.json : PreparedConsentResult → Json
  | .failed code => .object [
      (js "outcome", .string (js "FAILED")),
      (js "code", .string code.text)]
  | .succeeded displayName primaryDomain grantedPermissions => .object [
      (js "outcome", .string (js "SUCCEEDED")),
      (js "displayName", .string displayName),
      (js "primaryDomain", Publication.jsonOption primaryDomain),
      (js "grantedPermissions", .array (grantedPermissions.map .string))]

/-- The SHA-256 digest, in hexadecimal. -/
def PreparedConsentResult.digest (sha256 : JsString → JsString) (r : PreparedConsentResult) :
    JsString := sha256 r.json.stringify

inductive TerminalState
  | succeeded | failed | superseded | expired
  deriving DecidableEq, Repr

def TerminalState.text : TerminalState → JsString
  | .succeeded => js "SUCCEEDED"
  | .failed => js "FAILED"
  | .superseded => js "SUPERSEDED"
  | .expired => js "EXPIRED"

structure ConsentTerminal where
  state : TerminalState
  resultCode : JsString
  resultingConnectionIncarnation : Option Uuid
  deriving DecidableEq

/-! ## Operations -/

structure Expected where
  configuration : Uuid
  connection : Uuid
  microsoftTenant : Uuid
  clientId : Uuid
  homeTenantId : Uuid
  credentialReference : JsString
  deriving DecidableEq

structure Claim where
  id : Uuid
  claimedAt : Micros
  finalDeadline : Micros
  deriving DecidableEq

/-- How far an operation came: the shapes that the check on its row admits. -/
inductive Progress
  | issued
  | claimed (claim : Claim)
  | applied (claim : Claim) (at' : Micros) (state : TerminalState) (resultCode : JsString)
      (resultConnection : Uuid) (resultDigest : JsString)
  | ended (claim : Option Claim) (at' : Micros) (state : TerminalState)
  deriving DecidableEq

namespace Progress

def claim? : Progress → Option Claim
  | .issued => none
  | .claimed c => some c
  | .applied c _ _ _ _ _ => some c
  | .ended c _ _ => c

def terminal : Progress → Option ConsentTerminal
  | .issued => none
  | .claimed _ => none
  | .applied _ _ state resultCode resultConnection _ =>
    some ⟨state, resultCode, some resultConnection⟩
  | .ended _ _ state => some ⟨state, state.text, none⟩

def resultDigest : Progress → Option JsString
  | .applied _ _ _ _ _ digest => some digest
  | _ => none

end Progress

structure Trusted where
  expected : Expected
  progress : Progress
  deriving DecidableEq

/-- A row of operations. A row of before the operation columns is not trusted. -/
structure Operation where
  id : Uuid
  stateHash : JsString
  expiresAt : Micros
  trusted : Option Trusted
  deriving DecidableEq

structure ConsentOperationKey where
  operationId : Uuid
  stateHash : JsString
  deriving DecidableEq

/-! ## The store -/

inductive ConnectionStatus
  | pendingConsent | connected | error | other
  deriving DecidableEq, Repr

/-- The managed connection of the tenant that is not revoked. -/
structure Connection where
  incarnation : Option Uuid
  status : ConnectionStatus
  consentedPermissions : List JsString
  lastErrorCode : Option JsString
  deriving DecidableEq

/-- The row of the tenant, as long as it is not disconnected. -/
structure Tenant where
  microsoftTenantId : Uuid
  displayName : JsString
  primaryDomain : Option JsString
  active : Bool
  deriving DecidableEq

/-- What a committed transaction did to an operation. -/
inductive Event
  | issued (session : Nat) (operation : Uuid)
  | claimed (session : Nat) (operation : Uuid)
  | applied (session : Nat) (operation : Uuid)
  deriving DecidableEq

structure ConsentDb where
  authority : Option ManagedAuthority
  tenant : Option Tenant
  connection : Option Connection
  roleAttempt : Option Uuid
  operations : List Operation
  foreignHashes : List JsString
  drawn : List Uuid
  history : List Event

inductive Lock
  | authority | tenant | connection | roles
  | operation (id : Uuid)
  deriving DecidableEq

/-- A sample of the clock and random ids. -/
structure Draw where
  sampledAt : Micros
  operationId : Uuid
  incarnation : Uuid
  claimId : Uuid

def Draw.ids (x : Draw) : List Uuid := [x.operationId, x.incarnation, x.claimId]

namespace ConsentDb

def readOperation (db : ConsentDb) (k : ConsentOperationKey) : Option Operation :=
  db.operations.find? fun o => o.id = k.operationId ∧ o.stateHash = k.stateHash

/-- `UPDATE microsoft_consent_attempts … WHERE id = …`. -/
def progress (db : ConsentDb) (id : Uuid) (next : Progress) : ConsentDb :=
  { db with operations := db.operations.map fun o =>
      if o.id = id then { o with trusted := o.trusted.map fun t => { t with progress := next } }
      else o }

def draw (db : ConsentDb) (x : Draw) : ConsentDb := { db with drawn := db.drawn ++ x.ids }

/-- The random ids were never drawn before. -/
def fresh (db : ConsentDb) (x : Draw) : Bool :=
  decide x.ids.Nodup && x.ids.all fun id => !db.drawn.contains id

end ConsentDb

inductive Reason
  | untrusted | unavailable | superseded | busy | conflict
  deriving DecidableEq, Repr

structure ClaimedConsent where
  key : ConsentOperationKey
  claim : Claim
  expected : Expected
  deriving DecidableEq

inductive Outcome
  | rejected (reason : Reason)
  | issued (key : ConsentOperationKey) (incarnation : Uuid) (expiresAt : Micros)
  | claimed (context : ClaimedConsent)
  | terminal (result : ConsentTerminal)
  | applied (result : ConsentTerminal)
  | replayed (result : ConsentTerminal)
  | ended (result : ConsentTerminal)
  | published
  deriving DecidableEq

/-- `endWithoutAuthority`. -/
def endWithoutAuthority (db : ConsentDb) (o : Operation) (claim : Option Claim)
    (state : TerminalState) (sampledAt : Micros) : ConsentDb × ConsentTerminal :=
  (db.progress o.id (.ended claim (truncMillis sampledAt) state), ⟨state, state.text, none⟩)

/-! ## Issuing -/

structure Issue where
  microsoftTenantId : Uuid
  configurationRevision : Uuid
  expectedConnectionIncarnation : Option Uuid
  stateHash : JsString
  deriving DecidableEq

/-- The rest of `issueConsentOperation` once all its locks are held. -/
def issueConsentOperation (c : Issue) (current : ManagedAuthority) (connection : Connection)
    (session : Nat) (x : Draw) (db : ConsentDb) : ConsentDb × Outcome :=
  let stamp := truncMillis x.sampledAt
  let expiresAt := stamp + CONSENT_ENTRY
  if connection.incarnation ≠ c.expectedConnectionIncarnation then (db, .rejected .superseded)
  else if db.operations.any (fun o => o.stateHash = c.stateHash) ||
      db.foreignHashes.contains c.stateHash then (db, .rejected .conflict)
  else
    let operation : Operation := {
      id := x.operationId
      stateHash := c.stateHash
      expiresAt
      trusted := some {
        expected := {
          configuration := c.configurationRevision
          connection := x.incarnation
          microsoftTenant := c.microsoftTenantId
          clientId := current.clientId
          homeTenantId := current.homeTenantId
          credentialReference := current.credentialReference }
        progress := .issued } }
    ({ db with
        operations := db.operations ++ [operation]
        connection := some { connection with
          incarnation := some x.incarnation
          status := .pendingConsent
          lastErrorCode := none }
        roleAttempt := none
        history := db.history ++ [.issued session x.operationId] },
      .issued ⟨x.operationId, c.stateHash⟩ x.incarnation expiresAt)

/-! ## Claiming -/

def claimConsentOperation (k : ConsentOperationKey) (row : Option Operation) (session : Nat)
    (x : Draw) (db : ConsentDb) : ConsentDb × Outcome :=
  match row with
  | none => (db, .rejected .untrusted)
  | some o =>
    match o.trusted with
    | none => (db, .rejected .untrusted)
    | some t =>
      match t.progress with
      | .claimed _ => (db, .rejected .busy)
      | .issued =>
        if x.sampledAt < o.expiresAt then
          let stamp := truncMillis x.sampledAt
          let claim : Claim := ⟨x.claimId, stamp, stamp + CONSENT_FINAL⟩
          ({ db.progress o.id (.claimed claim) with
              history := db.history ++ [.claimed session o.id] },
            .claimed ⟨k, claim, t.expected⟩)
        else (endWithoutAuthority db o none .expired x.sampledAt).map id .terminal
      | p =>
        match p.terminal with
        | some result => (db, .terminal result)
        | none => (db, .rejected .untrusted)

/-! ## Finishing -/

structure Finish where
  key : ConsentOperationKey
  claimId : Uuid
  value : PreparedConsentResult
  deriving DecidableEq

/-- The result that is kept; a value out of bounds throws before it is used. -/
def Finish.result (f : Finish) : PreparedConsentResult := (prepared f.value).getD f.value

/-- A terminal operation answers with its result, unless another result was applied. -/
def replay (sha256 : JsString → JsString) (f : Finish) (p : Progress) : Option Outcome :=
  p.terminal.map fun prior =>
    if (p.resultDigest.any fun d => d ≠ f.result.digest sha256) then .rejected .conflict
    else .replayed prior

/-- The trusted part of a row whose claim the caller holds. -/
def heldBy (f : Finish) (row : Option Operation) : Option (Operation × Trusted) :=
  row.bind fun o => o.trusted.bind fun t =>
    if t.progress.claim?.map Claim.id = some f.claimId then some (o, t) else none

/-- The connection, the authority and the tenant are those the operation was issued for. -/
def stillExpected (initial t : Trusted) (current : ManagedAuthority)
    (connection : Option Connection) : Bool :=
  decide (t.expected.microsoftTenant = initial.expected.microsoftTenant) &&
    connection.any (fun c => decide (c.incarnation = some t.expected.connection ∧
      c.status = .pendingConsent)) &&
    decide (current.configurationRevision = t.expected.configuration ∧
      current.clientId = t.expected.clientId ∧ current.homeTenantId = t.expected.homeTenantId ∧
      current.credentialReference = t.expected.credentialReference)

def EXCHANGE_PERMISSION : JsString := js "Exchange.ManageAsAppV2"

/-- The writes of a finish on its connection, tenant and operation. -/
def applyResult (sha256 : JsString → JsString) (f : Finish) (o : Operation) (claim : Claim)
    (connection : Connection) (session : Nat) (x : Draw) (db : ConsentDb) : ConsentDb × Outcome :=
  let stamp := truncMillis x.sampledAt
  let digest := f.result.digest sha256
  match f.result with
  | .succeeded displayName primaryDomain grantedPermissions =>
    let permissions := uniqueSorted (grantedPermissions ++
      connection.consentedPermissions.filter (· = EXCHANGE_PERMISSION))
    ({ db.progress o.id
          (.applied claim stamp .succeeded (js "CONNECTED") x.incarnation digest) with
        tenant := db.tenant.map fun t => { t with displayName, primaryDomain, active := true }
        connection := some ⟨some x.incarnation, .connected, permissions, none⟩
        roleAttempt := none
        history := db.history ++ [.applied session o.id] },
      .applied ⟨.succeeded, js "CONNECTED", some x.incarnation⟩)
  | .failed code =>
    ({ db.progress o.id (.applied claim stamp .failed code.text x.incarnation digest) with
        connection := some { connection with
          incarnation := some x.incarnation
          status := .error
          lastErrorCode := some code.text }
        roleAttempt := none
        history := db.history ++ [.applied session o.id] },
      .applied ⟨.failed, code.text, some x.incarnation⟩)

/-- The second transaction of `finishConsentOperation` once all its locks are held. -/
def finishConsentOperation (sha256 : JsString → JsString) (f : Finish) (initial : Trusted)
    (current : ManagedAuthority) (connection : Option Connection) (row : Option Operation)
    (session : Nat) (x : Draw) (db : ConsentDb) : ConsentDb × Outcome :=
  match heldBy f row with
  | none => (db, .rejected .untrusted)
  | some (o, t) =>
    match replay sha256 f t.progress with
    | some prior => (db, prior)
    | none =>
      match t.progress, connection with
      | .claimed claim, some c =>
        if ¬ x.sampledAt < claim.finalDeadline then
          (endWithoutAuthority db o claim .expired x.sampledAt).map id .ended
        else if !stillExpected initial t current (some c) then
          (endWithoutAuthority db o claim .superseded x.sampledAt).map id .ended
        else applyResult sha256 f o claim c session x db
      | .claimed claim, none =>
        (endWithoutAuthority db o claim
          (if x.sampledAt < claim.finalDeadline then .superseded else .expired)
          x.sampledAt).map id .ended
      | _, _ => (db, .rejected .untrusted)

/-- The last transaction, after the authority was found replaced. -/
def finishWithoutAuthority (sha256 : JsString → JsString) (f : Finish) (row : Option Operation)
    (x : Draw) (db : ConsentDb) : ConsentDb × Outcome :=
  match heldBy f row with
  | none => (db, .rejected .untrusted)
  | some (o, t) =>
    match replay sha256 f t.progress with
    | some prior => (db, prior)
    | none =>
      match t.progress with
      | .claimed claim =>
        (endWithoutAuthority db o claim
          (if x.sampledAt < claim.finalDeadline then .superseded else .expired)
          x.sampledAt).map id .ended
      | _ => (db, .rejected .untrusted)

/-! ## Transactions -/

inductive Call
  | issue (c : Issue)
  | claim (k : ConsentOperationKey)
  | finish (f : Finish)
  | publish (a : ManagedAuthority)
  deriving DecidableEq

/-- Where a call stands, with what it has read under the locks it holds. -/
inductive Phase
  | waiting (call : Call)
  | issueLocked (c : Issue)
  | issueAuthorized (c : Issue) (current : Option ManagedAuthority)
  | issueTenant (c : Issue) (current : ManagedAuthority) (tenant : Option Tenant)
  | issueConnection (c : Issue) (current : ManagedAuthority) (connection : Option Connection)
  | issueReady (c : Issue) (current : ManagedAuthority) (connection : Connection)
  | claimReady (k : ConsentOperationKey) (row : Option Operation)
  | finishRead (f : Finish) (row : Option Operation)
  | finishLocked (f : Finish) (initial : Trusted)
  | finishAuthorized (f : Finish) (initial : Trusted) (current : Option ManagedAuthority)
  | finishTenant (f : Finish) (initial : Trusted) (current : ManagedAuthority)
      (tenant : Option Tenant)
  | finishConnection (f : Finish) (initial : Trusted) (current : ManagedAuthority)
      (connection : Option Connection)
  | finishRoles (f : Finish) (initial : Trusted) (current : ManagedAuthority)
      (connection : Option Connection)
  | finishReady (f : Finish) (initial : Trusted) (current : ManagedAuthority)
      (connection : Option Connection) (row : Option Operation)
  | finishReplaced (f : Finish)
  | finishLate (f : Finish) (row : Option Operation)
  | publishReady (a : ManagedAuthority)
  | finished (call : Call) (outcome : Outcome)
  | failed (call : Call)

def Phase.call : Phase → Call
  | .waiting call => call
  | .issueLocked c => .issue c
  | .issueAuthorized c _ => .issue c
  | .issueTenant c _ _ => .issue c
  | .issueConnection c _ _ => .issue c
  | .issueReady c _ _ => .issue c
  | .claimReady k _ => .claim k
  | .finishRead f _ => .finish f
  | .finishLocked f _ => .finish f
  | .finishAuthorized f _ _ => .finish f
  | .finishTenant f _ _ _ => .finish f
  | .finishConnection f _ _ _ => .finish f
  | .finishRoles f _ _ _ => .finish f
  | .finishReady f _ _ _ _ => .finish f
  | .finishReplaced f => .finish f
  | .finishLate f _ => .finish f
  | .publishReady a => .publish a
  | .finished call _ => call
  | .failed call => call

/-- A commit that draws random ids, and writes. -/
def drawing (call : Call) (write : Nat → Draw → ConsentDb → ConsentDb × Outcome) :
    Move Lock ConsentDb Phase Draw :=
  .commit fun session x db =>
    if db.fresh x then
      some ((write session x db).1.draw x, .finished call (write session x db).2)
    else none

/-- A commit that writes nothing. -/
def answer (next : Phase) : Move Lock ConsentDb Phase Draw := .commit fun _ _ db => some (db, next)

def reject (call : Call) (reason : Reason) : Move Lock ConsentDb Phase Draw :=
  answer (.finished call (.rejected reason))

def move (sha256 : JsString → JsString) : Phase → Move Lock ConsentDb Phase Draw
  | .waiting (.issue c) => .acquire .authority .shared fun _ => .issueLocked c
  | .waiting (.claim k) => .acquire (.operation k.operationId) .exclusive fun db =>
    .claimReady k (db.readOperation k)
  | .waiting (.finish f) => .observe fun db => .finishRead f (db.readOperation f.key)
  | .waiting (.publish a) => .acquire .authority .exclusive fun _ => .publishReady a
  | .issueLocked c => .observe fun db => .issueAuthorized c db.authority
  | .issueAuthorized c current =>
    match current with
    | some a =>
      if a.configurationRevision ≠ c.configurationRevision then reject (.issue c) .superseded
      else if a.credentialReference ≠ SECRET_REFERENCE ++ c.configurationRevision.text then
        reject (.issue c) .untrusted
      else .acquire .tenant .exclusive fun db => .issueTenant c a db.tenant
    | none => reject (.issue c) .superseded
  | .issueTenant c current tenant =>
    if tenant.any fun t => t.microsoftTenantId = c.microsoftTenantId then
      .acquire .connection .exclusive fun db => .issueConnection c current db.connection
    else reject (.issue c) .unavailable
  | .issueConnection c current connection =>
    match connection with
    | some n => .acquire .roles .exclusive fun _ => .issueReady c current n
    | none => reject (.issue c) .unavailable
  | .issueReady c current connection =>
    drawing (.issue c) (issueConsentOperation c current connection)
  | .claimReady k row => drawing (.claim k) (claimConsentOperation k row)
  | .finishRead f row =>
    match heldBy f row with
    | none => reject (.finish f) .untrusted
    | some (_, t) =>
      match replay sha256 f t.progress with
      | some prior => answer (.finished (.finish f) prior)
      | none => .acquire .authority .shared fun _ => .finishLocked f t
  | .finishLocked f initial => .observe fun db => .finishAuthorized f initial db.authority
  | .finishAuthorized f initial current =>
    match current with
    | some a =>
      if a.configurationRevision = initial.expected.configuration then
        .acquire .tenant .exclusive fun db => .finishTenant f initial a db.tenant
      else answer (.finishReplaced f)
    | none => answer (.finishReplaced f)
  | .finishTenant f initial current tenant =>
    if tenant.any fun t => t.microsoftTenantId = initial.expected.microsoftTenant then
      .acquire .connection .exclusive fun db => .finishConnection f initial current db.connection
    else .acquire (.operation f.key.operationId) .exclusive fun db =>
      .finishReady f initial current none (db.readOperation f.key)
  | .finishConnection f initial current connection =>
    match connection with
    | some n => .acquire .roles .exclusive fun _ => .finishRoles f initial current (some n)
    | none => .acquire (.operation f.key.operationId) .exclusive fun db =>
      .finishReady f initial current none (db.readOperation f.key)
  | .finishRoles f initial current connection =>
    .acquire (.operation f.key.operationId) .exclusive fun db =>
      .finishReady f initial current connection (db.readOperation f.key)
  | .finishReady f initial current connection row =>
    drawing (.finish f) (finishConsentOperation sha256 f initial current connection row)
  | .finishReplaced f => .acquire (.operation f.key.operationId) .exclusive fun db =>
    .finishLate f (db.readOperation f.key)
  | .finishLate f row => drawing (.finish f) fun _ => finishWithoutAuthority sha256 f row
  | .publishReady a => .commit fun _ _ db =>
    some ({ db with authority := some a }, .finished (.publish a) .published)
  | .finished _ _ => .rest
  | .failed _ => .rest

/-- A finish whose result is out of bounds throws before it reads. -/
def Call.accepted : Call → Bool
  | .finish f => (prepared f.value).isSome
  | _ => true

def program (sha256 : JsString → JsString) : Program Lock ConsentDb Phase Draw where
  starts
    | .waiting call => call.accepted
    | _ => false
  move := move sha256
  aborted
    | .finished call outcome => .finished call outcome
    | p => .failed p.call

abbrev System := State Lock ConsentDb Phase

end ConsentOperations
