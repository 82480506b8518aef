import HawkView.Tenants.DirectoryRoles

/-!
# The store of PIM schedule attempts

The rows of one tenant. Every transaction takes the shared advisory lock, the row
of the tenant and the row of its connection, in this order, before it reads or
writes an attempt. The columns are in microseconds, a `Date` is in milliseconds.
-/

namespace PimSchedule

open Locking ManagedConnectorAuthority
open DirectoryRoles (Micros Tenant TenantStatus Connection)

inductive PimPlane
  | active | eligible
  deriving DecidableEq, Repr

def PIM_PROJECTION : JsString := js "bare-get:v1:no-select:no-expand:no-top"

def PIM_ENDPOINTS : PimPlane → JsString
  | .active =>
    js "https://graph.microsoft.com/v1.0/roleManagement/directory/roleAssignmentScheduleInstances"
  | .eligible =>
    js "https://graph.microsoft.com/v1.0/roleManagement/directory/roleEligibilityScheduleInstances"

/-! ## Arguments -/

abbrev PimTenant := DirectoryRoles.DirectoryControlIdentity

structure PimIdentity (ι : Type) extends PimTenant ι where
  configurationRevision : ι
  plane : PimPlane
  deriving DecidableEq

structure PimContext (ι : Type) extends PimIdentity ι where
  connectionIncarnation : ι
  scopeId : ι
  scopeIncarnation : ι
  scopeVersion : JsString
  endpointDescriptor : JsString
  projectionIdentity : JsString
  deriving DecidableEq

/-- The times are those of a `Date`. -/
structure PimAttempt (ι : Type) extends PimContext ι where
  attemptId : ι
  startedAt : Int
  expiresAt : Int
  deriving DecidableEq

structure PimLimits where
  pages : Int
  rows : Int
  pageBytes : Int
  materializedBytes : Int
  requestTimeoutMs : Int
  collectorDeadlineMs : Int
  wireBytes : Int
  requests : Int
  retryAttempts : Int
  retryDelayMs : Int
  maxConflictVersions : Int
  maxConflictEvidenceBytes : Int

def MAX_SAFE_INTEGER : Int := 9007199254740991

def copyPimLimits (l : PimLimits) : Option PimLimits :=
  let positive := [l.pages, l.pageBytes, l.materializedBytes, l.requestTimeoutMs,
    l.collectorDeadlineMs, l.wireBytes, l.requests, l.retryDelayMs, l.maxConflictVersions]
  let zeroAllowed := [l.rows, l.retryAttempts, l.maxConflictEvidenceBytes]
  if (positive ++ zeroAllowed).all (fun n => decide (0 ≤ n ∧ n ≤ MAX_SAFE_INTEGER)) &&
      positive.all (fun n => decide (n ≠ 0)) && decide (l.requestTimeoutMs ≤ 2147483647) &&
      decide (l.collectorDeadlineMs ≤ 2147483647) && decide (l.retryDelayMs ≤ 2147483647) then
    some l
  else none

def pimLifetime (ms : Int) : Option Int :=
  if 0 < ms ∧ ms ≤ 2147483647 then some ms else none

def pimVersion (value : JsString) : Option JsString :=
  if !value.trim.isEmpty && decide (value.length ≤ 200) then some value else none

def copyPimTenant (v : PimTenant JsString) : Option (PimTenant Uuid) := do
  return ⟨← uuid v.organizationId, ← uuid v.customerTenantId, ← uuid v.microsoftTenantId⟩

def copyPimContext (v : PimContext JsString) : Option (PimContext Uuid) :=
  if v.endpointDescriptor = PIM_ENDPOINTS v.plane ∧ v.projectionIdentity = PIM_PROJECTION then do
    let tenant ← copyPimTenant v.toDirectoryControlIdentity
    let configurationRevision ← uuid v.configurationRevision
    let connectionIncarnation ← uuid v.connectionIncarnation
    let scopeId ← uuid v.scopeId
    let scopeIncarnation ← uuid v.scopeIncarnation
    let scopeVersion ← pimVersion v.scopeVersion
    return ⟨⟨tenant, configurationRevision, v.plane⟩, connectionIncarnation, scopeId,
      scopeIncarnation, scopeVersion, v.endpointDescriptor, v.projectionIdentity⟩
  else none

def copyPimAttempt (v : PimAttempt JsString) : Option (PimAttempt Uuid) :=
  if finite v.startedAt && finite v.expiresAt && decide (v.startedAt < v.expiresAt) then do
    return ⟨← copyPimContext v.toPimContext, ← uuid v.attemptId, v.startedAt, v.expiresAt⟩
  else none

structure PimCaptureRequest extends PimTenant JsString where
  plane : PimPlane
  scopeVersion : JsString
  attemptLifetimeMs : Int

inductive PimFailureKind
  | invalidJson | invalidEnvelope | invalidContinuation | contextChanged | capacity | deadline
  | providerFailed | throttled | invalidObservations
  deriving DecidableEq, Repr

inductive PimTraversal
  | inFlight | exhausted | truncatedBudget | truncatedDeadline | errored
  deriving DecidableEq, Repr

structure ParsedEnvelope where
  pageIndex : Nat
  requestedToken : JsString
  envelope : Json
  byteLength : Nat

structure WireFailure where
  pageIndex : Nat
  byteLength : Nat

structure ParsedObservationRow where
  occurrenceOrdinal : Nat
  instanceId : Option JsString
  plane : PimPlane
  raw : Json
  observations : Json
  diagnostics : Json
  providerStartDateTime : Option Int
  providerEndDateTime : Option Int

structure PreparedPimCollection where
  envelopes : List ParsedEnvelope
  rows : List ParsedObservationRow
  contentDigest : JsString

structure PimFailure where
  failureKind : PimFailureKind
  traversalOutcome : PimTraversal
  envelopes : List ParsedEnvelope
  wireFailures : List WireFailure

/-- How a collection and a failure are derived again from what the caller passes. -/
structure Env where
  copyPreparedPim : PimContext Uuid → PreparedPimCollection → PimLimits →
    Option PreparedPimCollection
  copyPimFailure : PimFailure → PimLimits → Option PimFailure

/-! ## Rows -/

structure PimScopeRecord extends PimTenant Uuid where
  id : Uuid
  plane : PimPlane
  scopeIncarnation : Uuid
  scopeVersion : JsString
  endpointDescriptor : JsString
  projectionIdentity : JsString
  isCurrent : Bool
  retiredAt : Option Micros
  deriving DecidableEq

inductive PimOutcome
  | committed | failed | abandoned
  deriving DecidableEq, Repr

structure PimAttemptRecord extends PimContext Uuid where
  id : Uuid
  startedAt : Micros
  expiresAt : Micros
  committedAt : Option Micros
  terminalAt : Option Micros
  contentChangedAt : Option Micros
  outcome : Option PimOutcome
  failureKind : Option PimFailureKind
  contentDigest : Option JsString
  observedRowCount : Option Nat
  traversalOutcome : PimTraversal
  isCurrent : Bool
  deriving DecidableEq

/-- What a commit made of its row, under what authority, connection and scope. -/
structure Commit where
  row : PimAttemptRecord
  authority : Option Uuid
  connection : Option Uuid
  scope : Option PimScopeRecord

/-- The rows of the tenant, the authority, and the log of the commits, the latest first. -/
structure PimDb where
  authority : Option ManagedAuthority
  tenant : Tenant
  connection : Option Connection
  scopes : List PimScopeRecord
  attempts : List PimAttemptRecord
  envelopes : List (Uuid × ParsedEnvelope)
  observations : List (Uuid × ParsedObservationRow)
  wireFailures : List (Uuid × WireFailure)
  clock : Micros
  drawn : List Uuid
  commits : List Commit

/-- The samples of the clock in their order, and the random ids of a transaction. -/
structure Draw where
  first : Micros
  second : Micros
  scopeId : Uuid
  scopeIncarnation : Uuid
  attemptId : Uuid

def Draw.ids (x : Draw) : List Uuid := [x.scopeId, x.scopeIncarnation, x.attemptId]

/-- The time of a `Date` that a column is read into. -/
def toDate (t : Micros) : Int := t / 1000

/-- The column of a `Date`. -/
def ofDate (ms : Int) : Micros := ms * 1000

/-! ## Results -/

inductive PimReason
  | superseded | incarnationChanged | scopeReplaced | tenantMismatch | planeMismatch
  | projectionChanged | expired | busy | unavailable | conflict
  deriving DecidableEq, Repr

structure PimReceipt extends PimAttempt Uuid where
  committedAt : Int
  contentChangedAt : Int
  contentDigest : JsString
  observedRowCount : Nat
  deriving DecidableEq

inductive Result
  | rejected (reason : PimReason)
  | captured (attempt : PimAttempt Uuid) (authority : ManagedAuthority)
  | begun (attempt : PimAttempt Uuid)
  | rotated (context : PimContext Uuid)
  | committed (receipt : PimReceipt)
  | replayed (receipt : PimReceipt)
  | recorded (attemptId : Uuid)
  | written
  deriving DecidableEq

def attemptFromRecord (r : PimAttemptRecord) : PimAttempt Uuid :=
  ⟨r.toPimContext, r.id, toDate r.startedAt, toDate r.expiresAt⟩

/-- The receipt of a committed row; any other row throws. -/
def receiptFromRecord (r : PimAttemptRecord) : Option PimReceipt :=
  if r.outcome = some .committed ∧ r.traversalOutcome = .exhausted then do
    let committedAt ← r.committedAt
    let contentChangedAt ← r.contentChangedAt
    let contentDigest ← r.contentDigest
    let observedRowCount ← r.observedRowCount
    if contentDigest.isEmpty then none
    else return ⟨attemptFromRecord r, toDate committedAt, toDate contentChangedAt, contentDigest,
      observedRowCount⟩
  else none

/-! ## Scopes -/

def PimDb.currentScope (db : PimDb) (who : PimIdentity Uuid) : Option PimScopeRecord :=
  db.scopes.find? fun s =>
    s.toDirectoryControlIdentity = who.toDirectoryControlIdentity ∧ s.plane = who.plane ∧
      s.isCurrent

/-- An insert that does nothing when the plane has a current scope. -/
def PimDb.insertScope (db : PimDb) (who : PimIdentity Uuid) (version : JsString) (x : Draw) :
    PimDb :=
  if db.scopes.any fun s =>
      s.customerTenantId = who.customerTenantId ∧ s.plane = who.plane ∧ s.isCurrent then db
  else { db with scopes := db.scopes ++ [{
    toDirectoryControlIdentity := who.toDirectoryControlIdentity
    id := x.scopeId
    plane := who.plane
    scopeIncarnation := x.scopeIncarnation
    scopeVersion := version
    endpointDescriptor := PIM_ENDPOINTS who.plane
    projectionIdentity := PIM_PROJECTION
    isCurrent := true
    retiredAt := none }] }

def scopeContext (who : PimIdentity Uuid) (connection : Uuid) (scope : PimScopeRecord) :
    PimContext Uuid where
  toPimIdentity := who
  connectionIncarnation := connection
  scopeId := scope.id
  scopeIncarnation := scope.scopeIncarnation
  scopeVersion := scope.scopeVersion
  endpointDescriptor := scope.endpointDescriptor
  projectionIdentity := scope.projectionIdentity

/-- Why a scope is not that of the context, if it is not. -/
def matchesScope (scope : Option PimScopeRecord) (ctx : PimContext Uuid) : Option PimReason :=
  match scope with
  | none => some .scopeReplaced
  | some s =>
    if s.id ≠ ctx.scopeId ∨ s.scopeIncarnation ≠ ctx.scopeIncarnation ∨
        s.scopeVersion ≠ ctx.scopeVersion then some .scopeReplaced
    else if s.endpointDescriptor ≠ ctx.endpointDescriptor ∨
        s.projectionIdentity ≠ ctx.projectionIdentity then some .projectionChanged
    else if s.toDirectoryControlIdentity ≠ ctx.toDirectoryControlIdentity then
      some .tenantMismatch
    else if s.plane ≠ ctx.plane then some .planeMismatch
    else none

/-! ## Attempts -/

/-- The row is of the tenant and the plane. -/
def PimAttemptRecord.ofPlane (r : PimAttemptRecord) (who : PimIdentity Uuid) : Bool :=
  r.customerTenantId == who.customerTenantId && r.organizationId == who.organizationId &&
    r.plane == who.plane

def PimAttemptRecord.running (r : PimAttemptRecord) : Bool := r.terminalAt.isNone

def PimAttemptRecord.abandon (r : PimAttemptRecord) (at' : Micros) : PimAttemptRecord :=
  { r with
    outcome := some .abandoned
    terminalAt := some at'
    traversalOutcome := .truncatedDeadline
    failureKind := some .deadline }

def retireExpired (who : PimIdentity Uuid) (at' : Micros) (attempts : List PimAttemptRecord) :
    List PimAttemptRecord :=
  attempts.map fun r =>
    if r.ofPlane who && r.running && decide (r.expiresAt ≤ at') then r.abandon at' else r

def inflight (who : PimIdentity Uuid) (attempts : List PimAttemptRecord) :
    List PimAttemptRecord :=
  attempts.filter fun r => r.ofPlane who && r.running

def begunAttempt (ctx : PimContext Uuid) (lifetimeMs : Int) (x : Draw) : PimAttemptRecord where
  toPimContext := ctx
  id := x.attemptId
  startedAt := x.second
  expiresAt := x.second + lifetimeMs * 1000
  committedAt := none
  terminalAt := none
  contentChangedAt := none
  outcome := none
  failureKind := none
  contentDigest := none
  observedRowCount := none
  traversalOutcome := .inFlight
  isCurrent := false

/-- An attempt, unless one is in flight when the expired ones are retired. -/
def start (ctx : PimContext Uuid) (lifetimeMs : Int) (x : Draw) (db : PimDb) :
    PimDb × Option (PimAttempt Uuid) :=
  let attempts := retireExpired ctx.toPimIdentity x.first db.attempts
  if inflight ctx.toPimIdentity attempts ≠ [] then ({ db with attempts }, none)
  else
    let r := begunAttempt ctx lifetimeMs x
    ({ db with attempts := attempts ++ [r] }, some (attemptFromRecord r))

def capturePimAttempt (who : PimIdentity Uuid) (version : JsString) (lifetimeMs : Int)
    (authority : ManagedAuthority) (connection : Uuid) (x : Draw) (db : PimDb) :
    PimDb × Result :=
  let db := if (db.currentScope who).isNone then db.insertScope who version x else db
  match db.currentScope who with
  | none => (db, .rejected .scopeReplaced)
  | some scope =>
    if scope.scopeVersion ≠ version then (db, .rejected .scopeReplaced)
    else
      let ctx := scopeContext who connection scope
      if ctx.endpointDescriptor ≠ PIM_ENDPOINTS who.plane ∨
          ctx.projectionIdentity ≠ PIM_PROJECTION then (db, .rejected .projectionChanged)
      else
        match start ctx lifetimeMs x db with
        | (db, some attempt) => (db, .captured attempt authority)
        | (db, none) => (db, .rejected .busy)

def beginPimAttempt (ctx : PimContext Uuid) (lifetimeMs : Int) (connection : Uuid) (x : Draw)
    (db : PimDb) : PimDb × Result :=
  if connection ≠ ctx.connectionIncarnation then (db, .rejected .incarnationChanged)
  else
    match matchesScope (db.currentScope ctx.toPimIdentity) ctx with
    | some reason => (db, .rejected reason)
    | none =>
      match start ctx lifetimeMs x db with
      | (db, some attempt) => (db, .begun attempt)
      | (db, none) => (db, .rejected .busy)

/-- `none` when it throws. -/
def rotatePimScope (ctx : PimContext Uuid) (version : JsString) (connection : Uuid) (x : Draw)
    (db : PimDb) : Option (PimDb × Result) :=
  if connection ≠ ctx.connectionIncarnation then some (db, .rejected .incarnationChanged)
  else
    match matchesScope (db.currentScope ctx.toPimIdentity) ctx with
    | some reason => some (db, .rejected reason)
    | none =>
      let retired := db.scopes.map fun s =>
        if s.id = ctx.scopeId ∧ s.isCurrent then
          { s with isCurrent := false, retiredAt := some x.first }
        else s
      let db := PimDb.insertScope { db with scopes := retired } ctx.toPimIdentity version x
      (db.currentScope ctx.toPimIdentity).map fun next =>
        (db, .rotated (scopeContext ctx.toPimIdentity connection next))

/-! ## The ends of an attempt -/

/-- Why a saved row is not that of the attempt, if it is not. -/
def immutableBinding (r : PimAttemptRecord) (a : PimAttempt Uuid) : Option PimReason :=
  let saved := attemptFromRecord r
  if saved.toDirectoryControlIdentity ≠ a.toDirectoryControlIdentity then some .tenantMismatch
  else if saved.plane ≠ a.plane then some .planeMismatch
  else if saved.configurationRevision ≠ a.configurationRevision ∨
      saved.connectionIncarnation ≠ a.connectionIncarnation then some .incarnationChanged
  else if saved.scopeId ≠ a.scopeId ∨ saved.scopeIncarnation ≠ a.scopeIncarnation ∨
      saved.scopeVersion ≠ a.scopeVersion then some .scopeReplaced
  else if saved.endpointDescriptor ≠ a.endpointDescriptor ∨
      saved.projectionIdentity ≠ a.projectionIdentity then some .projectionChanged
  else if saved.attemptId ≠ a.attemptId ∨ saved.startedAt ≠ a.startedAt ∨
      saved.expiresAt ≠ a.expiresAt then some .conflict
  else none

def lockAttempt (a : PimAttempt Uuid) (connection : Uuid) (db : PimDb) :
    Except PimReason PimAttemptRecord :=
  if connection ≠ a.connectionIncarnation then .error .incarnationChanged
  else
    match matchesScope (db.currentScope a.toPimIdentity) a.toPimContext with
    | some reason => .error reason
    | none =>
      match db.attempts.filter fun r => r.id = a.attemptId ∧
          r.customerTenantId = a.customerTenantId ∧ r.organizationId = a.organizationId with
      | [row] =>
        match immutableBinding row a with
        | some reason => .error reason
        | none => .ok row
      | _ => .error .superseded

/-- Why the attempt is not the one in flight, if it is not. -/
def owned (row : PimAttemptRecord) (a : PimAttempt Uuid) (db : PimDb) : Option PimReason :=
  if row.outcome = some .abandoned then some .superseded
  else if row.terminalAt.isSome ∨ row.outcome.isSome then some .conflict
  else
    match inflight a.toPimIdentity db.attempts with
    | [live] => if live.id = a.attemptId then none else some .superseded
    | _ => some .superseded

def insertEnvelopes (attemptId : Uuid) (pages : List ParsedEnvelope) (db : PimDb) : PimDb :=
  { db with envelopes := db.envelopes ++ pages.map fun page => (attemptId, page) }

def clearCurrent (who : PimIdentity Uuid) (attempts : List PimAttemptRecord) :
    List PimAttemptRecord :=
  attempts.map fun r =>
    if r.ofPlane who && r.isCurrent then { r with isCurrent := false } else r

def PimAttemptRecord.commit (r : PimAttemptRecord) (payload : PreparedPimCollection)
    (unchangedAt : Option Micros) (at' : Micros) : PimAttemptRecord :=
  { r with
    outcome := some .committed
    traversalOutcome := .exhausted
    committedAt := some at'
    terminalAt := some at'
    contentChangedAt := some (unchangedAt.getD at')
    contentDigest := some payload.contentDigest
    observedRowCount := some payload.rows.length
    isCurrent := true }

/-- When the content changed last, as it is carried over from the current attempt: it is read into
a `Date` and written back. -/
def unchangedAt (previous : Option PimAttemptRecord) (digest : JsString) : Option Micros :=
  previous.bind fun p =>
    if p.contentDigest = some digest then p.contentChangedAt.map fun t => ofDate (toDate t)
    else none

/-- `none` when it throws; a deadline that passes before the commit rolls all of it back. -/
def publishPimObservations (a : PimAttempt Uuid) (payload : PreparedPimCollection)
    (connection : Uuid) (x : Draw) (db : PimDb) : Option (PimDb × Result) :=
  match lockAttempt a connection db with
  | .error reason => some (db, .rejected reason)
  | .ok row =>
    if row.outcome = some .committed then
      if row.contentDigest = some payload.contentDigest ∧
          row.observedRowCount = some payload.rows.length then
        (receiptFromRecord row).map fun receipt => (db, .replayed receipt)
      else some (db, .rejected .conflict)
    else
      match owned row a db with
      | some reason => some (db, .rejected reason)
      | none =>
        if ¬ x.first < row.expiresAt then some (db, .rejected .expired)
        else
          let previous := db.attempts.find? fun r => r.ofPlane a.toPimIdentity && r.isCurrent
          let cleared := clearCurrent a.toPimIdentity db.attempts
          let reached := fun r : PimAttemptRecord =>
            decide (r.id = a.attemptId) && r.running && decide (x.second < r.expiresAt)
          let commit := fun r : PimAttemptRecord =>
            r.commit payload (unchangedAt previous payload.contentDigest) x.second
          match cleared.filter reached with
          | [r] => (receiptFromRecord (commit r)).map fun receipt =>
            ({ insertEnvelopes a.attemptId payload.envelopes db with
                attempts := cleared.map fun r => if reached r then commit r else r
                observations := db.observations ++ payload.rows.map fun row =>
                  (a.attemptId, { row with plane := a.plane })
                commits := {
                  row := commit r
                  authority := db.authority.map ManagedAuthority.configurationRevision
                  connection := db.connection.bind Connection.incarnation
                  scope := db.currentScope a.toPimIdentity } :: db.commits },
              .committed receipt)
          | _ => some (db, .rejected .expired)

def PimAttemptRecord.fail (r : PimAttemptRecord) (payload : PimFailure) (at' : Micros) :
    PimAttemptRecord :=
  { r with
    outcome := some .failed
    terminalAt := some at'
    failureKind := some payload.failureKind
    traversalOutcome := payload.traversalOutcome }

def recordPimTerminalFailure (a : PimAttempt Uuid) (payload : PimFailure) (connection : Uuid)
    (x : Draw) (db : PimDb) : Option (PimDb × Result) :=
  match lockAttempt a connection db with
  | .error reason => some (db, .rejected reason)
  | .ok row =>
    match owned row a db with
    | some reason => some (db, .rejected reason)
    | none =>
      let reached := fun r : PimAttemptRecord => decide (r.id = a.attemptId) && r.running
      match db.attempts.filter reached with
      | [_] => some ({ insertEnvelopes a.attemptId payload.envelopes db with
          attempts := db.attempts.map fun r => if reached r then r.fail payload x.first else r
          wireFailures := db.wireFailures ++ payload.wireFailures.map fun w => (a.attemptId, w) },
        .recorded a.attemptId)
      | _ => none

/-! ## Transactions -/

/-- What the other transactions write of the rows that are locked here. -/
inductive Write
  | authority (authority : Option ManagedAuthority)
  | tenant (status : TenantStatus) (microsoftTenantId : Uuid)
  | connection (connection : Option Connection)

inductive Call
  | capturePimAttempt (input : PimCaptureRequest)
  | beginPimAttempt (input : PimContext JsString) (attemptLifetimeMs : Int)
  | rotatePimScope (input : PimContext JsString) (nextVersion : JsString)
  | publishPimObservations (input : PimAttempt JsString) (value : PreparedPimCollection)
      (limits : PimLimits)
  | recordPimTerminalFailure (input : PimAttempt JsString) (value : PimFailure)
      (limits : PimLimits)
  | write (w : Write)

/-- The work of a transaction, once its arguments are copied. -/
inductive Work
  | capture (who : PimIdentity Uuid) (version : JsString) (lifetimeMs : Int)
  | begin (ctx : PimContext Uuid) (lifetimeMs : Int)
  | rotate (ctx : PimContext Uuid) (version : JsString)
  | publish (a : PimAttempt Uuid) (payload : PreparedPimCollection)
  | fail (a : PimAttempt Uuid) (payload : PimFailure)

def Work.identity : Work → PimIdentity Uuid
  | .capture who _ _ => who
  | .begin ctx _ => ctx.toPimIdentity
  | .rotate ctx _ => ctx.toPimIdentity
  | .publish a _ => a.toPimIdentity
  | .fail a _ => a.toPimIdentity

def Work.transact (w : Work) (authority : ManagedAuthority) (connection : Uuid) (x : Draw)
    (db : PimDb) : Option (PimDb × Result) :=
  match w with
  | .capture who version lifetimeMs =>
    some (capturePimAttempt who version lifetimeMs authority connection x db)
  | .begin ctx lifetimeMs => some (beginPimAttempt ctx lifetimeMs connection x db)
  | .rotate ctx version => rotatePimScope ctx version connection x db
  | .publish a payload => publishPimObservations a payload connection x db
  | .fail a payload => recordPimTerminalFailure a payload connection x db

inductive Lock
  | authority | tenant | connection
  deriving DecidableEq, Repr

def Write.lock : Write → Lock
  | .authority _ => .authority
  | .tenant _ _ => .tenant
  | .connection _ => .connection

def Write.apply (db : PimDb) : Write → PimDb
  | .authority current => { db with authority := current }
  | .tenant status microsoftTenantId =>
    { db with tenant := { db.tenant with status, microsoftTenantId } }
  | .connection current => { db with connection := current }

/-- Where a call stands, with what it has read under the locks it holds. -/
inductive Phase
  | arrived (call : Call)
  | waiting (work : Work)
  | locked (work : Work)
  | authorized (work : Work) (current : Option ManagedAuthority)
  | tenant (work : Work) (current : ManagedAuthority) (tenant : Tenant)
  | ready (work : Work) (current : ManagedAuthority) (connection : Option Connection)
  | writing (w : Write)
  | holding (w : Write)
  | finished (result : Result)
  | failed

/-- What a call does before its transaction; `none` when it throws. -/
def Call.enter (env : Env) (db : PimDb) : Call → Option Phase
  | .capturePimAttempt input => do
    let tenant ← copyPimTenant input.toDirectoryControlIdentity
    let version ← pimVersion input.scopeVersion
    let lifetimeMs ← pimLifetime input.attemptLifetimeMs
    return match db.authority with
      | none => .finished (.rejected .unavailable)
      | some authority => .waiting (.capture ⟨tenant, authority.configurationRevision, input.plane⟩
        version lifetimeMs)
  | .beginPimAttempt input attemptLifetimeMs => do
    return .waiting (.begin (← copyPimContext input) (← pimLifetime attemptLifetimeMs))
  | .rotatePimScope input nextVersion => do
    return .waiting (.rotate (← copyPimContext input) (← pimVersion nextVersion))
  | .publishPimObservations input value limits => do
    let a ← copyPimAttempt input
    let limits ← copyPimLimits limits
    if value.rows.any fun r => r.plane ≠ a.plane then
      return .finished (.rejected .planeMismatch)
    return match env.copyPreparedPim a.toPimContext value limits with
      | none => .finished (.rejected .conflict)
      | some payload => .waiting (.publish a payload)
  | .recordPimTerminalFailure input value limits => do
    let a ← copyPimAttempt input
    let limits ← copyPimLimits limits
    return .waiting (.fail a (← env.copyPimFailure value limits))
  | .write w => some (.writing w)

/-- A commit that writes nothing. -/
def reject (reason : PimReason) : Move Lock PimDb Phase Draw :=
  .commit fun _ _ db => some (db, .finished (.rejected reason))

/-- The random ids were never drawn before, and the clock does not run backwards. -/
def PimDb.admits (db : PimDb) (x : Draw) : Bool :=
  decide x.ids.Nodup && x.ids.all (fun id => !db.drawn.contains id) &&
    decide (db.clock ≤ x.first) && decide (x.first ≤ x.second)

def PimDb.advance (db : PimDb) (x : Draw) : PimDb :=
  { db with clock := x.second, drawn := x.ids ++ db.drawn }

def move (env : Env) : Phase → Move Lock PimDb Phase Draw
  | .arrived call => .observe fun db => (call.enter env db).getD .failed
  | .waiting work => .acquire .authority .shared fun _ => .locked work
  | .locked work => .observe fun db => .authorized work db.authority
  | .authorized work current =>
    match current with
    | some a =>
      if a.configurationRevision = work.identity.configurationRevision then
        .acquire .tenant .exclusive fun db => .tenant work a db.tenant
      else reject .superseded
    | none => reject .superseded
  | .tenant work current tenant =>
    if tenant.toDirectoryControlIdentity = work.identity.toDirectoryControlIdentity ∧
        tenant.status = .active then
      .acquire .connection .exclusive fun db => .ready work current db.connection
    else reject .tenantMismatch
  | .ready work current connection =>
    match (connection.filter fun c => c.status = .connected ∧
        c.mode = .hawkviewManaged).bind Connection.incarnation with
    | none => reject .incarnationChanged
    | some incarnation => .commit fun _ x db =>
      if db.admits x then
        (work.transact current incarnation x (db.advance x)).map fun r => (r.1, .finished r.2)
      else none
  | .writing w => .acquire w.lock .exclusive fun _ => .holding w
  | .holding w => .commit fun _ _ db => some (w.apply db, .finished .written)
  | .finished _ => .rest
  | .failed => .rest

def program (env : Env) : Program Lock PimDb Phase Draw where
  starts
    | .arrived _ => true
    | _ => false
  move := move env
  aborted
    | .finished result => .finished result
    | _ => .failed

abbrev System := State Lock PimDb Phase

end PimSchedule
