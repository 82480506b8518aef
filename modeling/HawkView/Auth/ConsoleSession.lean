import HawkView.Lib.IsoTime
import HawkView.Lib.Locking
import HawkView.Lib.Table

/-!
# Console sessions

A call of a verified identity locks its session id, reads the row of the session
and then the clock, and writes. The first use of a session inserts its row, an
activity moves its deadline and an end revokes it; a session that is ended before
its first use leaves a tombstone. The rows are never deleted.
-/

namespace ConsoleSession

open IsoTime Locking

/-- `CONSOLE_IDLE_SECONDS`. -/
def idleSeconds : Nat := 3600

/-- `CONSOLE_WARNING_SECONDS`. -/
def warningSeconds : Nat := 120

/-- What the verifier says of a token. A value out of the range of dates is an invalid `Date`. -/
structure AuthenticatedIdentity where
  subject : JsString
  sessionId : Option JsString
  authenticatedAt : Option Int
  deriving DecidableEq

inductive Denial
  | idleExpired | reauthenticationRequired
  deriving DecidableEq, Repr

/-- Whether a call was refused, or failed on the clock, a date or a constraint. -/
inductive Failure
  | denied (code : Denial)
  | failed
  deriving DecidableEq, Repr

structure ConsoleSessionStatus where
  sessionId : JsString
  serverNow : JsString
  idleExpiresAt : JsString
  idleTimeoutSeconds : Nat
  warningSeconds : Nat
  deriving DecidableEq

/-! ## The table -/

structure ConsoleSessionRow where
  sessionId : JsString
  subject : JsString
  authenticatedAt : Option Int
  idleExpiresAt : Int
  revokedAt : Option Int
  createdAt : Int
  updatedAt : Int
  deriving DecidableEq

/-- `console_sessions` with its two checks and its primary key. -/
def schema : Sql.Schema ConsoleSessionRow where
  check r := (r.authenticatedAt.isSome || r.revokedAt.isSome) &&
    r.authenticatedAt.all fun t => decide (t ≤ r.idleExpiresAt)
  clash a b := a.sessionId == b.sessionId

abbrev Sessions := Sql.Table schema

/-! ## The calls -/

inductive Operation
  | check | activity | ending
  deriving DecidableEq, Repr

structure Request where
  operation : Operation
  identity : AuthenticatedIdentity
  deriving DecidableEq

inductive Reply
  | status (status : ConsoleSessionStatus)
  | ended
  deriving DecidableEq

/-- A hexadecimal digit in either case. -/
def hexDigit (c : UInt16) : Bool :=
  decide (0x30 ≤ c ∧ c ≤ 0x39) || decide (0x41 ≤ c ∧ c ≤ 0x46) || decide (0x61 ≤ c ∧ c ≤ 0x66)

/-- `UUID.test`: a version from 1 to 8 and a variant from 8 to b. -/
def uuidTest (s : JsString) : Bool :=
  s.length == 36 && s.zipIdx.all fun (c, i) =>
    if i ∈ [8, 13, 18, 23] then c == 0x2D
    else if i = 14 then decide (0x31 ≤ c ∧ c ≤ 0x38)
    else if i = 19 then [0x38, 0x39, 0x41, 0x42, 0x61, 0x62].contains c
    else hexDigit c

structure Ids where
  subject : JsString
  sessionId : JsString
  deriving DecidableEq

def ids (identity : AuthenticatedIdentity) : Option Ids :=
  match identity.sessionId with
  | some sessionId =>
    if uuidTest identity.subject && uuidTest sessionId then
      some ⟨identity.subject.lowerLatin, sessionId.lowerLatin⟩
    else none
  | none => none

/-- The text that the advisory lock hashes. -/
def lockText (sessionId : JsString) : JsString := js "hawkview:console-session:" ++ sessionId

/-- A date that has a time. -/
def usableDate (date : Option Int) : Option Int := date.filter fun t => decide (InDateRange t)

def reauthenticate {α : Type} : Except Failure α := .error (.denied .reauthenticationRequired)

/-- `new Date(t).toISOString()`, which throws on an invalid date. -/
def dateText (t : Int) : Except Failure JsString :=
  if InDateRange t then .ok (toISOString t) else .error .failed

/-- A statement that a constraint refuses throws. -/
def executed (result : Option Sessions) : Except Failure Sessions :=
  match result with
  | some table => .ok table
  | none => .error .failed

def startedRow (ids : Ids) (authenticatedAt now : Int) : ConsoleSessionRow where
  sessionId := ids.sessionId
  subject := ids.subject
  authenticatedAt := some authenticatedAt
  idleExpiresAt := authenticatedAt + idleSeconds * 1000
  revokedAt := none
  createdAt := now
  updatedAt := now

def tombstone (ids : Ids) (now : Int) : ConsoleSessionRow where
  sessionId := ids.sessionId
  subject := ids.subject
  authenticatedAt := none
  idleExpiresAt := now
  revokedAt := some now
  createdAt := now
  updatedAt := now

def extendIdle (ids : Ids) (now : Int) : Sql.Update ConsoleSessionRow where
  applies r := r.sessionId == ids.sessionId
  set r := { r with idleExpiresAt := now + idleSeconds * 1000, updatedAt := now }

def revoke (ids : Ids) (now : Int) : Sql.Update ConsoleSessionRow where
  applies r := r.sessionId == ids.sessionId
  set r := { r with revokedAt := some now, updatedAt := now }

/-- The row that a check or an activity goes on with: the one that is there, or a new one. -/
def resume (authenticatedAt : Int) (ids : Ids) (table : Sessions)
    (row : Option ConsoleSessionRow) (now : Int) : Except Failure (Sessions × Int) :=
  match row with
  | some r =>
    if r.subject ≠ ids.subject ∨ r.revokedAt ≠ none then reauthenticate
    else if r.idleExpiresAt ≤ now then .error (.denied .idleExpired)
    else .ok (table, r.idleExpiresAt)
  | none =>
    if idleSeconds * 1000 ≤ now - authenticatedAt then reauthenticate
    else if InDateRange (authenticatedAt + idleSeconds * 1000) then
      (executed (table.insert (startedRow ids authenticatedAt now))).map
        (·, authenticatedAt + idleSeconds * 1000)
    else .error .failed

/-- Only a record that was there is extended. -/
def extend (activity : Bool) (ids : Ids) (row : Option ConsoleSessionRow) (now : Int)
    (admitted : Sessions × Int) : Except Failure (Sessions × Int) :=
  if activity ∧ row.isSome then
    if InDateRange (now + idleSeconds * 1000) then
      (executed ((admitted.1.update (extendIdle ids now)).map Prod.fst)).map
        (·, now + idleSeconds * 1000)
    else .error .failed
  else .ok admitted

/-- `access`, under the lock. -/
def access (identity : AuthenticatedIdentity) (activity : Bool) (ids : Ids) (table : Sessions)
    (row : Option ConsoleSessionRow) (now : Int) : Except Failure (Sessions × Reply) :=
  match usableDate identity.authenticatedAt with
  | none => reauthenticate
  | some authenticatedAt =>
    if now < authenticatedAt then reauthenticate
    else do
      let admitted ← resume authenticatedAt ids table row now
      let (table, expires) ← extend activity ids row now admitted
      let serverNow ← dateText now
      let idleExpiresAt ← dateText expires
      .ok (table, .status ⟨ids.sessionId, serverNow, idleExpiresAt, idleSeconds, warningSeconds⟩)

/-- `end`, under the lock. -/
def endSession (ids : Ids) (table : Sessions) (row : Option ConsoleSessionRow) (now : Int) :
    Except Failure (Sessions × Reply) :=
  match row with
  | some r =>
    if r.subject ≠ ids.subject then reauthenticate
    else if r.revokedAt ≠ none then .ok (table, .ended)
    else (executed ((table.update (revoke ids now)).map Prod.fst)).map (·, .ended)
  | none => (executed (table.insert (tombstone ids now))).map (·, .ended)

/-- The work of a call, with the row and the clock that it has read. -/
def perform (request : Request) (ids : Ids) (table : Sessions) (row : Option ConsoleSessionRow)
    (now : Int) : Except Failure (Sessions × Reply) :=
  if InDateRange now then
    match request.operation with
    | .check => access request.identity false ids table row now
    | .activity => access request.identity true ids table row now
    | .ending => endSession ids table row now
  else .error .failed

/-! ## The calls at one database -/

/-- A call that was accepted, with the row of its session before and after it. -/
structure Accepted where
  request : Request
  ids : Ids
  now : Int
  before : Option ConsoleSessionRow
  after : Option ConsoleSessionRow
  reply : Reply

/-- The database: its table, its clock, and the calls it has accepted, the latest first. -/
structure Db where
  table : Sessions
  now : Int
  log : List Accepted

inductive Phase
  | arrived (request : Request)
  | locked (request : Request) (ids : Ids)
  | read (request : Request) (ids : Ids) (row : Option ConsoleSessionRow)
  | sampled (request : Request) (ids : Ids) (row : Option ConsoleSessionRow) (now : Int)
  | done (request : Request) (outcome : Except Failure Reply)
  | tick
  | ticked

def Db.find (db : Db) (sessionId : JsString) : Option ConsoleSessionRow :=
  db.table.find ConsoleSessionRow.sessionId sessionId

/-- A call that throws is rolled back. -/
def finish (request : Request) (ids : Ids) (row : Option ConsoleSessionRow) (now : Int) (db : Db) :
    Db × Phase :=
  match perform request ids db.table row now with
  | .error failure => (db, .done request (.error failure))
  | .ok (table, reply) =>
    ({ db with
        table
        log := ⟨request, ids, now, row, table.find ConsoleSessionRow.sessionId ids.sessionId,
          reply⟩ :: db.log }, .done request (.ok reply))

/-- What a call does next. `hash` is the number of an advisory lock, and a tick of the clock
draws how far it goes. -/
def move (hash : JsString → Int) : Phase → Move Int Db Phase Nat
  | .arrived request =>
    match ids request.identity with
    | none => .observe fun _ => .done request reauthenticate
    | some ids => .acquire (hash (lockText ids.sessionId)) .exclusive fun _ => .locked request ids
  | .locked request ids => .observe fun db => .read request ids (db.find ids.sessionId)
  | .read request ids row => .observe fun db => .sampled request ids row db.now
  | .sampled request ids row now => .commit fun _ _ db => some (finish request ids row now db)
  | .tick => .commit fun _ x db => some ({ db with now := db.now + x }, .ticked)
  | .done .. => .rest
  | .ticked => .rest

def program (hash : JsString → Int) : Program Int Db Phase Nat where
  starts
    | .arrived _ => true
    | .tick => true
    | _ => false
  move := move hash
  aborted
    | .arrived request => .done request (.error .failed)
    | .locked request _ => .done request (.error .failed)
    | .read request .. => .done request (.error .failed)
    | .sampled request .. => .done request (.error .failed)
    | .done request outcome => .done request outcome
    | .tick => .ticked
    | .ticked => .ticked

abbrev System := State Int Db Phase

/-- Before the first call. -/
def initial (now : Int) : System := ⟨⟨.empty, now, []⟩, []⟩

end ConsoleSession
