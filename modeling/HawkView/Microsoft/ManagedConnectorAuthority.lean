import HawkView.Lib.Base64
import HawkView.Lib.IsoTime
import HawkView.Lib.JsonText
import HawkView.Lib.Locking

/-!
# The managed connector authority

One row says which credential the managed connector uses, and each publication
replaces it by a new revision. All that touches the row takes one advisory lock
first: publications alone, work under a named revision together.
-/

namespace ManagedConnectorAuthority

open Locking

def IMMUTABLE_MANAGED_SECRET_PREFIX : JsString := js "hawkview-managed-revision:"

def SECRET_REFERENCE : JsString := js "encrypted-secret:"

/-- The version and the variant that the pattern of an id asks for. -/
def versioned (s : JsString) : Bool :=
  (s[14]?).any (fun c => decide (0x31 ≤ c ∧ c ≤ 0x38)) &&
    (s[19]?).any (fun c => c ∈ [0x38, 0x39, 0x61, 0x62])

/-- An id in lower case; any other text throws. -/
def uuid (value : JsString) : Option Uuid :=
  if h : isUuid (JsString.lowerLatin value) = true then
    if versioned (JsString.lowerLatin value) then some ⟨_, h⟩ else none
  else none

def uuidOrNull : Option JsString → Option (Option Uuid)
  | none => some none
  | some value => (uuid value).map some

structure ManagedAuthority where
  configurationRevision : Uuid
  clientId : Uuid
  homeTenantId : Uuid
  credentialReference : JsString
  deriving DecidableEq

structure StoredAuthority extends ManagedAuthority where
  operationId : Option Uuid
  fingerprint : Option JsString
  credentialExpiresAt : Option Int
  deriving DecidableEq

structure Sealed where
  ciphertext : List UInt8
  initializationVector : List UInt8
  authenticationTag : List UInt8
  keyVersion : Int
  deriving DecidableEq

structure EncryptedSecret where
  id : Uuid
  name : JsString
  content : Sealed
  legacyReference : Option JsString
  deriving DecidableEq

structure PreparedManagedPublication where
  expectedRevision : Option JsString
  operationId : JsString
  revision : JsString
  clientId : JsString
  homeTenantId : JsString
  credentialExpiresAt : Option Int
  content : Sealed
  deriving DecidableEq

inductive PublicationResult
  | published (authority : ManagedAuthority)
  | replayed (authority : ManagedAuthority)
  | superseded
  | conflict
  deriving DecidableEq

/-! ## A publication -/

/-- A publication whose ids and contents were accepted. -/
structure Publication where
  expectedRevision : Option Uuid
  operationId : Uuid
  revision : Uuid
  clientId : Uuid
  homeTenantId : Uuid
  credentialExpiresAt : Option Int
  content : Sealed
  deriving DecidableEq

def Sealed.valid (s : Sealed) : Bool :=
  decide (1 ≤ s.ciphertext.length ∧ s.ciphertext.length ≤ 65536 ∧
    s.initializationVector.length = 12 ∧ s.authenticationTag.length = 16 ∧
    1 ≤ s.keyVersion ∧ s.keyVersion ≤ 2147483647)

/-- A time that a `Date` holds. -/
def finite (t : Int) : Bool := decide (IsoTime.InDateRange t)

def accept (input : PreparedManagedPublication) : Option Publication := do
  let expectedRevision ← uuidOrNull input.expectedRevision
  let operationId ← uuid input.operationId
  let revision ← uuid input.revision
  let clientId ← uuid input.clientId
  let homeTenantId ← uuid input.homeTenantId
  if input.content.valid && input.credentialExpiresAt.all finite then
    some ⟨expectedRevision, operationId, revision, clientId, homeTenantId,
      input.credentialExpiresAt, input.content⟩
  else none

namespace Publication

variable (p : Publication)

def secretName : JsString := IMMUTABLE_MANAGED_SECRET_PREFIX ++ p.revision.text

def reference : JsString := SECRET_REFERENCE ++ p.revision.text

def authority : ManagedAuthority := ⟨p.revision, p.clientId, p.homeTenantId, p.reference⟩

def jsonOption : Option JsString → Json
  | none => .null
  | some s => .string s

theorem jsonOption_injective : Function.Injective jsonOption := by
  intro a b h
  cases a <;> cases b <;> simp_all [jsonOption]

/-- What the fingerprint is taken of. -/
def facts : Json := .array [
  jsonOption (p.expectedRevision.map Uuid.text),
  .string p.operationId.text,
  .string p.revision.text,
  .string p.clientId.text,
  .string p.homeTenantId.text,
  jsonOption (p.credentialExpiresAt.map IsoTime.toISOString),
  .number (NumberText.ofInt p.content.keyVersion),
  .string (Base64.encode p.content.ciphertext),
  .string (Base64.encode p.content.initializationVector),
  .string (Base64.encode p.content.authenticationTag)]

/-- The SHA-256 digest, in hexadecimal. -/
def fingerprint (sha256 : JsString → JsString) : JsString := sha256 p.facts.stringify

def secret : EncryptedSecret := ⟨p.revision, p.secretName, p.content, none⟩

def stored (sha256 : JsString → JsString) : StoredAuthority :=
  { p.authority with
    operationId := some p.operationId
    fingerprint := some (p.fingerprint sha256)
    credentialExpiresAt := p.credentialExpiresAt }

end Publication

/-! ## The store -/

/-- What a committed transaction did to the authority, or did under it. -/
inductive Event
  | published (session : Nat) (p : Publication)
  | worked (session : Nat) (revision : Uuid)

structure AuthorityDb where
  connector : Option StoredAuthority
  secrets : List EncryptedSecret
  revisions : List Uuid
  history : List Event

namespace AuthorityDb

def revision (db : AuthorityDb) : Option Uuid := db.connector.map fun c => c.configurationRevision

/-- The id or the name of the secret was used, or the revision was. -/
def used (db : AuthorityDb) (p : Publication) : Bool :=
  db.secrets.any (fun s => s.id == p.revision || s.name == p.secretName) ||
    db.revisions.contains p.revision

/-- The writes of a publication: what it replaces is retired. -/
def write (sha256 : JsString → JsString) (session : Nat) (p : Publication)
    (current : Option StoredAuthority) (db : AuthorityDb) : AuthorityDb where
  connector := some (p.stored sha256)
  secrets := db.secrets ++ [p.secret]
  revisions := db.revisions ++ (current.map fun c => c.configurationRevision).toList ++ [p.revision]
  history := db.history ++ [.published session p]

end AuthorityDb

/-- The rest of the transaction of `publishManagedAuthority`, once the row is read. -/
def publishManagedAuthority (sha256 : JsString → JsString) (session : Nat) (p : Publication)
    (current : Option StoredAuthority) (db : AuthorityDb) : AuthorityDb × PublicationResult :=
  match current with
  | some c =>
    if c.operationId = some p.operationId then
      (db, if c.fingerprint = some (p.fingerprint sha256) then .replayed c.toManagedAuthority
        else .conflict)
    else if some c.configurationRevision ≠ p.expectedRevision then (db, .superseded)
    else if p.expectedRevision = some p.revision || db.used p then (db, .conflict)
    else (db.write sha256 session p current, .published p.authority)
  | none =>
    if p.expectedRevision ≠ none then (db, .superseded)
    else if db.used p then (db, .conflict)
    else (db.write sha256 session p current, .published p.authority)

/-! ## The legacy upgrade -/

inductive UpgradeStatus
  | current | upgraded | unavailable
  deriving DecidableEq, Repr

/-- A reference of the form `projects/…/secrets/…/versions/…`. -/
def externalReference (reference : JsString) : Bool :=
  match reference.splitOn 0x2F with
  | [projects, project, secrets, secret, versions, version] =>
    projects == js "projects" && !project.isEmpty && secrets == js "secrets" &&
      !secret.isEmpty && versions == js "versions" && !version.isEmpty
  | _ => false

/-- What an upgrade draws: a revision and an operation id. -/
structure Draw where
  revision : Uuid
  operationId : Uuid

/-- The secrets that a legacy reference names. -/
def legacySecrets (db : AuthorityDb) (secretId : Option Uuid) (reference : JsString) :
    List EncryptedSecret :=
  db.secrets.filter fun s => match secretId with
    | some id => s.id = id
    | none => s.legacyReference = some reference

/-- The id in a reference to a stored secret; a malformed one throws. -/
def secretIdOf (reference : JsString) : Option (Option Uuid) :=
  if JsString.startsWith reference SECRET_REFERENCE then
    uuidOrNull (reference.drop SECRET_REFERENCE.length)
  else some none

/-- The rest of the transaction of `upgradeLegacyManagedAuthority`; `none` when it throws. -/
def upgradeLegacyManagedAuthority (sha256 : JsString → JsString) (session : Nat) (x : Draw)
    (prepare : Uuid → EncryptedSecret → Option Sealed) (current : Option StoredAuthority)
    (db : AuthorityDb) : Option (AuthorityDb × UpgradeStatus) :=
  match current with
  | none => some (db, .unavailable)
  | some c =>
    if c.credentialReference = SECRET_REFERENCE ++ c.configurationRevision.text then
      some (db, .current)
    else if c.operationId ≠ none ∨ c.fingerprint ≠ none then some (db, .unavailable)
    else do
      let secretId ← secretIdOf c.credentialReference
      if secretId.isNone && !externalReference c.credentialReference then
        return (db, .unavailable)
      match legacySecrets db secretId c.credentialReference with
      | [source] =>
        if JsString.startsWith source.name IMMUTABLE_MANAGED_SECRET_PREFIX then
          return (db, .unavailable)
        let content ← prepare x.revision source
        let p ← accept {
          expectedRevision := some c.configurationRevision.text
          operationId := x.operationId.text
          revision := x.revision.text
          clientId := c.clientId.text
          homeTenantId := c.homeTenantId.text
          credentialExpiresAt := c.credentialExpiresAt
          content }
        match publishManagedAuthority sha256 session p current db with
        | (db', .published _) => return (db', .upgraded)
        | _ => none
      | _ => return (db, .unavailable)

/-! ## Work under a revision -/

inductive WorkStatus
  | current | superseded
  deriving DecidableEq, Repr

/-- The transaction of `withManagedAuthority`, with the work as an entry of the history. -/
def withManagedAuthority (session : Nat) (expected : Uuid) (current : Option StoredAuthority)
    (db : AuthorityDb) : AuthorityDb × WorkStatus :=
  match current with
  | some c =>
    if c.configurationRevision = expected then
      ({ db with history := db.history ++ [.worked session expected] }, .current)
    else (db, .superseded)
  | none => (db, .superseded)

/-! ## Transactions -/

inductive Call
  | publish (input : PreparedManagedPublication)
  | upgrade (prepare : Uuid → EncryptedSecret → Option Sealed)
  | work (expectedRevision : JsString)

inductive Outcome
  | publication (result : PublicationResult)
  | upgrade (status : UpgradeStatus)
  | work (status : WorkStatus)

inductive Phase
  | waiting (call : Call)
  | locked (call : Call)
  | ready (call : Call) (current : Option StoredAuthority)
  | finished (call : Call) (outcome : Outcome)
  | failed (call : Call)

/-- A call whose arguments do not throw opens a transaction. -/
def Call.accepted : Call → Bool
  | .publish input => (accept input).isSome
  | .upgrade _ => true
  | .work expectedRevision => (uuid expectedRevision).isSome

def Call.mode : Call → Mode
  | .work _ => .shared
  | _ => .exclusive

def transact (sha256 : JsString → JsString) (call : Call) (current : Option StoredAuthority)
    (session : Nat) (x : Draw) (db : AuthorityDb) : Option (AuthorityDb × Outcome) :=
  match call with
  | .publish input => (accept input).map fun p =>
    (publishManagedAuthority sha256 session p current db).map id .publication
  | .upgrade prepare =>
    (upgradeLegacyManagedAuthority sha256 session x prepare current db).map fun r =>
      r.map id .upgrade
  | .work expectedRevision => (uuid expectedRevision).map fun expected =>
    (withManagedAuthority session expected current db).map id .work

/-- The lock first, then the row, then the rest in one commit. -/
def program (sha256 : JsString → JsString) : Program Unit AuthorityDb Phase Draw where
  starts
    | .waiting call => call.accepted
    | _ => false
  move
    | .waiting call => .acquire () call.mode fun _ => .locked call
    | .locked call => .observe fun db => .ready call db.connector
    | .ready call current => .commit fun session x db =>
      (transact sha256 call current session x db).map fun r => r.map id (.finished call)
    | .finished _ _ => .rest
    | .failed _ => .rest
  aborted
    | .waiting call => .failed call
    | .locked call => .failed call
    | .ready call _ => .failed call
    | .finished call outcome => .finished call outcome
    | .failed call => .failed call

abbrev System := State Unit AuthorityDb Phase

end ManagedConnectorAuthority
