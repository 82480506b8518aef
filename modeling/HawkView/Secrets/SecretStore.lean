import HawkView.Lib.Runs
import HawkView.Lib.Utf8Decode

/-!
# The secret store

A secret is sealed under its name with the current key of the process that writes
it, and sealed again by the first process with a newer key that opens it. The
statements of concurrent calls are steps of their own; what a call computes
between two statements goes with the first of them.
-/

namespace SecretStore

open JsString

abbrev Bytes := List UInt8

/-- AES-256-GCM. What opens is what was sealed. -/
structure Gcm where
  encrypt : (key initializationVector aad text : Bytes) → Bytes × Bytes
  decrypt : (key initializationVector aad ciphertext authenticationTag : Bytes) → Option Bytes
  inverts : ∀ key iv aad text,
    decrypt key iv aad (encrypt key iv aad text).1 (encrypt key iv aad text).2 = some text
  authentic : ∀ key key' iv aad text text',
    decrypt key' iv aad (encrypt key iv aad text).1 (encrypt key iv aad text).2 = some text' →
      text' = text

structure EncryptedPayload where
  ciphertext : Bytes
  initializationVector : Bytes
  authenticationTag : Bytes
  deriving DecidableEq

structure StoredSecret extends EncryptedPayload where
  id : Uuid
  name : JsString
  keyVersion : Nat
  legacyReference : Option JsString
  deriving DecidableEq

/-- An exception: its code, where it has one, and its message. -/
structure Refusal where
  code : Option JsString
  message : JsString
  deriving DecidableEq

def refusal (message : JsString) : Refusal := ⟨none, message⟩

/-! ## Keys -/

structure EncryptionKeyRing where
  currentVersion : Nat
  current : Bytes
  previous : Option Bytes

/-- The key for a version, unless the service does not hold it. -/
def EncryptionKeyRing.key (ring : EncryptionKeyRing) (version : Nat) : Option Bytes :=
  if version = ring.currentVersion then some ring.current
  else if version + 1 = ring.currentVersion then ring.previous
  else none

/-- What `encryptionKeyRing()` returns or throws in a process. -/
abbrev Keys := Except Refusal EncryptionKeyRing

def SEALED_WITH_UNAVAILABLE_KEY : JsString := js "SECRET_SEALED_WITH_UNAVAILABLE_KEY_VERSION"

def unavailableKey (keyVersion currentVersion : Nat) : Refusal :=
  ⟨some SEALED_WITH_UNAVAILABLE_KEY,
    js "This credential is sealed with encryption key version " ++ decimal keyVersion ++
      js ", which this service does not hold. It holds version " ++ decimal currentVersion ++
      js ". The ciphertext is intact and nothing has been lost. See docs/secret-store.md."⟩

/-! ## Sealing and opening -/

section

variable (gcm : Gcm)

def encrypt (name value : JsString) (key initializationVector : Bytes) :
    Except Refusal EncryptedPayload :=
  if value = [] then .error (refusal (js "A secret value is required."))
  else
    let (ciphertext, authenticationTag) :=
      gcm.encrypt key initializationVector (utf8 name) (utf8 value)
    .ok { ciphertext, initializationVector, authenticationTag }

def decrypt (keys : Keys) (secret : StoredSecret) : Except Refusal JsString := do
  let ring ← keys
  match ring.key secret.keyVersion with
  | none => .error (unavailableKey secret.keyVersion ring.currentVersion)
  | some key =>
    match gcm.decrypt key secret.initializationVector (utf8 secret.name) secret.ciphertext
        secret.authenticationTag with
    | none => .error (refusal (js "The stored credential could not be decrypted."))
    | some bytes => .ok (fromUtf8 bytes)

end

/-! ## The table -/

/-- `findUnique` by name. -/
def findByName (rows : List StoredSecret) (name : JsString) : Option StoredSecret :=
  rows.find? fun row => row.name == name

/-- `findUnique` by id, whose case does not count. -/
def findById (rows : List StoredSecret) (id : JsString) : Option StoredSecret :=
  rows.find? fun row => row.id.text == lowerLatin id

def findByLegacyReference (rows : List StoredSecret) (reference : JsString) :
    Option StoredSecret :=
  rows.find? fun row => row.legacyReference == some reference

def StoredSecret.reseal (row : StoredSecret) (payload : EncryptedPayload) (keyVersion : Nat) :
    StoredSecret :=
  { row with toEncryptedPayload := payload, keyVersion }

/-- `upsert` by name, a new row under the given id. -/
def upsert (rows : List StoredSecret) (name : JsString) (payload : EncryptedPayload)
    (keyVersion : Nat) (id : Uuid) : List StoredSecret × Uuid :=
  match findByName rows name with
  | some existing =>
    (rows.map fun row => if row.name = name then row.reseal payload keyVersion else row,
      existing.id)
  | none => (rows ++ [⟨payload, id, name, keyVersion, none⟩], id)

/-- `updateMany` where the id and the key version are those given. -/
def updateMany (rows : List StoredSecret) (id : Uuid) (keyVersion : Nat)
    (payload : EncryptedPayload) (currentVersion : Nat) : List StoredSecret :=
  rows.map fun row =>
    if row.id = id ∧ row.keyVersion = keyVersion then row.reseal payload currentVersion else row

def IMMUTABLE_MANAGED_SECRET_PREFIX : JsString := js "hawkview-managed-revision:"

/-- `deleteMany` where the row is none of the immutable ones. -/
def deleteMany (rows : List StoredSecret) (selected : StoredSecret → Bool) : List StoredSecret :=
  rows.filter fun row => !(selected row && !startsWith row.name IMMUTABLE_MANAGED_SECRET_PREFIX)

/-! ## References -/

def DATABASE_REFERENCE_PREFIX : JsString := js "encrypted-secret:"

def databaseReference (id : Uuid) : JsString := DATABASE_REFERENCE_PREFIX ++ id.text

/-- `UUID_PATTERN.test(id)`. -/
def uuidPattern (id : JsString) : Bool :=
  let lower := lowerLatin id
  isUuid lower && (lower[14]?).any (fun c => decide (0x31 ≤ c ∧ c ≤ 0x38)) &&
    (lower[19]?).any (fun c => [0x38, 0x39, 0x61, 0x62].contains c)

/-- A text without slashes. -/
def segment (s : JsString) : Bool := !s.isEmpty && s.all fun c => c != 0x2F

/-- The parts of a text between slashes. -/
def segments (s : JsString) : List JsString :=
  s.foldr (fun c parts => if c = 0x2F then [] :: parts else
    match parts with
    | [] => [[c]]
    | part :: rest => (c :: part) :: rest) [[]]

/-- `LEGACY_REFERENCE_PATTERN.test(reference)`. -/
def legacyReferencePattern (reference : JsString) : Bool :=
  match segments reference with
  | [projects, project, secrets, secret, versions, version] =>
    projects == js "projects" && segment project && secrets == js "secrets" && segment secret &&
      versions == js "versions" && segment version
  | _ => false

def invalidReference : Refusal :=
  refusal (js "The stored credential reference is invalid.")

/-- The row that `access` opens. -/
def accessed (rows : List StoredSecret) (reference : JsString) : Except Refusal StoredSecret :=
  if startsWith reference DATABASE_REFERENCE_PREFIX then
    let id := reference.drop DATABASE_REFERENCE_PREFIX.length
    if uuidPattern id then
      match findById rows id with
      | none => .error (refusal (js "The stored Microsoft credential is unavailable."))
      | some secret => .ok secret
    else .error invalidReference
  else
    match findByLegacyReference rows reference with
    | some migrated => .ok migrated
    | none =>
      if legacyReferencePattern reference then
        .error (refusal (js "The migrated credential is unavailable in encrypted storage."))
      else .error invalidReference

/-- The rows that `delete` leaves. -/
def deleted (rows : List StoredSecret) (reference : JsString) : Except Refusal (List StoredSecret) :=
  if startsWith reference DATABASE_REFERENCE_PREFIX then
    let id := reference.drop DATABASE_REFERENCE_PREFIX.length
    if uuidPattern id then .ok (deleteMany rows fun row => row.id.text == lowerLatin id)
    else .error invalidReference
  else if legacyReferencePattern reference then
    .ok (deleteMany rows fun row => row.legacyReference == some reference)
  else .error invalidReference

/-! ## Calls -/

inductive SecretOwner
  | platform
  | tenant (organizationId : JsString) (customerTenantId : Option JsString)

def TENANT_SCOPE_UNSUPPORTED : JsString := js "SECRET_TENANT_SCOPE_UNSUPPORTED"

def assertStorable : SecretOwner → Except Refusal Unit
  | .platform => .ok ()
  | .tenant _ _ => .error ⟨some TENANT_SCOPE_UNSUPPORTED,
      js "Storing a credential that belongs to one customer tenant is not supported yet. " ++
      js "encrypted_secrets has no organization or tenant column and SecretStoreService.access() " ++
      js "performs no scope check, so a per-tenant credential stored today would be readable " ++
      js "through any reference with no tenant boundary. This refusal is deliberate and is " ++
      js "described in docs/secret-store.md."⟩

inductive Call
  | store (secretId value : JsString) (owner : SecretOwner)
  | access (reference : JsString)
  | accessOrCreate (secretId : JsString)
  | delete (reference : JsString)

/-- Where a call stands between two statements. -/
inductive Stage
  | called
  | minting
  | resealing (secret : StoredSecret) (value : JsString) (resealed : EncryptedPayload)
      (currentVersion : Nat)
  | answered (answer : Option JsString)
  | refused (reason : Refusal)

def Stage.finished : Stage → Bool
  | .answered _ | .refused _ => true
  | _ => false

/-- A call in a process that holds these keys. -/
structure Session where
  keys : Keys
  call : Call
  stage : Stage

/-- What becomes of a statement that writes: its answer may be lost. -/
inductive Outcome
  | applied | lost | failed
  deriving DecidableEq

/-- What a step draws that the table does not say. -/
structure Draw where
  initializationVector : Bytes
  id : Uuid
  createValue : Except Refusal JsString
  outcome : Outcome

/-- The table, the calls, what has been stored under which name, latest first, and the ids drawn:
`uuid()` repeats none. -/
structure State where
  rows : List StoredSecret
  sessions : List Session
  stored : List (JsString × JsString)
  ids : List Uuid

/-- A call has come to the end of a statement. -/
structure Progress where
  rows : List StoredSecret
  stage : Stage
  stored : Option (JsString × JsString)

section

variable (gcm : Gcm)

/-- `openAndReseal`, up to its statement. -/
def openAndReseal (keys : Keys) (secret : StoredSecret) (initializationVector : Bytes) : Stage :=
  match decrypt gcm keys secret with
  | .error reason => .refused reason
  | .ok value =>
    match keys with
    | .error reason => .refused reason
    | .ok ring =>
      if secret.keyVersion = ring.currentVersion then .answered (some value)
      else
        match encrypt gcm secret.name value ring.current initializationVector with
        | .error _ => .answered (some value)
        | .ok resealed => .resealing secret value resealed ring.currentVersion

/-- What `persist` writes, and under which version. -/
def sealedValue (keys : Keys) (name value : JsString) (initializationVector : Bytes) :
    Except Refusal (EncryptedPayload × Nat) := do
  if startsWith name IMMUTABLE_MANAGED_SECRET_PREFIX then
    throw (refusal (js "MANAGED_CREDENTIAL_REQUIRES_IMMUTABLE_PUBLICATION"))
  let ring ← keys
  let encrypted ← encrypt gcm name value ring.current initializationVector
  return (encrypted, ring.currentVersion)

def statementFailed : Refusal := refusal (js "The database statement failed.")

/-- `persist`, and the answer of its caller. -/
def persist (keys : Keys) (name value : JsString) (draw : Draw) (rows : List StoredSecret)
    (answer : Uuid → JsString) : Progress :=
  match sealedValue gcm keys name value draw.initializationVector with
  | .error reason => ⟨rows, .refused reason, none⟩
  | .ok (encrypted, keyVersion) =>
    let (rows', id) := upsert rows name encrypted keyVersion draw.id
    match draw.outcome with
    | .applied => ⟨rows', .answered (some (answer id)), some (name, value)⟩
    | .lost => ⟨rows', .refused statementFailed, some (name, value)⟩
    | .failed => ⟨rows, .refused statementFailed, none⟩

/-- The next statement of a call, with what follows it. -/
def advance (t : Session) (draw : Draw) (rows : List StoredSecret) : Option Progress :=
  match t.stage, t.call with
  | .called, .store secretId value owner =>
    match assertStorable owner with
    | .error reason => some ⟨rows, .refused reason, none⟩
    | .ok _ => some (persist gcm t.keys secretId value draw rows databaseReference)
  | .called, .access reference =>
    match accessed rows reference with
    | .error reason => some ⟨rows, .refused reason, none⟩
    | .ok secret => some ⟨rows, openAndReseal gcm t.keys secret draw.initializationVector, none⟩
  | .called, .accessOrCreate secretId =>
    match findByName rows secretId with
    | some existing =>
      some ⟨rows, openAndReseal gcm t.keys existing draw.initializationVector, none⟩
    | none => some ⟨rows, .minting, none⟩
  | .called, .delete reference =>
    match deleted rows reference, draw.outcome with
    | .error reason, _ => some ⟨rows, .refused reason, none⟩
    | .ok rows', .applied => some ⟨rows', .answered none, none⟩
    | .ok rows', .lost => some ⟨rows', .refused statementFailed, none⟩
    | .ok _, .failed => some ⟨rows, .refused statementFailed, none⟩
  | .minting, .accessOrCreate secretId =>
    match draw.createValue with
    | .error reason => some ⟨rows, .refused reason, none⟩
    | .ok value => some (persist gcm t.keys secretId value draw rows fun _ => value)
  | .resealing secret value resealed currentVersion, _ =>
    match draw.outcome with
    | .failed => some ⟨rows, .answered (some value), none⟩
    | _ => some ⟨updateMany rows secret.id secret.keyVersion resealed currentVersion,
        .answered (some value), none⟩
  | _, _ => none

inductive Action
  | call (keys : Keys) (call : Call)
  | advance (i : Nat) (draw : Draw)
  | crash (i : Nat)

def step (s : State) : Action → Option State
  | .call keys call => some { s with sessions := s.sessions ++ [⟨keys, call, .called⟩] }
  | .advance i draw =>
    if draw.id ∈ s.ids then none
    else (s.sessions[i]?).bind fun t => (advance gcm t draw s.rows).map fun p =>
      { rows := p.rows, sessions := s.sessions.set i { t with stage := p.stage },
        stored := p.stored.toList ++ s.stored, ids := draw.id :: s.ids }
  | .crash i => (s.sessions[i]?).bind fun t =>
    if t.stage.finished then none
    else some { s with sessions := s.sessions.set i { t with stage := .refused statementFailed } }

end

/-! ## Rotation status -/

structure SecretStatus where
  name : JsString
  keyVersion : Nat
  readable : Bool

structure RotationStatus where
  currentVersion : Nat
  secrets : List SecretStatus
  unreadable : Nat
  resealPending : Nat
  complete : Bool

def rotationStatus (gcm : Gcm) (ring : EncryptionKeyRing) (rows : List StoredSecret) :
    RotationStatus :=
  let secrets := rows.map fun secret =>
    { name := secret.name, keyVersion := secret.keyVersion,
      readable := (decrypt gcm (.ok ring) secret).isOk }
  { currentVersion := ring.currentVersion
    secrets
    unreadable := (secrets.filter fun row => !row.readable).length
    resealPending := (secrets.filter fun row => row.keyVersion != ring.currentVersion).length
    complete := secrets.all fun row => row.readable && row.keyVersion == ring.currentVersion }

end SecretStore
