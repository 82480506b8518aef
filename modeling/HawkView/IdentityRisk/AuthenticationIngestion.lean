import HawkView.IdentityRisk.AuthenticationFingerprint
import HawkView.Lib.IsoTime
import HawkView.Lib.Runs
import HawkView.Lib.Table

/-!
# Ingestion of authentication records

A call splits its records into chunks of 500, and each chunk is one transaction
under the lock of its scope. A record that contradicts another one of its sign-in
marks the stored row, and the stored row stays the first that was committed.
-/

namespace AuthenticationIntegrity

open Json

/-! ## Rows -/

structure Scope where
  organizationId : JsString
  customerTenantId : JsString
  deriving DecidableEq

/-- A row of `sign_in_logs`; `columns` are the ones that ingestion does not look at. -/
structure SignInRow (ρ : Type) extends Scope where
  microsoftSignInId : JsString
  raw : Json
  wellFormed : WellFormed raw
  columns : ρ

variable {ρ : Type}

def signInSchema (ρ : Type) : Sql.Schema (SignInRow ρ) where
  check _ := true
  clash a b := a.customerTenantId == b.customerTenantId && a.microsoftSignInId == b.microsoftSignInId

abbrev SignInLogs (ρ : Type) := Sql.Table (signInSchema ρ)

def SignInRow.key (r : SignInRow ρ) : JsString × JsString :=
  (r.customerTenantId, r.microsoftSignInId)

/-- What `jsonb` makes of a value: the order of names is not kept. -/
structure Jsonb where
  accepts : Json → Bool
  store : Json → Json
  wellFormed : ∀ {v}, WellFormed v → WellFormed (store v)
  alike : ∀ {v}, WellFormed v → Alike (store v) v

/-- The digest, and the store that the rows are in. -/
structure Environment where
  sha256 : JsString → JsString
  jsonb : Jsonb
  octets : Json → Nat

def Environment.fingerprint (env : Environment) (raw : Json) : Option JsString :=
  authenticationFactFingerprint env.sha256 raw

def marked (raw : Json) : Bool := (child raw (.key MARKER)).isSome

/-! ## Markers -/

inductive IntegrityConflictOrigin
  | fingerprintUnavailable | inputPreMarked | batchDuplicateMismatch | storedFingerprintMismatch
  deriving DecidableEq

def IntegrityConflictOrigin.text : IntegrityConflictOrigin → JsString
  | .fingerprintUnavailable => js "FINGERPRINT_UNAVAILABLE"
  | .inputPreMarked => js "INPUT_PRE_MARKED"
  | .batchDuplicateMismatch => js "BATCH_DUPLICATE_MISMATCH"
  | .storedFingerprintMismatch => js "STORED_FINGERPRINT_MISMATCH"

def integrityConflictMarker (because : IntegrityConflictOrigin) (at' : Int) : Json :=
  .object [(js "state", .string (js "CONFLICT")), (js "because", .string because.text),
    (js "at", .string (IsoTime.toISOString at'))]

/-- `{...raw, [MARKER]: marker}`, and `jsonb_set` on the stored value. -/
def withMarker (raw marker : Json) : Json :=
  match raw with
  | .object entries => .object (JsMap.put MARKER marker entries)
  | v => v

theorem withMarker_wellFormed {raw marker : Json} (hraw : WellFormed raw)
    (hmarker : WellFormed marker) : WellFormed (withMarker raw marker) := by
  cases hraw with
  | object inner distinct =>
    constructor
    · intro e he
      rcases mem_put he with rfl | he
      · exact hmarker
      · exact inner e he
    · exact JsMap.nodup_put distinct marker
  | null => exact .null
  | bool b => exact .bool b
  | number n => exact .number n
  | string s => exact .string s
  | array inner => exact .array inner

theorem integrityConflictMarker_wellFormed (because : IntegrityConflictOrigin) (at' : Int) :
    WellFormed (integrityConflictMarker because at') := by
  constructor
  · intro e he
    simp only [List.mem_cons, List.not_mem_nil, or_false] at he
    rcases he with rfl | rfl | rfl <;> exact .string _
  · show [js "state", js "because", js "at"].Nodup
    decide

/-! ## The map of a chunk -/

structure Pending (ρ : Type) where
  row : SignInRow ρ
  fingerprint : Option JsString
  because : Option IntegrityConflictOrigin

structure Collected (ρ : Type) where
  bytes : Nat
  unique : JsMap JsString (Pending ρ)

/-- Why a record is in conflict by itself. -/
def ownConflict (env : Environment) (raw : Json) : Option IntegrityConflictOrigin :=
  if env.fingerprint raw = none then some .fingerprintUnavailable
  else if marked raw then some .inputPreMarked
  else none

def Pending.join (p : Pending ρ) (fingerprint : Option JsString)
    (because : Option IntegrityConflictOrigin) : Pending ρ :=
  { p with because := p.because.or (because.or
      (if p.fingerprint ≠ fingerprint then some .batchDuplicateMismatch else none)) }

def addPending (unique : JsMap JsString (Pending ρ)) (row : SignInRow ρ)
    (fingerprint : Option JsString) (because : Option IntegrityConflictOrigin) :
    JsMap JsString (Pending ρ) :=
  match unique.get? row.microsoftSignInId with
  | some old => unique.set row.microsoftSignInId (old.join fingerprint because)
  | none => unique.set row.microsoftSignInId ⟨row, fingerprint, because⟩

variable (env : Environment) (scope : Scope)

/-- One record of a chunk; a record that is not valid or too large throws. -/
def collect (c : Collected ρ) (row : SignInRow ρ) : Option (Collected ρ) :=
  if row.toScope ≠ scope ∨ row.microsoftSignInId = [] ∨ row.microsoftSignInId.length > 200 ∨
      plain row.raw = false then none
  else
    (canonical 0 row.raw).bind fun value =>
      let size := byteLength value.stringify
      let bytes := c.bytes + size
      if size > MAX_ROW_BYTES ∨ bytes > MAX_BATCH_BYTES then none
      else some ⟨bytes, addPending c.unique row (env.fingerprint row.raw) (ownConflict env row.raw)⟩

/-! ## The transaction of a chunk -/

structure Settling (ρ : Type) where
  table : SignInLogs ρ
  seen : JsSet JsString
  hasConflicts : Bool

def SignInRow.mark (r : SignInRow ρ) (because : IntegrityConflictOrigin) (markedAt : Int) :
    SignInRow ρ :=
  { r with
    raw := withMarker r.raw (integrityConflictMarker because markedAt)
    wellFormed := withMarker_wellFormed r.wellFormed (integrityConflictMarker_wellFormed _ _) }

/-- The row as the table holds it. -/
def SignInRow.stored (r : SignInRow ρ) : SignInRow ρ :=
  { r with raw := env.jsonb.store r.raw, wellFormed := env.jsonb.wellFormed r.wellFormed }

def markUpdate (id : JsString) (because : IntegrityConflictOrigin) (markedAt : Int) :
    Sql.Update (SignInRow ρ) where
  applies r := r.toScope == scope && r.microsoftSignInId == id
  set r := (r.mark because markedAt).stored env

/-- The conflict that a record of the chunk adds to the stored row. -/
def Pending.against (p : Pending ρ) (stored : Json) : Option IntegrityConflictOrigin :=
  p.because.or
    (if env.fingerprint stored ≠ p.fingerprint then some .storedFingerprintMismatch else none)

/-- A stored row of the chunk; a row that is marked already is left untouched. -/
def settleStored (unique : JsMap JsString (Pending ρ)) (markedAt : Int) (s : Settling ρ)
    (old : SignInRow ρ) : Option (Settling ρ) :=
  match unique.get? old.microsoftSignInId with
  | none => none
  | some pending =>
    if plain old.raw = false then none
    else
      let seen := s.seen.add old.microsoftSignInId
      if marked old.raw then some { s with seen, hasConflicts := true }
      else
        match pending.against env old.raw with
        | none => some { s with seen }
        | some because =>
          (s.table.update (markUpdate env scope old.microsoftSignInId because markedAt)).map
            fun (table, _) => { table, seen, hasConflicts := true }

def Pending.data (markedAt : Int) (p : Pending ρ) : SignInRow ρ :=
  match p.because with
  | some because => p.row.mark because markedAt
  | none => p.row

/-- The rows that a statement on the ids of a chunk reads. -/
def rowsOf (ids : List JsString) (table : SignInLogs ρ) : List (SignInRow ρ) :=
  table.rows.filter fun r => r.toScope == scope && ids.contains r.microsoftSignInId

/-- The size of the rows is within the limits of the reader. -/
def withinLimits (rows : List (SignInRow ρ)) : Bool :=
  decide ((rows.map fun r => env.octets r.raw).sum ≤ MAX_BATCH_BYTES) &&
    rows.all fun r => decide (env.octets r.raw ≤ MAX_ROW_BYTES)

structure Outcome (ρ : Type) where
  table : SignInLogs ρ
  inserted : Nat
  hasConflicts : Bool

/-- `createMany` without `skipDuplicates`. -/
def createMany (table : SignInLogs ρ) (data : List (SignInRow ρ)) : Option (SignInLogs ρ) :=
  if data.all fun r => env.jsonb.accepts r.raw then
    Sql.Table.ofRows (table.rows ++ data.map (·.stored env))
  else none

/-- The transaction of a chunk; where it throws, nothing of it is kept. -/
def transact (unique : JsMap JsString (Pending ρ)) (markedAt : Int) (table : SignInLogs ρ) :
    Option (Outcome ρ) :=
  let ids := unique.entries.map Prod.fst
  let existing := rowsOf scope ids table
  if withinLimits env existing then
    (existing.foldlM (settleStored env scope unique markedAt)
      ⟨table, JsMap.empty, false⟩).bind fun s =>
    let fresh := unique.values.filter fun p => !s.seen.has p.row.microsoftSignInId
    let data := fresh.map (Pending.data markedAt)
    (if data.isEmpty then some s.table else createMany env s.table data).bind fun table =>
    if withinLimits env (rowsOf scope ids table) then
      some ⟨table, data.length, s.hasConflicts || fresh.any fun p => p.because.isSome⟩
    else none
  else none

/-- A chunk of records. -/
def persistChunk (chunk : List (SignInRow ρ)) (markedAt : Int) (table : SignInLogs ρ) :
    Option (Outcome ρ) :=
  (chunk.foldlM (collect env scope) ⟨0, JsMap.empty⟩).bind fun c =>
    transact env scope c.unique markedAt table

/-! ## Calls -/

/-- A call that has not ended. -/
structure Call (ρ : Type) where
  records : List (SignInRow ρ)
  markedAt : Int
  offset : Nat
  inserted : Nat
  hasConflicts : Bool

/-- The rows of the scope, the calls that are in progress and, in the order of their
commits, the records of the chunks that were committed. -/
structure State (ρ : Type) where
  table : SignInLogs ρ
  calls : Nat → Option (Call ρ)
  log : List (SignInRow ρ)

/-- A call throws or returns at any time, also between the commit of a chunk and the next. -/
inductive Action (ρ : Type)
  | call (id : Nat) (records : List (SignInRow ρ)) (markedAt : Int)
  | chunk (id : Nat)
  | ends (id : Nat)

def State.initial : State ρ := ⟨Sql.Table.empty, fun _ => none, []⟩

def commitChunk (s : State ρ) (id : Nat) (c : Call ρ) : Option (State ρ) :=
  let chunk := (c.records.drop c.offset).take 500
  (persistChunk env scope chunk c.markedAt s.table).map fun o =>
    { table := o.table
      calls := Function.update s.calls id (some { c with
        offset := c.offset + 500
        inserted := c.inserted + o.inserted
        hasConflicts := c.hasConflicts || o.hasConflicts })
      log := s.log ++ chunk }

def step (s : State ρ) : Action ρ → Option (State ρ)
  | .call id records markedAt =>
    if (s.calls id).isNone ∧ records.length ≤ 100000 then
      some { s with calls := Function.update s.calls id (some ⟨records, markedAt, 0, 0, false⟩) }
    else none
  | .chunk id => (s.calls id).bind fun c =>
    if c.offset < c.records.length then commitChunk env scope s id c else none
  | .ends id => some { s with calls := Function.update s.calls id none }

end AuthenticationIntegrity
