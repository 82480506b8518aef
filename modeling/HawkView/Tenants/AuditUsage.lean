import HawkView.Lib.JsNumber
import HawkView.Lib.Locking
import HawkView.Lib.Totals
import HawkView.Lib.UtcMonth

/-!
# The download budget

What a tenant downloads and stores in a day is reserved before it is read, under
the lock of the month and then that of the day, and what a read did not use is
given back without a lock. Times are milliseconds since 1970 and dates are days.
-/

namespace AuditUsage

open IsoTime Locking Totals

structure TenantTarget where
  id : Uuid
  organizationId : Uuid
  deriving DecidableEq

/-! ## Dates -/

def DAY_MS : Nat := 24 * 60 * 60 * 1000

def m365AuditUsageDate (now : Nat) : Nat := now / DAY_MS

def nextUtcUsageDate (now : Nat) : Int := (m365AuditUsageDate now + 1) * DAY_MS

def nextUtcMonthDate (now : Nat) : Int :=
  monthStart (monthOf (m365AuditUsageDate now) + 1) * DAY_MS

def inMonth (month date : Nat) : Bool :=
  decide (monthStart month ≤ date ∧ (date : Int) < monthStart (month + 1))

/-! ## Usage -/

structure Amounts where
  bytes : Int
  records : Int
  deriving DecidableEq, Repr

/-- What is reserved; a part that is left out is nothing. -/
structure Usage where
  bytes : Int
  records : Int
  blobs : Int
  deriving DecidableEq

/-- `Math.max(0, Math.ceil(…))` of each part. -/
def Usage.ceil (u : Usage) : Usage := ⟨max 0 u.bytes, max 0 u.records, max 0 u.blobs⟩

/-- The daily usage of a tenant. -/
structure DailyUsage where
  organizationId : Uuid
  customerTenantId : Uuid
  usageDate : Nat
  downloadedBytes : Int
  recordsStored : Int
  blobsProcessed : Int
  deriving DecidableEq

namespace DailyUsage

def key (r : DailyUsage) : Uuid × Nat := (r.customerTenantId, r.usageDate)

def increment (u : Usage) (r : DailyUsage) : DailyUsage := { r with
  downloadedBytes := r.downloadedBytes + u.bytes
  recordsStored := r.recordsStored + u.records
  blobsProcessed := r.blobsProcessed + u.blobs }

def decrement (bytes : Int) (r : DailyUsage) : DailyUsage :=
  { r with downloadedBytes := r.downloadedBytes - bytes }

end DailyUsage

/-- The table, with one row for each tenant and date. -/
structure UsageTable where
  rows : List DailyUsage
  distinct : (rows.map DailyUsage.key).Nodup

/-- What the limits are about. -/
inductive Aggregate
  | tenantDay | deploymentDay | tenantMonth | deploymentMonth
  deriving DecidableEq, Repr

def Aggregate.covers (tenant : Uuid) (date : Nat) (r : DailyUsage) : Aggregate → Bool
  | .tenantDay => r.customerTenantId == tenant && r.usageDate == date
  | .deploymentDay => r.usageDate == date
  | .tenantMonth => r.customerTenantId == tenant && inMonth (monthOf date) r.usageDate
  | .deploymentMonth => inMonth (monthOf date) r.usageDate

def Aggregate.monthly : Aggregate → Bool
  | .tenantDay => false
  | .deploymentDay => false
  | .tenantMonth => true
  | .deploymentMonth => true

namespace UsageTable

def empty : UsageTable := ⟨[], List.nodup_nil⟩

def aggregate (t : UsageTable) (a : Aggregate) (tenant : Uuid) (date : Nat) : Amounts where
  bytes := total (fun r => a.covers tenant date r) DailyUsage.downloadedBytes t.rows
  records := total (fun r => a.covers tenant date r) DailyUsage.recordsStored t.rows

def findUnique (t : UsageTable) (tenant : Uuid) (date : Nat) : Option DailyUsage :=
  t.rows.find? fun r => r.key = (tenant, date)

/-- A day of a tenant is one row, and the other aggregates are sums. -/
def read (t : UsageTable) (a : Aggregate) (tenant : Uuid) (date : Nat) : Amounts :=
  match a with
  | .tenantDay =>
    ((t.findUnique tenant date).map fun r => ⟨r.downloadedBytes, r.recordsStored⟩).getD ⟨0, 0⟩
  | a => t.aggregate a tenant date

def row (tenant : TenantTarget) (date : Nat) (u : Usage) : DailyUsage where
  organizationId := tenant.organizationId
  customerTenantId := tenant.id
  usageDate := date
  downloadedBytes := u.bytes
  recordsStored := u.records
  blobsProcessed := u.blobs

def reserve (t : UsageTable) (tenant : TenantTarget) (date : Nat) (u : Usage) : UsageTable where
  rows := upsert DailyUsage.key (row tenant date u) (DailyUsage.increment u) t.rows
  distinct := upsert_keys (fun _ => rfl) t.distinct

/-- The row that a release reaches: one that has as much. -/
def holds (tenant : TenantTarget) (date : Nat) (bytes : Int) (r : DailyUsage) : Bool :=
  r.organizationId == tenant.organizationId && r.customerTenantId == tenant.id &&
    r.usageDate == date && decide (bytes ≤ r.downloadedBytes)

def release (t : UsageTable) (tenant : TenantTarget) (date : Nat) (bytes : Int) : UsageTable where
  rows := t.rows.map fun r => if holds tenant date bytes r then r.decrement bytes else r
  distinct := by
    have hsame : (t.rows.map fun r => if holds tenant date bytes r then r.decrement bytes
        else r).map DailyUsage.key = t.rows.map DailyUsage.key := by
      rw [List.map_map]
      apply List.map_congr_left
      intro r _
      simp only [Function.comp_apply]
      split <;> rfl
    rw [hsame]
    exact t.distinct

end UsageTable

/-! ## Limits -/

structure Limits where
  tenantBytes : Nat
  deploymentBytes : Nat
  tenantMonthlyBytes : Nat
  deploymentMonthlyBytes : Nat
  tenantRecords : Nat
  deploymentRecords : Nat
  tenantMonthlyRecords : Nat
  deploymentMonthlyRecords : Nat

def Limits.of (l : Limits) : Aggregate → Amounts
  | .tenantDay => ⟨l.tenantBytes, l.tenantRecords⟩
  | .deploymentDay => ⟨l.deploymentBytes, l.deploymentRecords⟩
  | .tenantMonth => ⟨l.tenantMonthlyBytes, l.tenantMonthlyRecords⟩
  | .deploymentMonth => ⟨l.deploymentMonthlyBytes, l.deploymentMonthlyRecords⟩

structure M365AuditBudgetError where
  message : JsString
  retryAt : Int
  deriving DecidableEq

def budgetError (now : Nat) (monthly : Bool) : M365AuditBudgetError where
  message := js "Microsoft 365 audit " ++ (if monthly then js "monthly" else js "daily") ++
    js " cost budget is exhausted; ingestion will resume after the next UTC " ++
    (if monthly then js "month" else js "day") ++ js " boundary."
  retryAt := if monthly then nextUtcMonthDate now else nextUtcUsageDate now

/-- The aggregates, in the order in which they are read. -/
def AGGREGATES : List Aggregate := [.tenantDay, .deploymentDay, .tenantMonth, .deploymentMonth]

def exceeded (l : Limits) (u : Usage) (seen : Aggregate × Amounts) : Bool :=
  decide ((l.of seen.1).bytes < seen.2.bytes + u.bytes) ||
    decide ((l.of seen.1).records < seen.2.records + u.records)

/-- The error of a reservation that does not fit. -/
def refusal (l : Limits) (now : Nat) (u : Usage) (seen : List (Aggregate × Amounts)) :
    Option M365AuditBudgetError :=
  if seen.any (exceeded l u) then
    some (budgetError now (seen.any fun s => s.1.monthly && exceeded l u s))
  else none

/-! ## Workers -/

/-- What usage is reserved for: a body that is read afterwards, or anything else. -/
inductive Task
  | download (maximumBytes remainingBytes : Nat)
  | charge (usage : Usage)

def Task.usage : Task → Usage
  | .download maximumBytes remainingBytes => ⟨min maximumBytes remainingBytes, 0, 0⟩
  | .charge usage => usage.ceil

structure Request where
  tenant : TenantTarget
  task : Task
  now : Nat

def Request.date (q : Request) : Nat := m365AuditUsageDate q.now

/-- A body that is read under a reservation; `log` is its place in the log of downloads. -/
structure Download where
  tenant : TenantTarget
  now : Nat
  reserved : Nat
  log : Nat

def Download.date (d : Download) : Nat := m365AuditUsageDate d.now

inductive Phase
  | starting (q : Request)
  | lockingDay (q : Request)
  | reading (q : Request) (seen : List (Aggregate × Amounts))
  | opening (d : Download)
  | receiving (d : Download) (length : Nat)
  | releasing (d : Download) (bytes : Int)
  | finished
  | refused (error : M365AuditBudgetError)
  | failed

/-- What a reservation was for, what was given back and how much was received under it. -/
structure Receipt where
  owner : Nat
  tenant : Uuid
  date : Nat
  reserved : Nat
  released : Int
  received : Nat
  deriving DecidableEq

namespace Receipt

def receive (byteLength : Nat) (r : Receipt) : Receipt :=
  { r with received := r.received + byteLength }

def release (bytes : Int) (r : Receipt) : Receipt := { r with released := r.released + bytes }

end Receipt

/-- The table, and the log of all downloads. -/
structure Db where
  usage : UsageTable
  downloads : List Receipt

/-- What comes from outside. -/
inductive Input
  | response (contentLength : JsNumber) (hasBody : Bool)
  | chunk (byteLength : Nat)
  | done (parses : Bool)

/-- `Number.isFinite(declaredLength) && declaredLength > effectiveMaximum`. -/
def declaresMore (contentLength : JsNumber) (effectiveMaximum : Nat) : Bool :=
  match contentLength with
  | .finite q => decide ((effectiveMaximum : ℚ) < q)
  | _ => false

/-- The checks of a reservation, and its upsert. -/
def reserveUsage (l : Limits) (q : Request) (seen : List (Aggregate × Amounts)) (owner : Nat)
    (db : Db) : Db × Phase :=
  match refusal l q.now q.task.usage seen with
  | some error => (db, .refused error)
  | none =>
    let usage := db.usage.reserve q.tenant q.date q.task.usage
    match q.task with
    | .charge _ => (⟨usage, db.downloads⟩, .finished)
    | .download maximumBytes remainingBytes =>
      let reserved := min maximumBytes remainingBytes
      (⟨usage, db.downloads ++ [⟨owner, q.tenant.id, q.date, reserved, 0, 0⟩]⟩,
        .opening ⟨q.tenant, q.now, reserved, db.downloads.length⟩)

/-- The checks of `readBoundedJson` before the body. -/
def openBody (d : Download) (db : Db) : Input → Option (Db × Phase)
  | .response contentLength hasBody =>
    if d.reserved = 0 ∨ declaresMore contentLength d.reserved then some (db, .failed)
    else if hasBody then some (db, .receiving d 0)
    else some (db, .releasing d d.reserved)
  | _ => none

/-- The loop of `readBoundedJson`. -/
def readBody (d : Download) (length : Nat) (db : Db) : Input → Option (Db × Phase)
  | .chunk byteLength =>
    (db.downloads[d.log]?).map fun receipt =>
      ({ db with downloads := db.downloads.set d.log (receipt.receive byteLength) },
        if d.reserved < length + byteLength then .failed
        else .receiving d (length + byteLength))
  | .done parses => some (db, if parses then .releasing d (d.reserved - length) else .failed)
  | _ => none

/-- Gives back what the read did not use, where the row has as much. -/
def releaseUnusedDownloadReservation (d : Download) (bytes : Int) (db : Db) : Db :=
  if bytes ≤ 0 then db
  else {
    usage := db.usage.release d.tenant d.date bytes
    downloads :=
      match db.downloads[d.log]? with
      | some receipt =>
        if db.usage.rows.any (UsageTable.holds d.tenant d.date bytes) then
          db.downloads.set d.log (receipt.release bytes)
        else db.downloads
      | none => db.downloads }

structure Deployment where
  limits : Limits
  hashtext : JsString → Int

def monthLock (e : Deployment) (date : Nat) : Int :=
  e.hashtext (js "hawkview:m365-monthly-budget:" ++
    toISOString (monthStart (monthOf date) * DAY_MS))

def dayLock (e : Deployment) (date : Nat) : Int :=
  e.hashtext (js "hawkview:m365-daily-budget:" ++ toISOString (date * DAY_MS))

def move (e : Deployment) : Phase → Move Int Db Phase Input
  | .starting q => .acquire (monthLock e q.date) .exclusive fun _ => .lockingDay q
  | .lockingDay q => .acquire (dayLock e q.date) .exclusive fun _ => .reading q []
  | .reading q seen =>
    match AGGREGATES[seen.length]? with
    | some a => .observe fun db => .reading q (seen ++ [(a, db.usage.read a q.tenant.id q.date)])
    | none => .commit fun i _ db => some (reserveUsage e.limits q seen i db)
  | .opening d => .commit fun _ x db => openBody d db x
  | .receiving d length => .commit fun _ x db => readBody d length db x
  | .releasing d bytes => .commit fun _ _ db =>
    some (releaseUnusedDownloadReservation d bytes db, .finished)
  | .finished => .rest
  | .refused _ => .rest
  | .failed => .rest

/-- Workers reserve, read and release; one that crashes or is interrupted just stops. -/
def workers (e : Deployment) : Program Int Db Phase Input where
  starts
    | .starting _ => true
    | _ => false
  move := move e
  aborted _ := .failed

end AuditUsage
