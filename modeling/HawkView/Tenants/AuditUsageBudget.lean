import HawkView.Tenants.AuditUsage

/-!
# The download budget holds

Under the lock of the month no other reservation of that month is written, and a
release only lowers what is recorded, so what a reservation has read bounds what
there is when it is written. The log of downloads shows that what is recorded
for a day covers what was received under the reservations of that day.
-/

namespace AuditUsage

open IsoTime Locking Totals List Option

/-! ## Aggregates -/

theorem inMonth_iff {day date : Nat} :
    inMonth (monthOf day) date = true ↔ monthOf date = monthOf day := by
  rw [inMonth, decide_eq_true_eq, monthOf_eq_iff]

namespace Aggregate

variable {tenant tenant' : Uuid} {date date' : Nat} {r r' : DailyUsage}

theorem covers_key (a : Aggregate) (h : r.key = r'.key) :
    a.covers tenant date r = a.covers tenant date r' := by
  have htenant : r.customerTenantId = r'.customerTenantId := congrArg Prod.fst h
  have hdate : r.usageDate = r'.usageDate := congrArg Prod.snd h
  cases a <;> simp only [covers, htenant, hdate]

@[simp] theorem covers_increment (a : Aggregate) (u : Usage) :
    a.covers tenant date (r.increment u) = a.covers tenant date r := a.covers_key rfl

@[simp] theorem covers_decrement (a : Aggregate) (bytes : Int) :
    a.covers tenant date (r.decrement bytes) = a.covers tenant date r := a.covers_key rfl

variable {a : Aggregate}

/-- A group that covers a row lies in the month of the row. -/
theorem covers_month (h : a.covers tenant date r = true) :
    monthOf r.usageDate = monthOf date := by
  cases a with
  | tenantDay =>
    simp only [covers, Bool.and_eq_true, beq_iff_eq] at h
    rw [h.2]
  | deploymentDay =>
    simp only [covers, beq_iff_eq] at h
    rw [h]
  | tenantMonth =>
    simp only [covers, Bool.and_eq_true] at h
    exact inMonth_iff.mp h.2
  | deploymentMonth => exact inMonth_iff.mp h

/-- A group that covers a row is the group of the row. -/
theorem covers_own (r' : DailyUsage) (h : a.covers tenant date r = true) :
    a.covers r.customerTenantId r.usageDate r' = a.covers tenant date r' := by
  have hmonth := covers_month h
  cases a with
  | tenantDay =>
    simp only [covers, Bool.and_eq_true, beq_iff_eq] at h
    simp only [covers, h.1, h.2]
  | deploymentDay =>
    simp only [covers, beq_iff_eq] at h
    simp only [covers, h]
  | tenantMonth =>
    simp only [covers, Bool.and_eq_true, beq_iff_eq] at h
    simp only [covers, h.1, hmonth]
  | deploymentMonth => simp only [covers, hmonth]

end Aggregate

namespace UsageTable

variable {t : UsageTable} {a : Aggregate} {tenant : Uuid} {date : Nat}

theorem tenantDay_covers : (fun r => Aggregate.tenantDay.covers tenant date r) =
    fun r : DailyUsage => decide (r.key = (tenant, date)) := by
  funext r
  rw [Bool.eq_iff_iff]
  simp [Aggregate.covers, DailyUsage.key]

theorem read_eq : t.read a tenant date = t.aggregate a tenant date := by
  cases a with
  | tenantDay =>
    rw [read, findUnique, aggregate, tenantDay_covers, total_key t.distinct,
      total_key t.distinct]
    cases t.rows.find? fun r => r.key = (tenant, date) <;> rfl
  | _ => rfl

/-- A reservation adds to the groups that cover it. -/
theorem aggregate_reserve (t : UsageTable) (target : TenantTarget) (day : Nat) (u : Usage) :
    (t.reserve target day u).aggregate a tenant date =
      if a.covers tenant date (row target day u) then
        ⟨(t.aggregate a tenant date).bytes + u.bytes,
          (t.aggregate a tenant date).records + u.records⟩
      else t.aggregate a tenant date := by
  have hcovered : ∀ r : DailyUsage, r.key = (row target day u).key →
      a.covers tenant date r = a.covers tenant date (row target day u) :=
    fun r hr => a.covers_key hr
  have hbytes := total_upsert DailyUsage.downloadedBytes t.distinct hcovered
    (fun _ => a.covers_increment u) fun _ => rfl
  have hrecords := total_upsert DailyUsage.recordsStored t.distinct hcovered
    (fun _ => a.covers_increment u) fun _ => rfl
  rw [aggregate, reserve, hbytes, hrecords]
  unfold share
  split
  · rfl
  · rw [add_zero, add_zero]
    rfl

variable {target : TenantTarget} {bytes : Int}

theorem holds_key {day : Nat} {r : DailyUsage} (h : holds target day bytes r = true) :
    r.key = (target.id, day) ∧ bytes ≤ r.downloadedBytes := by
  simp only [holds, Bool.and_eq_true, beq_iff_eq, decide_eq_true_eq] at h
  exact ⟨by rw [DailyUsage.key, h.1.1.2, h.1.2], h.2⟩

/-- A release adds to no group. -/
theorem aggregate_release_le (target : TenantTarget) (day : Nat) (pos : 0 < bytes) :
    ((t.release target day bytes).aggregate a tenant date).bytes ≤
        (t.aggregate a tenant date).bytes ∧
      ((t.release target day bytes).aggregate a tenant date).records ≤
        (t.aggregate a tenant date).records := by
  constructor
  all_goals
    apply total_map_le
    intro r _
    split
    · simp only [share, Aggregate.covers_decrement]
      split
      · simp only [DailyUsage.decrement]
        omega
      · exact le_refl _
    · exact le_refl _

/-- A release takes what it gives back from its day, where the row has as much. -/
theorem aggregate_release_day (target : TenantTarget) (day : Nat) (bytes : Int) :
    ((t.release target day bytes).aggregate .tenantDay tenant date).bytes =
      (t.aggregate .tenantDay tenant date).bytes -
        if t.rows.any (holds target day bytes) ∧ (tenant, date) = (target.id, day) then bytes
        else 0 := by
  have hone : ∀ r ∈ t.rows, holds target day bytes r = true → r.key = (target.id, day) :=
    fun r _ hr => (holds_key hr).1
  have htotal := total_update (fun r => Aggregate.tenantDay.covers tenant date r)
    DailyUsage.downloadedBytes t.distinct (fun r => r.decrement bytes) hone
  rw [aggregate, release, htotal, aggregate]
  cases hfind : t.rows.find? (holds target day bytes) with
  | none =>
    have hnone : t.rows.any (holds target day bytes) = false := by
      rw [List.any_eq_false]
      exact List.find?_eq_none.mp hfind
    simp [hnone]
  | some r =>
    have hr := find?_some hfind
    have hany : t.rows.any (holds target day bytes) = true :=
      List.any_eq_true.mpr ⟨r, mem_of_find?_eq_some hfind, hr⟩
    have hcovers : Aggregate.tenantDay.covers tenant date r =
        decide ((tenant, date) = (target.id, day)) := by
      rw [congrFun tenantDay_covers r, (holds_key hr).1]
      exact decide_eq_decide.mpr eq_comm
    simp only [map_some, getD_some, share, Aggregate.covers_decrement, hcovers, hany]
    by_cases heq : (tenant, date) = (target.id, day)
    · simp only [heq, decide_true, if_true, and_self, DailyUsage.decrement]
      omega
    · simp [heq]

def NonNegative (t : UsageTable) : Prop :=
  ∀ r ∈ t.rows, 0 ≤ r.downloadedBytes ∧ 0 ≤ r.recordsStored

theorem NonNegative.reserve (h : NonNegative t) {day : Nat} {u : Usage} (bytes : 0 ≤ u.bytes)
    (records : 0 ≤ u.records) : NonNegative (t.reserve target day u) := by
  intro r hr
  obtain rfl | ⟨s, hs, rfl | rfl⟩ := mem_upsert hr
  · exact ⟨bytes, records⟩
  · exact h r hs
  · have hnonneg := h s hs
    simp only [DailyUsage.increment]
    omega

theorem NonNegative.release (h : NonNegative t) (target : TenantTarget) (day : Nat)
    (bytes : Int) : NonNegative (t.release target day bytes) := by
  intro r hr
  obtain ⟨s, hs, rfl⟩ := mem_map.mp hr
  have hnonneg := h s hs
  split
  · rename_i hholds
    have hle := (holds_key hholds).2
    simp only [DailyUsage.decrement]
    omega
  · exact hnonneg

end UsageTable

/-! ## What the store keeps -/

structure Within (l : Limits) (t : UsageTable) : Prop where
  bytes : ∀ a tenant date, (t.aggregate a tenant date).bytes ≤ (l.of a).bytes
  records : ∀ a tenant date, (t.aggregate a tenant date).records ≤ (l.of a).records

theorem within_empty (l : Limits) : Within l .empty := by
  constructor <;> intro a _ _ <;> cases a <;> exact Int.natCast_nonneg _

namespace Receipt

def of (tenant : Uuid) (date : Nat) (r : Receipt) : Bool := r.tenant == tenant && r.date == date

/-- What is still reserved for it. -/
def kept (r : Receipt) : Int := r.reserved - r.released

/-- What was not given back covers what was received, unless that was more than reserved. -/
structure Sound (r : Receipt) : Prop where
  released : 0 ≤ r.released ∧ r.released ≤ r.reserved
  covered : r.received + r.released ≤ r.reserved ∨ r.reserved < r.received

end Receipt

structure Sound (l : Limits) (db : Db) : Prop where
  within : Within l db.usage
  nonNegative : db.usage.NonNegative
  kept : ∀ tenant date, total (Receipt.of tenant date) Receipt.kept db.downloads ≤
    (db.usage.aggregate .tenantDay tenant date).bytes
  receipts : ∀ r ∈ db.downloads, r.Sound

/-- The receipt of a body that is being read. -/
def Download.receipt (d : Download) (owner length : Nat) : Receipt where
  owner := owner
  tenant := d.tenant.id
  date := d.date
  reserved := d.reserved
  released := 0
  received := length

/-- What a worker has read bounds what there is. -/
def Seen (db : Db) (q : Request) (seen : List (Aggregate × Amounts)) : Prop :=
  seen.map Prod.fst = AGGREGATES.take seen.length ∧ ∀ s ∈ seen,
    (db.usage.aggregate s.1 q.tenant.id q.date).bytes ≤ s.2.bytes ∧
      (db.usage.aggregate s.1 q.tenant.id q.date).records ≤ s.2.records

/-- What a worker holds and has read. -/
def Reads (e : Deployment) (db : Db) (t : Session Int Phase) : Prop :=
  match t.phase with
  | .lockingDay q => (monthLock e q.date, .exclusive) ∈ t.held
  | .reading q seen => (monthLock e q.date, .exclusive) ∈ t.held ∧ Seen db q seen
  | _ => True

/-- The receipt of a worker in the log. -/
def Owns (db : Db) (owner : Nat) : Phase → Prop
  | .opening d => db.downloads[d.log]? = some (d.receipt owner 0)
  | .receiving d length =>
    db.downloads[d.log]? = some (d.receipt owner length) ∧ length ≤ d.reserved
  | .releasing d bytes => ∃ length, db.downloads[d.log]? = some (d.receipt owner length) ∧
    length + bytes = d.reserved ∧ length ≤ d.reserved
  | _ => True

structure Knows (e : Deployment) (db : Db) (i : Nat) (t : Session Int Phase) : Prop where
  reads : Reads e db t
  owns : Owns db i t.phase

section Steps

variable {e : Deployment} {l : Limits} {db db' : Db} {q : Request} {p : Phase} {i : Nat}
  {seen : List (Aggregate × Amounts)}

/-- What a reservation does: nothing, or it adds to the day and opens a receipt. -/
inductive Reserves (l : Limits) (q : Request) (seen : List (Aggregate × Amounts)) (owner : Nat)
    (db : Db) : Db → Phase → Prop
  | refused (error : M365AuditBudgetError) : Reserves l q seen owner db db (.refused error)
  | charged (usage : Usage) (task : q.task = .charge usage)
      (fits : refusal l q.now q.task.usage seen = none) : Reserves l q seen owner db
      ⟨db.usage.reserve q.tenant q.date q.task.usage, db.downloads⟩ .finished
  | opened (d : Download) (tenant : d.tenant = q.tenant) (now : d.now = q.now)
      (log : d.log = db.downloads.length) (usage : q.task.usage = ⟨d.reserved, 0, 0⟩)
      (fits : refusal l q.now q.task.usage seen = none) : Reserves l q seen owner db
      ⟨db.usage.reserve q.tenant q.date q.task.usage, db.downloads ++ [d.receipt owner 0]⟩
      (.opening d)

theorem reserveUsage_reserves (h : reserveUsage l q seen i db = (db', p)) :
    Reserves l q seen i db db' p := by
  unfold reserveUsage at h
  split at h
  · cases h
    exact .refused _
  · rename_i hfits
    split at h
    · rename_i usage htask
      cases h
      exact .charged usage htask hfits
    · rename_i maximumBytes remainingBytes htask
      cases h
      exact .opened ⟨q.tenant, q.now, min maximumBytes remainingBytes, db.downloads.length⟩ rfl rfl
        rfl (by rw [htask, Task.usage]; simp) hfits

theorem Task.usage_nonneg (task : Task) : 0 ≤ task.usage.bytes ∧ 0 ≤ task.usage.records := by
  cases task <;> simp [Task.usage, Usage.ceil]

/-- Once all four are read, each aggregate has been. -/
theorem Seen.all (h : Seen db q seen) (done : AGGREGATES[seen.length]? = none) (a : Aggregate) :
    ∃ amounts, (a, amounts) ∈ seen := by
  have hlength : AGGREGATES.length ≤ seen.length := List.getElem?_eq_none_iff.mp done
  have hmem : a ∈ seen.map Prod.fst := by
    rw [h.1, take_of_length_le hlength]
    cases a <;> decide
  obtain ⟨⟨b, amounts⟩, hb, rfl⟩ := mem_map.mp hmem
  exact ⟨amounts, hb⟩

/-- What was read bounds what there is, and with the new usage it is within the limits. -/
theorem Within.reserve (h : Within l db.usage) (hseen : Seen db q seen)
    (done : AGGREGATES[seen.length]? = none) (fits : refusal l q.now q.task.usage seen = none) :
    Within l (db.usage.reserve q.tenant q.date q.task.usage) := by
  have hfits : ∀ s ∈ seen, exceeded l q.task.usage s = false := by
    intro s hs
    unfold refusal at fits
    split at fits
    · cases fits
    · rename_i hany
      rw [Bool.not_eq_true, List.any_eq_false] at hany
      exact Bool.eq_false_iff.mpr (hany s hs)
  have hgroup : ∀ (a : Aggregate) tenant date,
      a.covers tenant date (UsageTable.row q.tenant q.date q.task.usage) = true →
      ((db.usage.aggregate a tenant date).bytes + q.task.usage.bytes ≤ (l.of a).bytes ∧
        (db.usage.aggregate a tenant date).records + q.task.usage.records ≤ (l.of a).records) := by
    intro a tenant date hcovers
    have hown : db.usage.aggregate a tenant date = db.usage.aggregate a q.tenant.id q.date := by
      have hsame : (fun r => a.covers q.tenant.id q.date r) = fun r => a.covers tenant date r :=
        funext fun r => Aggregate.covers_own r hcovers
      rw [UsageTable.aggregate, UsageTable.aggregate, hsame]
    obtain ⟨amounts, hmem⟩ := hseen.all done a
    have hbound := hseen.2 _ hmem
    have hlimit := hfits _ hmem
    simp only at hbound
    simp only [exceeded, Bool.or_eq_false_iff, decide_eq_false_iff_not] at hlimit
    rw [hown]
    omega
  constructor
  all_goals
    intro a tenant date
    rw [UsageTable.aggregate_reserve]
    split
    · rename_i hcovers
      have := hgroup a tenant date hcovers
      simp only
      omega
    · have := h.bytes a tenant date
      have := h.records a tenant date
      omega

variable {bytes : Int}

theorem Within.release (h : Within l db.usage) (tenant : TenantTarget) (date : Nat)
    (pos : 0 < bytes) : Within l (db.usage.release tenant date bytes) := by
  constructor <;> intro a tenant' date'
  · exact (UsageTable.aggregate_release_le tenant date pos).1.trans (h.bytes a tenant' date')
  · exact (UsageTable.aggregate_release_le tenant date pos).2.trans (h.records a tenant' date')

theorem Seen.mono (h : Seen db q seen)
    (le : ∀ a, (db'.usage.aggregate a q.tenant.id q.date).bytes ≤
        (db.usage.aggregate a q.tenant.id q.date).bytes ∧
      (db'.usage.aggregate a q.tenant.id q.date).records ≤
        (db.usage.aggregate a q.tenant.id q.date).records) : Seen db' q seen := by
  refine ⟨h.1, ?_⟩
  intro s hs
  have hbound := h.2 s hs
  have hle := le s.1
  omega

/-- What a reservation adds to a day. -/
theorem reserve_day (db : Db) (q : Request) (tenant : Uuid) (date : Nat) :
    ((db.usage.reserve q.tenant q.date q.task.usage).aggregate .tenantDay tenant date).bytes =
      (db.usage.aggregate .tenantDay tenant date).bytes +
        if q.tenant.id == tenant && q.date == date then q.task.usage.bytes else 0 := by
  rw [UsageTable.aggregate_reserve]
  by_cases hday : (q.tenant.id == tenant && q.date == date) = true
  · have hin : Aggregate.tenantDay.covers tenant date
        (UsageTable.row q.tenant q.date q.task.usage) = true := hday
    rw [if_pos hin, if_pos hday]
  · have hout : ¬ Aggregate.tenantDay.covers tenant date
        (UsageTable.row q.tenant q.date q.task.usage) = true := hday
    rw [if_neg hout, if_neg hday, add_zero]

theorem Sound.reserves (h : Sound l db) (hseen : Seen db q seen)
    (done : AGGREGATES[seen.length]? = none) (hres : Reserves l q seen i db db' p) :
    Sound l db' := by
  have husage := q.task.usage_nonneg
  cases hres with
  | refused error => exact h
  | charged usage task fits =>
    refine ⟨h.within.reserve hseen done fits, h.nonNegative.reserve husage.1 husage.2, ?_,
      h.receipts⟩
    intro tenant date
    have hkept := h.kept tenant date
    rw [reserve_day]
    simp only
    split <;> omega
  | opened d tenant now log usage fits =>
    refine ⟨h.within.reserve hseen done fits, h.nonNegative.reserve husage.1 husage.2, ?_, ?_⟩
    · intro tenant' date
      have hkept := h.kept tenant' date
      have hdate : d.date = q.date := by rw [Download.date, Request.date, now]
      rw [reserve_day, total_append, total_singleton, share, usage]
      simp only [Receipt.of, Receipt.kept, Download.receipt, tenant, hdate]
      split <;> omega
    · intro r hr
      rcases mem_append.mp hr with hr | hr
      · exact h.receipts r hr
      · rw [mem_singleton.mp hr]
        refine ⟨⟨le_refl _, ?_⟩, .inl ?_⟩ <;> simp [Download.receipt]

variable {d : Download} {length : Nat}

theorem share_receive (tenant : Uuid) (date n : Nat) (r : Receipt) :
    share (Receipt.of tenant date) Receipt.kept (r.receive n) =
      share (Receipt.of tenant date) Receipt.kept r := rfl

theorem Sound.receives (h : Sound l db) (log : db.downloads[d.log]? = some (d.receipt i length))
    (n : Nat) :
    Sound l { db with downloads := db.downloads.set d.log ((d.receipt i length).receive n) } := by
  refine ⟨h.within, h.nonNegative, ?_, ?_⟩
  · intro tenant date
    have hkept := h.kept tenant date
    rw [total_set log, share_receive]
    simp only
    omega
  · intro r hr
    rcases mem_or_eq_of_mem_set hr with hr | rfl
    · exact h.receipts r hr
    · refine ⟨⟨le_refl _, ?_⟩, ?_⟩
      · simp [Receipt.receive, Download.receipt]
      · simp only [Receipt.receive, Download.receipt]
        omega

theorem Sound.releases (h : Sound l db) (log : db.downloads[d.log]? = some (d.receipt i length))
    (rest : length + bytes = d.reserved) :
    Sound l (releaseUnusedDownloadReservation d bytes db) := by
  unfold releaseUnusedDownloadReservation
  by_cases hpos : bytes ≤ 0
  · rw [if_pos hpos]
    exact h
  · rw [if_neg hpos, log]
    have hbytes : 0 < bytes := by omega
    refine ⟨h.within.release _ _ hbytes, h.nonNegative.release _ _ _, ?_, ?_⟩
    · intro tenant date
      have hkept := h.kept tenant date
      rw [UsageTable.aggregate_release_day]
      by_cases hany : db.usage.rows.any (UsageTable.holds d.tenant d.date bytes) = true
      · simp only [hany, if_true, true_and]
        rw [total_set log]
        simp only [share, Receipt.of, Receipt.kept, Receipt.release, Download.receipt,
          Prod.mk.injEq, Bool.and_eq_true, beq_iff_eq, eq_comm (a := tenant),
          eq_comm (a := date)]
        split <;> omega
      · simp only [hany, Bool.false_eq_true, if_false, false_and]
        omega
    · intro r hr
      simp only at hr
      split at hr
      · rcases mem_or_eq_of_mem_set hr with hr | rfl
        · exact h.receipts r hr
        · refine ⟨?_, ?_⟩ <;> simp only [Receipt.release, Download.receipt] <;> omega
      · exact h.receipts r hr

/-- What the commits of the workers do. -/
inductive Commits (e : Deployment) (owner : Nat) (x : Input) (db : Db) :
    Phase → Db → Phase → Prop
  | reserves {q : Request} {seen : List (Aggregate × Amounts)} {db' : Db} {p : Phase}
      (done : AGGREGATES[seen.length]? = none) (h : Reserves e.limits q seen owner db db' p) :
      Commits e owner x db (.reading q seen) db' p
  | opens {d : Download} {p : Phase}
      (next : p = .failed ∨ p = .receiving d 0 ∨ p = .releasing d d.reserved) :
      Commits e owner x db (.opening d) db p
  | receives {d : Download} {length : Nat} {receipt : Receipt} (n : Nat)
      (chunk : x = .chunk n) (log : db.downloads[d.log]? = some receipt) :
      Commits e owner x db (.receiving d length)
      { db with downloads := db.downloads.set d.log (receipt.receive n) }
      (if d.reserved < length + n then .failed else .receiving d (length + n))
  | ends {d : Download} {length : Nat} {p : Phase}
      (next : p = .failed ∨ p = .releasing d (d.reserved - length)) :
      Commits e owner x db (.receiving d length) db p
  | releases (d : Download) (bytes : Int) : Commits e owner x db (.releasing d bytes)
      (releaseUnusedDownloadReservation d bytes db) .finished

theorem commits_of_move {phase : Phase} {write : Nat → Input → Db → Option (Db × Phase)}
    {x : Input} (hmove : move e phase = .commit write) (h : write i x db = some (db', p)) :
    Commits e i x db phase db' p := by
  cases phase with
  | reading q seen =>
    simp only [move] at hmove
    split at hmove
    · cases hmove
    · rename_i hdone
      cases hmove
      exact .reserves hdone (reserveUsage_reserves (Option.some.inj h))
  | opening d =>
    cases hmove
    cases x with
    | response contentLength hasBody =>
      simp only [openBody] at h
      split at h
      · cases h
        exact .opens (.inl rfl)
      · split at h
        · cases h
          exact .opens (.inr (.inl rfl))
        · cases h
          exact .opens (.inr (.inr rfl))
    | _ => cases h
  | receiving d length =>
    cases hmove
    cases x with
    | chunk n =>
      obtain ⟨receipt, hreceipt, hnext⟩ := map_eq_some_iff.mp h
      cases hnext
      exact .receives n rfl hreceipt
    | done parses =>
      cases h
      apply Commits.ends
      cases parses
      · exact .inl rfl
      · exact .inr rfl
    | _ => cases h
  | releasing d bytes =>
    cases hmove
    cases h
    exact .releases d bytes
  | _ => cases hmove

/-- A release only lowers what is recorded. -/
theorem releaseUnused_le (d : Download) (bytes : Int) (db : Db) (a : Aggregate) (tenant : Uuid)
    (date : Nat) :
    ((releaseUnusedDownloadReservation d bytes db).usage.aggregate a tenant date).bytes ≤
        (db.usage.aggregate a tenant date).bytes ∧
      ((releaseUnusedDownloadReservation d bytes db).usage.aggregate a tenant date).records ≤
        (db.usage.aggregate a tenant date).records := by
  unfold releaseUnusedDownloadReservation
  split
  · exact ⟨le_refl _, le_refl _⟩
  · exact UsageTable.aggregate_release_le d.tenant d.date (by omega)

/-- What a release does to the receipts it does to its own. -/
theorem releaseUnused_downloads (d : Download) (bytes : Int) (db : Db) {log : Nat}
    (ne : d.log ≠ log) :
    (releaseUnusedDownloadReservation d bytes db).downloads[log]? = db.downloads[log]? := by
  unfold releaseUnusedDownloadReservation
  split
  · rfl
  · simp only
    split
    · split
      · rw [List.getElem?_set_ne ne]
      · rfl
    · rfl

/-- A reservation in another month is not read. -/
theorem reserve_elsewhere {other : Request} (ne : monthOf q.date ≠ monthOf other.date)
    (a : Aggregate) (u : Usage) :
    (db.usage.reserve q.tenant q.date u).aggregate a other.tenant.id other.date =
      db.usage.aggregate a other.tenant.id other.date := by
  rw [UsageTable.aggregate_reserve]
  split
  · rename_i hcovers
    exact absurd (Aggregate.covers_month hcovers) ne
  · rfl

end Steps

/-! ## The workers -/

section Workers

variable {e : Deployment} {db db' : Db} {i j : Nat} {x : Input}

variable {phase p : Phase}

/-- The receipt of one worker stays as it is when another commits. -/
theorem receipt_kept {d : Download} {length : Nat}
    (own : db.downloads[d.log]? = some (d.receipt j length)) (ne : i ≠ j)
    (theirs : Owns db i phase) (h : Commits e i x db phase db' p) :
    db'.downloads[d.log]? = some (d.receipt j length) := by
  have hlog : ∀ (d' : Download) (length' : Nat),
      db.downloads[d'.log]? = some (d'.receipt i length') → d'.log ≠ d.log := by
    intro d' length' htheirs heq
    rw [heq, own] at htheirs
    exact ne (congrArg Receipt.owner (Option.some.inj htheirs)).symm
  cases h with
  | reserves done hres =>
    cases hres with
    | opened d' =>
      have hlt : d.log < db.downloads.length := (List.getElem?_eq_some_iff.mp own).1
      simp only
      rw [getElem?_append_left hlt]
      exact own
    | _ => exact own
  | opens next => exact own
  | receives n chunk log =>
    simp only
    rw [List.getElem?_set_ne (hlog _ _ theirs.1)]
    exact own
  | ends next => exact own
  | releases d' bytes =>
    obtain ⟨length', hknown, _⟩ := theirs
    rw [releaseUnused_downloads d' bytes db (hlog d' _ hknown)]
    exact own

theorem Owns.stable {phase' : Phase} (h : Owns db j phase') (ne : i ≠ j)
    (theirs : Owns db i phase) (hcommit : Commits e i x db phase db' p) : Owns db' j phase' := by
  cases phase' with
  | opening d => exact receipt_kept h ne theirs hcommit
  | receiving d length => exact ⟨receipt_kept h.1 ne theirs hcommit, h.2⟩
  | releasing d bytes =>
    obtain ⟨length, hreceipt, hrest⟩ := h
    exact ⟨length, receipt_kept hreceipt ne theirs hcommit, hrest⟩
  | _ => trivial

variable {t : Session Int Phase}

/-- What was read under the lock of a month bounds what there is, whoever commits. -/
theorem Reads.stable {u : Session Int Phase} (h : Reads e db u) (theirs : Reads e db t)
    (apart : Apart t u) (hcommit : Commits e i x db t.phase db' p) :
    Reads e db' u := by
  unfold Reads at h ⊢
  split at h
  · exact h
  · rename_i q seen hphase
    refine ⟨h.1, h.2.mono ?_⟩
    intro a
    generalize hown : t.phase = phase at hcommit
    cases hcommit with
    | @reserves q' seen' _ _ done hres =>
      have hlock : (monthLock e q'.date, .exclusive) ∈ t.held := by
        unfold Reads at theirs
        rw [hown] at theirs
        exact theirs.1
      have hmonth : monthOf q'.date ≠ monthOf q.date := by
        intro heq
        have hsame : monthLock e q'.date = monthLock e q.date := by
          rw [monthLock, monthLock, heq]
        exact apart.exclusive (hsame ▸ hlock) h.1
      cases hres with
      | refused error => exact ⟨le_refl _, le_refl _⟩
      | charged usage task fits =>
        rw [reserve_elsewhere hmonth]
        exact ⟨le_refl _, le_refl _⟩
      | opened d tenant now log usage fits =>
        rw [reserve_elsewhere hmonth]
        exact ⟨le_refl _, le_refl _⟩
    | releases d bytes => exact releaseUnused_le d bytes db a _ _
    | _ => exact ⟨le_refl _, le_refl _⟩
  · trivial

/-- What a commit leaves its worker with. -/
theorem commits_sound (store : Sound e.limits db) (known : Knows e db i t)
    (hcommit : Commits e i x db t.phase db' p) :
    Sound e.limits db' ∧ Knows e db' i ⟨p, []⟩ := by
  obtain ⟨hreads, howns⟩ := known
  unfold Reads at hreads
  generalize t.phase = phase at hreads howns hcommit
  cases hcommit with
  | reserves done hres =>
    refine ⟨store.reserves hreads.2 done hres, ?_⟩
    cases hres with
    | opened d tenant now log =>
      refine ⟨trivial, ?_⟩
      simp only [Owns, log, List.getElem?_concat_length]
    | _ => exact ⟨trivial, trivial⟩
  | opens next =>
    refine ⟨store, ?_⟩
    rcases next with rfl | rfl | rfl
    · exact ⟨trivial, trivial⟩
    · exact ⟨trivial, howns, Nat.zero_le _⟩
    · exact ⟨trivial, 0, howns, by omega, Nat.zero_le _⟩
  | @receives d length receipt n chunk log =>
    obtain ⟨hreceipt, hle⟩ := howns
    rw [hreceipt] at log
    cases log
    refine ⟨store.receives hreceipt n, ?_⟩
    split
    · exact ⟨trivial, trivial⟩
    · have hlt := (List.getElem?_eq_some_iff.mp hreceipt).1
      refine ⟨trivial, ?_, by omega⟩
      simp only
      rw [List.getElem?_set_self hlt]
      rfl
  | ends next =>
    refine ⟨store, ?_⟩
    rcases next with rfl | rfl
    · exact ⟨trivial, trivial⟩
    · exact ⟨trivial, _, howns.1, by omega, howns.2⟩
  | releases d bytes =>
    obtain ⟨length, hreceipt, hrest, _⟩ := howns
    exact ⟨store.releases hreceipt hrest, trivial, trivial⟩

theorem workersDiscipline (e : Deployment) :
    Discipline (workers e) 0 (Sound e.limits) (Knows e) where
  start {db i p} _ _ hstarts := by
    cases p with
    | starting q => exact ⟨trivial, trivial⟩
    | _ => cases hstarts
  acquire {db i t lock mode next} _ known hmove := by
    obtain ⟨phase, held⟩ := t
    cases phase with
    | starting q =>
      cases hmove
      exact ⟨mem_cons_self, trivial⟩
    | lockingDay q =>
      cases hmove
      refine ⟨⟨mem_cons_of_mem _ known.reads, rfl, ?_⟩, trivial⟩
      intro s hs
      cases hs
    | reading q seen =>
      simp only [workers, move] at hmove
      split at hmove <;> cases hmove
    | _ => cases hmove
  observe {db i t next} _ known hmove := by
    obtain ⟨phase, held⟩ := t
    cases phase with
    | reading q seen =>
      simp only [workers, move] at hmove
      split at hmove
      · rename_i a hnext
        cases hmove
        obtain ⟨hlock, hfst, hseen⟩ := known.reads
        refine ⟨⟨hlock, ?_, ?_⟩, trivial⟩
        · rw [map_append, hfst, length_append, length_singleton,
            take_add_one, hnext]
          rfl
        · intro s hs
          rcases mem_append.mp hs with hs | hs
          · exact hseen s hs
          · rw [mem_singleton.mp hs, UsageTable.read_eq]
            exact ⟨le_refl _, le_refl _⟩
      · cases hmove
    | _ => cases hmove
  commit store known hmove hwrite := commits_sound store known (commits_of_move hmove hwrite)
  stable _ known hmove hwrite ne other apart :=
    ⟨other.reads.stable known.reads apart (commits_of_move hmove hwrite),
      other.owns.stable ne known.owns (commits_of_move hmove hwrite)⟩
  abort _ _ := ⟨trivial, trivial⟩

/-- No body brought more than was reserved for it. -/
def Fits (db : Db) : Prop := ∀ r ∈ db.downloads, r.received ≤ r.reserved

theorem commits_fits (fits : Fits db) (own : Owns db i phase)
    (meets : ∀ d length n, phase = .receiving d length → x = .chunk n → length + n ≤ d.reserved)
    (hcommit : Commits e i x db phase db' p) : Fits db' := by
  cases hcommit with
  | reserves done hres =>
    cases hres with
    | opened d =>
      exact forall_mem_append.mpr ⟨fits, forall_mem_singleton.mpr (Nat.zero_le _)⟩
    | _ => exact fits
  | opens next => exact fits
  | @receives d length receipt n chunk log =>
    rw [own.1] at log
    cases log
    intro r hr
    rcases mem_or_eq_of_mem_set hr with hr | rfl
    · exact fits r hr
    · exact meets d length n rfl chunk
  | ends next => exact fits
  | releases d bytes =>
    obtain ⟨length, hreceipt, _, hle⟩ := own
    unfold releaseUnusedDownloadReservation
    split
    · exact fits
    · rw [hreceipt]
      intro r hr
      simp only at hr
      split at hr
      · rcases mem_or_eq_of_mem_set hr with hr | rfl
        · exact fits r hr
        · exact hle
      · exact fits r hr

/-- No chunk takes a body past what was reserved for it. -/
def Meets (s : State Int Db Phase) : Action Phase Input → Bool
  | .advance i (.chunk n) =>
    match s.sessions[i]? with
    | some ⟨.receiving d length, _⟩ => decide (length + n ≤ d.reserved)
    | _ => true
  | _ => true

variable {s s' : State Int Db Phase} {a : Action Phase Input}

theorem step_fits (h : Holds 0 (Sound e.limits) (Knows e) s) (fits : Fits s.db)
    (meets : Meets s a = true) (hstep : step (workers e) s a = some s') : Fits s'.db := by
  cases a with
  | start p =>
    simp only [step] at hstep
    split at hstep
    · cases hstep
      exact fits
    · cases hstep
  | advance i x =>
    obtain ⟨t, ht, hmove⟩ := bind_eq_some_iff.mp hstep
    split at hmove
    · split at hmove
      · cases hmove
        exact fits
      · cases hmove
    · cases hmove
      exact fits
    · rename_i write hwrite
      obtain ⟨⟨db, p⟩, hdb, rfl⟩ := map_eq_some_iff.mp hmove
      apply commits_fits fits (h.known i t ht).owns _ (commits_of_move hwrite hdb)
      rintro d length n hphase rfl
      obtain ⟨phase, held⟩ := t
      cases hphase
      simpa [Meets, ht] using meets
    · cases hmove
  | abort i =>
    obtain ⟨t, _, rfl⟩ := map_eq_some_iff.mp hstep
    exact fits

/-- The bytes that were read under the reservations of a day. -/
def downloaded (db : Db) (tenant : Uuid) (date : Nat) : Int :=
  total (Receipt.of tenant date) (fun r => r.received) db.downloads

/-- What is recorded for a day covers what was read, when no body brought too much. -/
theorem Sound.downloaded_le {l : Limits} (h : Sound l db) (fits : Fits db) (tenant : Uuid)
    (date : Nat) : downloaded db tenant date ≤ (db.usage.read .tenantDay tenant date).bytes := by
  have hkept : ∀ r ∈ db.downloads, (r.received : Int) ≤ r.kept := by
    intro r hr
    have hfit := fits r hr
    have hcovered := (h.receipts r hr).covered
    unfold Receipt.kept
    omega
  rw [UsageTable.read_eq]
  exact (total_le_total hkept).trans (h.kept tenant date)

end Workers

/-- The limits hold in every run, nothing recorded is negative, and while no chunk takes a body
past its reservation what is recorded for a day covers what was read. -/
theorem budget_holds (e : Deployment) (usage : UsageTable) (within : Within e.limits usage)
    (nonNegative : usage.NonNegative) (as : List (Action Phase Input)) (s : State Int Db Phase)
    (run : Runs.run (step (workers e)) ⟨⟨usage, []⟩, []⟩ as = some s) :
    Within e.limits s.db.usage ∧ s.db.usage.NonNegative ∧
      (Runs.Along (step (workers e)) (fun s a => Meets s a = true) ⟨⟨usage, []⟩, []⟩ as →
        ∀ tenant date,
          downloaded s.db tenant date ≤ (s.db.usage.read .tenantDay tenant date).bytes) := by
  have hstart : Sound e.limits ⟨usage, []⟩ := by
    refine ⟨within, nonNegative, ?_, nofun⟩
    intro tenant date
    exact total_nonneg fun r hr => (nonNegative r hr).1
  have hinit : Holds 0 (Sound e.limits) (Knows e) ⟨⟨usage, []⟩, []⟩ := holds_initial hstart
  have hholds := run_holds (workersDiscipline e) hinit run
  refine ⟨hholds.store.within, hholds.store.nonNegative, ?_⟩
  intro meets tenant date
  have hboth := Runs.invariant_along
    (I := fun s => Holds 0 (Sound e.limits) (Knows e) s ∧ Fits s.db)
    (fun _ _ _ h meets hstep => ⟨step_holds (workersDiscipline e) h.1 hstep,
      step_fits h.1 h.2 meets hstep⟩) ⟨hinit, nofun⟩ meets run
  exact hholds.store.downloaded_le hboth.2 tenant date

/-! ## Samples -/

namespace Sample

def MEGABYTE : Nat := 1024 * 1024

def deployment : Deployment where
  limits := ⟨50 * MEGABYTE, 100 * MEGABYTE, 1000 * MEGABYTE, 2000 * MEGABYTE, 1000, 2000, 20000,
    40000⟩
  hashtext s := s.length

theorem tenant_isUuid : isUuid (js "0b000000-0000-4000-8000-000000000001") = true := by decide

theorem organization_isUuid :
    isUuid (js "0a000000-0000-4000-8000-000000000001") = true := by decide

def tenant : TenantTarget := ⟨⟨_, tenant_isUuid⟩, ⟨_, organization_isUuid⟩⟩

/-- A quarter of a megabyte is left in the run. -/
def request : Request := ⟨tenant, .download (10 * MEGABYTE) (256 * 1024), 1709164800000⟩

/-- The locks, the four reads and the upsert. -/
def reservation : List (Action Phase Input) :=
  .start (.starting request) :: List.replicate 7 (.advance 0 (.done true))

/-- A body without a declared length, in chunks. -/
def body (chunks : Nat) : List (Action Phase Input) :=
  .advance 0 (.response (.finite 0) true) ::
    List.replicate chunks (.advance 0 (.chunk 65536))

def release : List (Action Phase Input) := List.replicate 2 (.advance 0 (.done true))

end Sample

open Sample in
/-- A body of three chunks under a reservation for four. -/
theorem budget_holds_read : ∃ s,
    Runs.run (step (workers deployment)) ⟨⟨.empty, []⟩, []⟩ (reservation ++ body 3 ++ release) =
      some s ∧
    (s.db.usage.read .tenantDay tenant.id 19782).bytes = 3 * 65536 ∧
    downloaded s.db tenant.id 19782 ≤ (s.db.usage.read .tenantDay tenant.id 19782).bytes := by
  refine ⟨_, rfl, by decide +kernel, ?_⟩
  exact (budget_holds deployment .empty (within_empty _) nofun (reservation ++ body 3 ++ release) _
    rfl).2.2 (by decide +kernel) tenant.id 19782

open Sample in
/-- The fifth chunk is read before the body is given up. -/
theorem oversized_body_unrecorded : ¬ ∀ (e : Deployment) (usage : UsageTable)
    (_ : Within e.limits usage) (_ : usage.NonNegative) (as : List (Action Phase Input))
    (s : State Int Db Phase),
    Runs.run (step (workers e)) ⟨⟨usage, []⟩, []⟩ as = some s → ∀ tenant date,
      downloaded s.db tenant date ≤ (s.db.usage.read .tenantDay tenant date).bytes := by
  intro h
  have hrun : ∃ s, Runs.run (step (workers deployment)) ⟨⟨.empty, []⟩, []⟩
      (reservation ++ body 5) = some s ∧ downloaded s.db tenant.id 19782 = 5 * 65536 ∧
      (s.db.usage.read .tenantDay tenant.id 19782).bytes = 4 * 65536 :=
    ⟨_, rfl, by decide +kernel, by decide +kernel⟩
  obtain ⟨s, hs, hread, hrecorded⟩ := hrun
  have hle := h deployment .empty (within_empty _) nofun _ s hs tenant.id 19782
  omega

end AuditUsage
