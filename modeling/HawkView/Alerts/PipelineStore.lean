import HawkView.Alerts.FindingPipeline
import HawkView.Alerts.SendSystem

/-!
# The pipeline store

The four tables that `commit` writes, in one transaction, and the reads of the
incidents and of the notices that were decided before. A notice row yields to
the row of the other table that already stands for its key.
-/

namespace PipelineStore

open IncidentKey SendTables FindingPipeline Option

structure IncidentRow where
  organizationId : Uuid
  incidentKey : JsString
  alertTypeId : JsString
  ownership : Ownership
  condition : Condition
  investigation : Investigation
  ownershipAt : Micros
  conditionAt : Micros
  investigationAt : Micros
  deriving DecidableEq

/-- A scoped key: the unique index of the incidents and of both notice tables. -/
abbrev ScopedKey := Uuid × JsString

def IncidentRow.key (r : IncidentRow) : ScopedKey := (r.organizationId, r.incidentKey)

structure NotificationRow where
  organizationId : Uuid
  customerTenantId : Option Uuid
  eventType : JsString
  category : JsString
  severity : JsString
  title : JsString
  description : JsString
  dedupeKey : JsString
  source : JsString
  incidentKey : Option JsString
  alertTypeId : Option JsString
  occurrenceCount : Nat
  firstOccurredAt : Micros
  lastOccurredAt : Micros
  deriving DecidableEq

def NotificationRow.key (r : NotificationRow) : ScopedKey := (r.organizationId, r.dedupeKey)

structure WithheldRow where
  organizationId : Uuid
  dedupeKey : JsString
  alertTypeId : JsString
  findingId : Uuid
  because : WithheldBecause
  deriving DecidableEq

def WithheldRow.key (r : WithheldRow) : ScopedKey := (r.organizationId, r.dedupeKey)

/-- A table whose only constraint is a unique index. -/
def uniqueOn {Row : Type} (key : Row → ScopedKey) : Sql.Schema Row where
  check _ := true
  clash a b := key a == key b

structure PipelineTables where
  incidents : Sql.Table (uniqueOn IncidentRow.key)
  notifications : Sql.Table (uniqueOn NotificationRow.key)
  withheld : Sql.Table (uniqueOn WithheldRow.key)
  jobs : Sql.Table JobRow.schema

namespace PipelineTables

variable (t : PipelineTables)

def empty : PipelineTables := ⟨.empty, .empty, .empty, .empty⟩

def incident (k : ScopedKey) : Option IncidentRow := t.incidents.find IncidentRow.key k

def notification (k : ScopedKey) : Option NotificationRow :=
  t.notifications.find NotificationRow.key k

def withheldNotice (k : ScopedKey) : Option WithheldRow := t.withheld.find WithheldRow.key k

def job (m : MessageId) : Option JobRow := t.jobs.find JobRow.messageId m

end PipelineTables

/-! ## The rows of a decision -/

def NotificationCategory.text : NotificationCategory → JsString
  | .error => js "error"
  | .warning => js "warning"
  | .info => js "info"

def NotificationSeverity.text : NotificationSeverity → JsString
  | .critical => js "critical"
  | .high => js "high"
  | .info => js "info"

def incidentRow (w : IncidentWrite) : IncidentRow where
  organizationId := w.organizationId
  incidentKey := w.incidentKey
  alertTypeId := w.alertTypeId.text
  ownership := w.ownership
  condition := w.condition
  investigation := w.investigation
  ownershipAt := timestamptz w.atIso
  conditionAt := timestamptz w.atIso
  investigationAt := timestamptz w.atIso

def notificationRow (w : NotificationWrite) : NotificationRow where
  organizationId := w.organizationId
  customerTenantId := some w.customerTenantId
  eventType := w.eventType.text
  category := NotificationCategory.text w.category
  severity := NotificationSeverity.text w.severity
  title := w.title
  description := w.description
  dedupeKey := w.dedupeKey
  source := js "identity-risk"
  incidentKey := some w.incidentKey
  alertTypeId := some w.alertTypeId.text
  occurrenceCount := 1
  firstOccurredAt := timestamptz w.atIso
  lastOccurredAt := timestamptz w.atIso

def withheldRow (w : WithheldNoticeWrite) : WithheldRow where
  organizationId := w.organizationId
  dedupeKey := w.dedupeKey
  alertTypeId := w.alertTypeId.text
  findingId := w.findingId
  because := w.because

def newJob (createdAt : Micros) (w : SendJobWrite) : SendSystem.NewJob where
  messageId := w.messageId
  idempotencyKey := w.idempotencyKey
  maxAttempts := w.maxAttempts
  notBeforeAt := timestamptz w.notBeforeIso
  createdAt := createdAt

/-! ## The transaction -/

def insertIncident (t : PipelineTables) (w : IncidentWrite) : Option PipelineTables :=
  (t.incidents.insertNew IncidentRow.key (incidentRow w)).map fun incidents =>
    { t with incidents := incidents }

/-- `INSERT … WHERE NOT EXISTS` a withheld notice `ON CONFLICT DO NOTHING`. -/
def insertNotification (t : PipelineTables) (w : NotificationWrite) : Option PipelineTables :=
  if (t.withheldNotice (w.organizationId, w.dedupeKey)).isSome then some t
  else
    (t.notifications.insertNew NotificationRow.key (notificationRow w)).map fun notifications =>
      { t with notifications := notifications }

def insertJob (createdAt : Micros) (t : PipelineTables) (w : SendJobWrite) :
    Option PipelineTables :=
  (t.jobs.insertNew JobRow.messageId (newJob createdAt w).row).map fun jobs =>
    { t with jobs := jobs }

/-- `INSERT … WHERE NOT EXISTS` a notification `ON CONFLICT DO NOTHING`. -/
def insertWithheld (t : PipelineTables) (w : WithheldNoticeWrite) : Option PipelineTables :=
  if (t.notification (w.organizationId, w.dedupeKey)).isSome then some t
  else
    (t.withheld.insertNew WithheldRow.key (withheldRow w)).map fun withheld =>
      { t with withheld := withheld }

structure Written where
  incidentsWritten : Nat
  notificationsWritten : Nat
  jobsWritten : Nat
  noticesWithheld : Nat
  deriving DecidableEq, Repr

/-- The rows that a transaction added. -/
def writtenBy (t t' : PipelineTables) : Written where
  incidentsWritten := t'.incidents.rows.length - t.incidents.rows.length
  notificationsWritten := t'.notifications.rows.length - t.notifications.rows.length
  jobsWritten := t'.jobs.rows.length - t.jobs.rows.length
  noticesWithheld := t'.withheld.rows.length - t.withheld.rows.length

/-- What the database does with a transaction: it may fail as a whole. -/
structure TransactionAnswer where
  fails : Bool
  error : JsString
  createdAt : Micros

def writeAll (createdAt : Micros) (t : PipelineTables) (d : PipelineDecision) :
    Option PipelineTables := do
  let t ← d.incidents.foldlM insertIncident t
  let t ← d.notifications.foldlM insertNotification t
  let t ← d.jobs.foldlM (insertJob createdAt) t
  d.withheld.foldlM insertWithheld t

def commit (t : PipelineTables) (answer : TransactionAnswer) (d : PipelineDecision) :
    Except JsString (PipelineTables × Written) :=
  if d.incidents.isEmpty ∧ d.notifications.isEmpty ∧ d.jobs.isEmpty ∧ d.withheld.isEmpty then
    .ok (t, ⟨0, 0, 0, 0⟩)
  else if answer.fails then .error answer.error
  else
    match writeAll answer.createdAt t d with
    | none => .error answer.error
    | some t' => .ok (t', writtenBy t t')

/-! ## What a transaction does -/

def IncidentWrite.key (w : IncidentWrite) : ScopedKey := (w.organizationId, w.incidentKey)

def NotificationWrite.key (w : NotificationWrite) : ScopedKey := (w.organizationId, w.dedupeKey)

def WithheldNoticeWrite.key (w : WithheldNoticeWrite) : ScopedKey :=
  (w.organizationId, w.dedupeKey)

/-- The rows of every key after a transaction. A key keeps the row it has, and gets at most
one of the two notices. -/
structure Committed (t : PipelineTables) (createdAt : Micros) (d : PipelineDecision)
    (t' : PipelineTables) : Prop where
  incidents : ∀ k, t'.incident k = (t.incident k).or
    ((d.incidents.find? (IncidentWrite.key · = k)).map incidentRow)
  notifications : ∀ k, t'.notification k = (t.notification k).or
    (if (t.withheldNotice k).isNone then
      (d.notifications.find? (NotificationWrite.key · = k)).map notificationRow else none)
  jobs : ∀ m, t'.job m = (t.job m).or
    ((d.jobs.find? (·.messageId = m)).map fun w => (newJob createdAt w).row)
  withheld : ∀ k, t'.withheldNotice k = (t.withheldNotice k).or
    (if (t'.notification k).isNone then
      (d.withheld.find? (WithheldNoticeWrite.key · = k)).map withheldRow else none)

section Rules

variable {t t' : PipelineTables} {createdAt : Micros}

theorem insertIncidents_spec {ws : List IncidentWrite} (h : ws.foldlM insertIncident t = some t') :
    (t'.notifications, t'.withheld, t'.jobs) = (t.notifications, t.withheld, t.jobs) ∧
    ∀ k, t'.incident k = (t.incident k).or
      ((ws.find? (IncidentWrite.key · = k)).map incidentRow) := by
  refine Sql.foldlM_view (fun t => (t.notifications, t.withheld, t.jobs))
    PipelineTables.incident (fun _ _ => true) ?_ h
  intro t w t' h
  simp only [insertIncident, map_eq_some_iff] at h
  obtain ⟨incidents, hinsert, rfl⟩ := h
  refine ⟨rfl, fun k => ?_⟩
  simp only [PipelineTables.incident, Sql.Table.find_insertNew hinsert, true_and]
  rfl

theorem insertNotifications_spec {ws : List NotificationWrite}
    (h : ws.foldlM insertNotification t = some t') :
    (t'.incidents, t'.withheld, t'.jobs) = (t.incidents, t.withheld, t.jobs) ∧
    ∀ k, t'.notification k = (t.notification k).or (if (t.withheldNotice k).isNone then
      (ws.find? (NotificationWrite.key · = k)).map notificationRow else none) := by
  refine Sql.foldlM_view (fun t => (t.incidents, t.withheld, t.jobs)) PipelineTables.notification
    (fun f k => (f.2.1.find WithheldRow.key k).isNone) ?_ h
  intro t w t' h
  simp only [insertNotification] at h
  split at h
  · next hwithheld =>
    cases h
    exact ⟨rfl, fun k => Sql.Table.find_unless NotificationRow.key (notificationRow w)
      (fun k => (t.withheldNotice k).isNone) (.inl ⟨isNone_eq_false_iff.mpr hwithheld, rfl⟩)⟩
  · next hwithheld =>
    obtain ⟨notifications, hinsert, rfl⟩ := map_eq_some_iff.mp h
    exact ⟨rfl, fun k => Sql.Table.find_unless NotificationRow.key (notificationRow w)
      (fun k => (t.withheldNotice k).isNone)
        (.inr ⟨isNone_iff_eq_none.mpr (not_isSome_iff_eq_none.mp hwithheld), hinsert⟩)⟩

variable {ws : List SendJobWrite}

theorem insertJobs_spec (h : ws.foldlM (insertJob createdAt) t = some t') :
    (t'.incidents, t'.notifications, t'.withheld) = (t.incidents, t.notifications, t.withheld) ∧
    ∀ m, t'.job m = (t.job m).or
      ((ws.find? (·.messageId = m)).map fun w => (newJob createdAt w).row) := by
  refine Sql.foldlM_view (fun t => (t.incidents, t.notifications, t.withheld))
    PipelineTables.job (fun _ _ => true) ?_ h
  intro t w t' h
  simp only [insertJob, map_eq_some_iff] at h
  obtain ⟨jobs, hinsert, rfl⟩ := h
  refine ⟨rfl, fun m => ?_⟩
  simp only [PipelineTables.job, Sql.Table.find_insertNew hinsert, true_and]
  rfl

theorem insertWithheld_spec {ws : List WithheldNoticeWrite}
    (h : ws.foldlM insertWithheld t = some t') :
    (t'.incidents, t'.notifications, t'.jobs) = (t.incidents, t.notifications, t.jobs) ∧
    ∀ k, t'.withheldNotice k = (t.withheldNotice k).or (if (t.notification k).isNone then
      (ws.find? (WithheldNoticeWrite.key · = k)).map withheldRow else none) := by
  refine Sql.foldlM_view (fun t => (t.incidents, t.notifications, t.jobs))
    PipelineTables.withheldNotice (fun f k => (f.2.1.find NotificationRow.key k).isNone) ?_ h
  intro t w t' h
  simp only [insertWithheld] at h
  split at h
  · next hnotified =>
    cases h
    exact ⟨rfl, fun k => Sql.Table.find_unless WithheldRow.key (withheldRow w)
      (fun k => (t.notification k).isNone) (.inl ⟨isNone_eq_false_iff.mpr hnotified, rfl⟩)⟩
  · next hnotified =>
    obtain ⟨withheld, hinsert, rfl⟩ := map_eq_some_iff.mp h
    exact ⟨rfl, fun k => Sql.Table.find_unless WithheldRow.key (withheldRow w)
      (fun k => (t.notification k).isNone)
        (.inr ⟨isNone_iff_eq_none.mpr (not_isSome_iff_eq_none.mp hnotified), hinsert⟩)⟩

theorem writeAll_spec {d : PipelineDecision} (h : writeAll createdAt t d = some t') :
    Committed t createdAt d t' := by
  simp only [writeAll, bind_eq_bind, bind_eq_some_iff] at h
  obtain ⟨t₁, h₁, t₂, h₂, t₃, h₃, h₄⟩ := h
  obtain ⟨frame₁, incidents⟩ := insertIncidents_spec h₁
  obtain ⟨frame₂, notifications⟩ := insertNotifications_spec h₂
  obtain ⟨frame₃, jobs⟩ := insertJobs_spec h₃
  obtain ⟨frame₄, withheld⟩ := insertWithheld_spec h₄
  simp only [Prod.mk.injEq] at frame₁ frame₂ frame₃ frame₄
  have hincidents : t'.incidents = t₁.incidents := by rw [frame₄.1, frame₃.1, frame₂.1]
  have hnotifications : t'.notifications = t₂.notifications := by rw [frame₄.2.1, frame₃.2.1]
  have hwithheld : t₃.withheld = t.withheld := by rw [frame₃.2.2, frame₂.2.1, frame₁.2.1]
  have hwithheld₁ : t₁.withheld = t.withheld := frame₁.2.1
  have hjobs : t₂.jobs = t.jobs := by rw [frame₂.2.2, frame₁.2.2]
  refine ⟨fun k => ?_, fun k => ?_, fun m => ?_, fun k => ?_⟩
  · rw [← incidents k, PipelineTables.incident, hincidents]
    rfl
  · have h := notifications k
    simp only [PipelineTables.notification, PipelineTables.withheldNotice, hwithheld₁,
      frame₁.1] at h
    simpa only [PipelineTables.notification, PipelineTables.withheldNotice, hnotifications]
  · have h := jobs m
    simp only [PipelineTables.job, hjobs] at h
    simpa only [PipelineTables.job, frame₄.2.2]
  · have h := withheld k
    simp only [PipelineTables.notification, PipelineTables.withheldNotice, hwithheld] at h
    simpa only [PipelineTables.notification, PipelineTables.withheldNotice, frame₄.2.1]

variable {Row : Type}

theorem uniqueOn_keyed (key : Row → ScopedKey) : Sql.Keyed (uniqueOn key) key := by
  intro a b h
  simp [uniqueOn, h]

theorem uniqueOn_only (key : Row → ScopedKey) (a b : Row) (h : (uniqueOn key).clash a b = true) :
    key a = key b := by
  simpa [uniqueOn] using h

theorem insertIncident_total (t : PipelineTables) (w : IncidentWrite) :
    ∃ t', insertIncident t w = some t' := by
  obtain ⟨s, hs⟩ := t.incidents.insertNew_total (r := incidentRow w) (uniqueOn_only _) rfl
  exact ⟨{ t with incidents := s }, by rw [insertIncident, hs, map_some]⟩

theorem insertNotification_total (t : PipelineTables) (w : NotificationWrite) :
    ∃ t', insertNotification t w = some t' := by
  obtain ⟨s, hs⟩ := t.notifications.insertNew_total (r := notificationRow w) (uniqueOn_only _) rfl
  simp only [insertNotification]
  split
  · exact ⟨t, rfl⟩
  · exact ⟨{ t with notifications := s }, by rw [hs, map_some]⟩

theorem insertWithheld_total (t : PipelineTables) (w : WithheldNoticeWrite) :
    ∃ t', insertWithheld t w = some t' := by
  obtain ⟨s, hs⟩ := t.withheld.insertNew_total (r := withheldRow w) (uniqueOn_only _) rfl
  simp only [insertWithheld]
  split
  · exact ⟨t, rfl⟩
  · exact ⟨{ t with withheld := s }, by rw [hs, map_some]⟩

/-- A job of a decision may be tried once or more. -/
def Tryable (d : PipelineDecision) : Prop := ∀ w ∈ d.jobs, 1 ≤ w.maxAttempts

theorem newJob_check (createdAt : Micros) {w : SendJobWrite} (h : 1 ≤ w.maxAttempts) :
    (newJob createdAt w).row.check = true := by
  simp [newJob, SendSystem.NewJob.row, JobRow.check, allOrNone, h]

theorem insertJobs_total (createdAt : Micros) (h : ∀ w ∈ ws, 1 ≤ w.maxAttempts)
    (t : PipelineTables) : ∃ t', ws.foldlM (insertJob createdAt) t = some t' := by
  induction ws generalizing t with
  | nil => exact ⟨t, rfl⟩
  | cons w ws ih =>
    have honly : ∀ a b, JobRow.schema.clash a b = true → a.messageId = b.messageId := by
      intro a b hclash
      simpa [JobRow.schema] using hclash
    obtain ⟨s, hs⟩ := t.jobs.insertNew_total honly
      (newJob_check createdAt (h w (List.mem_cons_self ..)))
    obtain ⟨t', ht'⟩ := ih (fun w hw => h w (List.mem_cons_of_mem _ hw)) { t with jobs := s }
    have hw : insertJob createdAt t w = some { t with jobs := s } := by
      rw [insertJob, hs, map_some]
    exact ⟨t', by simp [hw, ht']⟩

theorem writeAll_total (createdAt : Micros) (t : PipelineTables) {d : PipelineDecision}
    (tryable : Tryable d) : ∃ t', writeAll createdAt t d = some t' := by
  obtain ⟨t₁, h₁⟩ := Sql.foldlM_total insertIncident_total d.incidents t
  obtain ⟨t₂, h₂⟩ := Sql.foldlM_total insertNotification_total d.notifications t₁
  obtain ⟨t₃, h₃⟩ := insertJobs_total createdAt tryable t₂
  obtain ⟨t₄, h₄⟩ := Sql.foldlM_total insertWithheld_total d.withheld t₃
  exact ⟨t₄, by simp [writeAll, h₁, h₂, h₃, h₄]⟩

variable {answer : TransactionAnswer} {d : PipelineDecision} {written : Written}

theorem commit_spec (h : commit t answer d = .ok (t', written)) :
    Committed t answer.createdAt d t' := by
  simp only [commit, List.isEmpty_iff] at h
  split at h
  · next hempty =>
    cases h
    obtain ⟨hincidents, hnotifications, hjobs, hwithheld⟩ := hempty
    constructor <;> intro k <;> simp [hincidents, hnotifications, hjobs, hwithheld]
  · split at h
    · cases h
    · split at h
      · cases h
      · next hwrite =>
        cases h
        exact writeAll_spec hwrite

/-- A transaction fails only when the database says so. -/
theorem commit_total (tryable : Tryable d) (answer : TransactionAnswer)
    (h : answer.fails = false) (t : PipelineTables) :
    ∃ t' written, commit t answer d = .ok (t', written) := by
  obtain ⟨t', ht'⟩ := writeAll_total answer.createdAt t tryable
  simp only [commit, h, ht']
  split
  · exact ⟨t, _, rfl⟩
  · exact ⟨t', _, rfl⟩

end Rules

/-- No table holds two rows of one key. -/
structure Undoubled (t : PipelineTables) : Prop where
  incidents : (t.incidents.rows.map IncidentRow.key).Nodup
  notifications : (t.notifications.rows.map NotificationRow.key).Nodup
  withheld : (t.withheld.rows.map WithheldRow.key).Nodup
  jobs : (t.jobs.rows.map JobRow.messageId).Nodup

theorem undoubled (t : PipelineTables) : Undoubled t where
  incidents := Sql.Table.keys_distinct (uniqueOn_keyed _) t.incidents.distinct
  notifications := Sql.Table.keys_distinct (uniqueOn_keyed _) t.notifications.distinct
  withheld := Sql.Table.keys_distinct (uniqueOn_keyed _) t.withheld.distinct
  jobs := Sql.Table.keys_distinct jobs_keyed t.jobs.distinct

/-! ## The reads -/

def findExistingIncidents (t : PipelineTables) (organizationIds : List Uuid) :
    List ExistingIncident :=
  (t.incidents.rows.filter fun r => r.organizationId ∈ organizationIds).map fun r =>
    ⟨r.organizationId, r.incidentKey⟩

/-- The union of the two tables that record a decision, for the keys asked about. -/
def findDecidedNoticeKeys (t : PipelineTables) (organizationIds : List Uuid)
    (dedupeKeys : List JsString) : List JsString :=
  let asked (k : ScopedKey) : Bool := k.1 ∈ organizationIds ∧ k.2 ∈ dedupeKeys
  (((t.notifications.rows.map NotificationRow.key).filter asked) ++
    ((t.withheld.rows.map WithheldRow.key).filter asked)).map fun k => scopedNoticeKey k.1 k.2

variable {t : PipelineTables} {organizationIds : List Uuid}

theorem mem_findExistingIncidents {each : ExistingIncident} :
    each ∈ findExistingIncidents t organizationIds ↔
      each.organizationId ∈ organizationIds ∧
      (t.incident (each.organizationId, each.incidentKey)).isSome := by
  simp only [findExistingIncidents, List.mem_map, List.mem_filter, decide_eq_true_eq,
    PipelineTables.incident, Sql.Table.find_isSome, IncidentRow.key, Prod.mk.injEq]
  constructor
  · rintro ⟨r, ⟨hr, horganization⟩, rfl⟩
    exact ⟨horganization, r, hr, rfl, rfl⟩
  · rintro ⟨horganization, r, hr, hid, hkey⟩
    refine ⟨r, ⟨hr, ?_⟩, ?_⟩
    · rwa [hid]
    · rw [hid, hkey]

theorem mem_findDecidedNoticeKeys {dedupeKeys : List JsString} {a : Uuid} {key : JsString} :
    scopedNoticeKey a key ∈ findDecidedNoticeKeys t organizationIds dedupeKeys ↔
      (a ∈ organizationIds ∧ key ∈ dedupeKeys) ∧
      ((t.notification (a, key)).isSome ∨ (t.withheldNotice (a, key)).isSome) := by
  simp only [findDecidedNoticeKeys, List.mem_map, List.mem_append, List.mem_filter,
    decide_eq_true_eq, PipelineTables.notification, PipelineTables.withheldNotice,
    Sql.Table.find_isSome]
  constructor
  · rintro ⟨k, hk, hscope⟩
    obtain ⟨rfl, rfl⟩ := scopedText_injective hscope
    obtain ⟨⟨r, hr, rfl⟩, hasked⟩ | ⟨⟨r, hr, rfl⟩, hasked⟩ := hk
    · exact ⟨hasked, .inl ⟨r, hr, rfl⟩⟩
    · exact ⟨hasked, .inr ⟨r, hr, rfl⟩⟩
  · rintro ⟨hasked, ⟨r, hr, hkey⟩ | ⟨r, hr, hkey⟩⟩
    · exact ⟨(a, key), .inl ⟨⟨r, hr, hkey⟩, hasked⟩, rfl⟩
    · exact ⟨(a, key), .inr ⟨⟨r, hr, hkey⟩, hasked⟩, rfl⟩

end PipelineStore
