import HawkView.Alerts.Reconciliation
import HawkView.Lib.Runs

/-!
# The report accounts for every row

Each pass is followed from one prefix of the rows to the next: what it counts
is what the rows hold, and the bucket of a key is made of the rows of that key.
The episodes of a bucket are its bursts, so an ordinal names a burst.
-/

namespace ReconciliationSound

open AlertEpisode AlertKeys FindingPipeline IncidentKey Reconciliation List Option

variable {rows : List ExistingAlertRow} {row : ExistingAlertRow}

/-! ## What is counted of every row -/

structure Counted (rows : List ExistingAlertRow) (counts : RowCounts) : Prop where
  times : counts.rowsWithTime + counts.rowsWithoutTimeByRow = rows.length
  occurrences : counts.occurrences = (rows.map ExistingAlertRow.occurrenceCount).sum

theorem counted (rows : List ExistingAlertRow) :
    Counted rows (rows.foldl RowCounts.read .start) := by
  apply Runs.foldl_carries ⟨rfl, rfl⟩
  intro rows row counts h
  have htimes := h.times
  constructor
  · simp only [RowCounts.read, length_append, length_singleton]
    split <;> omega
  · simp [RowCounts.read, h.occurrences]

/-! ## The mapping -/

/-- The incident of a row, when its type and subject are known. -/
def declaredKey (row : ExistingAlertRow) : Option JsString :=
  (declarationOf row).bind fun declaration =>
    match groupingFor row declaration (declaredSubject declaration.id) with
    | .groups key => some key
    | .alone _ _ => none

structure MapsTo (row : ExistingAlertRow) (entry : MappingEntry) : Prop where
  notificationId : entry.notificationId = row.id
  dedupeKey : entry.dedupeKey = row.dedupeKey
  occurrenceCount : entry.occurrenceCount = row.occurrenceCount
  incidentKey : entry.incidentKey = declaredKey row

structure MappedFrom (rows : List ExistingAlertRow) (mapped : Mapped) : Prop where
  entries : List.Forall₂ MapsTo rows mapped.mapping
  typed : mapped.withDeterminedType + mapped.needingClassification = rows.length
  resolved : mapped.declaredResolved + mapped.unattributed = mapped.withDeterminedType

theorem read_mapped {mapped : Mapped} (h : MappedFrom rows mapped) (row : ExistingAlertRow) :
    MappedFrom (rows ++ [row]) (mapped.read row) := by
  have htyped := h.typed
  have hresolved := h.resolved
  have happend : ∀ entry, MapsTo row entry →
      Forall₂ MapsTo (rows ++ [row]) (mapped.mapping ++ [entry]) :=
    fun entry hentry => rel_append h.entries (.cons hentry .nil)
  unfold Mapped.read
  cases hdeclaration : declarationOf row with
  | none =>
    refine ⟨happend _ ⟨rfl, rfl, rfl, by simp [declaredKey, hdeclaration]⟩, ?_, hresolved⟩
    simp only [length_append, length_singleton]
    omega
  | some declaration =>
    cases hgrouping : groupingFor row declaration (declaredSubject declaration.id) with
    | groups key =>
      simp only [hgrouping]
      refine ⟨happend _ ⟨rfl, rfl, rfl, by simp [declaredKey, hdeclaration, hgrouping]⟩, ?_, ?_⟩
      · simp only [length_append, length_singleton]
        omega
      · change mapped.declaredResolved + 1 + mapped.unattributed = _ + 1
        omega
    | alone because why =>
      simp only [hgrouping]
      refine ⟨happend _ ⟨rfl, rfl, rfl, by simp [declaredKey, hdeclaration, hgrouping]⟩, ?_, ?_⟩
      · simp only [length_append, length_singleton]
        omega
      · change mapped.declaredResolved + (mapped.unattributed + 1) = _ + 1
        omega

theorem mappedFrom (rows : List ExistingAlertRow) :
    MappedFrom rows (rows.foldl Mapped.read .start) := by
  apply Runs.foldl_carries ⟨.nil, rfl, rfl⟩
  intro rows row mapped h
  exact read_mapped h row

/-! ## The key of a row's episodes -/

def routine : AlertTypeDeclaration :=
  ⟨.routineDirectoryChange, .recordOnly, js "Directory change recorded"⟩

/-- The type that a row counts under. -/
def forBound (row : ExistingAlertRow) : AlertTypeDeclaration := (declarationOf row).getD routine

def boundGrouping (row : ExistingAlertRow) : Grouping :=
  groupingFor row (forBound row) (declaredSubject (forBound row).id)

def rowKey (row : ExistingAlertRow) : JsString := episodeKey row (boundGrouping row)

def alone (row : ExistingAlertRow) : Bool := Grouping.isAlone (boundGrouping row)

theorem read_bound (bound : Bound) (row : ExistingAlertRow) :
    bound.read row = bound.readAs row (forBound row) := by
  unfold Bound.read forBound
  cases declarationOf row with
  | none => rfl
  | some declaration => rfl

variable {declaration : AlertTypeDeclaration} {role : SubjectRole} {key : JsString}

theorem groupingFor_groups (h : groupingFor row declaration role = .groups key) :
    ∃ subject, subjectFor row role = .resolved subject ∧
      key = joinUnambiguously [js "hawkview-alert-incident/v1", declaration.id.text,
        row.organizationId, row.customerTenantId.getD [], role.text, subject] := by
  unfold groupingFor at h
  cases hsubject : subjectFor row role with
  | unresolved why =>
    rw [hsubject] at h
    cases h
  | resolved subject =>
    rw [hsubject] at h
    cases h
    exact ⟨subject, rfl, rfl⟩

variable {other : ExistingAlertRow}

/-- No incident has the key of a row that stands alone. -/
theorem groups_ne_ungrouped (h : groupingFor row declaration role = .groups key) :
    key ≠ ungroupedKey other := by
  obtain ⟨subject, _, rfl⟩ := groupingFor_groups h
  intro heq
  have hlength : JsString.decimal (js "hawkview-alert-incident/v1").length = js "26" := by decide
  rw [joinUnambiguously, flatMap_cons, hlength] at heq
  change 0x32 :: _ = 0x75 :: _ at heq
  exact absurd (List.cons.inj heq).1 (by decide)

theorem rowKey_alone (halone : alone row = true) (h : rowKey other = rowKey row) :
    other.id = row.id := by
  have hkey : ∀ {r : ExistingAlertRow}, alone r = true → rowKey r = ungroupedKey r := by
    intro r hr
    unfold alone at hr
    unfold rowKey
    cases hgrouping : boundGrouping r with
    | groups key => rw [hgrouping] at hr; cases hr
    | alone because why => rfl
  rw [hkey halone] at h
  cases hgrouping : boundGrouping other with
  | groups key =>
    have hother : rowKey other = key := by rw [rowKey, hgrouping]; rfl
    exact absurd (hother.symm.trans h) (groups_ne_ungrouped hgrouping)
  | alone because why =>
    have hother := hkey (r := other) (by rw [alone, hgrouping]; rfl)
    rw [hother] at h
    exact append_cancel_left h

/-- The key that the mapping names is the one the episodes are kept under. -/
theorem rowKey_of_declaredKey (h : declaredKey row = some key) :
    rowKey row = key := by
  unfold declaredKey at h
  cases hdeclaration : declarationOf row with
  | none => rw [hdeclaration] at h; cases h
  | some declaration =>
    rw [hdeclaration, bind_some] at h
    have hfor : forBound row = declaration := by rw [forBound, hdeclaration]; rfl
    rw [rowKey, boundGrouping, hfor]
    cases hgrouping : groupingFor row declaration (declaredSubject declaration.id) with
    | groups k =>
      rw [hgrouping] at h
      exact Option.some.inj h
    | alone because why =>
      rw [hgrouping] at h
      cases h

theorem typed_ne_routine (h : declarationOf row = some declaration) :
    declaration.id ≠ .routineDirectoryChange := by
  unfold declarationOf at h
  generalize (parseDedupeKey row.dedupeKey).shape = shape at h
  revert h
  cases shape <;> simp [typeForShape, alertCatalog, covers, declarationFor] <;>
    (rintro rfl; simp)

/-- A row without a type never shares the key of an incident. -/
theorem declaredKey_of_rowKey (h : declaredKey other = some key) (same : rowKey row = key) :
    declaredKey row = some key := by
  have hother := rowKey_of_declaredKey h
  unfold declaredKey at h
  cases hdeclaration : declarationOf other with
  | none => rw [hdeclaration] at h; cases h
  | some declaration =>
    rw [hdeclaration, bind_some] at h
    cases hgroups : groupingFor other declaration (declaredSubject declaration.id) with
    | alone because why => rw [hgroups] at h; cases h
    | groups k =>
      rw [hgroups] at h
      cases h
      cases hgrouping : boundGrouping row with
      | alone because why =>
        have hrow : rowKey row = ungroupedKey row := by rw [rowKey, hgrouping]; rfl
        exact absurd (same.symm.trans hrow) (groups_ne_ungrouped hgroups)
      | groups k =>
        have hrow : rowKey row = k := by rw [rowKey, hgrouping]; rfl
        obtain rfl : k = key := hrow.symm.trans same
        cases hown : declarationOf row with
        | some own =>
          have hfor : forBound row = own := by rw [forBound, hown]; rfl
          rw [boundGrouping, hfor] at hgrouping
          simp only [declaredKey, hown, bind_some, hgrouping]
        | none =>
          have hfor : forBound row = routine := by rw [forBound, hown]; rfl
          rw [boundGrouping, hfor] at hgrouping
          obtain ⟨_, _, hk⟩ := groupingFor_groups hgroups
          obtain ⟨_, _, hk'⟩ := groupingFor_groups hgrouping
          have hparts := joinUnambiguously_injective (hk.symm.trans hk')
          simp only [List.cons.injEq, true_and] at hparts
          exact absurd (AlertTypeId.text_injective hparts.1) (typed_ne_routine hdeclaration)

/-! ## The key sets -/

def Within (narrow wide : JsSet JsString) : Prop :=
  ∀ key, key ∈ narrow.elements → key ∈ wide.elements

theorem mem_addKey {keys : JsSet JsString} {grouping : Grouping} :
    key ∈ (addKey keys grouping).elements ↔ grouping = .groups key ∨ key ∈ keys.elements := by
  cases grouping with
  | groups k => rw [addKey, JsSet.mem_add, Grouping.groups.injEq, eq_comm]
  | alone because why => simp [addKey]

variable {narrow wide : JsSet JsString}

theorem Within.addKey (h : Within narrow wide) (grouping : Grouping) :
    Within (addKey narrow grouping) (addKey wide grouping) := by
  intro key hkey
  rw [mem_addKey] at hkey ⊢
  exact hkey.imp_right (h key)

theorem Within.grow (h : Within narrow wide) (grouping : Grouping) :
    Within narrow (Reconciliation.addKey wide grouping) := by
  intro key hkey
  rw [mem_addKey]
  exact .inr (h key hkey)

/-! ## The buckets -/

/-- The bucket that rows of one key fill. -/
def bucketOf : List ExistingAlertRow → Option Bucket
  | [] => none
  | first :: rest => some ((first :: rest).foldl Bucket.push (.start (alone first)))

theorem bucketOf_append (rows : List ExistingAlertRow) (row : ExistingAlertRow) :
    bucketOf (rows ++ [row]) = some (((bucketOf rows).getD (.start (alone row))).push row) := by
  cases rows with
  | nil => rfl
  | cons first rest => simp [bucketOf, foldl_append]

structure Fills (rows : List ExistingAlertRow) (standingAlone : Bool) (bucket : Bucket) :
    Prop where
  times : bucket.times = rows.filterMap ExistingAlertRow.occurredAt
  missing : bucket.missing = 0 ↔ ∀ row ∈ rows, row.occurredAt.isSome
  events : bucket.events = (rows.map ExistingAlertRow.occurrenceCount).sum
  entries : bucket.entries = rows.map fun row => ⟨row.id, row.occurredAt⟩
  standingAlone : bucket.standingAlone = standingAlone

theorem fills (rows : List ExistingAlertRow) (standingAlone : Bool) :
    Fills rows standingAlone (rows.foldl Bucket.push (.start standingAlone)) := by
  refine Runs.foldl_carries (P := fun rows bucket => Fills rows standingAlone bucket) ?_ ?_ rows
  · exact ⟨rfl, by simp [Bucket.start], rfl, rfl, rfl⟩
  · intro rows row bucket h
    refine ⟨?_, ?_, ?_, ?_, h.standingAlone⟩
    · cases hat : row.occurredAt <;> simp [Bucket.push, h.times, hat]
    · have hmissing := h.missing
      cases hat : row.occurredAt <;> simp [Bucket.push, hat, hmissing, or_imp, forall_and]
    · simp [Bucket.push, h.events]
    · simp [Bucket.push, h.entries]

theorem bucketOf_fills {bucket : Bucket} (h : bucketOf rows = some bucket) :
    ∃ first rest, rows = first :: rest ∧ Fills rows (alone first) bucket := by
  cases rows with
  | nil => cases h
  | cons first rest =>
    cases h
    exact ⟨first, rest, rfl, fills _ _⟩

def standing (entry : JsString × Bucket) : Nat := if entry.2.standingAlone then 1 else 0

structure Bucketed (rows : List ExistingAlertRow) (bound : Bound) : Prop where
  bucket : ∀ key, bound.rowsByIncident.get? key = bucketOf (rows.filter fun row => rowKey row = key)
  standing : bound.standingAlone = (bound.rowsByIncident.entries.map standing).sum
  audit : Within bound.auditBoundKeys bound.boundKeys
  auditTarget : Within bound.auditBoundTargetKeys bound.boundTargetKeys

/-- A row that stands alone is the first of its key. -/
theorem filter_alone (distinct : ((rows ++ [row]).map ExistingAlertRow.id).Nodup)
    (halone : alone row = true) : (rows.filter fun other => rowKey other = rowKey row) = [] := by
  rw [map_append, nodup_append] at distinct
  rw [filter_eq_nil_iff]
  intro other hmem hkey
  have hid := rowKey_alone halone (by simpa using hkey)
  exact distinct.2.2 _ (mem_map_of_mem hmem) _ (by simp) hid

theorem read_bucketed {bound : Bound} (h : Bucketed rows bound)
    (distinct : ((rows ++ [row]).map ExistingAlertRow.id).Nodup) :
    Bucketed (rows ++ [row]) (bound.read row) := by
  rw [read_bound]
  constructor
  · intro key
    change (bound.rowsByIncident.set (rowKey row) _).get? key = _
    rw [JsMap.get?_set, filter_append]
    by_cases hkey : rowKey row = key
    · subst hkey
      simp only [if_true, filter_cons, decide_true, filter_nil, bucketOf_append,
        ← h.bucket]
      rfl
    · simp [hkey, h.bucket]
  · change (if alone row then bound.standingAlone + 1 else bound.standingAlone) =
      ((bound.rowsByIncident.set (rowKey row) (((bound.rowsByIncident.get? (rowKey row)).getD
        (.start (alone row))).push row)).entries.map standing).sum
    rw [h.standing]
    cases hheld : bound.rowsByIncident.get? (rowKey row) with
    | none =>
      rw [JsMap.sum_set_fresh standing hheld]
      change _ = _ + if alone row then 1 else 0
      split <;> rfl
    | some old =>
      have halone : ¬ alone row = true := by
        intro halone
        rw [h.bucket, filter_alone distinct halone] at hheld
        cases hheld
      have hsum : _ + standing (rowKey row, old) = _ + standing (rowKey row, old) :=
        JsMap.sum_set_held standing hheld (old.push row)
      rw [if_neg halone]
      exact (Nat.add_right_cancel hsum).symm
  · have hwide := h.audit.grow (boundGrouping row)
    simp only [Bound.readAs]
    split
    · exact h.audit.addKey _
    · exact hwide
  · simp only [Bound.readAs]
    split
    · exact h.auditTarget.addKey _
    · exact h.auditTarget.grow _

theorem bucketed (distinct : (rows.map ExistingAlertRow.id).Nodup) :
    Bucketed rows (rows.foldl Bound.read .start) := by
  revert distinct
  refine Runs.foldl_carries (P := fun rows bound =>
    (rows.map ExistingAlertRow.id).Nodup → Bucketed rows bound) ?_ ?_ rows
  · intro _
    exact ⟨fun _ => rfl, rfl, fun _ h => h, fun _ h => h⟩
  · intro rows row bound h distinct
    refine read_bucketed (h ?_) distinct
    rw [map_append, nodup_append] at distinct
    exact distinct.1

end ReconciliationSound
