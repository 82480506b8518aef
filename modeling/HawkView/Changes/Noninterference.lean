import HawkView.Changes.AuditNoninterference
import HawkView.Changes.SnapshotDifference

/-!
# What redaction keeps secret

Secrets are what a sensitive key holds and the values of a modified property with a
sensitive name, also inside encoded strings. The evidence of two inputs that differ
in secrets only is the same under an exact condition, which not all of them meet.
-/

namespace ChangeEvidence

open Json

variable {env : Environment}

/-! ## Secrets -/

/-- The value of a modified property whose display name is sensitive. -/
def SecretValue (property : Entries) (name : JsString) : Prop :=
  (name = js "oldValue" ∨ name = js "newValue") ∧
    ∃ display ∈ text (property.lookup (js "displayName")), sensitiveKey display = true

/-- Values that differ only in what is held under a sensitive name. -/
inductive Secretly (parse : Parse) : Json → Json → Prop
  | same (v : Json) : Secretly parse v v
  | encoded {s t : JsString} {v w : Json} (first : parse s = some v) (second : parse t = some w)
      (inner : Secretly parse v w) : Secretly parse (.string s) (.string t)
  | items {items others : List Json} (size : items.length = others.length)
      (inner : ∀ (i : Nat) (v w : Json), items[i]? = some v → others[i]? = some w →
        Secretly parse v w) : Secretly parse (.array items) (.array others)
  | entries {entries others : Entries} (same : names entries = names others)
      (inner : ∀ (i : Nat) (e o : JsString × Json), entries[i]? = some e → others[i]? = some o →
        sensitiveKey e.1 = false → ¬SecretValue entries e.1 → Secretly parse e.2 o.2) :
      Secretly parse (.object entries) (.object others)

/-- Records that differ only in secrets. -/
structure Twins (parse : Parse) (r r' : DirectoryAuditRecord) : Prop where
  initiatedBy : Option.Rel (Secretly parse) r.initiatedBy r'.initiatedBy
  targetResources : Option.Rel (Secretly parse) r.targetResources r'.targetResources
  raw : Secretly parse r.raw r'.raw
  columns : r' = { r with
    initiatedBy := r'.initiatedBy, targetResources := r'.targetResources, raw := r'.raw }

/-! ## Two snapshots against one baseline -/

/-- Two payloads that are changed against one baseline in the same fields. -/
structure Alternatives (env : Environment) where
  resourceType : JsString
  spec : SnapshotDifferenceSpec
  known : SNAPSHOT_DIFFERENCE_SPECS.lookup resourceType = some spec
  previous : Payload
  given : previous.1 ≠ .null
  first : Payload
  second : Payload
  baseline : Option Date
  sameFields : ∀ t,
    changedFields env spec resourceType (rowAt env spec resourceType previous t)
        (rowAt env spec resourceType first t) =
      changedFields env spec resourceType (rowAt env spec resourceType previous t)
        (rowAt env spec resourceType second t)

namespace Alternatives

variable (s : Alternatives env)

def input (q : Occasion) (current : Payload) : SnapshotInput where
  tenantId := q.tenantId
  organizationId := q.organizationId
  resourceType := s.resourceType
  previousPayload := s.previous
  currentPayload := current
  observedAt := q.observedAt
  baselineObservedAt := s.baseline
  expiresAt := q.expiresAt

def evidence (q : Occasion) (current : Payload) : List SnapshotDifferenceEvidence :=
  buildSnapshotDifferenceEvidence env (s.input q current)

/-- The fields in which the row under an identifier changed. -/
def changed (t : JsString) : List JsString :=
  changedFields env s.spec s.resourceType (rowAt env s.spec s.resourceType s.previous t)
    (rowAt env s.spec s.resourceType s.first t)

/-- The same items are persisted for both payloads. -/
def Identical : Prop :=
  ∀ q item, item ∈ s.evidence q s.first ↔ item ∈ s.evidence q s.second

/-- The rows that changed have one name, and canonical states that differ only under sensitive
keys. -/
def Hidden : Prop :=
  ∀ t, s.changed t ≠ [] →
    targetName (rowAt env s.spec s.resourceType s.first t) t =
        targetName (rowAt env s.spec s.resourceType s.second t) t ∧
      Option.Rel (fun state state' => KeyHidden [] (.object state) (.object state'))
        (comparable env s.spec s.resourceType (rowAt env s.spec s.resourceType s.first t))
        (comparable env s.spec s.resourceType (rowAt env s.spec s.resourceType s.second t))

end Alternatives

theorem changedFields_none (env : Environment) (spec : SnapshotDifferenceSpec)
    (resourceType : JsString) : changedFields env spec resourceType none none = [] := by
  rw [changedFields, List.filter_eq_nil_iff]
  intro field _
  simp

variable {spec : SnapshotDifferenceSpec} {input : SnapshotInput} {t : JsString}

theorem rowAt_none (h : t ∉ identifiersOf env spec input) :
    rowAt env spec input.resourceType input.previousPayload t = none ∧
      rowAt env spec input.resourceType input.currentPayload t = none := by
  rw [identifiersOf, JsSet.mem_ofList, List.mem_append, JsMap.mem_keys_ofList,
    JsMap.mem_keys_ofList, not_or] at h
  exact ⟨JsMap.get?_ofList_eq_none h.1, JsMap.get?_ofList_eq_none h.2⟩

/-- Every identifier brings the item that its rows have, if they differ. -/
theorem mem_build (known : SNAPSHOT_DIFFERENCE_SPECS.lookup input.resourceType = some spec)
    (given : input.previousPayload.1 ≠ .null) {item : SnapshotDifferenceEvidence} :
    item ∈ buildSnapshotDifferenceEvidence env input ↔
      ∃ t, differenceOf env spec input t
        (rowAt env spec input.resourceType input.previousPayload t)
        (rowAt env spec input.resourceType input.currentPayload t) = some item := by
  rw [build_eq input known given, List.mem_filterMap]
  constructor
  · rintro ⟨t, _, ht⟩
    exact ⟨t, ht⟩
  · rintro ⟨t, ht⟩
    by_cases hmem : t ∈ identifiersOf env spec input
    · exact ⟨t, hmem, ht⟩
    · obtain ⟨hprevious, hcurrent⟩ := rowAt_none hmem
      rw [hprevious, hcurrent, differenceOf_eq, changedFields_none, if_pos rfl] at ht
      cases ht

theorem evidenceOf_eq_iff {before after after' : Option Entries} {changed : List JsString} :
    evidenceOf env spec input t before after changed =
        evidenceOf env spec input t before after' changed ↔
      targetName after t = targetName after' t ∧
        Option.Rel (fun state state' => KeyHidden [] (.object state) (.object state'))
          (comparable env spec input.resourceType after)
          (comparable env spec input.resourceType after') := by
  have hstate : (comparable env spec input.resourceType after).map
        (fun state => redactSensitiveValues [] (.object state)) =
      (comparable env spec input.resourceType after').map
        (fun state => redactSensitiveValues [] (.object state)) ↔
      Option.Rel (fun state state' => KeyHidden [] (.object state) (.object state'))
        (comparable env spec input.resourceType after)
        (comparable env spec input.resourceType after') := by
    cases comparable env spec input.resourceType after <;>
      cases comparable env spec input.resourceType after' <;> simp [redact_eq_iff]
  rw [← hstate]
  constructor
  · intro h
    exact ⟨congrArg SnapshotDifferenceEvidence.targetDisplayName h,
      congrArg SnapshotDifferenceEvidence.afterState h⟩
  · rintro ⟨hname, hafter⟩
    simp only [evidenceOf, hname, hafter]

namespace Alternatives

variable {s : Alternatives env}

/-- The item of an identifier for one of the payloads. -/
def itemAt (s : Alternatives env) (q : Occasion) (current : Payload) (t : JsString) :
    Option SnapshotDifferenceEvidence :=
  differenceOf env s.spec (s.input q current) t (rowAt env s.spec s.resourceType s.previous t)
    (rowAt env s.spec s.resourceType current t)

theorem mem_evidence {q : Occasion} {current : Payload} {item : SnapshotDifferenceEvidence} :
    item ∈ s.evidence q current ↔ ∃ t, s.itemAt q current t = some item :=
  @mem_build env s.spec (s.input q current) s.known s.given item

theorem itemAt_first (q : Occasion) (t : JsString) :
    s.itemAt q s.first t = if s.changed t = [] then none
      else some (evidenceOf env s.spec (s.input q s.first) t
        (rowAt env s.spec s.resourceType s.previous t)
        (rowAt env s.spec s.resourceType s.first t) (s.changed t)) :=
  differenceOf_eq (s.input q s.first) t _ _

theorem itemAt_second (q : Occasion) (t : JsString) :
    s.itemAt q s.second t = if s.changed t = [] then none
      else some (evidenceOf env s.spec (s.input q s.first) t
        (rowAt env s.spec s.resourceType s.previous t)
        (rowAt env s.spec s.resourceType s.second t) (s.changed t)) := by
  rw [changed, s.sameFields]
  exact differenceOf_eq (s.input q s.second) t _ _

/-- The persisted items are the same exactly when what differs is hidden. -/
theorem identical_iff (s : Alternatives env) : s.Identical ↔ s.Hidden := by
  constructor
  · intro h t hchanged
    let q : Occasion := ⟨[], [], ⟨0, IsoTime.inDateRange_zero⟩, ⟨0, IsoTime.inDateRange_zero⟩⟩
    have hfirst := itemAt_first (s := s) q t
    rw [if_neg hchanged] at hfirst
    obtain ⟨u, hu⟩ := mem_evidence.mp ((h q _).mp (mem_evidence.mpr ⟨t, hfirst⟩))
    rw [itemAt_second] at hu
    split at hu
    · cases hu
    · have htarget : u = t :=
        congrArg SnapshotDifferenceEvidence.targetId (Option.some.inj hu)
      rw [htarget] at hu
      exact evidenceOf_eq_iff.mp (Option.some.inj hu).symm
  · intro h q item
    rw [mem_evidence, mem_evidence]
    apply exists_congr
    intro t
    rw [itemAt_first, itemAt_second]
    by_cases hchanged : s.changed t = []
    · rw [if_pos hchanged, if_pos hchanged]
    · rw [if_neg hchanged, if_neg hchanged, evidenceOf_eq_iff.mpr (h t hchanged)]

end Alternatives

/-- Two records, in secrets or otherwise, have one row exactly when what differs is hidden, and
so have two payloads that are changed in the same fields. -/
theorem redaction_exact (p : Projection) (env : Environment) :
    (∀ r r' : DirectoryAuditRecord,
      projectDirectoryAudit p r = projectDirectoryAudit p r' ↔ Hidden p.parse r r') ∧
    ∀ s : Alternatives env, s.Identical ↔ s.Hidden :=
  ⟨project_eq_iff p, Alternatives.identical_iff⟩

/-! ## A secret that is told -/

/-- A target with one modified property that has a sensitive name. -/
def targetWith (secret : JsString) : Json :=
  .array [.object [(js "modifiedProperties", .array [.object
    [(js "displayName", .string (js "clientSecret")), (js "newValue", .string secret)]])]]

/-- The record of a new client secret. -/
def secretRecord (secret : JsString) : DirectoryAuditRecord where
  microsoftAuditId := js "audit-1"
  eventDateTime := ⟨0, IsoTime.inDateRange_zero⟩
  activityDisplayName := js "Update application credential"
  category := some (js "ApplicationManagement")
  operationType := some (js "Update")
  result := none
  resultReason := none
  correlationId := none
  loggedByService := none
  initiatedBy := none
  targetResources := some (targetWith secret)
  raw := .object [(js "targetResources", targetWith secret)]
  ingestedAt := ⟨0, IsoTime.inDateRange_zero⟩
  expiresAt := ⟨0, IsoTime.inDateRange_zero⟩

variable {parse : Parse}

theorem secretly_item {v w : Json} (h : Secretly parse v w) :
    Secretly parse (.array [v]) (.array [w]) := by
  refine .items rfl fun i a b ha hb => ?_
  cases i with
  | zero =>
    cases ha
    cases hb
    exact h
  | succ i => cases ha

theorem secretly_entry {name : JsString} {v w : Json} (h : Secretly parse v w) :
    Secretly parse (.object [(name, v)]) (.object [(name, w)]) := by
  refine .entries rfl fun i e o he ho _ _ => ?_
  cases i with
  | zero =>
    cases he
    cases ho
    exact h
  | succ i => cases he

theorem targetWith_secretly (parse : Parse) (secret secret' : JsString) :
    Secretly parse (targetWith secret) (targetWith secret') := by
  apply secretly_item
  apply secretly_entry
  apply secretly_item
  refine .entries rfl fun i e o he ho _ hopen => ?_
  match i with
  | 0 =>
    cases he
    cases ho
    exact .same _
  | 1 =>
    cases he
    exact absurd ⟨.inr rfl, js "clientSecret", rfl, by decide +kernel⟩ hopen
  | i + 2 => cases he

def sampleProjection : Projection where
  tenantId := js "tenant-1"
  organizationId := js "org-1"
  parse := fun _ => none
  legacyCategory := fun _ _ _ _ => (js "Apps", .high)

/-- The rows of two new secrets are not the same. -/
theorem secret_told :
    Twins sampleProjection.parse (secretRecord (js "first")) (secretRecord (js "second")) ∧
      projectDirectoryAudit sampleProjection (secretRecord (js "first")) ≠
        projectDirectoryAudit sampleProjection (secretRecord (js "second")) := by
  constructor
  · constructor
    · exact .none
    · exact .some (targetWith_secretly _ _ _)
    · exact secretly_entry (targetWith_secretly _ _ _)
    · rfl
  · intro h
    have htext := congrArg (fun e : AuditEvidence => stringify e.raw) h
    exact absurd htext (by decide +kernel)

end ChangeEvidence
