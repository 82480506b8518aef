import HawkView.Changes.AuditProjection
import HawkView.Changes.Redaction

/-!
# What an audit row tells

Two records have one evidence row exactly when the texts that the row copies are
the same, the last values of each modified property differ only where redaction
looks, and what Microsoft sent differs only under sensitive object keys.
-/

namespace ChangeEvidence

open Json List Option

variable {p : Projection} {r r' : DirectoryAuditRecord}

/-! ## The envelope -/

theorem redactEntries_put (name : JsString) (v : Json) (entries : Entries) :
    redactEntries (JsMap.put name v entries) =
      JsMap.put name (redactSensitiveValues name v) (redactEntries entries) := by
  induction entries with
  | nil => rfl
  | cons e entries ih =>
    obtain ⟨other, w⟩ := e
    rw [JsMap.put, redactEntries, JsMap.put]
    by_cases h : other = name
    · rw [if_pos h, if_pos h, redactEntries]
    · rw [if_neg h, if_neg h, redactEntries, ih]

variable {key : JsString}

theorem redact_string (h : ¬sensitiveKey key = true) (s : JsString) :
    redactSensitiveValues key (.string s) = .string s := redact_open h _

theorem redact_nullable (h : ¬sensitiveKey key = true) (s : Option JsString) :
    redactSensitiveValues key (nullable s) = nullable s := by
  cases s <;> exact redact_open h _

/-- The names of the envelope, and that of a row, are open to redaction and apart. -/
theorem metadata_keys :
    (∀ key ∈ [[], js "version", js "category", js "operationType", js "targetResourceTypes",
      js "microsoftSource", js "evidenceOrigin", DIRECTORY_AUDIT_METADATA_KEY],
      ¬sensitiveKey key = true) ∧
    js "microsoftSource" ≠ DIRECTORY_AUDIT_METADATA_KEY ∧
      js "evidenceOrigin" ≠ DIRECTORY_AUDIT_METADATA_KEY := by
  decide +kernel

theorem open_key
    (h : key ∈ [[], js "version", js "category", js "operationType",
    js "targetResourceTypes", js "microsoftSource", js "evidenceOrigin",
    DIRECTORY_AUDIT_METADATA_KEY]) :
    ¬sensitiveKey key = true := metadata_keys.1 key h

/-- The envelope has nothing that redaction hides. -/
theorem redact_metadata (metadata : DirectoryAuditMetadata) :
    redactSensitiveValues DIRECTORY_AUDIT_METADATA_KEY metadata.json = metadata.json := by
  have htypes : redactSensitiveValues (js "targetResourceTypes")
      ((metadata.targetResourceTypes.map fun types => Json.array (types.map nullable)).getD
        .null) = (metadata.targetResourceTypes.map fun types =>
          Json.array (types.map nullable)).getD .null := by
    cases metadata.targetResourceTypes with
    | none => exact redact_open (open_key (by simp)) _
    | some types =>
      rw [map_some, getD_some, redact_open (open_key (by simp))]
      refine congrArg Json.array ?_
      rw [List.map_map]
      apply map_congr_left
      intro type _
      exact redact_nullable (open_key (by simp)) type
  rw [DirectoryAuditMetadata.json, redact_open (open_key (by simp))]
  simp only [map_cons, map_nil, htypes,
    redact_nullable (@open_key (js "category") (by simp)),
    redact_nullable (@open_key (js "operationType") (by simp))]
  rw [redact_open (@open_key (js "version") (by simp))]

/-- The raw part of a row is the redaction of what the record holds under the envelope. -/
theorem raw_eq (p : Projection) (r : DirectoryAuditRecord) :
    (projectDirectoryAudit p r).raw = redactSensitiveValues []
      (.object (stamped (directoryAuditMetadata r).json (object r.raw))) := by
  have hobject : object (redactSensitiveValues [] r.raw) = redactEntries (object r.raw) := by
    rw [redact_open (open_key (by simp))]
    cases r.raw with
    | object entries => exact (redactEntries_eq entries).symm
    | _ => rfl
  have hredact (entries : Entries) :
      redactSensitiveValues [] (.object entries) = .object (redactEntries entries) := by
    rw [redact_open (open_key (by simp)), redactEntries_eq]
  rw [hredact, stamped, redactEntries_put, redactEntries_put, redactEntries_put, redact_metadata,
    redact_string (open_key (by simp)), redact_string (open_key (by simp)), ← hobject]
  rfl

theorem nullable_injective : Function.Injective nullable := by
  intro s t h
  cases s <;> cases t <;> cases h <;> rfl

theorem metadata_json_injective : Function.Injective DirectoryAuditMetadata.json := by
  intro m n h
  have hentries := Json.object.inj h
  simp only [List.cons.injEq, Prod.mk.injEq, true_and, and_true] at hentries
  obtain ⟨hcategory, htype, htypes⟩ := hentries
  have hsame : m.targetResourceTypes = n.targetResourceTypes := by
    cases hm : m.targetResourceTypes with
    | none =>
      cases hn : n.targetResourceTypes with
      | none => rfl
      | some types' => rw [hm, hn] at htypes; cases htypes
    | some types =>
      cases hn : n.targetResourceTypes with
      | none => rw [hm, hn] at htypes; cases htypes
      | some types' =>
        rw [hm, hn] at htypes
        exact congrArg some
          (List.map_injective_iff.mpr nullable_injective (Json.array.inj htypes))
  cases m
  cases n
  rw [DirectoryAuditMetadata.mk.injEq]
  exact ⟨nullable_injective hcategory, nullable_injective htype, hsame⟩

theorem metadata_of_raw
    (h : (projectDirectoryAudit p r).raw = (projectDirectoryAudit p r').raw) :
    directoryAuditMetadata r = directoryAuditMetadata r' := by
  have hkeys := metadata_keys.2
  have hread (q : DirectoryAuditRecord) :
      (object (projectDirectoryAudit p q).raw).lookup DIRECTORY_AUDIT_METADATA_KEY =
        some (directoryAuditMetadata q).json := by
    show (stamped _ _).lookup DIRECTORY_AUDIT_METADATA_KEY = _
    rw [stamped, lookup_put, if_neg hkeys.1, lookup_put, if_neg hkeys.2, lookup_put, if_pos rfl]
  have hsame := congrArg (fun v => (object v).lookup DIRECTORY_AUDIT_METADATA_KEY) h
  simp only [hread, Option.some.injEq] at hsame
  exact metadata_json_injective hsame

/-! ## The states of modified properties -/

/-- The last of the properties with a name. -/
def lastOf (name : JsString) (properties : List ModifiedProperty) : Option ModifiedProperty :=
  properties.reverse.find? fun property => property.name = name

/-- The names of the properties, each at its first place. -/
def namesOf (properties : List ModifiedProperty) : List JsString :=
  (JsSet.ofList (properties.map (·.name))).elements

section State

variable {parse : Parse} {value : ModifiedProperty → Option Json}
  {properties others : List ModifiedProperty}

theorem get_assigned (properties : List ModifiedProperty) (name : JsString) :
    (properties.foldl (assign parse value) JsMap.empty).get? name =
      if name = js "__proto__" then none
      else (lastOf name properties).map fun property =>
        redactValue name (parseValue parse (value property)) := by
  induction properties using reverseRecOn with
  | nil => simp [lastOf]
  | append_singleton properties property ih =>
    rw [foldl_append, foldl_cons, foldl_nil, assign, lastOf, reverse_append,
      reverse_singleton, singleton_append, find?_cons, ← lastOf]
    by_cases hproto : property.name = js "__proto__"
    · rw [if_pos hproto, ih]
      by_cases hname : name = js "__proto__"
      · rw [if_pos hname, if_pos hname]
      · have hne : ¬property.name = name := fun h => hname (h.symm.trans hproto)
        simp [hname, hne]
    · rw [if_neg hproto, JsMap.get?_set, ih]
      by_cases hname : property.name = name
      · subst hname
        simp [hproto]
      · simp [hname]

theorem keys_assigned (properties : List ModifiedProperty) :
    (properties.foldl (assign parse value) JsMap.empty).entries.map Prod.fst =
      (namesOf properties).filter fun name => name ≠ js "__proto__" := by
  induction properties using reverseRecOn with
  | nil => rfl
  | append_singleton properties property ih =>
    have hnames : namesOf (properties ++ [property]) =
        ((JsSet.ofList (properties.map (·.name))).add property.name).elements := by
      rw [namesOf, map_append, map_singleton, JsSet.ofList_append]
    rw [foldl_append, foldl_cons, foldl_nil, assign, hnames]
    by_cases hmem : property.name ∈ namesOf properties
    · rw [JsSet.elements_add_mem hmem, ← namesOf]
      split
      · exact ih
      · rename_i hproto
        rw [JsMap.set, JsMap.keys_put, ih, if_pos (by simp [hmem, hproto])]
    · rw [JsSet.elements_add_new hmem, ← namesOf, filter_append]
      by_cases hproto : property.name = js "__proto__"
      · rw [if_pos hproto, ih]
        simp [hproto]
      · rw [if_neg hproto, JsMap.set, JsMap.keys_put, ih, if_neg (by simp [hmem])]
        simp [hproto]

theorem stateOf_eq_iff :
    stateOf parse value properties = stateOf parse value others ↔
      properties.foldl (assign parse value) JsMap.empty =
        others.foldl (assign parse value) JsMap.empty := by
  have hempty (s : State) (h : s.entries = []) : s = JsMap.empty := by
    cases s
    cases h
    rfl
  constructor
  · intro h
    unfold stateOf at h
    simp only at h
    split at h
    · split at h
      · exact Option.some.inj h
      · cases h
    · rename_i hnil
      split at h
      · cases h
      · rename_i hnil'
        rw [hempty _ (not_not.mp hnil), hempty _ (not_not.mp hnil')]
  · intro h
    rw [stateOf, stateOf, h]

theorem redactValue_eq_iff {key : JsString} {v w : Option Json} :
    redactValue key v = redactValue key w ↔
      sensitiveKey key = true ∨ Option.Rel (KeyHidden key) v w := by
  unfold redactValue
  by_cases hkey : sensitiveKey key = true
  · simp [hkey]
  · rw [if_neg hkey, if_neg hkey]
    cases v <;> cases w <;> simp [hkey, redact_eq_iff]

/-- What a state shows of a value is the same for the last property of each name. -/
def SameState (parse : Parse) (value : ModifiedProperty → Option Json)
    (properties others : List ModifiedProperty) : Prop :=
  ∀ name, name ≠ js "__proto__" → sensitiveKey name = true ∨
    Option.Rel (fun a b => Option.Rel (KeyHidden name) (parseValue parse (value a))
      (parseValue parse (value b))) (lastOf name properties) (lastOf name others)

theorem lastOf_isSome {name : JsString} :
    (lastOf name properties).isSome ↔ name ∈ namesOf properties := by
  rw [lastOf, find?_isSome, namesOf, JsSet.mem_ofList, List.mem_map]
  simp

/-- States of properties with the same names. -/
theorem stateOf_same (names : namesOf properties = namesOf others) :
    stateOf parse value properties = stateOf parse value others ↔
      SameState parse value properties others := by
  have hrel (name : JsString) :
      (lastOf name properties).map (fun a => redactValue name (parseValue parse (value a))) =
          (lastOf name others).map (fun b => redactValue name (parseValue parse (value b))) ↔
        sensitiveKey name = true ∨
          Option.Rel (fun a b => Option.Rel (KeyHidden name) (parseValue parse (value a))
            (parseValue parse (value b))) (lastOf name properties) (lastOf name others) := by
    have hsome : (lastOf name properties).isSome = (lastOf name others).isSome := by
      rw [Bool.eq_iff_iff, lastOf_isSome, lastOf_isSome, names]
    cases ha : lastOf name properties with
    | none =>
      cases hb : lastOf name others with
      | none => simp
      | some b => simp [ha, hb] at hsome
    | some a =>
      cases hb : lastOf name others with
      | none => simp [ha, hb] at hsome
      | some b =>
        rw [map_some, map_some, Option.some.injEq, redactValue_eq_iff,
          rel_some_some]
  rw [stateOf_eq_iff]
  constructor
  · intro h name hname
    have hget := congrArg (fun s => s.get? name) h
    simp only [get_assigned, if_neg hname] at hget
    exact (hrel name).mp hget
  · intro h
    apply JsMap.ext_get
    · rw [keys_assigned, keys_assigned, names]
    · intro name
      rw [get_assigned, get_assigned]
      by_cases hname : name = js "__proto__"
      · rw [if_pos hname, if_pos hname]
      · rw [if_neg hname, if_neg hname]
        exact (hrel name).mpr (h name hname)

end State

/-! ## The row -/

/-- The texts that a row copies without redaction. -/
structure Copies (parse : Parse) (r r' : DirectoryAuditRecord) : Prop where
  microsoftAuditId : r.microsoftAuditId = r'.microsoftAuditId
  eventDateTime : r.eventDateTime = r'.eventDateTime
  activityDisplayName : r.activityDisplayName = r'.activityDisplayName
  workload : r.loggedByService.getD (js "Microsoft Entra ID") =
    r'.loggedByService.getD (js "Microsoft Entra ID")
  summary : summaryOf r = summaryOf r'
  correlationId : r.correlationId = r'.correlationId
  result : r.result = r'.result
  initiator : actor r.initiatedBy = actor r'.initiatedBy
  ipAddress : initiatingIp r.initiatedBy = initiatingIp r'.initiatedBy
  targetId : (targetState parse r.targetResources).targetId =
    (targetState parse r'.targetResources).targetId
  targetDisplayName : (targetState parse r.targetResources).targetDisplayName =
    (targetState parse r'.targetResources).targetDisplayName
  targetType : (targetState parse r.targetResources).targetType =
    (targetState parse r'.targetResources).targetType
  names : namesOf (modifiedProperties r.targetResources) =
    namesOf (modifiedProperties r'.targetResources)
  ingestedAt : r.ingestedAt = r'.ingestedAt
  expiresAt : r.expiresAt = r'.expiresAt

/-- The records differ only where the projection redacts. -/
structure Hidden (parse : Parse) (r r' : DirectoryAuditRecord) : Prop where
  copies : Copies parse r r'
  before : SameState parse (·.oldValue) (modifiedProperties r.targetResources)
    (modifiedProperties r'.targetResources)
  after : SameState parse (·.newValue) (modifiedProperties r.targetResources)
    (modifiedProperties r'.targetResources)
  raw : KeyHidden [] (.object (stamped (directoryAuditMetadata r).json (object r.raw)))
    (.object (stamped (directoryAuditMetadata r').json (object r'.raw)))

theorem fields_eq_iff {properties others : List ModifiedProperty} :
    (if properties.map (·.name) ≠ [] then some (namesOf properties) else none) =
        (if others.map (·.name) ≠ [] then some (namesOf others) else none) ↔
      namesOf properties = namesOf others := by
  have hnil (l : List ModifiedProperty) : l.map (·.name) = [] ↔ namesOf l = [] := by
    constructor
    · intro h
      rw [namesOf, h]
      rfl
    · intro h
      rw [eq_nil_iff_forall_not_mem]
      intro name hname
      have hmem : name ∈ namesOf l := JsSet.mem_ofList.mpr hname
      rw [h] at hmem
      cases hmem
  by_cases hp : namesOf properties = [] <;> by_cases ho : namesOf others = [] <;>
    simp [hnil, hp, ho, eq_comm]

theorem project_eq_iff (p : Projection) (r r' : DirectoryAuditRecord) :
    projectDirectoryAudit p r = projectDirectoryAudit p r' ↔ Hidden p.parse r r' := by
  constructor
  · intro h
    have hraw := congrArg AuditEvidence.raw h
    have hnames := fields_eq_iff.mp (congrArg AuditEvidence.changedFields h)
    refine ⟨?_, ?_, ?_, ?_⟩
    · constructor
      · exact congrArg AuditEvidence.sourceEventId h
      · exact congrArg AuditEvidence.eventDateTime h
      · exact congrArg AuditEvidence.operationName h
      · exact congrArg AuditEvidence.workload h
      · exact congrArg AuditEvidence.summary h
      · exact congrArg AuditEvidence.correlationId h
      · exact congrArg AuditEvidence.result h
      · exact congrArg AuditEvidence.actor h
      · exact congrArg AuditEvidence.ipAddress h
      · exact congrArg AuditEvidence.targetId h
      · exact congrArg AuditEvidence.targetDisplayName h
      · exact congrArg AuditEvidence.targetType h
      · exact hnames
      · exact congrArg AuditEvidence.ingestedAt h
      · exact congrArg AuditEvidence.expiresAt h
    · exact (stateOf_same hnames).mp (congrArg AuditEvidence.beforeState h)
    · exact (stateOf_same hnames).mp (congrArg AuditEvidence.afterState h)
    · rw [raw_eq, raw_eq] at hraw
      exact redact_eq_iff.mp hraw
  · rintro ⟨copies, before, after, raw⟩
    have hraw : (projectDirectoryAudit p r).raw = (projectDirectoryAudit p r').raw := by
      rw [raw_eq, raw_eq]
      exact redact_eq_iff.mpr raw
    have hfields := fields_eq_iff.mpr copies.names
    have hkind : p.legacyCategory r.activityDisplayName (directoryAuditMetadata r).category
        (directoryAuditMetadata r).operationType
          [(targetState p.parse r.targetResources).targetType] =
        p.legacyCategory r'.activityDisplayName (directoryAuditMetadata r').category
          (directoryAuditMetadata r').operationType
          [(targetState p.parse r'.targetResources).targetType] := by
      rw [copies.activityDisplayName, metadata_of_raw hraw, copies.targetType]
    have hbefore : (projectDirectoryAudit p r).beforeState =
        (projectDirectoryAudit p r').beforeState := (stateOf_same copies.names).mpr before
    have hafter : (projectDirectoryAudit p r).afterState =
        (projectDirectoryAudit p r').afterState := (stateOf_same copies.names).mpr after
    show AuditEvidence.mk _ _ _ _ _ _ _ _ _ _ _ _ _ _ _ _ _ _ _ _ _ _ _ =
      AuditEvidence.mk _ _ _ _ _ _ _ _ _ _ _ _ _ _ _ _ _ _ _ _ _ _ _
    rw [AuditEvidence.mk.injEq]
    exact ⟨rfl, rfl, rfl, copies.microsoftAuditId, copies.eventDateTime, copies.workload,
      congrArg Prod.fst hkind, congrArg Prod.snd hkind, copies.activityDisplayName,
      copies.summary, copies.initiator, copies.targetId, copies.targetDisplayName,
      copies.targetType, copies.correlationId, copies.result, copies.ipAddress, hbefore, hafter,
      hfields, hraw, copies.ingestedAt, copies.expiresAt⟩

end ChangeEvidence
