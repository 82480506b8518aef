import HawkView.Changes.ChangeEvidence

/-!
# Differences and the objects that changed

An object is what rows with the same identifying values are about. A comparison
reports it once when it appeared, disappeared, or has a tracked field that is not
a rearrangement of what it was, and names exactly such fields.
-/

namespace ChangeEvidence

open Json List Option

variable {env : Environment} {spec : SnapshotDifferenceSpec} {resourceType : JsString}

/-! ## Objects -/

/-- The identifying values of a row: all the compound ones, or the first usable one. -/
def identity (spec : SnapshotDifferenceSpec) (row : Entries) : Option (List JsString) :=
  if spec.compoundIdentifierFields ≠ [] then
    spec.compoundIdentifierFields.mapM fun field => identifying (row.lookup field)
  else (spec.identifierFields.findSome? fun field => identifying (row.lookup field)).map ([·])

/-- The identifier under which an object is joined. -/
def joined (o : List JsString) : JsString := (js "::").intercalate o

theorem identifierFor_eq (row : Entries) :
    identifierFor row spec.identifierFields spec.compoundIdentifierFields =
      (identity spec row).map joined := by
  unfold identifierFor identity
  split
  · rfl
  · cases spec.identifierFields.findSome? fun field => identifying (row.lookup field) with
    | none => rfl
    | some s => simp [joined, intercalate]

/-- The rows of a payload as they are compared. -/
abbrev rowsOf (env : Environment) (resourceType : JsString) (payload : Payload) : List Entries :=
  evidenceRows env.domainToASCII payload.1 resourceType

/-- No two identifiable rows are about one object. -/
def Distinct (spec : SnapshotDifferenceSpec) (rows : List Entries) : Prop :=
  ((rows.filter fun row => (identity spec row).isSome).map (identity spec)).Nodup

/-- The row about an object. -/
def rowOf (spec : SnapshotDifferenceSpec) (rows : List Entries) (o : List JsString) :
    Option Entries :=
  rows.find? fun row => identity spec row = some o

variable {rows : List Entries} {row : Entries} {o : List JsString}

theorem Distinct.unique (h : Distinct spec rows) {row' : Entries} (hrow : row ∈ rows)
    (hrow' : row' ∈ rows) (ho : identity spec row = some o) (ho' : identity spec row' = some o) :
    row = row' := by
  apply inj_on_of_nodup_map h
  · rw [mem_filter, ho]
    exact ⟨hrow, rfl⟩
  · rw [mem_filter, ho']
    exact ⟨hrow', rfl⟩
  · rw [ho, ho']

theorem rowOf_iff (h : Distinct spec rows) :
    rowOf spec rows o = some row ↔ row ∈ rows ∧ identity spec row = some o := by
  constructor
  · intro hfind
    exact ⟨mem_of_find?_eq_some hfind, by simpa using find?_some hfind⟩
  · rintro ⟨hrow, ho⟩
    apply DistinctKeys.find_only hrow
    · simpa using ho
    · intro other hother ho'
      exact h.unique hother hrow (by simpa using ho') ho

/-! ## Comparisons -/

/-- Two payloads of a resource type whose differences are recorded. -/
structure Comparison (env : Environment) where
  resourceType : JsString
  spec : SnapshotDifferenceSpec
  known : SNAPSHOT_DIFFERENCE_SPECS.lookup resourceType = some spec
  previous : Payload
  current : Payload
  baseline : Option Date
  given : previous.1 ≠ .null
  previousDistinct : Distinct spec (rowsOf env resourceType previous)
  currentDistinct : Distinct spec (rowsOf env resourceType current)

/-- When and for whom a comparison is made. -/
structure Occasion where
  tenantId : JsString
  organizationId : JsString
  observedAt : Date
  expiresAt : Date

namespace Comparison

variable (r : Comparison env)

def input (q : Occasion) : SnapshotInput where
  tenantId := q.tenantId
  organizationId := q.organizationId
  resourceType := r.resourceType
  previousPayload := r.previous
  currentPayload := r.current
  observedAt := q.observedAt
  baselineObservedAt := r.baseline
  expiresAt := q.expiresAt

def evidence (q : Occasion) : List SnapshotDifferenceEvidence :=
  buildSnapshotDifferenceEvidence env (r.input q)

def before (o : List JsString) : Option Entries :=
  rowOf r.spec (rowsOf env r.resourceType r.previous) o

def after (o : List JsString) : Option Entries :=
  rowOf r.spec (rowsOf env r.resourceType r.current) o

/-- An object that a row of either payload is about. -/
def Occurs (o : List JsString) : Prop := (r.before o).isSome ∨ (r.after o).isSome

/-- A tracked field that is there in one payload only, or is not a rearrangement. -/
def Differs (o : List JsString) (field : JsString) : Prop :=
  field ∈ r.spec.trackedFields ∧
    ¬Option.Rel (Rearranged (unorderedIn r.resourceType) (some field))
      ((r.before o).bind fun row => row.lookup field)
      ((r.after o).bind fun row => row.lookup field)

/-- The item is about the object and names what differs. -/
structure Reports (o : List JsString) (item : SnapshotDifferenceEvidence) : Prop where
  target : item.targetId = joined o
  inOrder : item.changedFields.Sublist r.spec.trackedFields
  exact : ∀ field, field ∈ item.changedFields ↔ r.Differs o field

/-- One item for each object that changed, and no other item. -/
def Exact (items : List SnapshotDifferenceEvidence) : Prop :=
  ∃ changed : List (List JsString), changed.Nodup ∧
    (∀ o, o ∈ changed ↔ ∃ field, r.Differs o field) ∧ List.Forall₂ r.Reports changed items

end Comparison

/-! ## Tracked fields -/

theorem lookup_selectedState (row : Entries) (fields : List JsString) (field : JsString) :
    (selectedState env row fields resourceType).lookup field =
      if field ∈ fields then (row.lookup field).map (canonicalize env resourceType field)
      else none := by
  induction fields with
  | nil => rfl
  | cons f fields ih =>
    unfold selectedState at ih ⊢
    by_cases hf : field = f
    · subst hf
      cases hv : row.lookup field with
      | none => simp [hv, ih]
      | some v => simp [hv]
    · cases hv : row.lookup f with
      | none => simp [hv, hf, ih]
      | some v => simp [hv, hf, ih, lookup_ne hf]

/-- A row that is a well-formed object. -/
abbrev Sound (row : Option Entries) : Prop := ∀ r ∈ row, WellFormed (.object r)

variable {field : JsString}

theorem sound_lookup {row : Option Entries} (h : Sound row) {v : Json}
    (hv : (row.bind fun r => r.lookup field) = some v) : WellFormed v := by
  obtain ⟨r, hr, hlookup⟩ := bind_eq_some_iff.mp hv
  cases h r hr with
  | object inner _ => exact inner _ (lookup_mem hlookup)

/-- The text of a tracked field, as it is compared. -/
theorem fieldText_eq (row : Option Entries) (h : field ∈ spec.trackedFields) :
    fieldText (comparable env spec resourceType row) field =
      (row.bind fun r => r.lookup field).map fun v =>
        stringify (canonicalize env resourceType field v) := by
  cases row with
  | none => rfl
  | some r =>
    simp only [fieldText, comparable, map_some, bind_some, lookup_selectedState,
      if_pos h, Option.map_map, Function.comp_def]

theorem mem_changedFields {before after : Option Entries} (hb : Sound before) (ha : Sound after)
    (field : JsString) :
    field ∈ changedFields env spec resourceType before after ↔
      field ∈ spec.trackedFields ∧
        ¬Option.Rel (Rearranged (unorderedIn resourceType) (some field))
          (before.bind fun r => r.lookup field) (after.bind fun r => r.lookup field) := by
  rw [changedFields, mem_filter]
  refine and_congr_right fun htracked => ?_
  rw [bne_iff_ne, ne_eq, fieldText_eq before htracked, fieldText_eq after htracked, not_iff_not]
  cases hv : before.bind fun r => r.lookup field with
  | none => cases hw : after.bind fun r => r.lookup field <;> simp
  | some v =>
    cases hw : after.bind fun r => r.lookup field with
    | none => simp
    | some w =>
      have hiff := @arrange_eq_iff env.collation (unorderedIn resourceType) (some field) v w
        (sound_lookup hb hv) (sound_lookup ha hw)
      simp only [map_some, Option.some.injEq, rel_some_some]
      rw [← hiff]
      exact stringify_injective.eq_iff

/-- Equal states have no field that differs. -/
theorem changedFields_unchanged {before after : Option Entries}
    (h : unchanged (comparable env spec resourceType before)
      (comparable env spec resourceType after) = true) :
    changedFields env spec resourceType before after = [] := by
  have hsame : comparable env spec resourceType before =
      comparable env spec resourceType after := by
    unfold unchanged at h
    split at h
    · rename_i b a hb ha
      rw [hb, ha, Json.object.inj (stringify_injective (beq_iff_eq.mp h))]
    · cases h
  rw [changedFields, filter_eq_nil_iff]
  intro field _
  simp [hsame]

/-! ## The evidence of one identifier -/

theorem differenceOf_eq (input : SnapshotInput) (identifier : JsString)
    (before after : Option Entries) :
    differenceOf env spec input identifier before after =
      if changedFields env spec input.resourceType before after = [] then none
      else some (evidenceOf env spec input identifier before after
        (changedFields env spec input.resourceType before after)) := by
  rw [differenceOf]
  by_cases hchanged : changedFields env spec input.resourceType before after = []
  · simp [hchanged]
  · have hstate : unchanged (comparable env spec input.resourceType before)
        (comparable env spec input.resourceType after) = false := by
      by_contra h
      exact hchanged (changedFields_unchanged (by simpa using h))
    simp [hchanged, hstate]

/-! ## The join of two payloads -/

variable {t : JsString}

theorem mem_byIdentifier :
    (t, row) ∈ byIdentifier spec rows ↔
      row ∈ rows ∧ ∃ o, identity spec row = some o ∧ joined o = t := by
  simp only [byIdentifier, mem_filterMap, identifierFor_eq]
  constructor
  · rintro ⟨w, hw, h⟩
    obtain ⟨s, hs, heq⟩ := map_eq_some_iff.mp h
    obtain ⟨o, ho, rfl⟩ := map_eq_some_iff.mp hs
    cases heq
    exact ⟨hw, o, ho, rfl⟩
  · rintro ⟨hrow, o, ho, rfl⟩
    exact ⟨row, hrow, by rw [ho]; rfl⟩

/-- An identifier that one object has alone leads to its row. -/
theorem get_byIdentifier (h : Distinct spec rows)
    (clear : ∀ row ∈ rows, ∀ o', identity spec row = some o' → joined o' = joined o → o' = o) :
    (JsMap.ofList (byIdentifier spec rows)).get? (joined o) = rowOf spec rows o := by
  cases hrow : rowOf spec rows o with
  | none =>
    apply JsMap.get?_ofList_eq_none
    intro hkey
    obtain ⟨⟨t, row⟩, hmem, rfl⟩ := List.mem_map.mp hkey
    obtain ⟨hrows, o', ho', heq⟩ := mem_byIdentifier.mp hmem
    have hsame := clear row hrows o' ho' heq
    have hfound := (rowOf_iff h).mpr ⟨hrows, hsame ▸ ho'⟩
    rw [hrow] at hfound
    cases hfound
  | some row =>
    obtain ⟨hrows, ho⟩ := (rowOf_iff h).mp hrow
    apply JsMap.get?_ofList_only (mem_byIdentifier.mpr ⟨hrows, o, ho, rfl⟩)
    intro w hw
    obtain ⟨hw, o', ho', heq⟩ := mem_byIdentifier.mp hw
    exact h.unique hw hrows (clear w hw o' ho' heq ▸ ho') ho

theorem wellFormed_put {entries : Entries} (h : WellFormed (.object entries)) {name : JsString}
    {v : Json} (hv : WellFormed v) : WellFormed (.object (JsMap.put name v entries)) := by
  cases h with
  | object inner distinct =>
    constructor
    · intro e he
      rcases mem_put he with rfl | he
      · exact hv
      · exact inner e he
    · exact JsMap.nodup_put distinct v

theorem evidenceRow_wellFormed (h : WellFormed (.object row)) :
    WellFormed (.object (evidenceRow env.domainToASCII resourceType row)) := by
  unfold evidenceRow
  split
  · exact h
  · split
    · exact wellFormed_put h (.string _)
    · exact h

/-- A row of a payload is one of its objects. -/
theorem mem_rowsOf {payload : Payload} (h : row ∈ rowsOf env resourceType payload) :
    ∃ raw, WellFormed (.object raw) ∧ row = evidenceRow env.domainToASCII resourceType raw := by
  obtain ⟨raw, hraw, rfl⟩ := List.mem_map.mp h
  refine ⟨raw, ?_, rfl⟩
  obtain ⟨item, hitem, rfl⟩ := List.mem_map.mp (mem_filter.mp hraw).1
  obtain ⟨v, hv⟩ := payload
  have hwell : WellFormed item := by
    cases hv with
    | array inner => exact inner item hitem
    | _ => cases hitem
  cases hwell with
  | object inner distinct => exact .object inner distinct
  | _ => exact .object nofun nodup_nil

/-- The row of a payload under an identifier. -/
def rowAt (env : Environment) (spec : SnapshotDifferenceSpec) (resourceType : JsString)
    (payload : Payload) (t : JsString) : Option Entries :=
  (JsMap.ofList (byIdentifier spec (rowsOf env resourceType payload))).get? t

/-- The identifiers of both payloads, each of them once. -/
def identifiersOf (env : Environment) (spec : SnapshotDifferenceSpec) (input : SnapshotInput) :
    List JsString :=
  (JsSet.ofList
    ((JsMap.ofList (byIdentifier spec
      (rowsOf env input.resourceType input.previousPayload))).entries.map Prod.fst ++
    (JsMap.ofList (byIdentifier spec
      (rowsOf env input.resourceType input.currentPayload))).entries.map Prod.fst)).elements

theorem build_eq (input : SnapshotInput)
    (known : SNAPSHOT_DIFFERENCE_SPECS.lookup input.resourceType = some spec)
    (given : input.previousPayload.1 ≠ .null) :
    buildSnapshotDifferenceEvidence env input =
      (identifiersOf env spec input).filterMap fun t => differenceOf env spec input t
        (rowAt env spec input.resourceType input.previousPayload t)
        (rowAt env spec input.resourceType input.currentPayload t) := by
  rw [buildSnapshotDifferenceEvidence, known]
  split
  · rename_i h
    cases h
  · rename_i h _
    exact absurd h given
  · rename_i h _
    cases h
    rfl

theorem mem_identifiersOf {input : SnapshotInput} :
    t ∈ identifiersOf env spec input ↔
      ∃ row o, (row ∈ rowsOf env input.resourceType input.previousPayload ∨
        row ∈ rowsOf env input.resourceType input.currentPayload) ∧
        identity spec row = some o ∧ joined o = t := by
  have hkeys (rows : List Entries) : t ∈ (byIdentifier spec rows).map Prod.fst ↔
      ∃ row o, row ∈ rows ∧ identity spec row = some o ∧ joined o = t := by
    rw [List.mem_map]
    constructor
    · rintro ⟨⟨t, row⟩, hmem, rfl⟩
      obtain ⟨hrow, o, ho⟩ := mem_byIdentifier.mp hmem
      exact ⟨row, o, hrow, ho⟩
    · rintro ⟨row, o, hrow, ho, rfl⟩
      exact ⟨_, mem_byIdentifier.mpr ⟨hrow, o, ho, rfl⟩, rfl⟩
  rw [identifiersOf, JsSet.mem_ofList, mem_append, JsMap.mem_keys_ofList,
    JsMap.mem_keys_ofList, hkeys, hkeys]
  constructor
  · rintro (⟨row, o, hrow, ho⟩ | ⟨row, o, hrow, ho⟩)
    · exact ⟨row, o, .inl hrow, ho⟩
    · exact ⟨row, o, .inr hrow, ho⟩
  · rintro ⟨row, o, hrow | hrow, ho⟩
    · exact .inl ⟨row, o, hrow, ho⟩
    · exact .inr ⟨row, o, hrow, ho⟩

namespace Comparison

variable (r : Comparison env) {q : Occasion} {o : List JsString}

theorem before_sound : Sound (r.before o) := by
  intro row hrow
  obtain ⟨raw, hraw, rfl⟩ := mem_rowsOf ((rowOf_iff r.previousDistinct).mp hrow).1
  exact evidenceRow_wellFormed hraw

theorem after_sound : Sound (r.after o) := by
  intro row hrow
  obtain ⟨raw, hraw, rfl⟩ := mem_rowsOf ((rowOf_iff r.currentDistinct).mp hrow).1
  exact evidenceRow_wellFormed hraw

theorem evidence_eq (q : Occasion) :
    r.evidence q = (identifiersOf env r.spec (r.input q)).filterMap fun t =>
      differenceOf env r.spec (r.input q) t (rowAt env r.spec r.resourceType r.previous t)
        (rowAt env r.spec r.resourceType r.current t) := build_eq (r.input q) r.known r.given

/-- Two objects of the comparison do not share an identifier. -/
def Clear : Prop := ∀ o o', r.Occurs o → r.Occurs o' → joined o = joined o' → o = o'

variable {row : Entries}

theorem occurs_previous (hrow : row ∈ rowsOf env r.resourceType r.previous)
    (ho : identity r.spec row = some o) : r.Occurs o := by
  have h : r.before o = some row := (rowOf_iff r.previousDistinct).mpr ⟨hrow, ho⟩
  exact .inl (by rw [h]; rfl)

theorem occurs_current (hrow : row ∈ rowsOf env r.resourceType r.current)
    (ho : identity r.spec row = some o) : r.Occurs o := by
  have h : r.after o = some row := (rowOf_iff r.currentDistinct).mpr ⟨hrow, ho⟩
  exact .inr (by rw [h]; rfl)

/-- The identifiers are those of the objects. -/
theorem mem_identifiers {t : JsString} :
    t ∈ identifiersOf env r.spec (r.input q) ↔ ∃ o, r.Occurs o ∧ joined o = t := by
  rw [mem_identifiersOf]
  constructor
  · rintro ⟨row, o, hrow | hrow, ho, heq⟩
    · exact ⟨o, r.occurs_previous hrow ho, heq⟩
    · exact ⟨o, r.occurs_current hrow ho, heq⟩
  · rintro ⟨o, h | h, heq⟩
    · obtain ⟨row, h⟩ := isSome_iff_exists.mp h
      obtain ⟨hrow, ho⟩ := (rowOf_iff r.previousDistinct).mp h
      exact ⟨row, o, .inl hrow, ho, heq⟩
    · obtain ⟨row, h⟩ := isSome_iff_exists.mp h
      obtain ⟨hrow, ho⟩ := (rowOf_iff r.currentDistinct).mp h
      exact ⟨row, o, .inr hrow, ho, heq⟩

/-- The evidence of one object. -/
def itemOf (q : Occasion) (o : List JsString) : Option SnapshotDifferenceEvidence :=
  differenceOf env r.spec (r.input q) (joined o) (r.before o) (r.after o)

variable {item : SnapshotDifferenceEvidence}

theorem mem_evidence (hclear : r.Clear) :
    item ∈ r.evidence q ↔ ∃ o, r.Occurs o ∧ r.itemOf q o = some item := by
  have hget {o : List JsString} (ho : r.Occurs o) :
      differenceOf env r.spec (r.input q) (joined o)
        (rowAt env r.spec r.resourceType r.previous (joined o))
        (rowAt env r.spec r.resourceType r.current (joined o)) = r.itemOf q o := by
    rw [rowAt, rowAt, get_byIdentifier r.previousDistinct fun row hrow o' ho' heq =>
        hclear o' o (r.occurs_previous hrow ho') ho heq,
      get_byIdentifier r.currentDistinct fun row hrow o' ho' heq =>
        hclear o' o (r.occurs_current hrow ho') ho heq]
    rfl
  rw [evidence_eq, mem_filterMap]
  constructor
  · rintro ⟨t, ht, hitem⟩
    obtain ⟨o, ho, rfl⟩ := r.mem_identifiers.mp ht
    exact ⟨o, ho, (hget ho).symm.trans hitem⟩
  · rintro ⟨o, ho, hitem⟩
    exact ⟨joined o, r.mem_identifiers.mpr ⟨o, ho, rfl⟩, (hget ho).trans hitem⟩

theorem itemOf_eq (q : Occasion) (o : List JsString) :
    r.itemOf q o =
      if changedFields env r.spec r.resourceType (r.before o) (r.after o) = [] then none
      else some (evidenceOf env r.spec (r.input q) (joined o) (r.before o) (r.after o)
        (changedFields env r.spec r.resourceType (r.before o) (r.after o))) :=
  differenceOf_eq (r.input q) (joined o) (r.before o) (r.after o)

variable {field : JsString}

theorem mem_changed :
    field ∈ changedFields env r.spec r.resourceType (r.before o) (r.after o) ↔
      r.Differs o field :=
  mem_changedFields r.before_sound r.after_sound field

theorem itemOf_reports (h : r.itemOf q o = some item) :
    r.Reports o item ∧ (∃ field, r.Differs o field) ∧ item.sourceEventId =
      sourceEventId env r.resourceType item.targetId item.changedFields r.baseline := by
  rw [itemOf_eq] at h
  split at h
  · cases h
  · rename_i hchanged
    obtain ⟨field, hfield⟩ := exists_mem_of_ne_nil _ hchanged
    cases Option.some.inj h
    refine ⟨⟨rfl, filter_sublist, fun f => r.mem_changed⟩, ?_, rfl⟩
    exact ⟨field, r.mem_changed.mp hfield⟩

theorem itemOf_differs (h : r.Differs o field) :
    ∃ item, r.itemOf q o = some item := by
  have hne := ne_nil_of_mem (r.mem_changed.mpr h)
  rw [itemOf_eq, if_neg hne]
  exact ⟨_, rfl⟩

theorem occurs_of_differs (h : r.Differs o field) : r.Occurs o := by
  by_contra hnone
  rw [Occurs, not_or, not_isSome_iff_eq_none, not_isSome_iff_eq_none] at hnone
  apply h.2
  rw [hnone.1, hnone.2]
  exact .none

/-- Each identifier is reported once. -/
theorem targets_nodup (q : Occasion) : ((r.evidence q).map (·.targetId)).Nodup := by
  have hsublist : ((r.evidence q).map (·.targetId)).Sublist
      ((identifiersOf env r.spec (r.input q)).map id) := by
    rw [evidence_eq]
    apply DistinctKeys.sublist_filterMap
    intro t item h
    rw [differenceOf_eq] at h
    split at h
    · cases h
    · cases Option.some.inj h
      rfl
  rw [List.map_id] at hsublist
  exact (JsSet.nodup_elements _).sublist hsublist

/-- With clear identifiers there is one item for each object that changed. -/
theorem evidence_exact (hclear : r.Clear) (q : Occasion) : r.Exact (r.evidence q) := by
  have hfor : ∀ item ∈ r.evidence q, ∃ o, r.Occurs o ∧ r.itemOf q o = some item :=
    fun item hitem => (r.mem_evidence hclear).mp hitem
  choose! about hoccurs hitem using hfor
  have hreports : ∀ item ∈ r.evidence q, r.Reports (about item) item := fun item h =>
    (r.itemOf_reports (hitem item h)).1
  refine ⟨(r.evidence q).map about, ?_, ?_, ?_⟩
  · have htargets : ((r.evidence q).map about).map joined =
        (r.evidence q).map (·.targetId) := by
      rw [List.map_map]
      apply map_congr_left
      intro item h
      exact (hreports item h).target.symm
    exact List.Nodup.of_map joined (htargets ▸ r.targets_nodup q)
  · intro o
    rw [List.mem_map]
    constructor
    · rintro ⟨item, h, rfl⟩
      exact (r.itemOf_reports (hitem item h)).2.1
    · rintro ⟨field, hdiffers⟩
      obtain ⟨item, ho⟩ := r.itemOf_differs (q := q) hdiffers
      have hmem := (r.mem_evidence hclear).mpr ⟨o, r.occurs_of_differs hdiffers, ho⟩
      refine ⟨item, hmem, ?_⟩
      apply hclear _ _ (hoccurs item hmem) (r.occurs_of_differs hdiffers)
      rw [← (hreports item hmem).target, (r.itemOf_reports ho).1.target]
  · rw [forall₂_map_left_iff, forall₂_same]
    exact hreports

/-- Two payloads with the same rows in two orders. -/
def Reordered (v w : Payload) : Prop := (array v.1).Perm (array w.1)

theorem rowsOf_perm {v w : Payload} (h : Reordered v w) :
    (rowsOf env resourceType v).Perm (rowsOf env resourceType w) :=
  ((h.map _).filter _).map _

theorem rowOf_perm {rows others : List Entries} (h : rows.Perm others)
    (distinct : Distinct spec rows) (distinct' : Distinct spec others) (o : List JsString) :
    rowOf spec rows o = rowOf spec others o := by
  apply Option.ext
  intro row
  rw [rowOf_iff distinct, rowOf_iff distinct', h.mem_iff]

/-- The same comparison with the rows of its payloads in two orders. -/
structure Shuffled (r s : Comparison env) : Prop where
  resourceType : s.resourceType = r.resourceType
  baseline : s.baseline = r.baseline
  previous : Reordered s.previous r.previous
  current : Reordered s.current r.current

section Shuffled

variable {r s : Comparison env} (h : Shuffled r s)

include h

theorem Shuffled.spec_eq : s.spec = r.spec := by
  have hknown := s.known
  rw [h.resourceType, r.known] at hknown
  exact (Option.some.inj hknown).symm

theorem Shuffled.before (o : List JsString) : s.before o = r.before o := by
  have hdistinct := s.previousDistinct
  rw [Comparison.before, Comparison.before, h.spec_eq, h.resourceType]
  rw [h.spec_eq, h.resourceType] at hdistinct
  exact rowOf_perm (rowsOf_perm h.previous) hdistinct r.previousDistinct o

theorem Shuffled.after (o : List JsString) : s.after o = r.after o := by
  have hdistinct := s.currentDistinct
  rw [Comparison.after, Comparison.after, h.spec_eq, h.resourceType]
  rw [h.spec_eq, h.resourceType] at hdistinct
  exact rowOf_perm (rowsOf_perm h.current) hdistinct r.currentDistinct o

theorem Shuffled.occurs (o : List JsString) : s.Occurs o ↔ r.Occurs o := by
  rw [Occurs, Occurs, h.before, h.after]

theorem Shuffled.clear (hclear : r.Clear) : s.Clear := fun o o' ho ho' =>
  hclear o o' ((h.occurs o).mp ho) ((h.occurs o').mp ho')

theorem Shuffled.itemOf (o : List JsString) : s.itemOf q o = r.itemOf q o := by
  rw [itemOf_eq, itemOf_eq, h.before, h.after, h.spec_eq, h.resourceType]
  simp only [evidenceOf, input, h.resourceType, h.baseline]

/-- The items do not depend on the order of the rows. -/
theorem Shuffled.evidence (hclear : r.Clear) : (s.evidence q).Perm (r.evidence q) := by
  have hnodup (t : Comparison env) : (t.evidence q).Nodup :=
    List.Nodup.of_map (·.targetId) (t.targets_nodup q)
  rw [perm_ext_iff_of_nodup (hnodup s) (hnodup r)]
  intro item
  rw [mem_evidence _ (h.clear hclear), mem_evidence _ hclear]
  apply exists_congr
  intro o
  rw [h.occurs, h.itemOf]

end Shuffled

end Comparison

end ChangeEvidence
