import HawkView.Changes.SnapshotDifference
import HawkView.Lib.FirstHit

/-!
# The ids of snapshot differences

An id is a text with the resource type, the identifier and a digest, cut at two
hundred units. Ids tell differences apart when the objects have identifiers of
their own and leave room for the whole digest.
-/

namespace ChangeEvidence

open Json List Option

variable {env : Environment} {resourceType resourceType' i i' : JsString}
  {changed changed' : List JsString} {baseline baseline' : Option Date}

/-! ## What an id says -/

theorem fingerprintText_inj
    (h : fingerprintText resourceType i changed baseline =
      fingerprintText resourceType' i' changed' baseline') :
    resourceType = resourceType' ∧ i = i' ∧ changed = changed' ∧ baseline = baseline' := by
  have hentries := Json.object.inj (stringify_injective h)
  simp only [List.cons.injEq, Prod.mk.injEq, true_and, Json.string.injEq, Json.array.injEq,
    and_true] at hentries
  obtain ⟨htype, hi, hchanged, hbaseline⟩ := hentries
  refine ⟨htype, hi, List.map_injective_iff.mpr (fun s t h => Json.string.inj h) hchanged, ?_⟩
  cases baseline with
  | none =>
    cases baseline' with
    | none => rfl
    | some u => cases hbaseline
  | some t =>
    cases baseline' with
    | none => cases hbaseline
    | some u =>
      have htime := IsoTime.toISOString_inj t.2 u.2 (Json.string.inj hbaseline)
      exact congrArg some (Subtype.ext htime)

/-- A digest as `sha256` gives it. -/
def Hexadecimal (sha256 : JsString → JsString) : Prop :=
  ∀ s, (sha256 s).length = 64 ∧
    ∀ c ∈ sha256 s, 0x30 ≤ c ∧ c ≤ 0x39 ∨ 0x61 ≤ c ∧ c ≤ 0x66

/-- An id with its separators. -/
theorem sourceEventId_eq (env : Environment) (resourceType i : JsString) (changed : List JsString)
    (baseline : Option Date) :
    sourceEventId env resourceType i changed baseline =
      (resourceType ++ 0x3A :: (i ++ 0x3A :: (env.sha256 (fingerprintText resourceType i changed
        baseline)).take 24)).take 200 := by
  simp [sourceEventId, show js ":" = [0x3A] from rfl]

/-- The first part of an id is its resource type. -/
theorem resourceType_eq (ht : Legible resourceType) (ht' : Legible resourceType')
    (h : sourceEventId env resourceType i changed baseline =
      sourceEventId env resourceType' i' changed' baseline') : resourceType = resourceType' := by
  have hfront (t rest : JsString) (hlegible : Legible t) :
      splitFirst 0x3A ((t ++ 0x3A :: rest).take 200) = some (t, rest.take (199 - t.length)) := by
    have hlength := hlegible.1
    rw [take_append, take_of_length_le (by omega),
      show 200 - t.length = (199 - t.length) + 1 by omega, take_succ_cons]
    exact splitFirst_append hlegible.2 _
  rw [sourceEventId_eq, sourceEventId_eq] at h
  have hsplit := congrArg (splitFirst 0x3A) h
  rw [hfront _ _ ht, hfront _ _ ht'] at hsplit
  exact congrArg Prod.fst (Option.some.inj hsplit)

/-- An id that is not cut tells what was compared. -/
theorem parts_eq (hsha : Hexadecimal env.sha256) (hi : resourceType.length + i.length ≤ 174)
    (hi' : resourceType.length + i'.length ≤ 174)
    (h : sourceEventId env resourceType i changed baseline =
      sourceEventId env resourceType i' changed' baseline') :
    i = i' ∧ (env.sha256 (fingerprintText resourceType i changed baseline)).take 24 =
      (env.sha256 (fingerprintText resourceType i' changed' baseline')).take 24 := by
  have hdigest (s : JsString) : ((env.sha256 s).take 24).length = 24 := by
    rw [length_take, (hsha s).1]
    rfl
  have hwhole (j s : JsString) (hj : resourceType.length + j.length ≤ 174) :
      (resourceType ++ 0x3A :: (j ++ 0x3A :: (env.sha256 s).take 24)).take 200 =
        resourceType ++ 0x3A :: (j ++ 0x3A :: (env.sha256 s).take 24) := by
    apply take_of_length_le
    have hlength := hdigest s
    simp only [length_append, length_cons]
    omega
  rw [sourceEventId_eq, sourceEventId_eq, hwhole _ _ hi, hwhole _ _ hi'] at h
  have hrest := (List.cons.inj (append_cancel_left h)).2
  have hparts := append_inj' hrest (by simp [hdigest])
  exact ⟨hparts.1, (List.cons.inj hparts.2).2⟩

variable {spec : SnapshotDifferenceSpec}

theorem spec_sound (known : SNAPSHOT_DIFFERENCE_SPECS.lookup resourceType = some spec) :
    Legible resourceType ∧ spec.Observant := by
  obtain ⟨front, rest, heq, _⟩ := List.lookup_eq_some_iff.mp known
  apply specs_sound (resourceType, spec)
  rw [heq]
  exact mem_append_right _ mem_cons_self

/-! ## The objects of a tenant -/

/-- An object that a row can be about. -/
def Possible (domainToASCII : JsString → JsString) (resourceType : JsString)
    (spec : SnapshotDifferenceSpec) (o : List JsString) : Prop :=
  ∃ row, WellFormed (.object row) ∧
    identity spec (evidenceRow domainToASCII resourceType row) = some o

/-- Objects of one type whose identifying values are joined to one text are the same. -/
def Separate (domainToASCII : JsString → JsString)
    (objects : JsString → List JsString → Prop) : Prop :=
  ∀ resourceType spec, SNAPSHOT_DIFFERENCE_SPECS.lookup resourceType = some spec →
    ∀ o o', Possible domainToASCII resourceType spec o → objects resourceType o →
      Possible domainToASCII resourceType spec o' → objects resourceType o' →
      joined o = joined o' → o = o'

/-- The identifiers of the objects leave room for the digest. -/
def Roomy (domainToASCII : JsString → JsString)
    (objects : JsString → List JsString → Prop) : Prop :=
  ∀ resourceType spec, SNAPSHOT_DIFFERENCE_SPECS.lookup resourceType = some spec →
    ∀ o, Possible domainToASCII resourceType spec o → objects resourceType o →
      resourceType.length + (joined o).length ≤ 174

namespace Comparison

variable (r s : Comparison env)

/-- The objects of both payloads are among the given ones. -/
def Within (objects : JsString → List JsString → Prop) : Prop :=
  ∀ o, r.Occurs o → objects r.resourceType o

/-- A text that the digest of an item is taken of. -/
def Hashed (t : JsString) : Prop :=
  ∃ q, ∃ item ∈ r.evidence q,
    t = fingerprintText r.resourceType item.targetId item.changedFields r.baseline

/-- The truncated digest tells apart the texts that two comparisons take it of. -/
def DigestInjective : Prop :=
  ∀ t u, r.Hashed t ∨ s.Hashed t → r.Hashed u ∨ s.Hashed u →
    (env.sha256 t).take 24 = (env.sha256 u).take 24 → t = u

/-- Items for different objects, against different baselines or with different changed fields
have different ids. -/
def Distinguishes : Prop :=
  ∀ q q' o o', ∀ item ∈ r.evidence q, ∀ item' ∈ s.evidence q',
    r.Reports o item → s.Reports o' item' →
    (r.resourceType, o) ≠ (s.resourceType, o') ∨ r.baseline ≠ s.baseline ∨
      item.changedFields ≠ item'.changedFields →
    item.sourceEventId ≠ item'.sourceEventId

/-- What the evidence of a comparison is to be, next to any other over the same objects. -/
structure Correct (objects : JsString → List JsString → Prop) : Prop where
  exact : ∀ q, r.Exact (r.evidence q)
  orderFree : ∀ s q, Shuffled r s → (s.evidence q).Perm (r.evidence q)
  distinguishes : ∀ s : Comparison env, s.Within objects → DigestInjective r s →
    Distinguishes r s
  repeats : ∀ q q',
    (r.evidence q).map (·.sourceEventId) = (r.evidence q').map (·.sourceEventId)

variable {r s} {objects : JsString → List JsString → Prop} {o : List JsString}

theorem possible_of_occurs (h : r.Occurs o) :
    Possible env.domainToASCII r.resourceType r.spec o := by
  rcases h with h | h
  · obtain ⟨row, h⟩ := isSome_iff_exists.mp h
    obtain ⟨hrow, ho⟩ := (rowOf_iff r.previousDistinct).mp h
    obtain ⟨raw, hraw, rfl⟩ := mem_rowsOf hrow
    exact ⟨raw, hraw, ho⟩
  · obtain ⟨row, h⟩ := isSome_iff_exists.mp h
    obtain ⟨hrow, ho⟩ := (rowOf_iff r.currentDistinct).mp h
    obtain ⟨raw, hraw, rfl⟩ := mem_rowsOf hrow
    exact ⟨raw, hraw, ho⟩

theorem Within.clear (h : r.Within objects) (separate : Separate env.domainToASCII objects) :
    r.Clear := fun o o' ho ho' =>
  separate r.resourceType r.spec r.known o o' (possible_of_occurs ho) (h o ho)
    (possible_of_occurs ho') (h o' ho')

theorem legible (r : Comparison env) : Legible r.resourceType := (spec_sound r.known).1

/-- What is known of an item: its object, its target and its id. -/
structure Stands (r : Comparison env) (o : List JsString) (item : SnapshotDifferenceEvidence) :
    Prop where
  occurs : r.Occurs o
  target : item.targetId = joined o
  id : item.sourceEventId =
    sourceEventId env r.resourceType item.targetId item.changedFields r.baseline

theorem stands (hclear : r.Clear) {q : Occasion} {item : SnapshotDifferenceEvidence}
    (hitem : item ∈ r.evidence q) (hreports : r.Reports o item) : r.Stands o item := by
  obtain ⟨p, _, hp⟩ := (r.mem_evidence hclear).mp hitem
  obtain ⟨hown, ⟨field, hdiffers⟩, hid⟩ := r.itemOf_reports hp
  have hfield := (hown.exact field).mpr hdiffers
  exact ⟨r.occurs_of_differs ((hreports.exact field).mp hfield), hreports.target, hid⟩

theorem spec_eq (h : r.resourceType = s.resourceType) : r.spec = s.spec := by
  have hknown := r.known
  rw [h, s.known] at hknown
  exact (Option.some.inj hknown).symm

theorem distinguishes (hsha : Hexadecimal env.sha256) (hr : r.Within objects)
    (hs : s.Within objects) (separate : Separate env.domainToASCII objects)
    (roomy : Roomy env.domainToASCII objects) (injective : DigestInjective r s) :
    Distinguishes r s := by
  intro q q' o o' item hitem item' hitem' hreports hreports' hdiffer hid
  have hstands := stands (hr.clear separate) hitem hreports
  have hstands' := stands (hs.clear separate) hitem' hreports'
  have hroom := roomy _ _ r.known o (possible_of_occurs hstands.occurs) (hr o hstands.occurs)
  have hroom' := roomy _ _ s.known o' (possible_of_occurs hstands'.occurs)
    (hs o' hstands'.occurs)
  have htexts := (hstands.id.symm.trans hid).trans hstands'.id
  have htype := resourceType_eq r.legible s.legible htexts
  rw [← hstands.target] at hroom
  rw [← hstands'.target, ← htype] at hroom'
  rw [← htype] at htexts
  obtain ⟨htarget, hdigest⟩ := parts_eq hsha hroom hroom' htexts
  have htext := injective _ _ (.inl ⟨q, item, hitem, rfl⟩)
    (.inr ⟨q', item', hitem', rfl⟩) (htype ▸ hdigest)
  obtain ⟨_, _, hchanged, hbaseline⟩ := fingerprintText_inj htext
  have hobject : o = o' := by
    have hpossible' := possible_of_occurs hstands'.occurs
    have hmember' := hs o' hstands'.occurs
    rw [← spec_eq htype, ← htype] at hpossible'
    rw [← htype] at hmember'
    apply separate _ _ r.known o o' (possible_of_occurs hstands.occurs) (hr o hstands.occurs)
      hpossible' hmember'
    rw [← hstands.target, htarget, hstands'.target]
  rcases hdiffer with h | h | h
  · exact h (by rw [htype, hobject])
  · exact h hbaseline
  · exact h hchanged

/-- The ids are the same on every occasion. -/
theorem repeats (r : Comparison env) (q q' : Occasion) :
    (r.evidence q).map (·.sourceEventId) = (r.evidence q').map (·.sourceEventId) := by
  rw [evidence_eq, evidence_eq, map_filterMap, map_filterMap]
  congr 1
  funext t
  generalize rowAt env r.spec r.resourceType r.previous t = b
  generalize rowAt env r.spec r.resourceType r.current t = a
  rw [differenceOf_eq, differenceOf_eq, show (r.input q).resourceType = r.resourceType from rfl,
    show (r.input q').resourceType = r.resourceType from rfl]
  by_cases h : changedFields env r.spec r.resourceType b a = []
  · rw [if_pos h, if_pos h]
  · rw [if_neg h, if_neg h]
    rfl

theorem correct (hsha : Hexadecimal env.sha256) (separate : Separate env.domainToASCII objects)
    (roomy : Roomy env.domainToASCII objects) (hr : r.Within objects) : r.Correct objects where
  exact := r.evidence_exact (hr.clear separate)
  orderFree _ _ h := h.evidence (hr.clear separate)
  distinguishes _ hs injective := distinguishes hsha hr hs separate roomy injective
  repeats := r.repeats

end Comparison

/-! ## Objects that appear -/

variable {domainToASCII : JsString → JsString} {field : JsString}

theorem lookup_evidenceRow (row : Entries) (hfield : field ≠ js "name") :
    (evidenceRow domainToASCII resourceType row).lookup field = row.lookup field := by
  unfold evidenceRow
  split
  · rfl
  · split
    · rw [lookup_put, if_neg hfield.symm]
    · rfl

variable {row other : Entries}

theorem evidenceRow_congr (hname : row.lookup (js "name") = other.lookup (js "name"))
    (hfield : row.lookup field = other.lookup field) :
    (evidenceRow domainToASCII resourceType row).lookup field =
      (evidenceRow domainToASCII resourceType other).lookup field := by
  unfold evidenceRow
  rw [hname]
  split
  · exact hfield
  · split
    · rw [lookup_put, lookup_put, hfield]
    · exact hfield

variable {f g : JsString → Option JsString} {fields : List JsString}

theorem mapM_congr (h : ∀ field ∈ fields, f field = g field) : fields.mapM f = fields.mapM g := by
  induction fields with
  | nil => rfl
  | cons field fields ih =>
    rw [mapM_cons, mapM_cons, h field mem_cons_self,
      ih fun other hother => h other (mem_cons_of_mem _ hother)]

theorem identity_congr
    (h : ∀ field, field ∈ spec.identifierFields ∨ field ∈ spec.compoundIdentifierFields →
      row.lookup field = other.lookup field) :
    identity spec row = identity spec other := by
  unfold identity
  rw [mapM_congr fun field hfield => congrArg identifying (h field (.inr hfield)),
    FirstHit.findSome_congr fun field hfield => congrArg identifying (h field (.inl hfield))]

/-- Rows that are all new, against an empty payload. -/
structure Arrivals (env : Environment) where
  resourceType : JsString
  spec : SnapshotDifferenceSpec
  known : SNAPSHOT_DIFFERENCE_SPECS.lookup resourceType = some spec
  rows : List Entries
  sound : ∀ row ∈ rows, WellFormed (.object row)
  filled : ∀ row ∈ rows, row ≠ []
  baseline : Option Date
  distinct : Distinct spec (rows.map (evidenceRow env.domainToASCII resourceType))

namespace Arrivals

variable (a : Arrivals env)

def payload : Payload where
  val := .array (a.rows.map .object)
  property := by
    constructor
    intro v hv
    obtain ⟨row, hrow, rfl⟩ := List.mem_map.mp hv
    exact a.sound row hrow

theorem rowsOf_payload :
    rowsOf env a.resourceType a.payload =
      a.rows.map (evidenceRow env.domainToASCII a.resourceType) := by
  have hobjects : snapshotObjects a.payload.1 = a.rows := by
    simp only [snapshotObjects, payload, array, List.map_map]
    rw [show object ∘ Json.object = id from rfl, List.map_id, List.filter_eq_self]
    intro row hrow
    simpa using a.filled row hrow
  rw [rowsOf, evidenceRows, hobjects]

def comparison : Comparison env where
  resourceType := a.resourceType
  spec := a.spec
  known := a.known
  previous := ⟨.array [], .array nofun⟩
  current := a.payload
  baseline := a.baseline
  given := nofun
  previousDistinct := nodup_nil
  currentDistinct := by
    rw [a.rowsOf_payload]
    exact a.distinct

variable {a} {o : List JsString} {row : Entries}

theorem before_none (a : Arrivals env) (o : List JsString) : a.comparison.before o = none := rfl

theorem after_iff {shown : Entries} :
    a.comparison.after o = some shown ↔
      ∃ row ∈ a.rows, evidenceRow env.domainToASCII a.resourceType row = shown ∧
        identity a.spec shown = some o := by
  have hiff : a.comparison.after o = some shown ↔
      shown ∈ rowsOf env a.resourceType a.payload ∧ identity a.spec shown = some o :=
    rowOf_iff a.comparison.currentDistinct
  rw [hiff, a.rowsOf_payload, List.mem_map]
  constructor
  · rintro ⟨⟨row, hrow, rfl⟩, ho⟩
    exact ⟨row, hrow, rfl, ho⟩
  · rintro ⟨row, hrow, rfl, ho⟩
    exact ⟨⟨row, hrow, rfl⟩, ho⟩

theorem occurs_iff : a.comparison.Occurs o ↔
    ∃ row ∈ a.rows,
      identity a.spec (evidenceRow env.domainToASCII a.resourceType row) = some o := by
  rw [Comparison.Occurs, a.before_none]
  constructor
  · rintro (h | h)
    · cases h
    · obtain ⟨shown, h⟩ := isSome_iff_exists.mp h
      obtain ⟨row, hrow, rfl, ho⟩ := after_iff.mp h
      exact ⟨row, hrow, ho⟩
  · rintro ⟨row, hrow, ho⟩
    have h := after_iff.mpr ⟨row, hrow, rfl, ho⟩
    exact .inr (by rw [h]; rfl)

end Arrivals

/-! ## Rows that show a tracked field -/

/-- A row that is about the object and shows the field. -/
structure Shows (domainToASCII : JsString → JsString) (resourceType : JsString)
    (spec : SnapshotDifferenceSpec) (field : JsString) (o : List JsString) (row : Entries) :
    Prop where
  sound : WellFormed (.object row)
  filled : row ≠ []
  about : identity spec (evidenceRow domainToASCII resourceType row) = some o
  shown : (evidenceRow domainToASCII resourceType row).lookup field = some (.bool true)

variable {o : List JsString}

theorem exists_shows
    (apart : field ∉ spec.identifierFields ∧ field ∉ spec.compoundIdentifierFields ∧
      field ≠ js "name")
    (possible : Possible domainToASCII resourceType spec o) :
    ∃ row, Shows domainToASCII resourceType spec field o row := by
  obtain ⟨row, hrow, ho⟩ := possible
  have hput {other : JsString} (h : other ≠ field) :
      (JsMap.put field (.bool true) row).lookup other = row.lookup other := by
    rw [lookup_put, if_neg h.symm]
  have hshown : (JsMap.put field (.bool true) row).lookup field = some (.bool true) := by
    rw [lookup_put, if_pos rfl]
  refine ⟨JsMap.put field (.bool true) row, wellFormed_put hrow (.bool true), ?_, ?_, ?_⟩
  · intro hempty
    rw [hempty] at hshown
    cases hshown
  · rw [← ho]
    apply identity_congr
    intro other hother
    have hne : other ≠ field := by
      rintro rfl
      rcases hother with h | h
      · exact apart.1 h
      · exact apart.2.1 h
    exact evidenceRow_congr (hput apart.2.2.symm) (hput hne)
  · rw [lookup_evidenceRow _ apart.2.2, hshown]

namespace Arrivals

variable {a : Arrivals env} {o : List JsString} {row : Entries} {field : JsString}

theorem differs (hrow : row ∈ a.rows) (tracked : field ∈ a.spec.trackedFields)
    (h : Shows env.domainToASCII a.resourceType a.spec field o row) :
    a.comparison.Differs o field := by
  have hafter := after_iff.mpr ⟨row, hrow, rfl, h.about⟩
  refine ⟨tracked, ?_⟩
  rw [a.before_none, hafter, bind_some, h.shown]
  exact nofun

end Arrivals

variable {r : Comparison env}

theorem exact_targets {changed : List (List JsString)} {items : List SnapshotDifferenceEvidence}
    (h : Forall₂ r.Reports changed items) :
    changed.map joined = items.map (·.targetId) := by
  induction h with
  | nil => rfl
  | cons head _ ih => rw [map_cons, map_cons, ih, head.target]

/-- A shared identifier has one item for two changes. -/
theorem not_exact {o' : List JsString} {field' : JsString} (h : r.Differs o field)
    (h' : r.Differs o' field') (hjoined : joined o = joined o') (hne : o ≠ o') (q : Occasion) :
    ¬r.Exact (r.evidence q) := by
  rintro ⟨changed, _, hchanged, hreports⟩
  have hunique : (changed.map joined).Nodup := exact_targets hreports ▸ r.targets_nodup q
  exact hne (inj_on_of_nodup_map hunique ((hchanged o).mpr ⟨field, h⟩)
    ((hchanged o').mpr ⟨field', h'⟩) hjoined)

def epoch : Date := ⟨0, by decide⟩

def later : Date := ⟨1, by decide⟩

variable {objects : JsString → List JsString → Prop}

/-- Where every comparison has one item for each change, identifiers are not shared. -/
theorem separate_of_exact
    (h : ∀ r : Comparison env, r.Within objects → ∀ q, r.Exact (r.evidence q)) :
    Separate env.domainToASCII objects := by
  intro resourceType spec known o o' possible member possible' member' hjoined
  by_contra hne
  obtain ⟨_, _, field, tracked, apart⟩ := spec_sound known
  obtain ⟨row, hrow⟩ := exists_shows apart possible
  obtain ⟨row', hrow'⟩ := exists_shows apart possible'
  let a : Arrivals env := {
    resourceType, spec, known
    rows := [row, row']
    sound := by simp [hrow.sound, hrow'.sound]
    filled := by simp [hrow.filled, hrow'.filled]
    baseline := none
    distinct := by simp [Distinct, hrow.about, hrow'.about, hne] }
  have hwithin : a.comparison.Within objects := by
    intro p hp
    obtain ⟨shown, hshown, hp⟩ := Arrivals.occurs_iff.mp hp
    rcases List.mem_pair.mp hshown with rfl | rfl
    · rw [Option.some.inj (hp.symm.trans hrow.about)]
      exact member
    · rw [Option.some.inj (hp.symm.trans hrow'.about)]
      exact member'
  exact not_exact (Arrivals.differs mem_cons_self tracked hrow)
    (Arrivals.differs (mem_cons_of_mem _ mem_cons_self) tracked hrow') hjoined hne
    ⟨[], [], epoch, epoch⟩ (h a.comparison hwithin _)

/-- A digest that tells one text from all others by its last unit that is kept. -/
def tellingDigest (t s : JsString) : JsString :=
  List.replicate 23 0x30 ++ (if s = t then 0x30 else 0x31) :: List.replicate 40 0x30

theorem tellingDigest_hexadecimal (t : JsString) : Hexadecimal (tellingDigest t) := by
  intro s
  constructor
  · simp [tellingDigest]
  · intro c hc
    rw [tellingDigest, mem_append, mem_cons, mem_replicate, mem_replicate] at hc
    rcases hc with ⟨_, rfl⟩ | rfl | ⟨_, rfl⟩
    · decide
    · split <;> decide
    · decide

theorem take_tellingDigest (t s : JsString) :
    (tellingDigest t s).take 24 =
      replicate 23 0x30 ++ [if s = t then 0x30 else 0x31] := by
  rw [tellingDigest, take_append, take_of_length_le (by simp), length_replicate]
  rfl

theorem tellingDigest_tells {t s u : JsString}
    (h : (tellingDigest t s).take 24 = (tellingDigest t u).take 24) : s = t ↔ u = t := by
  rw [take_tellingDigest, take_tellingDigest] at h
  have hunit := List.singleton_inj.mp (append_cancel_left h)
  by_cases hs : s = t <;> by_cases hu : u = t <;> simp [hs, hu] at hunit ⊢

/-- The cut takes away the last unit of the digest of a long identifier. -/
theorem id_cut (collation : Collation) (domainToASCII : JsString → JsString) (t : JsString)
    (long : 174 < resourceType.length + i.length) :
    sourceEventId ⟨collation, domainToASCII, tellingDigest t⟩ resourceType i changed baseline =
      sourceEventId ⟨collation, domainToASCII, tellingDigest t⟩ resourceType i changed'
        baseline' := by
  have hcut (u : UInt16) :
      (resourceType ++ 0x3A :: (i ++ 0x3A :: (replicate 23 0x30 ++ [u]))).take 200 =
        (resourceType ++ 0x3A :: (i ++ 0x3A :: replicate 23 0x30)).take 200 := by
    rw [show resourceType ++ 0x3A :: (i ++ 0x3A :: (replicate 23 0x30 ++ [u])) =
      (resourceType ++ 0x3A :: (i ++ 0x3A :: replicate 23 0x30)) ++ [u] by simp]
    apply take_append_of_le_length
    simp only [length_append, length_cons, length_replicate]
    omega
  rw [sourceEventId_eq, sourceEventId_eq, take_tellingDigest, take_tellingDigest, hcut, hcut]

/-! ## A single new row -/

section Single

variable {spec : SnapshotDifferenceSpec} {field : JsString} {o : List JsString} {row : Entries}

/-- One row that appears. -/
def single (known : SNAPSHOT_DIFFERENCE_SPECS.lookup resourceType = some spec)
    (h : Shows env.domainToASCII resourceType spec field o row) (baseline : Date) :
    Arrivals env where
  resourceType := resourceType
  spec := spec
  known := known
  rows := [row]
  sound := by simp [h.sound]
  filled := by simp [h.filled]
  baseline := some baseline
  distinct := by simp [Distinct, h.about]

variable (known : SNAPSHOT_DIFFERENCE_SPECS.lookup resourceType = some spec)
  (h : Shows env.domainToASCII resourceType spec field o row) (b : Date)

theorem single_occurs {p : List JsString} (hp : (single known h b).comparison.Occurs p) :
    p = o := by
  obtain ⟨shown, hshown, hp⟩ := Arrivals.occurs_iff.mp hp
  rw [mem_singleton.mp hshown] at hp
  exact Option.some.inj (hp.symm.trans h.about)

theorem single_clear : (single known h b).comparison.Clear := by
  intro p p' hp hp' _
  rw [single_occurs known h b hp, single_occurs known h b hp']

/-- The fields that the row brings. -/
def brought (env : Environment) (spec : SnapshotDifferenceSpec) (resourceType : JsString)
    (row : Entries) : List JsString :=
  changedFields env spec resourceType none (some (evidenceRow env.domainToASCII resourceType row))

theorem single_item {q : Occasion} {item : SnapshotDifferenceEvidence}
    (hmem : item ∈ (single known h b).comparison.evidence q) :
    item.targetId = joined o ∧ item.changedFields = brought env spec resourceType row ∧
      item.sourceEventId = sourceEventId env resourceType (joined o)
        (brought env spec resourceType row) (some b) := by
  obtain ⟨p, hp, hitem⟩ := ((single known h b).comparison.mem_evidence
    (single_clear known h b)).mp hmem
  obtain rfl := single_occurs known h b hp
  rw [Comparison.itemOf_eq, (single known h b).before_none,
    Arrivals.after_iff.mpr ⟨row, mem_singleton_self row, rfl, h.about⟩] at hitem
  split at hitem
  · cases hitem
  · cases Option.some.inj hitem
    exact ⟨rfl, rfl, rfl⟩

theorem single_reported (tracked : field ∈ spec.trackedFields) (q : Occasion) :
    ∃ item ∈ (single known h b).comparison.evidence q,
      (single known h b).comparison.Reports o item := by
  have hdiffers : (single known h b).comparison.Differs o field :=
    Arrivals.differs (mem_singleton_self row) tracked h
  obtain ⟨item, hitem⟩ := (single known h b).comparison.itemOf_differs (q := q) hdiffers
  refine ⟨item, ?_, ((single known h b).comparison.itemOf_reports hitem).1⟩
  exact ((single known h b).comparison.mem_evidence (single_clear known h b)).mpr
    ⟨o, (single known h b).comparison.occurs_of_differs hdiffers, hitem⟩

/-- Where the digest is cut, the row has one id against two baselines. -/
theorem single_indistinct {t : JsString} (tracked : field ∈ spec.trackedFields)
    (hsha : env.sha256 = tellingDigest t)
    (long : 174 < resourceType.length + (joined o).length) :
    ¬Comparison.Distinguishes (single known h epoch).comparison
      (single known h later).comparison := by
  intro hdistinguishes
  let q : Occasion := ⟨[], [], epoch, epoch⟩
  obtain ⟨item, hitem, hreports⟩ := single_reported known h epoch tracked q
  obtain ⟨item', hitem', hreports'⟩ := single_reported known h later tracked q
  have hbaseline : (single known h epoch).comparison.baseline ≠
      (single known h later).comparison.baseline := by
    show some epoch ≠ some later
    decide
  apply hdistinguishes q q o o item hitem item' hitem' hreports hreports' (.inr (.inl hbaseline))
  rw [(single_item known h epoch hitem).2.2, (single_item known h later hitem').2.2]
  have hcut : sourceEventId ⟨env.collation, env.domainToASCII, tellingDigest t⟩ resourceType
      (joined o) (brought env spec resourceType row) (some epoch) =
        sourceEventId ⟨env.collation, env.domainToASCII, tellingDigest t⟩ resourceType (joined o)
          (brought env spec resourceType row) (some later) :=
    id_cut env.collation env.domainToASCII t long
  rwa [← hsha] at hcut

theorem single_injective
    (hsha : env.sha256 = tellingDigest (fingerprintText resourceType (joined o)
      (brought env spec resourceType row) (some epoch))) :
    Comparison.DigestInjective (single known h epoch).comparison
      (single known h later).comparison := by
  have hhashed (b : Date) {t : JsString} (ht : (single known h b).comparison.Hashed t) :
      t = fingerprintText resourceType (joined o) (brought env spec resourceType row)
        (some b) := by
    obtain ⟨q, item, hmem, rfl⟩ := ht
    rw [(single_item known h b hmem).1, (single_item known h b hmem).2.1]
    rfl
  intro t u ht hu heq
  rw [hsha] at heq
  have htells := tellingDigest_tells heq
  have hboth {v : JsString}
      (hv : (single known h epoch).comparison.Hashed v ∨
        (single known h later).comparison.Hashed v) :
      v = fingerprintText resourceType (joined o) (brought env spec resourceType row)
          (some epoch) ∨
        v = fingerprintText resourceType (joined o) (brought env spec resourceType row)
          (some later) := hv.imp (hhashed epoch) (hhashed later)
  rcases hboth ht with ht | ht
  · rw [ht, htells.mp ht]
  · rcases hboth hu with hu | hu
    · rw [hu, htells.mpr hu]
    · rw [ht, hu]

end Single

/-- Where no digest lets two differences share an id, identifiers leave room for it. -/
theorem roomy_of_correct {collation : Collation}
    (h : ∀ sha256, Hexadecimal sha256 → ∀ r : Comparison ⟨collation, domainToASCII, sha256⟩,
      r.Within objects → r.Correct objects) :
    Roomy domainToASCII objects := by
  intro resourceType spec known o possible member
  by_contra hlong
  obtain ⟨_, _, field, tracked, apart⟩ := spec_sound known
  obtain ⟨row, hrow⟩ := exists_shows apart possible
  let t := fingerprintText resourceType (joined o)
    (brought ⟨collation, domainToASCII, id⟩ spec resourceType row) (some epoch)
  have hwithin (b : Date) :
      (@single ⟨collation, domainToASCII, tellingDigest t⟩ resourceType spec field o row known
        hrow b).comparison.Within objects := by
    intro p hp
    rw [single_occurs known hrow b hp]
    exact member
  have hcorrect := h (tellingDigest t) (tellingDigest_hexadecimal t) _ (hwithin epoch)
  have hdistinguishes :=
    hcorrect.distinguishes _ (hwithin later) (single_injective known hrow rfl)
  exact single_indistinct known hrow tracked rfl (Nat.lt_of_not_le hlong) hdistinguishes

/-- The evidence of the differences over some objects has one item for each change and ids
that tell changes apart, whatever the digest, exactly when the objects have identifiers of their
own and these leave room for the digest. -/
theorem difference_evidence_correct (collation : Collation)
    (domainToASCII : JsString → JsString) (objects : JsString → List JsString → Prop) :
    (∀ sha256, Hexadecimal sha256 → ∀ r : Comparison ⟨collation, domainToASCII, sha256⟩,
      r.Within objects → r.Correct objects) ↔
      Separate domainToASCII objects ∧ Roomy domainToASCII objects := by
  constructor
  · intro h
    refine ⟨?_, roomy_of_correct h⟩
    have hsha := tellingDigest_hexadecimal []
    exact @separate_of_exact ⟨collation, domainToASCII, tellingDigest []⟩ objects
      fun r hr => (h _ hsha r hr).exact
  · rintro ⟨separate, roomy⟩ sha256 hsha r hr
    exact Comparison.correct hsha separate roomy hr

/-! ## Differences that are lost -/

/-- A domain whose name fills the id. -/
def longDomain : JsString :=
  List.replicate 63 0x61 ++ 0x2E :: (List.replicate 63 0x61 ++ 0x2E ::
    (List.replicate 63 0x61 ++ js ".com"))

def longRow : Entries := [(js "name", .string longDomain), (js "isDefault", .bool true)]

theorem longRow_shows :
    Shows id (js "DOMAINS") DOMAINS (js "isDefault") [longDomain] longRow where
  sound := .object (by simp [longRow, WellFormed.string, WellFormed.bool]) (by decide +kernel)
  filled := nofun
  about := by decide +kernel
  shown := by
    rw [lookup_evidenceRow _ (by decide +kernel)]
    rfl

def sampleEnvironment : Environment where
  collation := .codeUnits
  domainToASCII := id
  sha256 := tellingDigest (fingerprintText (js "DOMAINS") (joined [longDomain])
    (brought ⟨.codeUnits, id, id⟩ DOMAINS (js "DOMAINS") longRow) (some epoch))

/-- A rule with the given mailbox and id. -/
def ruleRow (mailboxUserId id : JsString) : Entries :=
  [(js "mailboxUserId", .string mailboxUserId), (js "id", .string id),
    (js "isEnabled", .bool true)]

theorem ruleRow_shows {mailboxUserId ruleId : JsString}
    (h : identity EXCHANGE_MAILBOX_RULES (ruleRow mailboxUserId ruleId) =
      some [mailboxUserId, ruleId]) :
    Shows id (js "EXCHANGE_MAILBOX_RULES") EXCHANGE_MAILBOX_RULES (js "isEnabled")
      [mailboxUserId, ruleId] (ruleRow mailboxUserId ruleId) where
  sound := .object (by simp [ruleRow, WellFormed.string, WellFormed.bool])
    (by simp only [ruleRow, names, map_cons, map_nil]; decide +kernel)
  filled := nofun
  about := h
  shown := rfl

theorem ruleRow_first : identity EXCHANGE_MAILBOX_RULES (ruleRow (js "a::b") (js "c")) =
    some [js "a::b", js "c"] := by
  decide +kernel

theorem ruleRow_second : identity EXCHANGE_MAILBOX_RULES (ruleRow (js "a") (js "b::c")) =
    some [js "a", js "b::c"] := by
  decide +kernel

/-- Two rules of different mailboxes appear, with one identifier. -/
def clashingRules : Arrivals sampleEnvironment where
  resourceType := js "EXCHANGE_MAILBOX_RULES"
  spec := EXCHANGE_MAILBOX_RULES
  known := by rfl
  rows := [ruleRow (js "a::b") (js "c"), ruleRow (js "a") (js "b::c")]
  sound := by simp [(ruleRow_shows ruleRow_first).sound, (ruleRow_shows ruleRow_second).sound]
  filled := by simp [ruleRow]
  baseline := some epoch
  distinct := by
    unfold Distinct
    decide +kernel

/-- A domain appears. -/
def longDomainAppears (baseline : Date) : Arrivals sampleEnvironment :=
  single (by rfl) longRow_shows baseline

theorem difference_evidence_lost :
    ¬clashingRules.comparison.Exact
        (clashingRules.comparison.evidence ⟨[], [], epoch, epoch⟩) ∧
      Hexadecimal sampleEnvironment.sha256 ∧
      Comparison.DigestInjective (longDomainAppears epoch).comparison
        (longDomainAppears later).comparison ∧
      ¬Comparison.Distinguishes (longDomainAppears epoch).comparison
        (longDomainAppears later).comparison := by
  have htracked : js "isEnabled" ∈ EXCHANGE_MAILBOX_RULES.trackedFields := by decide +kernel
  refine ⟨?_, tellingDigest_hexadecimal _, single_injective _ _ ?_, ?_⟩
  · apply not_exact
      (Arrivals.differs mem_cons_self htracked (ruleRow_shows ruleRow_first))
      (Arrivals.differs (mem_cons_of_mem _ mem_cons_self) htracked
        (ruleRow_shows ruleRow_second))
    · decide +kernel
    · decide +kernel
  · rfl
  · exact single_indistinct _ _ (by decide +kernel) rfl (by decide +kernel)

end ChangeEvidence
