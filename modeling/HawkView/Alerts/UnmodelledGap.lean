import HawkView.Alerts.PolicyAgreement

/-!
# What the mapping of a policy leaves out

The residue of a policy keeps every path that is not modelled, save below an
own name `__proto__`: copying a policy by assignment loses such an entry.
-/

namespace UnmodelledGap

open Json PrivilegedChange ConditionalAccessModel PolicyAgreement List

variable {toLowerCase toUpperCase : JsString → JsString} {p q : Collected}

/-! ## The residue -/

def notProto (name : JsString) : Bool := name != PROTO

/-- No name on the path is `__proto__`. -/
abbrev ProtoFree (path : List Step) : Prop := path.all (Step.kept notProto) = true

theorem assigned_keeping : Keeping assigned notProto where
  perm _ := .refl _

theorem sorted_keeping : Keeping (fun entries => sortedEntries (assigned entries)) notProto where
  perm entries := by
    have h := sortedEntries_keeping.perm (assigned entries)
    rwa [filter_eq_self.mpr (fun _ _ => rfl)] at h

theorem wellFormed_clone (p : Collected) : WellFormed (structuredCloneOf p.value) :=
  assigned_keeping.wellFormed p.wellFormed

theorem wellFormed_deletes {v : Json} (h : WellFormed v) (paths : List ModelledPath) :
    WellFormed (paths.foldl (fun residue modelled => deleteAt residue modelled.path) v) := by
  induction paths generalizing v with
  | nil => exact h
  | cons modelled paths ih => exact ih (wellFormed_deleteAt h modelled.path)

/-- Deletions take away what stands at or below one of their paths. -/
theorem shapeAt_deletes (paths : List ModelledPath) (nonempty : ∀ m ∈ paths, m.path ≠ [])
    (v : Json) (path : List Step) :
    shapeAt (paths.foldl (fun residue modelled => deleteAt residue modelled.path) v) path =
      if ∃ m ∈ paths, m.path.map Step.key <+: path then none else shapeAt v path := by
  induction paths generalizing v with
  | nil => simp
  | cons m paths ih =>
    rw [foldl_cons, ih (fun n hn => nonempty n (by simp [hn]))]
    obtain ⟨name, rest, hpath⟩ := exists_cons_of_ne_nil (nonempty m (by simp))
    by_cases hrest : ∃ n ∈ paths, n.path.map Step.key <+: path
    · obtain ⟨n, hn, hle⟩ := hrest
      rw [if_pos ⟨n, hn, hle⟩, if_pos ⟨n, by simp [hn], hle⟩]
    · rw [if_neg hrest, hpath, shapeAt_deleteAt, ← hpath]
      by_cases hle : m.path.map Step.key <+: path
      · rw [if_pos hle, if_pos ⟨m, by simp, hle⟩]
      · rw [if_neg hle, if_neg]
        rintro ⟨n, hn, hle'⟩
        rcases mem_cons.mp hn with rfl | hn
        · exact hle hle'
        · exact hrest ⟨n, hn, hle'⟩

theorem wellFormed_residue (p : Collected) : WellFormed (residueOf p) :=
  wellFormed_deletes (wellFormed_clone p) _

theorem lossless_nonempty : ∀ m ∈ losslessPaths, m.path ≠ [] := by
  decide

theorem shapeAt_residue (p : Collected) (path : List Step) (h : ¬ Modelled path) :
    shapeAt (residueOf p) path =
      if path.all (Step.kept notProto) then shapeAt p.value path else none := by
  rw [residueOf, shapeAt_deletes _ lossless_nonempty, if_neg h]
  exact assigned_keeping.shapeAt p.wellFormed path

variable {path : List Step}

theorem shapeAt_residue_modelled (p : Collected) (h : Modelled path) :
    shapeAt (residueOf p) path = none := by
  rw [residueOf, shapeAt_deletes _ lossless_nonempty, if_pos h]

theorem shapeAt_sorted {v : Json} (hv : WellFormed v) (h : ProtoFree path) :
    shapeAt (sortKeysDeep v) path = shapeAt v path := by
  rw [sortKeysDeep, sorted_keeping.shapeAt hv, if_pos h]

/-! ## Equal fingerprints -/

/-- Distinct values stay distinct in the text that is digested. -/
def Injective (canonicalise : Canonicaliser) : Prop :=
  Function.Injective fun v => (canonicalise v).getD .null

variable {canonicalise : Canonicaliser}

/-- Equal fingerprints leave no difference outside `__proto__` and the lossless paths. -/
theorem fingerprint_reads (hinj : Injective canonicalise)
    (h : unmodelledFingerprintOf p canonicalise = unmodelledFingerprintOf q canonicalise)
    (path : List Step) (hpath : ¬ Modelled path) (hfree : ProtoFree path) :
    shapeAt p.value path = shapeAt q.value path := by
  have hsorted : sortKeysDeep (residueOf p) = sortKeysDeep (residueOf q) :=
    hinj (stringify_injective h)
  have hp := shapeAt_sorted (wellFormed_residue p) hfree
  have hq := shapeAt_sorted (wellFormed_residue q) hfree
  rw [shapeAt_residue p path hpath, if_pos hfree] at hp
  rw [shapeAt_residue q path hpath, if_pos hfree] at hq
  rw [← hp, ← hq, hsorted]

/-- Agreement outside `__proto__` and the lossless paths. -/
def AgreeElsewhere (p q : Collected) : Prop :=
  ∀ path, ¬ Modelled path → ProtoFree path → shapeAt p.value path = shapeAt q.value path

theorem residue_alike (h : AgreeElsewhere p q) : Alike (residueOf p) (residueOf q) := by
  intro path
  by_cases hmodelled : Modelled path
  · rw [shapeAt_residue_modelled p hmodelled, shapeAt_residue_modelled q hmodelled]
  · rw [shapeAt_residue p path hmodelled, shapeAt_residue q path hmodelled]
    by_cases hfree : path.all (Step.kept notProto)
    · rw [if_pos hfree, if_pos hfree, h path hmodelled hfree]
    · rw [if_neg hfree, if_neg hfree]

theorem fingerprint_eq (h : AgreeElsewhere p q) (canonicalise : Canonicaliser) :
    unmodelledFingerprintOf p canonicalise = unmodelledFingerprintOf q canonicalise := by
  have hsorted : sortKeysDeep (residueOf p) = sortKeysDeep (residueOf q) := by
    refine rewrite_alike ?_ (wellFormed_residue p) (wellFormed_residue q) (residue_alike h)
    intro entries others distinct hperm
    apply sortedEntries_perm
    · exact distinct.sublist (filter_sublist.map Prod.fst)
    · exact hperm.filter _
  rw [unmodelledFingerprintOf, unmodelledFingerprintOf, hsorted]

/-! ## Session controls -/

/-- A session control that is configured, whatever its value. -/
def Configured (p : Collected) (name : JsString) : Prop :=
  ∃ v, valueAt p.value [js "sessionControls", name] = some v ∧ isNull v = false

theorem isNull_iff (v : Json) : isNull v = false ↔ v.shape ≠ .null := by
  cases v <;> simp [isNull, shape]

theorem configured_iff (p : Collected) (name : JsString) : Configured p name ↔
    ∃ found, shapeAt p.value [.key (js "sessionControls"), .key name] = some found ∧
      found ≠ .null := by
  have hpath := shapeAt_append p.value [js "sessionControls", name] []
  simp only [map_cons, map_nil, cons_append, nil_append, shapeAt] at hpath
  simp only [shapeAt, hpath]
  constructor
  · rintro ⟨v, hv, hnull⟩
    exact ⟨v.shape, by rw [hv]; rfl, (isNull_iff v).mp hnull⟩
  · rintro ⟨found, hfound, hne⟩
    obtain ⟨v, hv, hshape⟩ := Option.bind_eq_some_iff.mp hfound
    cases hshape
    exact ⟨v, hv, (isNull_iff v).mpr hne⟩

theorem sessionControls_distinct (p : Collected) {entries : Entries}
    (h : valueAt p.value sessionControlsPath = some (.object entries)) :
    (names entries).Nodup := by
  obtain ⟨v, hv, heq⟩ := Option.bind_eq_some_iff.mp h
  cases heq
  cases p.wellFormed.child hv with
  | object inner distinct => exact distinct

theorem mem_sessionControlNames (p : Collected) (name : JsString) :
    name ∈ sessionControlNames (valueAt p.value sessionControlsPath) ↔ Configured p name := by
  have hvalue : valueAt p.value [js "sessionControls", name] =
      (valueAt p.value sessionControlsPath).bind fun v => child v (.key name) := by
    simp [valueAt, sessionControlsPath]
  rw [Configured, hvalue]
  cases hsession : valueAt p.value sessionControlsPath with
  | none => simp [sessionControlNames]
  | some v =>
    cases v with
    | object entries =>
      have distinct := sessionControls_distinct p hsession
      simp only [sessionControlNames, mem_insertionSort, names, List.mem_map,
        mem_filter, Option.bind_some, child, lookup_iff distinct]
      constructor
      · rintro ⟨⟨_, v⟩, ⟨hmem, hnull⟩, rfl⟩
        exact ⟨v, hmem, by simpa using hnull⟩
      · rintro ⟨v, hmem, hnull⟩
        exact ⟨(name, v), ⟨hmem, by simp [hnull]⟩, rfl⟩
    | _ => simp [sessionControlNames, child]

theorem sessionControlNames_sorted (x : Option Json) :
    (sessionControlNames x).Pairwise (· ≤ ·) := by
  unfold sessionControlNames
  split
  · exact pairwise_insertionSort _ _
  · exact .nil

theorem sessionControlNames_nodup (p : Collected) :
    (sessionControlNames (valueAt p.value sessionControlsPath)).Nodup := by
  unfold sessionControlNames
  split
  · rename_i entries hsession
    have distinct := sessionControls_distinct p hsession
    exact (perm_insertionSort _ _).nodup_iff.mpr
      (distinct.sublist (filter_sublist.map Prod.fst))
  · exact .nil

/-- The same configured controls are listed in the same way. -/
theorem sessionControlNames_eq (h : ∀ name, Configured p name ↔ Configured q name) :
    sessionControlNames (valueAt p.value sessionControlsPath) =
      sessionControlNames (valueAt q.value sessionControlsPath) := by
  refine List.Perm.eq_of_pairwise (fun a b _ _ => List.le_antisymm)
    (sessionControlNames_sorted _) (sessionControlNames_sorted _) ?_
  rw [perm_ext_iff_of_nodup (sessionControlNames_nodup p) (sessionControlNames_nodup q)]
  intro name
  rw [mem_sessionControlNames, mem_sessionControlNames, h]

/-- A session control is not at or below a lossless path. -/
theorem session_not_modelled (name : JsString) :
    ¬ Modelled [.key (js "sessionControls"), .key name] := by
  rintro ⟨m, hm, hle⟩
  obtain ⟨first, rest, hpath⟩ := exists_cons_of_ne_nil (lossless_nonempty m hm)
  have hfirst : first = js "sessionControls" := by
    rw [hpath, map_cons, cons_prefix_cons] at hle
    exact Step.key.inj hle.1
  have hother : ∀ m ∈ losslessPaths, m.path.head? ≠ some (js "sessionControls") := by decide
  exact hother m hm (by rw [hpath, hfirst]; rfl)

theorem configured_elsewhere (h : AgreeElsewhere p q) {name : JsString} (hname : name ≠ PROTO) :
    Configured p name ↔ Configured q name := by
  have hfree : ProtoFree [.key (js "sessionControls"), .key name] := by
    have hsession : js "sessionControls" ≠ PROTO := by decide
    simp [ProtoFree, Step.kept, hsession, notProto, hname]
  rw [configured_iff, configured_iff, h _ (session_not_modelled name) hfree]

/-! ## The mapping -/

/-- The mapped states agree except in the fingerprint. -/
def SameModelled (first second : ConditionalAccessState) : Prop :=
  ∃ print, { first with unmodelledFingerprint := print } = second

/-- The mapping has no silent gap between the two policies: equal states are
policies that agree, and a difference that no field shows is reported. -/
structure NoGap (toLowerCase toUpperCase : JsString → JsString) (p q : Collected) : Prop where
  equal : ∀ canonicalise, Injective canonicalise → Readable toUpperCase p →
    mapCollectedPolicy toUpperCase p canonicalise =
      mapCollectedPolicy toUpperCase q canonicalise → Agree toUpperCase p q
  reported : ∀ canonicalise, Injective canonicalise → Readable toUpperCase p →
    SameModelled (mapCollectedPolicy toUpperCase p canonicalise)
      (mapCollectedPolicy toUpperCase q canonicalise) → ¬ Agree toUpperCase p q →
    let change := classifyConditionalAccessChange toLowerCase
      (some (mapCollectedPolicy toUpperCase p canonicalise))
      (some (mapCollectedPolicy toUpperCase q canonicalise))
    change.classification = .unclassified ∧
      (policyState (valueAt p.value statePath) ≠ .unavailable →
        change.rule = .unmodelledDimension)

/-- The policies differ, and only below own names `__proto__`. -/
structure Hidden (toUpperCase : JsString → JsString) (p q : Collected) : Prop where
  readable : Readable toUpperCase p
  fields : FieldsAgree toUpperCase p q
  elsewhere : AgreeElsewhere p q
  configured : Configured p PROTO ↔ Configured q PROTO
  differ : ∃ path, ¬ Modelled path ∧ shapeAt p.value path ≠ shapeAt q.value path

theorem map_eq (fields : FieldsAgree toUpperCase p q) (elsewhere : AgreeElsewhere p q)
    (configured : Configured p PROTO ↔ Configured q PROTO) (canonicalise : Canonicaliser) :
    mapCollectedPolicy toUpperCase p canonicalise =
      mapCollectedPolicy toUpperCase q canonicalise := by
  have hnames : ∀ name, Configured p name ↔ Configured q name := by
    intro name
    by_cases hname : name = PROTO
    · rw [hname, configured]
    · exact configured_elsewhere elsewhere hname
  simp only [mapCollectedPolicy, policyState_eq fields.state, grantOperator_eq fields.operator,
    readList_eq fields.controls, readList_eq fields.users, readList_eq fields.groups,
    readList_eq fields.roles, sessionControlNames_eq hnames,
    fingerprint_eq elsewhere canonicalise]

theorem hidden_gap (h : Hidden toUpperCase p q) : ¬ NoGap toLowerCase toUpperCase p q := by
  intro hgap
  have hinj : Injective some := fun v w heq => heq
  have hagree := hgap.equal some hinj h.readable (map_eq h.fields h.elsewhere h.configured some)
  obtain ⟨path, hpath, hdiffer⟩ := h.differ
  exact hdiffer (hagree.rest path hpath)

theorem fields_agree (hread : Readable toUpperCase p)
    (h : SameModelled (mapCollectedPolicy toUpperCase p canonicalise)
      (mapCollectedPolicy toUpperCase q canonicalise)) :
    FieldsAgree toUpperCase p q := by
  obtain ⟨print, h⟩ := h
  constructor
  · exact policyState_agrees (congrArg ConditionalAccessState.state h) hread.state
  · exact grantOperator_agrees (congrArg ConditionalAccessState.grantOperator h) hread.operator
  · exact readList_agrees (congrArg ConditionalAccessState.grantControls h) hread.controls
  · exact readList_agrees (congrArg ConditionalAccessState.excludedUsers h) hread.users
  · exact readList_agrees (congrArg ConditionalAccessState.excludedGroups h) hread.groups
  · exact readList_agrees (congrArg ConditionalAccessState.excludedRoles h) hread.roles

/-- Policies with one modelled part and equal fingerprints agree, unless the
difference is hidden. -/
theorem agree_of_fingerprint (hinj : Injective canonicalise) (hidden : ¬ Hidden toUpperCase p q)
    (hread : Readable toUpperCase p)
    (h : SameModelled (mapCollectedPolicy toUpperCase p canonicalise)
      (mapCollectedPolicy toUpperCase q canonicalise))
    (hprint : unmodelledFingerprintOf p canonicalise = unmodelledFingerprintOf q canonicalise) :
    Agree toUpperCase p q := by
  have hfields := fields_agree hread h
  have hsession : sessionControlNames (valueAt p.value sessionControlsPath) =
      sessionControlNames (valueAt q.value sessionControlsPath) := by
    obtain ⟨print, h⟩ := h
    exact congrArg ConditionalAccessState.sessionControls h
  refine ⟨hfields, fun path hpath => ?_⟩
  by_contra hdiffer
  apply hidden
  refine ⟨hread, hfields, fingerprint_reads hinj hprint, ?_, path, hpath, hdiffer⟩
  rw [← mem_sessionControlNames, ← mem_sessionControlNames, hsession]

/-! ## The report -/

section Report

variable {first second : ConditionalAccessState}

theorem lacking_self (controls : List JsString) : lacking toLowerCase controls controls = [] := by
  rw [lacking, filter_eq_nil_iff]
  intro control hcontrol
  simp only [decide_eq_true_eq, not_not]
  exact mem_map_of_mem hcontrol

theorem addedEntries_self (entries : ReadList) : addedEntries entries entries = [] := by
  rw [addedEntries, filter_eq_nil_iff]
  intro entry hentry
  simpa using hentry

theorem grant_unmoved (hoperator : first.grantOperator = second.grantOperator)
    (hcontrols : first.grantControls = second.grantControls)
    (hread : first.grantOperator ≠ .unrecognised) :
    grantChangeVerdict toLowerCase first second = none := by
  have hread' : second.grantOperator ≠ .unrecognised := hoperator ▸ hread
  simp [grantChangeVerdict, unreadableOperatorCouldHideAChange, removedControls, addedControls,
    hcontrols, lacking_self, hoperator, hread']

/-- Readable states that differ in the fingerprint alone are reported, as an
unmodelled change where the policy has a state. -/
theorem unmodelled_reported (h : SameModelled first second)
    (hstate : first.state ≠ .unrecognised) (hoperator : first.grantOperator ≠ .unrecognised)
    (hreadable : incomplete first first = [])
    (hprint : first.unmodelledFingerprint ≠ second.unmodelledFingerprint) :
    (classifyConditionalAccessChange toLowerCase (some first) (some second)).classification =
        .unclassified ∧
      (first.state ≠ .unavailable →
        (classifyConditionalAccessChange toLowerCase (some first) (some second)).rule =
          .unmodelledDimension) := by
  obtain ⟨print, h⟩ := h
  have hsame : first.state = second.state := by rw [← h]
  have hgrant : grantChangeVerdict toLowerCase first second = none := by
    rw [← h]
    exact grant_unmoved rfl rfl hoperator
  have hincomplete : incomplete first second = [] := by
    rw [← h]
    exact hreadable
  have hroles : addedEntries first.excludedRoles second.excludedRoles = [] := by
    rw [← h]
    exact addedEntries_self _
  have hgroups : addedEntries first.excludedGroups second.excludedGroups = [] := by
    rw [← h]
    exact addedEntries_self _
  have husers : addedEntries first.excludedUsers second.excludedUsers = [] := by
    rw [← h]
    exact addedEntries_self _
  have hsession : sessionControlsChanged first second = false := by
    rw [← h]
    simp [sessionControlsChanged]
  have hclassify : classifyConditionalAccessChange toLowerCase (some first) (some second) =
      classifyUnmodelled first second none := by
    simp only [classifyConditionalAccessChange, hincomplete, hroles, hgroups, husers, hgrant,
      ← hsame, isEmpty_nil, length_nil]
    cases first.state <;> simp
  rw [hclassify]
  simp only [classifyUnmodelled, ← hsame, or_self, hstate, if_false, hsession, if_pos hprint]
  constructor
  · split_ifs <;> rfl
  · intro hknown
    rw [if_neg hknown]
    rfl

end Report

/-- There is no silent gap between two policies exactly when they do not differ
only below own names `__proto__`. -/
theorem no_gap_iff (toLowerCase toUpperCase : JsString → JsString) (p q : Collected) :
    NoGap toLowerCase toUpperCase p q ↔ ¬ Hidden toUpperCase p q := by
  constructor
  · intro hgap hhidden
    exact hidden_gap hhidden hgap
  · intro hidden
    constructor
    · intro canonicalise hinj hread hequal
      have hsame : SameModelled (mapCollectedPolicy toUpperCase p canonicalise)
          (mapCollectedPolicy toUpperCase q canonicalise) := by
        exact ⟨_, hequal⟩
      exact agree_of_fingerprint hinj hidden hread hsame
        (congrArg ConditionalAccessState.unmodelledFingerprint hequal)
    · intro canonicalise hinj hread hsame hdiffer
      apply unmodelled_reported hsame hread.state hread.operator (by
        simp [incomplete, mapCollectedPolicy, hread.controls, hread.users, hread.groups,
          hread.roles])
      intro hprint
      exact hdiffer (agree_of_fingerprint hinj hidden hread hsame hprint)

/-! ## A hidden entry -/

/-- An enabled policy with some further entries. -/
def samplePolicy (entries : Entries)
    (wellFormed : WellFormed (.object ((js "state", .string (js "enabled")) :: entries))) :
    Collected := ⟨_, wellFormed⟩

def plainPolicy : Collected :=
  samplePolicy [] <| .object (by simp [WellFormed.string]) (by decide)

def protoPolicy : Collected :=
  samplePolicy [(PROTO, .bool true)] <|
    .object (by simp [WellFormed.string, WellFormed.bool]) (by decide)

theorem sample_hidden : Hidden JsString.upperLatin plainPolicy protoPolicy where
  readable := by constructor <;> decide
  fields := by
    constructor
    · exact .inr ⟨_, rfl, rfl⟩
    · exact .inl ⟨rfl, rfl⟩
    all_goals exact .inl ⟨.inl rfl, .inl rfl⟩
  elsewhere := by
    rintro (_ | ⟨step, path⟩) _ hfree
    · rfl
    · cases step with
      | index i => rfl
      | key name =>
        have hname : name ≠ PROTO := by
          rintro rfl
          simp [ProtoFree, Step.kept, notProto] at hfree
        have hlookup : plainPolicy.entries.lookup name = protoPolicy.entries.lookup name := by
          by_cases hstate : name = js "state"
          · subst hstate
            rfl
          · rw [plainPolicy, protoPolicy, samplePolicy, samplePolicy, lookup_ne hstate,
              lookup_ne hstate, lookup_ne hname]
        show (plainPolicy.entries.lookup name).bind _ = (protoPolicy.entries.lookup name).bind _
        rw [hlookup]
  configured := by
    constructor <;> rintro ⟨v, hv, _⟩ <;> cases hv
  differ := by
    refine ⟨[.key PROTO], ?_, by decide⟩
    rintro ⟨m, hm, hle⟩
    have hother : ∀ m ∈ losslessPaths, ¬ m.path.map Step.key <+: [Step.key PROTO] := by decide
    exact hother m hm hle

/-- A policy edited under an own name `__proto__` maps to an equal state. -/
theorem gap_below_proto : ¬ ∀ p q, NoGap JsString.lowerLatin JsString.upperLatin p q := by
  intro hgap
  exact hidden_gap sample_hidden (hgap plainPolicy protoPolicy)

end UnmodelledGap
