import HawkView.Tenants.PimPartition

/-!
# Nothing is lost of a schedule

Every row is among the rejected ones or is one variant of one instance, and the
order of the rows makes no difference to the instances. The conflicts are a
failure exactly when they exceed a bound.
-/

namespace PimObservation

open Json List

/-- A row among the rejected ones, with its reason. -/
structure RejectedAs (r : JsonRow) (x : RejectedRow) : Prop where
  tenantId : x.tenantId = r.tenantId
  plane : x.plane = r.plane
  raw : Alike x.raw r.value
  diagnostic : identityOf r.value = .error x.diagnostic

/-- A variant keeps the record of a row. -/
def Keeps (v : PimVariant) (r : JsonRow) : Prop := Alike (.object v.raw) r.value

/-- The observations have every row once. -/
structure Partition (rows : List JsonRow) (o : Observations) : Prop where
  rejected : List.Forall₂ RejectedAs (rows.filter fun r => r.identity? = none) o.rejected
  distinct : (o.instances.map PimInstance.identity).Nodup
  kept : ∀ r ∈ rows, ∀ i, r.identity? = some i → ∃ x ∈ o.instances, x.identity = i ∧
    ∃! n : Nat, ∃ v, x.variants[n]? = some v ∧ Keeps v r
  sources : ∀ x ∈ o.instances, ∀ v ∈ x.variants,
    ∃ r ∈ rows, r.identity? = some x.identity ∧ Keeps v r
  different : ∀ x ∈ o.instances,
    x.variants.Pairwise fun v w => ¬ Alike (.object v.raw) (.object w.raw)
  duplicated : ∀ x ∈ o.instances, x.duplicated = true ↔ 2 ≤ x.variants.length

section Partition

variable {rows : List JsonRow} {p : Progress}

theorem rejected_rows (rows : List JsonRow) :
    Forall₂ RejectedAs (rows.filter fun r => r.identity? = none)
      (rows.filterMap JsonRow.rejection?) := by
  induction rows with
  | nil => exact .nil
  | cons r rows ih =>
    cases hid : r.identity? with
    | none =>
      obtain ⟨diagnostic, hvalue, _⟩ := identity_none hid
      have hrejection : r.rejection? = some ⟨r.tenantId, r.plane, r.raw, diagnostic⟩ := by
        rw [JsonRow.rejection?, hvalue]
      rw [filter_cons_of_pos (by simp [hid]), filterMap_cons_some hrejection]
      exact .cons ⟨rfl, rfl, r.raw_alike, hvalue⟩ ih
    | some i =>
      rw [filter_cons_of_neg (by simp [hid]), filterMap_cons_none (rejection_none hid)]
      exact ih

/-- The versions of a group are those of the rows of its identity. -/
theorem Represents.source {g : Group} (h : Represents rows g) {e : JsString × Version}
    (he : e ∈ g.versions.entries) :
    ∃ r ∈ rows, r.identity? = some g.identity ∧ r.text = e.1 ∧
      Alike (.object e.2.raw) r.value := by
  have hv := JsMap.get?_eq_some.mpr he
  have ht : e.1 ∈ texts rows g.identity := (h.held e.1).mp (by rw [hv]; rfl)
  obtain ⟨r, hr, hid, htext⟩ := mem_texts.mp ht
  refine ⟨r, hr, hid, htext, ?_⟩
  have hparse := (h.kept e.1 e.2 hv).2
  rw [← htext, r.parse_text, Option.some.injEq] at hparse
  exact hparse ▸ r.raw_alike

theorem Represents.different {g : Group} (h : Represents rows g) :
    g.instance.variants.Pairwise fun v w => ¬ Alike (.object v.raw) (.object w.raw) := by
  have hkeys : (sortedByKey g.versions).Pairwise fun a b => a.1 ≠ b.1 :=
    pairwise_map.mp
      (((perm_insertionSort _ g.versions.entries).map Prod.fst).nodup_iff.mpr
        g.versions.unique)
  rw [Group.instance, pairwise_map]
  apply hkeys.imp_of_mem
  intro a b ha hb hne halike
  obtain ⟨r, _, _, hr, hra⟩ := h.source ((perm_insertionSort _ _).mem_iff.mp ha)
  obtain ⟨s, _, _, hs, hsb⟩ := h.source ((perm_insertionSort _ _).mem_iff.mp hb)
  have hsame : Alike r.value s.value := hra.symm.trans (halike.trans hsb)
  exact hne (hr ▸ hs ▸ (r.text_iff s).mpr hsame)

variable {r : JsonRow}

/-- Variants that differ keep a row at one place at most. -/
theorem keeps_unique {variants : List PimVariant}
    (different : variants.Pairwise fun v w => ¬ Alike (.object v.raw) (.object w.raw)) {n m : Nat}
    {v w : PimVariant} (hv : variants[n]? = some v) (hw : variants[m]? = some w) (hvr : Keeps v r)
    (hwr : Keeps w r) : n = m := by
  obtain ⟨hn, rfl⟩ := List.getElem?_eq_some_iff.mp hv
  obtain ⟨hm, rfl⟩ := List.getElem?_eq_some_iff.mp hw
  rw [pairwise_iff_getElem] at different
  rcases Nat.lt_trichotomy n m with hlt | heq | hgt
  · exact absurd (Alike.trans hvr (Alike.symm hwr)) (different n m hn hm hlt)
  · exact heq
  · exact absurd (Alike.trans hwr (Alike.symm hvr)) (different m n hm hn hgt)

theorem Reading.instance_group (h : Reading rows p) {x : PimInstance}
    (hx : x ∈ p.observations.instances) : ∃ g, Represents rows g ∧ x = g.instance := by
  obtain ⟨e, he, rfl⟩ := mem_map.mp hx
  have hentry := (perm_insertionSort _ _).mem_iff.mp he
  exact ⟨e.2, (h.group_mem hentry).2.2, rfl⟩

theorem Reading.kept (h : Reading rows p) (hr : r ∈ rows) {i : PimIdentity}
    (hid : r.identity? = some i) : ∃ x ∈ p.observations.instances, x.identity = i ∧
      ∃! n : Nat, ∃ v, x.variants[n]? = some v ∧ Keeps v r := by
  obtain ⟨g, hg⟩ := Option.isSome_iff_exists.mp (h.covers i (mem_identities.mpr ⟨r, hr, hid⟩))
  obtain ⟨hkey, _, hrep⟩ := h.groups _ g hg
  obtain rfl := key_injective hkey
  have hentry := (perm_insertionSort
    (fun a b : JsString × Group => a.1 ≤ b.1) p.groups.entries).mem_iff.mpr
    (JsMap.get?_eq_some.mp hg)
  refine ⟨g.instance, mem_map.mpr ⟨_, hentry, rfl⟩, rfl, ?_⟩
  obtain ⟨v, hv⟩ := Option.isSome_iff_exists.mp
    ((hrep.held r.text).mpr (mem_texts.mpr ⟨r, hr, hid, rfl⟩))
  have hraw := (hrep.kept r.text v hv).2
  rw [r.parse_text, Option.some.injEq] at hraw
  have hversion := (perm_insertionSort
    (fun a b : JsString × Version => a.1 ≤ b.1) g.versions.entries).mem_iff.mpr
    (JsMap.get?_eq_some.mp hv)
  have hmem : variant v.raw ∈ g.instance.variants := mem_map.mpr ⟨_, hversion, rfl⟩
  obtain ⟨n, hn⟩ := List.mem_iff_getElem?.mp hmem
  have hkeeps : Keeps (variant v.raw) r := by
    have halike := r.raw_alike
    rwa [hraw] at halike
  refine ⟨n, ⟨_, hn, hkeeps⟩, ?_⟩
  rintro m ⟨w, hw, hwr⟩
  exact keeps_unique hrep.different hw hn hwr hkeeps

/-- What has been read of the rows is a partition of them. -/
theorem Reading.partition (h : Reading rows p) : Partition rows p.observations where
  rejected := by
    rw [Progress.observations, h.rejected]
    exact rejected_rows rows
  distinct := by
    have hperm : (p.observations.instances.map PimInstance.identity).Perm
        (p.groups.entries.map fun e => e.2.identity) := by
      rw [Progress.observations, List.map_map]
      exact (perm_insertionSort _ _).map _
    exact hperm.nodup_iff.mpr h.identities_nodup
  kept r hr i hid := h.kept hr hid
  sources := by
    intro x hx v hv
    obtain ⟨g, hrep, rfl⟩ := h.instance_group hx
    obtain ⟨e, he, rfl⟩ := mem_map.mp hv
    obtain ⟨r, hr, hid, _, halike⟩ := hrep.source ((perm_insertionSort _ _).mem_iff.mp he)
    exact ⟨r, hr, hid, halike⟩
  different := by
    intro x hx
    obtain ⟨g, hrep, rfl⟩ := h.instance_group hx
    exact hrep.different
  duplicated := by
    intro x hx
    obtain ⟨g, _, rfl⟩ := h.instance_group hx
    simp [Group.instance, sortedByKey, Nat.lt_iff_add_one_le]

end Partition

/-- The instances of a normalisation that keeps its rows. -/
def instances? (result : Except Failure Observations) : Option (List PimInstance) :=
  result.toOption.map Observations.instances

theorem instances_some {p : Progress} {result : Except Failure Observations}
    (h : result = .ok p.observations) : instances? result = some p.observations.instances := by
  rw [h]
  rfl

variable {input : List PimScheduleInput} {rows : List JsonRow}

/-- Rows in another order are kept with the same instances, or not kept either. -/
theorem instances_reorder {more : List PimScheduleInput} (reads : Forall₂ Reads input rows)
    (hperm : more.Perm input) (bounds : PimObservationBounds) :
    instances? (normalizePimScheduleObservations more bounds) =
      instances? (normalizePimScheduleObservations input bounds) := by
  obtain ⟨others, hreads, hothers⟩ := perm_comp_forall₂ hperm reads
  cases hlimits : bounds.limits? with
  | none =>
    rw [normalizePimScheduleObservations, normalizePimScheduleObservations, hlimits]
  | some limits =>
    by_cases hcount : input.length ≤ limits.maxInputRows
    · rcases normalize_spec bounds hlimits reads hcount with
        ⟨p, hok, hread, hfits⟩ | ⟨code, herror, hbreaks⟩
      · rcases normalize_spec bounds hlimits hreads (hperm.length_eq ▸ hcount) with
          ⟨p', hok', hread', _⟩ | ⟨code, _, hbreaks⟩
        · rw [instances_some hok, instances_some hok', instances_perm hread' hread hothers]
        · exact absurd ((breaks_perm hothers code).mp hbreaks) (hfits code)
      · rcases normalize_spec bounds hlimits hreads (hperm.length_eq ▸ hcount) with
          ⟨p', _, _, hfits⟩ | ⟨code', herror', _⟩
        · exact absurd ((breaks_perm hothers code).mpr hbreaks) (hfits code)
        · rw [herror, herror']
          rfl
    · have hcount' : limits.maxInputRows < more.length := by
        rw [hperm.length_eq]
        omega
      rw [normalizePimScheduleObservations, normalizePimScheduleObservations, hlimits]
      simp only
      rw [if_pos hcount', if_pos (by omega)]

/-- Within the other bounds the conflicts are the failure exactly when they exceed one. -/
theorem conflicts_iff {limits : Limits} (reads : Forall₂ Reads input rows)
    (bounds : PimObservationBounds) (hlimits : bounds.limits? = some limits)
    (htenant : ∀ r ∈ rows, r.tenantId ≠ []) (hcount : input.length ≤ limits.maxInputRows)
    (hbytes : inputBytes rows ≤ limits.maxInputBytes) :
    normalizePimScheduleObservations input bounds =
        .error (.rejected .conflictEvidenceLimitExceeded) ↔ Overflows rows limits := by
  rcases normalize_spec bounds hlimits reads hcount with
    ⟨p, hok, _, hfits⟩ | ⟨code, herror, hbreaks⟩
  · rw [hok]
    constructor
    · intro h
      cases h
    · intro hover
      exact absurd hover (hfits .conflictEvidenceLimitExceeded)
  · have hconflict : code = .conflictEvidenceLimitExceeded := by
      cases code with
      | invalidContext =>
        obtain ⟨r, hr, hempty⟩ := hbreaks
        exact absurd hempty (htenant r hr)
      | inputByteLimitExceeded => exact absurd hbytes (Nat.not_le.mpr hbreaks)
      | conflictEvidenceLimitExceeded => rfl
      | _ => cases hbreaks
    subst hconflict
    exact ⟨fun _ => hbreaks, fun _ => herror⟩

/-- The canonical text tells values apart that are not alike, the rows are partitioned whatever
their order is, and conflicts are a failure exactly when they exceed a bound. -/
theorem normalization_partitions {input : List PimScheduleInput} {rows : List JsonRow}
    (reads : List.Forall₂ Reads input rows) (bounds : PimObservationBounds) :
    (∀ (v w : JsData) (j k : Json) (m n : Nat) (a b : Encoded),
      JsData.json? [] v = some j → JsData.json? [] w = some k → j.WellFormed → k.WellFormed →
      canonicalJson v m = .ok a → canonicalJson w n = .ok b →
      (a.text = b.text ↔ Alike j k) ∧ ∃ back, parse a.text = some back ∧ Alike back j) ∧
    (∀ more, more.Perm input → instances? (normalizePimScheduleObservations more bounds) =
      instances? (normalizePimScheduleObservations input bounds)) ∧
    (∀ o, normalizePimScheduleObservations input bounds = .ok o → Partition rows o) ∧
    ∀ limits, bounds.limits? = some limits → (∀ r ∈ rows, r.tenantId ≠ []) →
      input.length ≤ limits.maxInputRows → inputBytes rows ≤ limits.maxInputBytes →
      (normalizePimScheduleObservations input bounds =
        .error (.rejected .conflictEvidenceLimitExceeded) ↔ Overflows rows limits) := by
  refine ⟨?_, fun more hperm => instances_reorder reads hperm bounds, ?_, ?_⟩
  · intro v w j k m n a b hj hk hjw hkw ha hb
    have htext {v : JsData} {j : Json} {n : Nat} {a : Encoded} (hj : JsData.json? [] v = some j)
        (ha : canonicalJson v n = .ok a) : a.text = canonicalText j := by
      rw [canonicalJson_eq hj] at ha
      split at ha
      · cases ha
      · cases ha
        rfl
    obtain ⟨back, hparse, _, halike⟩ := parse_sorted hjw
    rw [htext hj ha, htext hk hb]
    exact ⟨sorted_text_iff hjw hkw, back, hparse, halike⟩
  · intro o ho
    cases hlimits : bounds.limits? with
    | none =>
      rw [normalizePimScheduleObservations, hlimits] at ho
      cases ho
    | some limits =>
      by_cases hcount : input.length ≤ limits.maxInputRows
      · rcases normalize_spec bounds hlimits reads hcount with ⟨p, hok, hread, _⟩ | ⟨_, herror, _⟩
        · cases ho.symm.trans hok
          exact hread.partition
        · cases ho.symm.trans herror
      · rw [normalizePimScheduleObservations, hlimits] at ho
        simp only at ho
        rw [if_pos (by omega)] at ho
        cases ho
  · intro limits hlimits htenant hcount hbytes
    exact conflicts_iff reads bounds hlimits htenant hcount hbytes

/-! ## A sample -/

/-- A record of one identity, with a version of its own. -/
def sampleRow (version : JsString) : JsonRow where
  tenantId := js "tenant"
  plane := .active
  value := .object [(js "id", .string (js "instance")), (js "memberType", .string version)]
  wellFormed := by
    constructor
    · intro e he
      simp only [mem_cons, not_mem_nil, or_false] at he
      rcases he with rfl | rfl
      · exact .string _
      · exact .string _
    · show [js "id", js "memberType"].Nodup
      decide

def JsonRow.entry (r : JsonRow) : PimScheduleInput := ⟨r.tenantId, r.plane, .ofJson 0 r.value⟩

theorem reads_entry (r : JsonRow) : Reads r.entry r where
  tenantId := rfl
  plane := rfl
  record := JsData.json?_ofJson r.value 0 [] (by simp)

theorem reads_entries (rows : List JsonRow) : Forall₂ Reads (rows.map JsonRow.entry) rows := by
  rw [forall₂_map_left_iff, forall₂_same]
  exact fun r _ => reads_entry r

def sampleBounds : PimObservationBounds := ⟨.ofNat 5, .ofNat 5000, .ofNat 3, .ofNat 3000⟩

theorem normalization_partitions_sample :
    instances? (normalizePimScheduleObservations
        [(sampleRow (js "Direct")).entry, (sampleRow (js "Group")).entry] sampleBounds) =
      instances? (normalizePimScheduleObservations
        [(sampleRow (js "Group")).entry, (sampleRow (js "Direct")).entry] sampleBounds) :=
  (normalization_partitions (reads_entries [sampleRow (js "Group"), sampleRow (js "Direct")])
    sampleBounds).2.1 _ (List.Perm.swap _ _ [])

/-- Where no version of a conflict is allowed, an identity with one version is kept. -/
theorem single_version_kept : ¬ ∀ (input : List PimScheduleInput) (rows : List JsonRow)
    (bounds : PimObservationBounds) (limits : Limits), List.Forall₂ Reads input rows →
    bounds.limits? = some limits → (∀ r ∈ rows, r.tenantId ≠ []) →
    input.length ≤ limits.maxInputRows → inputBytes rows ≤ limits.maxInputBytes →
    (normalizePimScheduleObservations input bounds =
        .error (.rejected .conflictEvidenceLimitExceeded) ↔
      (∃ i ∈ identities rows, limits.maxConflictVersions < (texts rows i).card) ∨
        limits.maxConflictEvidenceBytes < conflictBytes rows) := by
  intro h
  have hreads := reads_entries [sampleRow (js "Direct")]
  have hlimits : PimObservationBounds.limits? ⟨.ofNat 1, .ofNat 1000, .ofNat 0, .ofNat 0⟩ =
      some ⟨1, 1000, 0, 0⟩ := by decide
  have htenant : ∀ r ∈ [sampleRow (js "Direct")], r.tenantId ≠ [] := by
    intro r hr
    rw [mem_singleton] at hr
    subst hr
    decide
  have hbytes : inputBytes [sampleRow (js "Direct")] ≤ 1000 := by decide +kernel
  have hidentity : (sampleRow (js "Direct")).identity? =
      some ⟨js "tenant", .active, js "instance"⟩ := by decide +kernel
  have hfails := (h _ _ _ _ hreads hlimits htenant (by simp) hbytes).mpr (.inl
    ⟨_, mem_identities.mpr ⟨_, mem_singleton.mpr rfl, hidentity⟩,
      Finset.card_pos.mpr ⟨_, mem_texts.mpr ⟨_, mem_singleton.mpr rfl, hidentity, rfl⟩⟩⟩)
  have hnone : conflicting [sampleRow (js "Direct")] = ∅ := by
    apply Finset.filter_eq_empty_iff.mpr
    intro i _
    have hsub : texts [sampleRow (js "Direct")] i ⊆ {(sampleRow (js "Direct")).text} := by
      intro t ht
      obtain ⟨r, hr, _, rfl⟩ := mem_texts.mp ht
      rw [mem_singleton] at hr
      exact Finset.mem_singleton.mpr (congrArg _ hr)
    have hcard := Finset.card_le_card hsub
    rw [Finset.card_singleton] at hcard
    omega
  rcases (conflicts_iff hreads _ hlimits htenant (by simp) hbytes).mp hfails with
    ⟨i, hi, _⟩ | htotal
  · rw [hnone] at hi
    cases hi
  · rw [conflictBytes, hnone] at htotal
    exact absurd htotal (Nat.not_lt_zero _)

end PimObservation
