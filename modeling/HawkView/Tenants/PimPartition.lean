import HawkView.Tenants.PimRows

/-!
# The observations of a schedule are a partition of its rows

What has been read of a list of rows is known by the identities and the texts of
their versions. Row by row the groups keep the versions of their identities, and
the bytes that are charged are those of the conflicts.
-/

namespace PimObservation

open Json List Option

/-- A group has the versions that the rows have of its identity. -/
structure Represents (rows : List JsonRow) (g : Group) : Prop where
  held : ∀ t, (g.versions.get? t).isSome ↔ t ∈ texts rows g.identity
  kept : ∀ t v, g.versions.get? t = some v →
    v.bytes = byteLength t ∧ parse t = some (.object v.raw)

/-- The bytes that a group is charged. -/
def Group.charge (g : Group) : Nat :=
  if 2 ≤ g.versions.entries.length then (g.versions.entries.map fun e => e.2.bytes).sum else 0

/-- What has been read is what the rows say. -/
structure Reading (rows : List JsonRow) (p : Progress) : Prop where
  inputBytes : p.inputBytes = PimObservation.inputBytes rows
  rejected : p.rejected = rows.filterMap JsonRow.rejection?
  groups : ∀ k g, p.groups.get? k = some g →
    g.identity.key = k ∧ g.identity ∈ identities rows ∧ Represents rows g
  covers : ∀ i ∈ identities rows, (p.groups.get? i.key).isSome
  conflictBytes : p.conflictBytes = (p.groups.entries.map fun e => e.2.charge).sum

theorem mem_keys_iff {α : Type} {m : JsMap JsString α} {k : JsString} :
    k ∈ m.entries.map Prod.fst ↔ (m.get? k).isSome := by
  rw [List.mem_map, isSome_iff_exists]
  constructor
  · rintro ⟨⟨j, v⟩, hmem, rfl⟩
    exact ⟨v, JsMap.get?_eq_some.mpr hmem⟩
  · rintro ⟨v, hv⟩
    exact ⟨(k, v), JsMap.get?_eq_some.mp hv, rfl⟩

section Represents

variable {rows : List JsonRow} {g : Group}

section

variable (h : Represents rows g)
include h

theorem Represents.texts_eq :
    texts rows g.identity = (g.versions.entries.map Prod.fst).toFinset := by
  ext t
  rw [← h.held, List.mem_toFinset, mem_keys_iff]

theorem Represents.card :
    (texts rows g.identity).card = g.versions.entries.length := by
  rw [h.texts_eq, toFinset_card_of_nodup g.versions.unique, length_map]

theorem Represents.bytes :
    (g.versions.entries.map fun e => e.2.bytes).sum =
      ∑ t ∈ texts rows g.identity, byteLength t := by
  have hbytes : (g.versions.entries.map fun e => e.2.bytes) =
      (g.versions.entries.map Prod.fst).map byteLength := by
    rw [List.map_map]
    apply map_congr_left
    intro e he
    exact (h.kept e.1 e.2 (JsMap.get?_eq_some.mpr he)).1
  rw [hbytes, h.texts_eq, sum_toFinset _ g.versions.unique]

theorem Represents.charge :
    g.charge = if 2 ≤ (texts rows g.identity).card then
      ∑ t ∈ texts rows g.identity, byteLength t else 0 := by
  rw [Group.charge, h.card, h.bytes]

end

/-- The group of an identity that no row names has no versions. -/
theorem represents_empty {i : PimIdentity} (h : i ∉ identities rows) :
    Represents rows ⟨i, .empty⟩ where
  held t := by
    constructor
    · intro hsome
      cases hsome
    · intro ht
      obtain ⟨r, hr, hi, _⟩ := mem_texts.mp ht
      exact absurd (mem_identities.mpr ⟨r, hr, hi⟩) h
  kept t v hv := by cases hv

end Represents

section Reading

variable {rows : List JsonRow} {p : Progress}

section

variable (h : Reading rows p)
include h

theorem Reading.group_mem {e : JsString × Group}
    (he : e ∈ p.groups.entries) :
    e.2.identity.key = e.1 ∧ e.2.identity ∈ identities rows ∧ Represents rows e.2 :=
  h.groups e.1 e.2 (JsMap.get?_eq_some.mpr he)

theorem Reading.identities_nodup :
    (p.groups.entries.map fun e => e.2.identity).Nodup := by
  apply List.Nodup.of_map PimIdentity.key
  have hkeys : (p.groups.entries.map fun e => e.2.identity).map PimIdentity.key =
      p.groups.entries.map Prod.fst := by
    rw [List.map_map]
    apply map_congr_left
    intro e he
    exact (h.group_mem he).1
  rw [hkeys]
  exact p.groups.unique

theorem Reading.identities_eq :
    identities rows = (p.groups.entries.map fun e => e.2.identity).toFinset := by
  ext i
  rw [List.mem_toFinset, List.mem_map]
  constructor
  · intro hi
    obtain ⟨g, hg⟩ := Option.isSome_iff_exists.mp (h.covers i hi)
    exact ⟨(i.key, g), JsMap.get?_eq_some.mp hg, key_injective (h.groups _ g hg).1⟩
  · rintro ⟨e, he, rfl⟩
    exact (h.group_mem he).2.1

/-- The bytes that were charged are those of all versions of the conflicts. -/
theorem Reading.charged :
    p.conflictBytes = PimObservation.conflictBytes rows := by
  have hlist : (p.groups.entries.map fun e => e.2.charge) =
      (p.groups.entries.map fun e => e.2.identity).map fun i =>
        if 2 ≤ (texts rows i).card then ∑ t ∈ texts rows i, byteLength t else 0 := by
    rw [List.map_map]
    apply map_congr_left
    intro e he
    exact (h.group_mem he).2.2.charge
  rw [h.conflictBytes, hlist, ← sum_toFinset _ h.identities_nodup, ← h.identities_eq,
    ← Finset.sum_filter]
  rfl

theorem Reading.overflows_iff (limits : Limits) :
    Overflows rows limits ↔
      (∃ k g, p.groups.get? k = some g ∧ 2 ≤ g.versions.entries.length ∧
        limits.maxConflictVersions < g.versions.entries.length) ∨
      limits.maxConflictEvidenceBytes < p.conflictBytes := by
  rw [Overflows, h.charged]
  apply or_congr_left
  constructor
  · rintro ⟨i, hi, hcard⟩
    obtain ⟨hmem, htwo⟩ := Finset.mem_filter.mp hi
    obtain ⟨g, hg⟩ := Option.isSome_iff_exists.mp (h.covers i hmem)
    obtain ⟨hkey, _, hrep⟩ := h.groups _ g hg
    obtain rfl := key_injective hkey
    rw [hrep.card] at htwo hcard
    exact ⟨_, g, hg, htwo, hcard⟩
  · rintro ⟨k, g, hg, htwo, hlength⟩
    obtain ⟨hkey, hmem, hrep⟩ := h.groups k g hg
    rw [← hrep.card] at htwo hlength
    exact ⟨g.identity, Finset.mem_filter.mpr ⟨hmem, htwo⟩, hlength⟩

end

end Reading

/-! ## One more row -/

section More

variable {rows : List JsonRow} {r : JsonRow} {p : Progress} {limits : Limits}

variable {i : PimIdentity} {t : JsString}

theorem mem_texts_append :
    t ∈ texts (rows ++ [r]) i ↔ t ∈ texts rows i ∨ (r.identity? = some i ∧ r.text = t) := by
  simp only [mem_texts, mem_append, mem_singleton]
  constructor
  · rintro ⟨s, hs | rfl, h⟩
    · exact .inl ⟨s, hs, h⟩
    · exact .inr h
  · rintro (⟨s, hs, h⟩ | h)
    · exact ⟨s, .inl hs, h⟩
    · exact ⟨r, .inr rfl, h⟩

theorem mem_identities_append :
    i ∈ identities (rows ++ [r]) ↔ i ∈ identities rows ∨ r.identity? = some i := by
  simp only [mem_identities, mem_append, mem_singleton]
  constructor
  · rintro ⟨s, hs | rfl, h⟩
    · exact .inl ⟨s, hs, h⟩
    · exact .inr h
  · rintro (⟨s, hs, h⟩ | h)
    · exact ⟨s, .inl hs, h⟩
    · exact ⟨r, .inr rfl, h⟩

variable {g : Group}

/-- A group keeps its versions when the row adds no text to its identity. -/
theorem Represents.frame (h : Represents rows g)
    (same : r.identity? = some g.identity → r.text ∈ texts rows g.identity) :
    Represents (rows ++ [r]) g where
  held t := by
    rw [h.held, mem_texts_append]
    constructor
    · exact .inl
    · rintro (ht | ⟨hi, rfl⟩)
      · exact ht
      · exact same hi
  kept := h.kept

theorem inputBytes_append : inputBytes (rows ++ [r]) = inputBytes rows + r.cost := by
  simp [inputBytes]

/-- A row that names no identity is rejected. -/
theorem Reading.reject (h : Reading rows p) {diagnostic : IdentityDiagnostic}
    (hid : identityOf r.value = .error diagnostic) :
    Reading (rows ++ [r]) { p with
      inputBytes := p.inputBytes + r.cost
      rejected := p.rejected ++ [⟨r.tenantId, r.plane, r.raw, diagnostic⟩] } := by
  have hnone : r.identity? = none := by rw [JsonRow.identity?, hid]
  constructor
  · rw [inputBytes_append, h.inputBytes]
  · rw [filterMap_append, ← h.rejected]
    simp [JsonRow.rejection?, hid]
  · intro k g hg
    obtain ⟨hkey, hmem, hrep⟩ := h.groups k g hg
    refine ⟨hkey, mem_identities_append.mpr (.inl hmem), hrep.frame ?_⟩
    intro hi
    rw [hnone] at hi
    cases hi
  · intro i hi
    rcases mem_identities_append.mp hi with hi | hi
    · exact h.covers i hi
    · rw [hnone] at hi
      cases hi
  · exact h.conflictBytes

/-- A version that is there already adds nothing. -/
theorem Reading.repeat (h : Reading rows p) (hid : r.identity? = some i)
    (there : r.text ∈ texts rows i) :
    Reading (rows ++ [r]) { p with inputBytes := p.inputBytes + r.cost } := by
  obtain ⟨s, hs, hsame, _⟩ := mem_texts.mp there
  have hmem : i ∈ identities rows := mem_identities.mpr ⟨s, hs, hsame⟩
  constructor
  · rw [inputBytes_append, h.inputBytes]
  · rw [filterMap_append, ← h.rejected]
    simp [rejection_none hid]
  · intro k g hg
    obtain ⟨hkey, hg', hrep⟩ := h.groups k g hg
    refine ⟨hkey, mem_identities_append.mpr (.inl hg'), hrep.frame ?_⟩
    intro hi
    rw [hid] at hi
    cases hi
    exact there
  · intro k hk
    rcases mem_identities_append.mp hk with hk | hk
    · exact h.covers k hk
    · rw [hid] at hk
      cases hk
      exact h.covers i hmem
  · exact h.conflictBytes

/-- The group that a row finds or opens. -/
theorem Reading.group_of (h : Reading rows p) (i : PimIdentity) :
    ((p.groups.get? i.key).getD ⟨i, .empty⟩).identity = i ∧
      Represents rows ((p.groups.get? i.key).getD ⟨i, .empty⟩) := by
  cases hg : p.groups.get? i.key with
  | some g =>
    obtain ⟨hkey, _, hrep⟩ := h.groups _ g hg
    exact ⟨key_injective hkey, hrep⟩
  | none =>
    refine ⟨rfl, represents_empty ?_⟩
    intro hi
    have hsome := h.covers i hi
    rw [hg] at hsome
    cases hsome

/-- What the conflicts are charged for one more version of a group. -/
def Group.added (g : Group) (bytes : Nat) : Nat :=
  match g.versions.values with
  | [] => 0
  | first :: others => bytes + if others = [] then first.bytes else 0

def Group.add (g : Group) (t : JsString) (v : Version) : Group :=
  { g with versions := g.versions.set t v }

theorem entries_add (fresh : g.versions.get? t = none) (v : Version) :
    (g.add t v).versions.entries = g.versions.entries ++ [(t, v)] := by
  apply JsMap.put_fresh
  rw [mem_keys_iff, fresh]
  simp

theorem charge_add (fresh : g.versions.get? t = none) (v : Version) :
    (g.add t v).charge = g.charge + g.added v.bytes := by
  rw [Group.charge, entries_add fresh, Group.charge, Group.added, JsMap.values]
  rcases g.versions.entries with _ | ⟨e, _ | ⟨e', rest⟩⟩
  · rfl
  · simp [Nat.add_comm]
  · simp [Nat.add_assoc]

variable {record : Entries}

theorem Represents.add (h : Represents rows g) (hid : r.identity? = some g.identity)
    (hraw : r.raw = .object record) :
    Represents (rows ++ [r]) (g.add r.text ⟨record, byteLength r.text⟩) where
  held t := by
    rw [Group.add, JsMap.get?_set, mem_texts_append, ← h.held]
    by_cases ht : r.text = t
    · simp [ht, hid]
    · simp [ht]
  kept t v hv := by
    rw [Group.add, JsMap.get?_set] at hv
    split at hv
    · rename_i ht
      cases hv
      subst ht
      exact ⟨rfl, hraw ▸ r.parse_text⟩
    · exact h.kept t v hv

/-- What has been read when a row has added its version to a group. -/
def Progress.added (p : Progress) (r : JsonRow) (g : Group) (record : Entries) : Progress where
  groups := p.groups.set g.identity.key (g.add r.text ⟨record, byteLength r.text⟩)
  rejected := p.rejected
  inputBytes := p.inputBytes + r.cost
  conflictBytes := p.conflictBytes + g.added (byteLength r.text)

theorem Reading.add (h : Reading rows p) (hid : r.identity? = some i)
    (hraw : r.raw = .object record) (hg : (p.groups.get? i.key).getD ⟨i, .empty⟩ = g)
    (fresh : g.versions.get? r.text = none) :
    Reading (rows ++ [r]) (p.added r g record) := by
  obtain ⟨hi, hrep⟩ := h.group_of i
  rw [hg] at hi hrep
  subst hi
  constructor
  · rw [Progress.added, inputBytes_append, h.inputBytes]
  · rw [Progress.added, filterMap_append, ← h.rejected]
    simp [rejection_none hid]
  · intro k g' hg'
    rw [Progress.added, JsMap.get?_set] at hg'
    split at hg'
    · rename_i hk
      cases hg'
      exact ⟨hk, mem_identities_append.mpr (.inr hid), hrep.add hid hraw⟩
    · rename_i hk
      obtain ⟨hkey, hmem, hrep'⟩ := h.groups k g' hg'
      refine ⟨hkey, mem_identities_append.mpr (.inl hmem), hrep'.frame ?_⟩
      intro hsame
      rw [hid, Option.some.injEq] at hsame
      rw [hsame, hkey] at hk
      exact absurd rfl hk
  · intro k hk
    rw [Progress.added, JsMap.get?_set]
    split
    · rfl
    · rename_i hne
      rcases mem_identities_append.mp hk with hk | hk
      · exact h.covers k hk
      · rw [hid] at hk
        cases hk
        exact absurd rfl hne
  · have hcharge := charge_add fresh ⟨record, byteLength r.text⟩
    simp only [Progress.added, h.conflictBytes]
    cases hold : p.groups.get? g.identity.key with
    | none =>
      have hsum := JsMap.sum_set_fresh (fun e : JsString × Group => e.2.charge) hold
        (g.add r.text ⟨record, byteLength r.text⟩)
      have hempty : g.charge = 0 := by
        rw [hold, getD_none] at hg
        rw [← hg]
        rfl
      simp only [hcharge, hempty] at hsum
      omega
    | some old =>
      rw [hold, getD_some] at hg
      subst hg
      have hsum := JsMap.sum_set_held (fun e : JsString × Group => e.2.charge) hold
        (old.add r.text ⟨record, byteLength r.text⟩)
      simp only [hcharge] at hsum
      omega

theorem fits_append (fits : Fits rows limits) (htenant : r.tenantId ≠ [])
    (hbytes : inputBytes rows + r.cost ≤ limits.maxInputBytes)
    (hover : ¬ Overflows (rows ++ [r]) limits) : Fits (rows ++ [r]) limits := by
  intro code hbreaks
  cases code with
  | invalidContext =>
    obtain ⟨s, hs, hempty⟩ := hbreaks
    rcases mem_append.mp hs with hs | hs
    · exact fits .invalidContext ⟨s, hs, hempty⟩
    · rw [mem_singleton] at hs
      exact htenant (hs ▸ hempty)
  | inputByteLimitExceeded =>
    rw [Breaks, inputBytes_append] at hbreaks
    omega
  | conflictEvidenceLimitExceeded => exact hover hbreaks
  | _ => exact hbreaks

variable {entry : PimScheduleInput}

/-- The turn of a row: what it costs is charged before it is placed. -/
theorem normalizeRow_eq (reads : Reads entry r) (within : p.inputBytes ≤ limits.maxInputBytes) :
    normalizeRow limits p entry =
      if r.tenantId = [] then .error (.rejected .invalidContext)
      else if limits.maxInputBytes < p.inputBytes + r.cost then
        .error (.rejected .inputByteLimitExceeded)
      else place limits { p with inputBytes := p.inputBytes + r.cost } entry
        ⟨r.text, byteLength r.text⟩ r.raw := by
  have hcontext : JsData.json? [] entry.context = some r.context := by
    rw [PimScheduleInput.context, reads.tenantId, reads.plane]
    exact JsData.json?_ofJson _ 0 [] (by simp)
  rw [normalizeRow, reads.tenantId]
  by_cases htenant : r.tenantId = []
  · rw [if_pos htenant, if_pos htenant]
    rfl
  · rw [if_neg htenant, if_neg htenant, canonicalJson_eq hcontext]
    have hrecord := canonicalJson_eq reads.record
    have hcost : r.cost = byteLength (canonicalText r.context) +
        byteLength (canonicalText r.value) := rfl
    by_cases hctx : limits.maxInputBytes - p.inputBytes < byteLength (canonicalText r.context)
    · rw [if_pos hctx, if_pos (by omega)]
      rfl
    · rw [if_neg hctx]
      by_cases hrow : limits.maxInputBytes -
          (p.inputBytes + byteLength (canonicalText r.context)) <
            byteLength (canonicalText r.value)
      · rw [if_pos (by omega : limits.maxInputBytes < p.inputBytes + r.cost)]
        simp [hrecord, hrow, Except.mapError, bind, Except.bind]
      · rw [if_neg (by omega : ¬ limits.maxInputBytes < p.inputBytes + r.cost), hcost]
        have hparse : parse (canonicalText r.value) = some r.raw := r.parse_text
        simp [hrecord, hrow, Except.mapError, bind, Except.bind, hparse, JsonRow.text, Nat.add_assoc]

theorem addVersion_eq (fresh : g.versions.get? r.text = none) :
    addVersion limits { p with inputBytes := p.inputBytes + r.cost } g
        ⟨r.text, byteLength r.text⟩ record =
      if g.versions.entries = [] then .ok (p.added r g record)
      else if limits.maxConflictVersions <
          (g.add r.text ⟨record, byteLength r.text⟩).versions.entries.length then
        .error (.rejected .conflictEvidenceLimitExceeded)
      else if limits.maxConflictEvidenceBytes < (p.added r g record).conflictBytes then
        .error (.rejected .conflictEvidenceLimitExceeded)
      else .ok (p.added r g record) := by
  rw [entries_add fresh, addVersion, Progress.added, Group.added, JsMap.values]
  cases g.versions.entries with
  | nil => rfl
  | cons e rest => simp [Group.add, Nat.add_assoc]

/-- A new version is added, or the conflicts of the rows exceed a bound with it. -/
theorem Reading.version (h : Reading rows p) (hold : ¬ Overflows rows limits)
    (hid : r.identity? = some i) (hraw : r.raw = .object record)
    (hg : (p.groups.get? i.key).getD ⟨i, .empty⟩ = g) (fresh : g.versions.get? r.text = none)
    {result : Except Failure Progress}
    (hresult : addVersion limits { p with inputBytes := p.inputBytes + r.cost } g
      ⟨r.text, byteLength r.text⟩ record = result) :
    (result = .ok (p.added r g record) ∧ ¬ Overflows (rows ++ [r]) limits) ∨
      (result = .error (.rejected .conflictEvidenceLimitExceeded) ∧
        Overflows (rows ++ [r]) limits) := by
  have hread := h.add hid hraw hg fresh
  rw [h.overflows_iff] at hold
  rw [hread.overflows_iff]
  have hlength := congrArg List.length (entries_add fresh ⟨record, byteLength r.text⟩)
  rw [length_append, length_singleton] at hlength
  have hadded (k : JsString) : (p.added r g record).groups.get? k =
      if g.identity.key = k then some (g.add r.text ⟨record, byteLength r.text⟩)
      else p.groups.get? k := JsMap.get?_set _ _ _ _
  have hsafe
      (hone : 2 ≤ (g.add r.text ⟨record, byteLength r.text⟩).versions.entries.length →
        (g.add r.text ⟨record, byteLength r.text⟩).versions.entries.length ≤
          limits.maxConflictVersions)
      (htotal : (p.added r g record).conflictBytes ≤ limits.maxConflictEvidenceBytes) :
      ¬ ((∃ k g', (p.added r g record).groups.get? k = some g' ∧
          2 ≤ g'.versions.entries.length ∧
          limits.maxConflictVersions < g'.versions.entries.length) ∨
        limits.maxConflictEvidenceBytes < (p.added r g record).conflictBytes) := by
    rintro (⟨k, g', hg', htwo, hmore⟩ | hmore)
    · rw [hadded] at hg'
      split at hg'
      · cases hg'
        exact absurd (hone htwo) (Nat.not_le.mpr hmore)
      · exact hold (.inl ⟨k, g', hg', htwo, hmore⟩)
    · omega
  rw [addVersion_eq fresh] at hresult
  by_cases hempty : g.versions.entries = []
  · rw [if_pos hempty] at hresult
    refine .inl ⟨hresult.symm, hsafe ?_ ?_⟩
    · rw [hlength, hempty]
      simp
    · have hnone : (p.added r g record).conflictBytes = p.conflictBytes := by
        rw [Progress.added, Group.added, JsMap.values, hempty]
        rfl
      have hle := fun hmore => hold (.inr hmore)
      omega
  rw [if_neg hempty] at hresult
  have hpos := length_pos_iff.mpr hempty
  by_cases hversions : limits.maxConflictVersions <
      (g.add r.text ⟨record, byteLength r.text⟩).versions.entries.length
  · rw [if_pos hversions] at hresult
    exact .inr ⟨hresult.symm, .inl ⟨g.identity.key, _, by rw [hadded, if_pos rfl], by omega,
      hversions⟩⟩
  rw [if_neg hversions] at hresult
  by_cases htotal : limits.maxConflictEvidenceBytes < (p.added r g record).conflictBytes
  · rw [if_pos htotal] at hresult
    exact .inr ⟨hresult.symm, .inr htotal⟩
  · rw [if_neg htotal] at hresult
    exact .inl ⟨hresult.symm, hsafe (fun _ => Nat.not_lt.mp hversions) (Nat.not_lt.mp htotal)⟩

/-- A row is read, or what it breaks is the failure. -/
theorem Reading.step (h : Reading rows p) (fits : Fits rows limits) (reads : Reads entry r) :
    (∃ p', normalizeRow limits p entry = .ok p' ∧ Reading (rows ++ [r]) p' ∧
        Fits (rows ++ [r]) limits) ∨
      ∃ code, normalizeRow limits p entry = .error (.rejected code) ∧
        Breaks (rows ++ [r]) limits code := by
  have hwithin : p.inputBytes ≤ limits.maxInputBytes := by
    have := fits .inputByteLimitExceeded
    rw [Breaks, ← h.inputBytes] at this
    omega
  have hold : ¬ Overflows rows limits := fits .conflictEvidenceLimitExceeded
  rw [normalizeRow_eq reads hwithin]
  by_cases htenant : r.tenantId = []
  · rw [if_pos htenant]
    exact .inr ⟨_, rfl, r, by simp, htenant⟩
  rw [if_neg htenant]
  by_cases hbytes : limits.maxInputBytes < p.inputBytes + r.cost
  · rw [if_pos hbytes]
    refine .inr ⟨_, rfl, ?_⟩
    rwa [Breaks, inputBytes_append, ← h.inputBytes]
  rw [if_neg hbytes]
  rw [h.inputBytes] at hbytes
  have hfits := fits_append fits htenant (Nat.not_lt.mp hbytes)
  cases hid : r.identity? with
  | none =>
    obtain ⟨diagnostic, hvalue, hraw⟩ := identity_none hid
    have hread := h.reject hvalue
    rw [place, hraw, reads.tenantId, reads.plane]
    refine .inl ⟨_, rfl, hread, hfits ?_⟩
    rwa [hread.overflows_iff, ← h.overflows_iff]
  | some i =>
    obtain ⟨record, hname, hraw, hi⟩ := identity_raw hid
    rw [place, hname, reads.tenantId, reads.plane]
    simp only [← hi]
    obtain ⟨hgi, hrep⟩ := h.group_of i
    by_cases hthere : (((p.groups.get? i.key).getD ⟨i, .empty⟩).versions.get? r.text).isSome
    · have htext := (hrep.held r.text).mp hthere
      rw [hgi] at htext
      have hread := h.repeat hid htext
      rw [if_pos hthere]
      refine .inl ⟨_, rfl, hread, hfits ?_⟩
      rwa [hread.overflows_iff, ← h.overflows_iff]
    · have hfresh := not_isSome_iff_eq_none.mp hthere
      rw [if_neg hthere]
      rcases h.version hold hid hraw rfl hfresh rfl with ⟨hok, hnot⟩ | ⟨herror, hover⟩
      · exact .inl ⟨_, hok, h.add hid hraw rfl hfresh, hfits hnot⟩
      · exact .inr ⟨_, herror, hover⟩

/-- The rows are read, or what they break is the failure. -/
theorem Reading.run (h : Reading rows p) (fits : Fits rows limits)
    {input : List PimScheduleInput} {more : List JsonRow} (reads : Forall₂ Reads input more) :
    (∃ p', input.foldlM (normalizeRow limits) p = .ok p' ∧ Reading (rows ++ more) p' ∧
        Fits (rows ++ more) limits) ∨
      ∃ code, input.foldlM (normalizeRow limits) p = .error (.rejected code) ∧
        Breaks (rows ++ more) limits code := by
  induction reads generalizing rows p with
  | nil =>
    rw [append_nil]
    exact .inl ⟨p, rfl, h, fits⟩
  | @cons entry r input more head _ ih =>
    rw [foldlM_cons, ← singleton_append, ← append_assoc]
    rcases h.step fits head with ⟨p', hstep, hread, hfits⟩ | ⟨code, hstep, hbreaks⟩
    · rw [hstep]
      exact ih hread hfits
    · rw [hstep]
      exact .inr ⟨code, rfl, hbreaks.append⟩

end More

/-! ## The outcome -/

section Outcome

variable {rows others : List JsonRow} {limits : Limits} {input more : List PimScheduleInput}

theorem reading_nil : Reading [] ⟨.empty, [], 0, 0⟩ where
  inputBytes := rfl
  rejected := rfl
  groups k g hg := by cases hg
  covers i hi := by cases hi
  conflictBytes := rfl

theorem fits_nil : Fits [] limits := by
  intro code hbreaks
  cases code with
  | invalidContext =>
    obtain ⟨r, hr, _⟩ := hbreaks
    cases hr
  | inputByteLimitExceeded => exact absurd hbreaks (Nat.not_lt_zero _)
  | conflictEvidenceLimitExceeded =>
    rcases hbreaks with ⟨i, hi, _⟩ | hbytes
    · cases (Finset.mem_filter.mp hi).1
    · exact absurd hbytes (Nat.not_lt_zero _)
  | _ => exact hbreaks

/-- The rows are kept, or one of the bounds is the failure. -/
theorem normalize_spec (bounds : PimObservationBounds) (hlimits : bounds.limits? = some limits)
    (reads : Forall₂ Reads input rows) (hcount : input.length ≤ limits.maxInputRows) :
    (∃ p, normalizePimScheduleObservations input bounds = .ok p.observations ∧
        Reading rows p ∧ Fits rows limits) ∨
      ∃ code, normalizePimScheduleObservations input bounds = .error (.rejected code) ∧
        Breaks rows limits code := by
  rw [normalizePimScheduleObservations, hlimits]
  simp only
  rw [if_neg (Nat.not_lt.mpr hcount)]
  rcases reading_nil.run fits_nil reads with ⟨p, hrun, hread, hfits⟩ | ⟨code, hrun, hbreaks⟩
  · rw [hrun]
    exact .inl ⟨p, rfl, hread, hfits⟩
  · rw [hrun]
    exact .inr ⟨code, rfl, hbreaks⟩

/-! ## The order of the rows -/

/-- Maps with the same values under the same keys are sorted to one list. -/
theorem sortedByKey_congr {α β γ : Type} {f : α → γ} {g : β → γ} {m : JsMap JsString α}
    {n : JsMap JsString β} (h : ∀ k, (m.get? k).map f = (n.get? k).map g) :
    (sortedByKey m).map (fun e => f e.2) = (sortedByKey n).map fun e => g e.2 := by
  have hmem {δ : Type} (d : δ → γ) (l : JsMap JsString δ) (k : JsString) (c : γ) :
      (k, c) ∈ (sortedByKey l).map (fun e => (e.1, d e.2)) ↔ (l.get? k).map d = some c := by
    rw [List.mem_map, Option.map_eq_some_iff]
    constructor
    · rintro ⟨e, he, heq⟩
      cases heq
      have hentry := (perm_insertionSort _ _).mem_iff.mp he
      exact ⟨e.2, JsMap.get?_eq_some.mpr hentry, rfl⟩
    · rintro ⟨v, hv, rfl⟩
      have hentry := JsMap.get?_eq_some.mp hv
      exact ⟨(k, v), (perm_insertionSort _ _).mem_iff.mpr hentry, rfl⟩
  have hkeys {δ : Type} (d : δ → γ) (l : JsMap JsString δ) :
      (((sortedByKey l).map fun e => (e.1, d e.2)).map Prod.fst).Nodup := by
    rw [List.map_map]
    exact ((perm_insertionSort _ l.entries).map Prod.fst).nodup_iff.mpr l.unique
  have hsorted {δ : Type} (d : δ → γ) (l : JsMap JsString δ) :
      ((sortedByKey l).map fun e => (e.1, d e.2)).Pairwise fun a b => a.1 ≤ b.1 := by
    rw [pairwise_map]
    have htotal : Std.Total fun a b : JsString × δ => a.1 ≤ b.1 :=
      ⟨fun a b => List.le_total a.1 b.1⟩
    have htrans : IsTrans (JsString × δ) fun a b => a.1 ≤ b.1 := ⟨fun _ _ _ => List.le_trans⟩
    exact pairwise_insertionSort _ _
  have hperm : ((sortedByKey m).map fun e => (e.1, f e.2)).Perm
      ((sortedByKey n).map fun e => (e.1, g e.2)) := by
    rw [perm_ext_iff_of_nodup (hkeys f m).of_map (hkeys g n).of_map]
    rintro ⟨k, c⟩
    rw [hmem, hmem, h]
  have heq : (sortedByKey m).map (fun e => (e.1, f e.2)) =
      (sortedByKey n).map fun e => (e.1, g e.2) := by
    refine List.Perm.eq_of_pairwise ?_ (hsorted f m) (hsorted g n) hperm
    intro a b ha hb hab hba
    exact inj_on_of_nodup_map (hkeys f m) ha (hperm.mem_iff.mpr hb)
      (List.le_antisymm hab hba)
  have hsnd := congrArg (List.map Prod.snd) heq
  simpa [List.map_map, Function.comp_def] using hsnd

theorem identities_perm (h : rows.Perm others) : identities rows = identities others := by
  ext i
  simp only [mem_identities, h.mem_iff]

theorem texts_perm (h : rows.Perm others) (i : PimIdentity) : texts rows i = texts others i := by
  ext t
  simp only [mem_texts, h.mem_iff]

variable {p : Progress}

theorem Reading.held_iff (h : Reading rows p) (k : JsString) :
    (p.groups.get? k).isSome ↔ ∃ i ∈ identities rows, i.key = k := by
  constructor
  · intro hsome
    obtain ⟨g, hg⟩ := Option.isSome_iff_exists.mp hsome
    obtain ⟨hkey, hmem, _⟩ := h.groups k g hg
    exact ⟨g.identity, hmem, hkey⟩
  · rintro ⟨i, hi, rfl⟩
    exact h.covers i hi

theorem instance_congr {g g' : Group} (h : Represents rows g) (h' : Represents others g')
    (hperm : rows.Perm others) (hid : g.identity = g'.identity) : g.instance = g'.instance := by
  have htexts : texts rows g.identity = texts others g'.identity := by
    rw [hid, texts_perm hperm]
  have hvariants : (sortedByKey g.versions).map (fun e => variant e.2.raw) =
      (sortedByKey g'.versions).map fun e => variant e.2.raw := by
    apply sortedByKey_congr (f := fun v : Version => variant v.raw)
      (g := fun v : Version => variant v.raw)
    intro t
    refine Traverse.map_eq_of_same ?_ fun v v' hv hv' => ?_
    · rw [Bool.eq_iff_iff, h.held, h'.held, htexts]
    · have hraw := (h.kept t v hv).2.symm.trans (h'.kept t v' hv').2
      simp only [Option.some.injEq, Json.object.injEq] at hraw
      rw [hraw]
  rw [Group.instance, Group.instance, hid, hvariants, ← h.card, ← h'.card, htexts]

/-- The instances do not depend on the order of the rows. -/
theorem instances_perm {p' : Progress} (h : Reading rows p) (h' : Reading others p')
    (hperm : rows.Perm others) : p.observations.instances = p'.observations.instances := by
  apply sortedByKey_congr
  intro k
  refine Traverse.map_eq_of_same ?_ fun g g' hg hg' => ?_
  · rw [Bool.eq_iff_iff, h.held_iff, h'.held_iff, identities_perm hperm]
  · obtain ⟨hkey, _, hrep⟩ := h.groups k g hg
    obtain ⟨hkey', _, hrep'⟩ := h'.groups k g' hg'
    exact instance_congr hrep hrep' hperm (key_injective (hkey.trans hkey'.symm))

end Outcome

end PimObservation
