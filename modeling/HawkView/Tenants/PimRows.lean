import HawkView.Tenants.PimCanonical
import Mathlib.Algebra.Order.BigOperators.Group.Finset

/-!
# The rows of a schedule and what they break

A row is read as the JSON value of its record. What a set of rows may break does
not depend on the order of the rows, and more rows break what fewer rows do.
-/

namespace PimObservation

open Json List

structure JsonRow where
  tenantId : JsString
  plane : PimPlane
  value : Json
  wellFormed : value.WellFormed

/-- The row that an entry of the input is. -/
structure Reads (entry : PimScheduleInput) (row : JsonRow) : Prop where
  tenantId : entry.tenantId = row.tenantId
  plane : entry.plane = row.plane
  record : JsData.json? [] entry.record = some row.value

namespace JsonRow

def text (r : JsonRow) : JsString := canonicalText r.value

/-- The record as it is kept. -/
def raw (r : JsonRow) : Json := rewrite enumerated (rewrite byName r.value)

def context (r : JsonRow) : Json := .array [.string r.tenantId, .string r.plane.text]

/-- The bytes of a row. -/
def cost (r : JsonRow) : Nat := byteLength (canonicalText r.context) + byteLength r.text

/-- The identity that a row names. -/
def identity? (r : JsonRow) : Option PimIdentity :=
  match identityOf r.value with
  | .ok (_, instanceId) => some ⟨r.tenantId, r.plane, instanceId⟩
  | .error _ => none

def rejection? (r : JsonRow) : Option RejectedRow :=
  match identityOf r.value with
  | .ok _ => none
  | .error diagnostic => some ⟨r.tenantId, r.plane, r.raw, diagnostic⟩

theorem parse_text (r : JsonRow) : parse r.text = some r.raw :=
  parse_stringify (byName_keeping.wellFormed r.wellFormed)

theorem raw_alike (r : JsonRow) : Alike r.raw r.value :=
  (enumerated_keeping.alike (byName_keeping.wellFormed r.wellFormed)).trans
    (byName_keeping.alike r.wellFormed)

theorem text_iff (r s : JsonRow) : r.text = s.text ↔ Alike r.value s.value :=
  sorted_text_iff r.wellFormed s.wellFormed

end JsonRow

/-! ## Identities -/

/-- The name that a record gives itself. -/
def nameOf (v : Json) : Except IdentityDiagnostic JsString := (identityOf v).map Prod.snd

/-- Alike records name one identity, or none for one reason. -/
theorem nameOf_alike {v w : Json} (h : Alike v w) : nameOf v = nameOf w := by
  have hshape := h.shape
  cases v with
  | object entries =>
    cases w with
    | object others =>
      rw [nameOf, nameOf, identityOf, identityOf]
      rcases h.children (.key (js "id")) with ⟨hx, hy⟩ | ⟨x, y, hx, hy, hxy⟩
      · rw [show entries.lookup (js "id") = none from hx,
          show others.lookup (js "id") = none from hy]
      · rw [show entries.lookup (js "id") = some x from hx,
          show others.lookup (js "id") = some y from hy]
        have hsame := hxy.shape
        cases x with
        | string s =>
          cases y with
          | string t =>
            cases hsame
            by_cases hs : s = [] <;> simp [hs, Except.map]
          | _ => cases hsame
        | _ => cases y <;> first | rfl | cases hsame
    | _ => cases hshape
  | _ => cases w <;> first | rfl | cases hshape

theorem identityOf_ok {v : Json} {record : Entries} {id : JsString}
    (h : identityOf v = .ok (record, id)) : v = .object record := by
  cases v with
  | object entries =>
    rw [identityOf] at h
    split at h
    · cases h
    · cases h
    · split at h
      · cases h
      · cases h
        rfl
    · cases h
  | _ => cases h

variable {r : JsonRow} {i : PimIdentity}

/-- A row names its identity in the record as it is kept. -/
theorem identity_raw (h : r.identity? = some i) :
    ∃ record, identityOf r.raw = .ok (record, i.instanceId) ∧ r.raw = .object record ∧
      i = ⟨r.tenantId, r.plane, i.instanceId⟩ := by
  rw [JsonRow.identity?] at h
  split at h
  · rename_i heq
    cases h
    have hname := nameOf_alike r.raw_alike
    rw [nameOf, nameOf, heq] at hname
    obtain ⟨⟨record, id⟩, hraw, rfl⟩ := Traverse.map_ok.mp hname
    exact ⟨record, hraw, identityOf_ok hraw, rfl⟩
  · cases h

theorem identity_none (h : r.identity? = none) :
    ∃ diagnostic, identityOf r.value = .error diagnostic ∧
      identityOf r.raw = .error diagnostic := by
  rw [JsonRow.identity?] at h
  split at h
  · cases h
  · rename_i diagnostic heq
    have hname := nameOf_alike r.raw_alike
    rw [nameOf, nameOf, heq] at hname
    refine ⟨diagnostic, heq, ?_⟩
    cases hraw : identityOf r.raw with
    | ok named =>
      rw [hraw] at hname
      cases hname
    | error d =>
      rw [hraw] at hname
      cases hname
      rfl

theorem rejection_none (h : r.identity? = some i) :
    r.rejection? = none := by
  rw [JsonRow.identity?] at h
  split at h
  · rename_i heq
    rw [JsonRow.rejection?, heq]
  · cases h

theorem plane_injective : Function.Injective PimPlane.text := by
  intro p q h
  cases p <;> cases q <;> first | rfl | exact absurd h (by decide)

theorem key_injective : Function.Injective PimIdentity.key := by
  intro i k h
  have htext := stringify_injective h
  simp only [Json.array.injEq, List.cons.injEq, Json.string.injEq, and_true] at htext
  obtain ⟨htenant, hplane, hid⟩ := htext
  have hplane := plane_injective hplane
  cases i
  cases k
  cases htenant
  cases hplane
  cases hid
  rfl

/-! ## What rows break -/

section Rows

variable (rows : List JsonRow)

def identities : Finset PimIdentity := (rows.filterMap JsonRow.identity?).toFinset

/-- The texts of the versions of an identity. -/
def texts (i : PimIdentity) : Finset JsString :=
  ((rows.filter fun r => r.identity? = some i).map JsonRow.text).toFinset

/-- The identities of which there is more than one version. -/
def conflicting : Finset PimIdentity := (identities rows).filter fun i => 2 ≤ (texts rows i).card

def conflictBytes : Nat := ∑ i ∈ conflicting rows, ∑ t ∈ texts rows i, byteLength t

def inputBytes : Nat := (rows.map JsonRow.cost).sum

/-- The conflicts of the rows exceed a bound. -/
def Overflows (limits : Limits) : Prop :=
  (∃ i ∈ conflicting rows, limits.maxConflictVersions < (texts rows i).card) ∨
    limits.maxConflictEvidenceBytes < conflictBytes rows

/-- The rows give the reason for a failure. -/
def Breaks (limits : Limits) : Code → Prop
  | .invalidContext => ∃ r ∈ rows, r.tenantId = []
  | .inputByteLimitExceeded => limits.maxInputBytes < inputBytes rows
  | .conflictEvidenceLimitExceeded => Overflows rows limits
  | _ => False

/-- The rows break nothing. -/
def Fits (limits : Limits) : Prop := ∀ code, ¬ Breaks rows limits code

end Rows

section Laws

variable {rows more : List JsonRow} {limits : Limits}

variable {i : PimIdentity}

theorem mem_identities :
    i ∈ identities rows ↔ ∃ r ∈ rows, r.identity? = some i := by
  simp [identities]

theorem mem_texts {t : JsString} :
    t ∈ texts rows i ↔ ∃ r ∈ rows, r.identity? = some i ∧ r.text = t := by
  simp [texts, and_assoc]

theorem texts_mono (h : rows ⊆ more) (i : PimIdentity) : texts rows i ⊆ texts more i := by
  intro t ht
  obtain ⟨r, hr, hi⟩ := mem_texts.mp ht
  exact mem_texts.mpr ⟨r, h hr, hi⟩

theorem conflicting_mono (h : rows ⊆ more) : conflicting rows ⊆ conflicting more := by
  intro i hi
  obtain ⟨hmem, hcard⟩ := Finset.mem_filter.mp hi
  obtain ⟨r, hr, hident⟩ := mem_identities.mp hmem
  exact Finset.mem_filter.mpr ⟨mem_identities.mpr ⟨r, h hr, hident⟩,
    Nat.le_trans hcard (Finset.card_le_card (texts_mono h i))⟩

theorem conflictBytes_mono (h : rows ⊆ more) : conflictBytes rows ≤ conflictBytes more := by
  calc conflictBytes rows
      ≤ ∑ i ∈ conflicting rows, ∑ t ∈ texts more i, byteLength t := by
        apply Finset.sum_le_sum
        intro i _
        exact Finset.sum_le_sum_of_subset (texts_mono h i)
    _ ≤ conflictBytes more := Finset.sum_le_sum_of_subset (conflicting_mono h)

theorem Overflows.mono (h : rows ⊆ more) (hover : Overflows rows limits) :
    Overflows more limits := by
  rcases hover with ⟨i, hi, hcard⟩ | hbytes
  · exact .inl ⟨i, conflicting_mono h hi,
      Nat.lt_of_lt_of_le hcard (Finset.card_le_card (texts_mono h i))⟩
  · exact .inr (Nat.lt_of_lt_of_le hbytes (conflictBytes_mono h))

/-- More rows break what fewer rows do. -/
theorem Breaks.append {code : Code} (h : Breaks rows limits code) :
    Breaks (rows ++ more) limits code := by
  cases code with
  | invalidContext =>
    obtain ⟨r, hr, hempty⟩ := h
    exact ⟨r, mem_append_left _ hr, hempty⟩
  | inputByteLimitExceeded =>
    rw [Breaks, inputBytes] at *
    rw [map_append, sum_append]
    exact Nat.lt_of_lt_of_le h (Nat.le_add_right _ _)
  | conflictEvidenceLimitExceeded => exact Overflows.mono (subset_append_left _ _) h
  | _ => cases h

/-- What the rows break does not depend on their order. -/
theorem breaks_perm (h : rows.Perm more) (code : Code) :
    Breaks rows limits code ↔ Breaks more limits code := by
  cases code with
  | invalidContext => simp only [Breaks, h.mem_iff]
  | inputByteLimitExceeded =>
    rw [Breaks, Breaks, inputBytes, inputBytes, (h.map _).sum_eq]
  | conflictEvidenceLimitExceeded =>
    exact ⟨Overflows.mono h.subset, Overflows.mono h.symm.subset⟩
  | _ => exact Iff.rfl

end Laws

end PimObservation
