import HawkView.Lib.DistinctKeys
import HawkView.Lib.SqlWhere
import Mathlib.Data.List.Perm.Subperm

/-!
# Patches of keyed rows

A patch gives the rows of some keys a new part and leaves the rest of a row
alone. What a patch wrote is undone by a patch with the parts of before, also
when the rest of the rows has changed in between. An update that joins a list of
values is such a patch when it affects as many rows as there are values.
-/

universe u v w x

/-- Rows with a key and a part that can be replaced. -/
structure KeyedPart (Row : Type u) (K : Type v) (P : Type w) where
  key : Row → K
  part : Row → P
  place : P → Row → Row
  key_place : ∀ p r, key (place p r) = key r
  part_place : ∀ p r, part (place p r) = p
  place_place : ∀ p q r, place p (place q r) = place p r
  place_part : ∀ r, place (part r) r = r

namespace KeyedPart

open List Option

variable {Row : Type u} {K : Type v} {P : Type w} (L : KeyedPart Row K P)

attribute [simp] key_place part_place place_place place_part

/-- The row with the part that `f` has for its key. -/
def patchRow (f : K → Option P) (r : Row) : Row :=
  match f (L.key r) with
  | none => r
  | some p => L.place p r

def patch (f : K → Option P) (rows : List Row) : List Row := rows.map (L.patchRow f)

/-- Rows that differ in their parts at most. -/
def SameRest (r s : Row) : Prop := L.key r = L.key s ∧ ∀ p, L.place p r = L.place p s

variable {L} {f g : K → Option P}

variable {r : Row}

theorem patchRow_none (h : f (L.key r) = none) : L.patchRow f r = r := by
  rw [patchRow, h]

theorem patchRow_some {p : P} (h : f (L.key r) = some p) :
    L.patchRow f r = L.place p r := by
  rw [patchRow, h]

@[simp] theorem key_patchRow (r : Row) : L.key (L.patchRow f r) = L.key r := by
  unfold patchRow
  split <;> simp

@[simp] theorem keys_patch (rows : List Row) : (L.patch f rows).map L.key = rows.map L.key := by
  rw [patch, List.map_map]
  apply map_congr_left
  intro r _
  exact key_patchRow r

theorem place_injective {p q : P} (h : L.place p r = L.place q r) : p = q := by
  rw [← L.part_place p r, h, part_place]

theorem sameRest_place (p : P) (r : Row) : L.SameRest r (L.place p r) := by
  constructor
  · simp
  · simp

theorem sameRest_patchRow (r : Row) : L.SameRest r (L.patchRow f r) := by
  unfold patchRow
  split
  · exact ⟨rfl, fun _ => rfl⟩
  · exact sameRest_place _ r

variable {rows : List Row}

theorem patch_congr (h : ∀ r ∈ rows, f (L.key r) = g (L.key r)) :
    L.patch f rows = L.patch g rows := by
  apply map_congr_left
  intro r hr
  rw [patchRow, patchRow, h r hr]

theorem patch_eq_self (h : ∀ r ∈ rows, f (L.key r) = none) :
    L.patch f rows = rows := by
  conv_rhs => rw [← map_id rows]
  apply map_congr_left
  intro r hr
  exact patchRow_none (h r hr)

/-- Two patches of the same keys agree if and only if they agree on every row. -/
theorem patch_eq_iff (same : ∀ r ∈ rows, (f (L.key r)).isSome = (g (L.key r)).isSome) :
    L.patch f rows = L.patch g rows ↔ ∀ r ∈ rows, f (L.key r) = g (L.key r) := by
  constructor
  · intro h r hr
    have hrow : L.patchRow f r = L.patchRow g r := List.map_inj_left.mp h r hr
    have hsome := same r hr
    cases hf : f (L.key r) with
    | none =>
      cases hg : g (L.key r) with
      | none => rfl
      | some q =>
        rw [hf, hg] at hsome
        cases hsome
    | some p =>
      rw [hf, isSome_some] at hsome
      obtain ⟨q, hg⟩ := isSome_iff_exists.mp hsome.symm
      rw [patchRow_some hf, patchRow_some hg] at hrow
      rw [hg, place_injective hrow]
  · exact patch_congr

/-- A row that still has the part of after a patch gets back the part of before,
whatever else of it has changed. -/
theorem patchRow_back {before now : Row} (key : L.key now = L.key before)
    (kept : L.part now = L.part (L.patchRow f before))
    (back : g (L.key before) = (f (L.key before)).map fun _ => L.part before) :
    L.patchRow g now = L.place (L.part before) now := by
  rw [← key] at back
  cases hf : f (L.key before) with
  | none =>
    rw [patchRow_none hf] at kept
    rw [key, hf, ← key, map_none] at back
    rw [patchRow_none back, ← kept, place_part]
  | some p =>
    rw [key, hf, ← key, map_some] at back
    rw [patchRow_some back]

/-! ## Updates that join a list of values -/

section Update

open SqlWhere

variable {V : Type x}

/-- The values that a row joins. -/
def joins (on : V → Condition Row) (vs : List V) (r : Row) : List V :=
  vs.filter fun v => on v r = some true

/-- Of several values that a row joins one is used. -/
abbrev Choice (V : Type x) := (vs : List V) → vs ≠ [] → { v // v ∈ vs }

def updateRow (choose : Choice V) (on : V → Condition Row) (set : V → Row → Row) (vs : List V)
    (r : Row) : Row :=
  if h : joins on vs r = [] then r else set (choose (joins on vs r) h).1 r

/-- The rows that the update writes. -/
def affected (on : V → Condition Row) (vs : List V) (rows : List Row) : List Row :=
  rows.filter fun r => !(joins on vs r).isEmpty

theorem mem_joins {on : V → Condition Row} {vs : List V} {r : Row} {v : V} :
    v ∈ joins on vs r ↔ v ∈ vs ∧ Selects (on v) r := by
  simp [joins, Selects]

theorem mem_affected {on : V → Condition Row} {vs : List V} {rows : List Row} {r : Row} :
    r ∈ affected on vs rows ↔ r ∈ rows ∧ ∃ v ∈ vs, Selects (on v) r := by
  rw [affected, mem_filter]
  refine and_congr_right fun _ => ?_
  rw [Bool.not_eq_true', isEmpty_eq_false_iff_exists_mem]
  simp only [mem_joins]

variable {on : V → Condition Row} {vs : List V} {rows : List Row} {target : V → K}

/-- No row is written twice, so the update writes as many rows as there are values
only where each value has a row and a key of its own. -/
theorem affected_all (unique : (rows.map L.key).Nodup)
    (joined : ∀ v ∈ vs, ∀ r ∈ rows, Selects (on v) r → L.key r = target v) :
    (affected on vs rows).length = vs.length ↔
      (vs.map target).Nodup ∧ ∀ v ∈ vs, ∃ r ∈ rows, Selects (on v) r := by
  have hnodup : ((affected on vs rows).map L.key).Nodup :=
    unique.sublist (filter_sublist.map L.key)
  constructor
  · intro hcount
    have hsub : (affected on vs rows).map L.key ⊆ vs.map target := by
      intro k hk
      obtain ⟨r, hr, rfl⟩ := mem_map.mp hk
      obtain ⟨hmem, v, hv, hselects⟩ := mem_affected.mp hr
      rw [joined v hv r hmem hselects]
      exact mem_map_of_mem hv
    have hperm : ((affected on vs rows).map L.key).Perm (vs.map target) := by
      apply (hnodup.subperm hsub).perm_of_length_le
      simp [hcount]
    have htargets : (vs.map target).Nodup := hperm.nodup_iff.mp hnodup
    refine ⟨htargets, ?_⟩
    intro v hv
    obtain ⟨r, hr, hkey⟩ := mem_map.mp (hperm.mem_iff.mpr (mem_map_of_mem hv))
    obtain ⟨hmem, v', hv', hselects⟩ := mem_affected.mp hr
    have hsame : v' = v := by
      apply inj_on_of_nodup_map htargets hv' hv
      rw [← joined v' hv' r hmem hselects, hkey]
    exact ⟨r, hmem, hsame ▸ hselects⟩
  · rintro ⟨htargets, hall⟩
    have hperm : ((affected on vs rows).map L.key).Perm (vs.map target) := by
      rw [perm_ext_iff_of_nodup hnodup htargets]
      intro k
      constructor
      · intro hk
        obtain ⟨r, hr, rfl⟩ := mem_map.mp hk
        obtain ⟨hmem, v, hv, hselects⟩ := mem_affected.mp hr
        rw [joined v hv r hmem hselects]
        exact mem_map_of_mem hv
      · intro hk
        obtain ⟨v, hv, rfl⟩ := mem_map.mp hk
        obtain ⟨r, hr, hselects⟩ := hall v hv
        rw [← joined v hv r hr hselects]
        exact mem_map_of_mem (mem_affected.mpr ⟨hr, v, hv, hselects⟩)
    simpa using hperm.length_eq

variable [DecidableEq K] in
/-- An update of which each value has a row is the patch with these values. -/
theorem map_updateRow (choose : Choice V) (part : V → P) (unique : (rows.map L.key).Nodup)
    (joined : ∀ v ∈ vs, ∀ r ∈ rows, Selects (on v) r → L.key r = target v)
    (targets : (vs.map target).Nodup) (all : ∀ v ∈ vs, ∃ r ∈ rows, Selects (on v) r) :
    rows.map (updateRow choose on (fun v => L.place (part v)) vs) =
      L.patch (fun k => (vs.find? fun v => target v = k).map part) rows := by
  apply map_congr_left
  intro r hr
  unfold updateRow
  split
  case isTrue hnone =>
    symm
    apply patchRow_none
    rw [map_eq_none_iff, DistinctKeys.find_none]
    intro v hv hkey
    obtain ⟨s, hs, hselects⟩ := all v hv
    have hsame : s = r := by
      apply inj_on_of_nodup_map unique hs hr
      rw [joined v hv s hs hselects, hkey]
    have hmem : v ∈ joins on vs r := mem_joins.mpr ⟨hv, hsame ▸ hselects⟩
    simp [hnone] at hmem
  case isFalse hsome =>
    obtain ⟨v, hchosen⟩ := choose (joins on vs r) hsome
    obtain ⟨hv, hselects⟩ := mem_joins.mp hchosen
    have hkey := joined v hv r hr hselects
    symm
    apply patchRow_some
    rw [map_eq_some_iff]
    exact ⟨v, (DistinctKeys.find_some targets).mpr ⟨hv, hkey.symm⟩, rfl⟩

end Update

end KeyedPart
