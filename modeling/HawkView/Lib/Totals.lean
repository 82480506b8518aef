import HawkView.Lib.DistinctKeys
import Mathlib.Algebra.BigOperators.Group.List.Basic
import Mathlib.Algebra.Order.Group.Int
import Mathlib.Algebra.Ring.Int.Defs

/-!
# Totals

The total of an amount over the rows that a group covers. An upsert adds to the
groups that cover its key and to no other.
-/

universe u v

namespace Totals

open List Option

variable {ρ : Type u} {κ : Type v}

/-- `SELECT sum(amount) WHERE covers`, where no row gives nothing. -/
def total (covers : ρ → Bool) (amount : ρ → Int) (rows : List ρ) : Int :=
  ((rows.filter covers).map amount).sum

/-- What a row adds. -/
def share (covers : ρ → Bool) (amount : ρ → Int) (r : ρ) : Int :=
  if covers r then amount r else 0

section Rules

variable {covers : ρ → Bool} {amount : ρ → Int} {rows : List ρ} {r : ρ}

@[simp] theorem total_nil : total covers amount [] = 0 := rfl

theorem total_cons :
    total covers amount (r :: rows) = share covers amount r + total covers amount rows := by
  unfold total share
  rw [filter_cons]
  split
  · rw [map_cons, sum_cons]
  · rw [zero_add]

theorem total_append {rows' : List ρ} : total covers amount (rows ++ rows') =
    total covers amount rows + total covers amount rows' := by
  unfold total
  rw [filter_append, map_append, sum_append]

theorem total_singleton : total covers amount [r] = share covers amount r := by
  rw [total_cons, total_nil, add_zero]

theorem total_nonneg (nonneg : ∀ r ∈ rows, 0 ≤ amount r) : 0 ≤ total covers amount rows := by
  induction rows with
  | nil => exact le_refl _
  | cons r rows ih =>
    rw [total_cons]
    have hhead := nonneg r mem_cons_self
    have htail := ih fun s hs => nonneg s (mem_cons_of_mem _ hs)
    unfold share
    split <;> omega

/-- Rows that are none the larger for it give a total that is not. -/
theorem total_map_le {change : ρ → ρ}
    (less : ∀ r ∈ rows, share covers amount (change r) ≤ share covers amount r) :
    total covers amount (rows.map change) ≤ total covers amount rows := by
  induction rows with
  | nil => exact le_refl _
  | cons r rows ih =>
    rw [map_cons, total_cons, total_cons]
    have hhead := less r mem_cons_self
    have htail := ih fun s hs => less s (mem_cons_of_mem _ hs)
    omega

theorem total_le_total {amount' : ρ → Int} (le : ∀ r ∈ rows, amount r ≤ amount' r) :
    total covers amount rows ≤ total covers amount' rows := by
  induction rows with
  | nil => exact le_refl _
  | cons r rows ih =>
    rw [total_cons, total_cons]
    have hhead := le r mem_cons_self
    have htail := ih fun s hs => le s (mem_cons_of_mem _ hs)
    unfold share
    split <;> omega

theorem total_set {k : Nat} {r' : ρ} (h : rows[k]? = some r) :
    total covers amount (rows.set k r') =
      total covers amount rows + share covers amount r' - share covers amount r := by
  induction rows generalizing k with
  | nil => cases h
  | cons s rows ih =>
    cases k with
    | zero =>
      cases h
      rw [set_cons_zero, total_cons, total_cons]
      omega
    | succ k =>
      rw [set_cons_succ, total_cons, total_cons, ih h]
      omega

end Rules

/-! ## Rows with distinct keys -/

section Keyed

variable {covers : ρ → Bool} {amount : ρ → Int} {rows : List ρ} {key : ρ → κ} {k : κ}

variable (covers amount) in
/-- An update that reaches rows of one key changes one row, if any. -/
theorem total_update (distinct : (rows.map key).Nodup) {applies : ρ → Bool} (change : ρ → ρ)
    (one : ∀ r ∈ rows, applies r = true → key r = k) :
    total covers amount (rows.map fun r => if applies r then change r else r) =
      total covers amount rows + ((rows.find? applies).map fun r =>
        share covers amount (change r) - share covers amount r).getD 0 := by
  induction rows with
  | nil => rfl
  | cons r rows ih =>
    rw [map_cons, nodup_cons] at distinct
    rw [map_cons, total_cons, total_cons, find?_cons]
    by_cases happlies : applies r = true
    · have hrest : rows.map (fun s => if applies s then change s else s) = rows := by
        refine (map_congr_left ?_).trans (map_id rows)
        intro s hs
        refine if_neg ?_
        intro hother
        have hsame := (one s (mem_cons_of_mem _ hs) hother).trans
          (one r mem_cons_self happlies).symm
        exact distinct.1 (hsame ▸ mem_map_of_mem hs)
      rw [hrest, if_pos happlies, happlies]
      simp only [map_some, getD_some]
      omega
    · rw [if_neg happlies, ih distinct.2 fun s hs => one s (mem_cons_of_mem _ hs)]
      rw [Bool.not_eq_true] at happlies
      simp only [happlies]
      omega

variable [DecidableEq κ]

/-- The group of one key has one row, if any. -/
theorem total_key (distinct : (rows.map key).Nodup) :
    total (fun r => key r = k) amount rows =
      ((rows.find? fun r => key r = k).map amount).getD 0 := by
  induction rows with
  | nil => rfl
  | cons r rows ih =>
    rw [map_cons, nodup_cons] at distinct
    rw [total_cons, find?_cons, ih distinct.2, share]
    by_cases hkey : key r = k
    · have hnone : rows.find? (fun s => decide (key s = k)) = none := by
        rw [find?_eq_none]
        intro s hs hother
        rw [decide_eq_true_eq] at hother
        exact distinct.1 (hkey.trans hother.symm ▸ mem_map_of_mem hs)
      simp [hnone, hkey]
    · rw [decide_eq_false hkey]
      exact zero_add _

/-- `INSERT … ON CONFLICT (key) DO UPDATE`. -/
def upsert (key : ρ → κ) (row : ρ) (change : ρ → ρ) (rows : List ρ) : List ρ :=
  if rows.any (key · == key row) then rows.map fun r => if key r == key row then change r else r
  else rows ++ [row]

variable {row : ρ} {change : ρ → ρ}

theorem upsert_keys (keeps : ∀ r, key (change r) = key r) (distinct : (rows.map key).Nodup) :
    ((upsert key row change rows).map key).Nodup := by
  unfold upsert
  split
  · have hsame : (rows.map fun r => if key r == key row then change r else r).map key =
        rows.map key := by
      rw [List.map_map]
      apply map_congr_left
      intro r _
      simp only [Function.comp_apply]
      split
      · exact keeps r
      · rfl
    rw [hsame]
    exact distinct
  · rename_i hnew
    rw [map_append, nodup_append]
    refine ⟨distinct, nodup_singleton _, ?_⟩
    intro a ha b hb heq
    rw [map_cons, map_nil, mem_singleton] at hb
    obtain ⟨r, hr, rfl⟩ := mem_map.mp ha
    exact hnew (List.any_eq_true.mpr ⟨r, hr, by rw [heq, hb, beq_self_eq_true]⟩)

theorem mem_upsert {r : ρ} (h : r ∈ upsert key row change rows) :
    r = row ∨ ∃ s ∈ rows, r = s ∨ r = change s := by
  unfold upsert at h
  split at h
  · obtain ⟨s, hs, rfl⟩ := mem_map.mp h
    right
    refine ⟨s, hs, ?_⟩
    split
    · exact .inr rfl
    · exact .inl rfl
  · rcases mem_append.mp h with h | h
    · exact .inr ⟨r, h, .inl rfl⟩
    · exact .inl (mem_singleton.mp h)

variable (amount) in
/-- An upsert adds its amount to the groups that cover it. -/
theorem total_upsert (distinct : (rows.map key).Nodup)
    (covered : ∀ r, key r = key row → covers r = covers row)
    (kept : ∀ r, covers (change r) = covers r)
    (added : ∀ r, amount (change r) = amount r + amount row) :
    total covers amount (upsert key row change rows) =
      total covers amount rows + share covers amount row := by
  unfold upsert
  split
  · rename_i hany
    rw [total_update covers amount (k := key row) distinct change fun r _ hr => beq_iff_eq.mp hr]
    cases hfind : rows.find? fun r => key r == key row with
    | none =>
      rw [find?_eq_none] at hfind
      obtain ⟨r, hr, hkey⟩ := List.any_eq_true.mp hany
      exact absurd hkey (hfind r hr)
    | some r =>
      have hkey : key r = key row := by simpa using find?_some hfind
      rw [map_some, getD_some]
      unfold share
      rw [kept, covered r hkey, added]
      split <;> omega
  · rw [total_append, total_singleton]

end Keyed

end Totals
