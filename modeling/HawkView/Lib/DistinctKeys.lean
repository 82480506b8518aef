import Mathlib.Data.List.Nodup

/-!
# Lists with distinct keys

In such a list a key finds the one element that has it.
-/

universe u v w

namespace DistinctKeys

open List

variable {α : Type u} {β : Type v} {κ : Type w} {l : List α} {key : α → κ}

/-- What a list yields one by one under the keys of its elements has their keys. -/
theorem sublist_filterMap {f : α → Option β} {key' : β → κ}
    (same : ∀ a b, f a = some b → key' b = key a) (l : List α) :
    ((l.filterMap f).map key').Sublist (l.map key) := by
  induction l with
  | nil => simp
  | cons a l ih =>
    rw [filterMap_cons, map_cons]
    cases hf : f a with
    | none => exact ih.cons _
    | some b =>
      rw [map_cons, same a b hf]
      exact ih.cons_cons _

/-- A search whose only hit is in the list finds it. -/
theorem find_only {p : α → Bool} {b : α} (mem : b ∈ l) (hit : p b = true)
    (only : ∀ c ∈ l, p c = true → c = b) : l.find? p = some b := by
  cases h : l.find? p with
  | none => exact absurd hit (List.find?_eq_none.mp h b mem)
  | some c => rw [only c (mem_of_find?_eq_some h) (find?_some h)]

variable [DecidableEq κ] {k : κ} {a : α}

theorem find_none : l.find? (fun b => key b = k) = none ↔ ∀ b ∈ l, key b ≠ k := by
  simp [find?_eq_none]

theorem find_key (h : l.find? (fun b => key b = k) = some a) : key a = k := by
  simpa using find?_some h

theorem find_some (unique : (l.map key).Nodup) :
    l.find? (fun b => key b = k) = some a ↔ a ∈ l ∧ key a = k := by
  constructor
  · intro h
    exact ⟨mem_of_find?_eq_some h, find_key h⟩
  · rintro ⟨ha, hk⟩
    cases hfind : l.find? fun b => key b = k with
    | none => exact absurd hk (find_none.mp hfind a ha)
    | some b =>
      have hsame := inj_on_of_nodup_map unique (mem_of_find?_eq_some hfind) ha
        ((find_key hfind).trans hk.symm)
      rw [hsame]

end DistinctKeys
