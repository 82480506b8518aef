import Mathlib.Data.List.Basic

/-!
# The first hit of a list

A search returns the first item that has a property. What comes before it has not, and there is
one first item however the list is split.
-/

universe u v

/-- The first item of the list with the property. -/
def FirstHit {α : Type u} (p : α → Prop) (l : List α) (x : α) : Prop :=
  ∃ front back, l = front ++ x :: back ∧ p x ∧ ∀ y ∈ front, ¬ p y

namespace FirstHit

open List

variable {α : Type u} {β : Type v} {p q : α → Prop} {l : List α} {x y : α}

theorem mem (h : FirstHit p l x) : x ∈ l := by
  obtain ⟨front, back, rfl, -⟩ := h
  exact mem_append_right _ mem_cons_self

theorem holds (h : FirstHit p l x) : p x := by
  obtain ⟨_, _, _, hx, _⟩ := h
  exact hx

theorem congr (same : ∀ y ∈ l, (p y ↔ q y)) : FirstHit p l x ↔ FirstHit q l x := by
  constructor
  · rintro ⟨front, back, rfl, hx, hfront⟩
    refine ⟨front, back, rfl, (same x (by simp)).mp hx, fun y hy hq => hfront y hy ?_⟩
    exact (same y (by simp [hy])).mpr hq
  · rintro ⟨front, back, rfl, hx, hfront⟩
    refine ⟨front, back, rfl, (same x (by simp)).mpr hx, fun y hy hp => hfront y hy ?_⟩
    exact (same y (by simp [hy])).mp hp

theorem cons_iff {a : α} : FirstHit p (a :: l) x ↔ (p a ∧ x = a) ∨ (¬ p a ∧ FirstHit p l x) := by
  constructor
  · rintro ⟨front, back, hsplit, hx, hfront⟩
    cases front with
    | nil =>
      obtain ⟨rfl, -⟩ := List.cons.inj hsplit
      exact .inl ⟨hx, rfl⟩
    | cons b front =>
      obtain ⟨rfl, hrest⟩ := List.cons.inj hsplit
      exact .inr ⟨hfront a mem_cons_self, front, back, hrest, hx,
        fun y hy => hfront y (mem_cons_of_mem _ hy)⟩
  · rintro (⟨ha, rfl⟩ | ⟨ha, front, back, rfl, hx, hfront⟩)
    · exact ⟨[], l, rfl, ha, fun y hy => absurd hy not_mem_nil⟩
    · refine ⟨a :: front, back, rfl, hx, fun y hy => ?_⟩
      rcases mem_cons.mp hy with rfl | hy
      · exact ha
      · exact hfront y hy

theorem unique (h : FirstHit p l x) (h' : FirstHit p l y) : y = x := by
  induction l with
  | nil => exact absurd h.mem not_mem_nil
  | cons a l ih =>
    rcases cons_iff.mp h with ⟨ha, rfl⟩ | ⟨ha, hrest⟩
    · rcases cons_iff.mp h' with ⟨_, rfl⟩ | ⟨hna, _⟩
      · rfl
      · exact absurd ha hna
    · rcases cons_iff.mp h' with ⟨hpa, _⟩ | ⟨_, hrest'⟩
      · exact absurd hpa ha
      · exact ih hrest hrest'

theorem exists_of_mem (hy : y ∈ l) (hp : p y) : ∃ x, FirstHit p l x := by
  induction l with
  | nil => exact absurd hy not_mem_nil
  | cons a l ih =>
    by_cases ha : p a
    · exact ⟨a, cons_iff.mpr (.inl ⟨ha, rfl⟩)⟩
    · rcases mem_cons.mp hy with rfl | hy
      · exact absurd hp ha
      · obtain ⟨x, hx⟩ := ih hy
        exact ⟨x, cons_iff.mpr (.inr ⟨ha, hx⟩)⟩

/-- In a list in order the first hit stands before every other one. -/
theorem le_of_sorted {R : α → α → Prop} (sorted : l.Pairwise R) (self : ∀ a, R a a)
    (h : FirstHit p l x) (hy : y ∈ l) (hp : p y) : R x y := by
  obtain ⟨front, back, rfl, hx, hfront⟩ := h
  rcases mem_append.mp hy with hbefore | hrest
  · exact absurd hp (hfront y hbefore)
  · rcases mem_cons.mp hrest with rfl | hback
    · exact self y
    · exact (pairwise_cons.mp (pairwise_append.mp sorted).2.1).1 y hback

theorem filter_iff {keep : α → Bool} :
    FirstHit p (l.filter keep) x ↔ FirstHit (fun y => keep y = true ∧ p y) l x := by
  induction l with
  | nil =>
    constructor
    · exact fun h => absurd h.mem not_mem_nil
    · exact fun h => absurd h.mem not_mem_nil
  | cons a l ih =>
    by_cases hkeep : keep a = true
    · rw [filter_cons_of_pos hkeep, cons_iff, cons_iff, ih]
      simp only [hkeep, true_and]
    · rw [filter_cons_of_neg hkeep, cons_iff, ih]
      simp only [hkeep, false_and, not_false_eq_true, true_and, false_or, Bool.false_eq_true]

/-- What a search returns is computed from the first hit. -/
theorem findSome_iff {f : α → Option β} {b : β} :
    l.findSome? f = some b ↔ ∃ x, FirstHit (fun y => (f y).isSome = true) l x ∧ f x = some b := by
  rw [findSome?_eq_some_iff]
  constructor
  · rintro ⟨front, x, back, hsplit, hx, hfront⟩
    exact ⟨x, ⟨front, back, hsplit, Option.isSome_iff_exists.mpr ⟨b, hx⟩, fun y hy =>
      Option.not_isSome_iff_eq_none.mpr (hfront y hy)⟩, hx⟩
  · rintro ⟨x, ⟨front, back, hsplit, -, hfront⟩, hx⟩
    refine ⟨front, x, back, hsplit, hx, fun y hy => ?_⟩
    exact Option.not_isSome_iff_eq_none.mp (hfront y hy)

theorem find_iff {f : α → Bool} : l.find? f = some x ↔ FirstHit (fun y => f y = true) l x := by
  rw [find?_eq_some_iff_append]
  constructor
  · rintro ⟨hx, front, back, hsplit, hfront⟩
    exact ⟨front, back, hsplit, hx, fun y hy hf => by simpa [hf] using hfront y hy⟩
  · rintro ⟨front, back, hsplit, hx, hfront⟩
    exact ⟨hx, front, back, hsplit, fun y hy => by simpa using hfront y hy⟩

theorem findSome_congr {f g : α → Option β} (h : ∀ x ∈ l, f x = g x) :
    l.findSome? f = l.findSome? g := by
  induction l with
  | nil => rfl
  | cons x l ih =>
    rw [findSome?_cons, findSome?_cons, h x mem_cons_self,
      ih fun y hy => h y (mem_cons_of_mem x hy)]

end FirstHit
