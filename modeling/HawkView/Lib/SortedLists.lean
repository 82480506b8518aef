import Mathlib.Data.List.Sort

/-!
# The first of a sorted list

Where a list is sorted strictly, an element is among the first `k` exactly when
fewer than `k` elements come before it.
-/

namespace SortedLists

open List

variable {α : Type*} {before : α → α → Bool} {l : List α} {x : α} {k : Nat}

theorem mem_take_iff (asymm : ∀ a b, before a b → before b a = false)
    (sorted : l.Pairwise fun a b => before a b) (hx : x ∈ l) :
    x ∈ l.take k ↔ l.countP (before · x) < k := by
  induction l generalizing k with
  | nil => exact absurd hx not_mem_nil
  | cons a l ih =>
    obtain ⟨hhead, hsorted⟩ := pairwise_cons.mp sorted
    have hself : before x x = false := by
      by_contra h
      exact h (asymm x x (Bool.eq_true_of_not_eq_false h))
    cases k with
    | zero => simp
    | succ k =>
      rw [take_succ_cons, mem_cons]
      rcases mem_cons.mp hx with rfl | hmem
      · have hnone : l.countP (before · x) = 0 := countP_eq_zero.mpr fun y hy => by
          simp [asymm x y (hhead y hy)]
        rw [countP_cons_of_neg (by simp [hself]), hnone]
        simp
      · have hbefore := hhead x hmem
        have hne : x ≠ a := by
          rintro rfl
          exact Bool.false_ne_true (hself.symm.trans hbefore)
        have hcount : (a :: l).countP (before · x) = l.countP (before · x) + 1 :=
          countP_cons_of_pos hbefore
        rw [hcount, Nat.add_lt_add_iff_right, ← ih hsorted hmem, or_iff_right hne]

/-- What fewer than `k` come before is the end of a list that is sorted the other way. -/
theorem filter_countP_eq_drop (asymm : ∀ a b, before a b → before b a = false)
    (sorted : l.Pairwise fun a b => before b a) (k : Nat) :
    (l.filter fun x => l.countP (before · x) < k) = l.drop (l.length - k) := by
  induction l with
  | nil => simp
  | cons a l ih =>
    obtain ⟨hhead, hsorted⟩ := pairwise_cons.mp sorted
    have hself : before a a = false := by
      by_contra h
      exact h (asymm a a (Bool.eq_true_of_not_eq_false h))
    have hcount : (a :: l).countP (before · a) = l.length := by
      rw [countP_cons_of_neg (by simp [hself]), countP_eq_length]
      exact hhead
    have htail : (l.filter fun x => (a :: l).countP (before · x) < k) =
        l.drop (l.length - k) := by
      rw [← ih hsorted]
      apply filter_congr
      intro x hx
      rw [countP_cons_of_neg (by simp [asymm x a (hhead x hx)])]
    rw [filter_cons, hcount, htail, length_cons]
    by_cases hk : l.length < k
    · rw [if_pos (by simpa using hk), Nat.sub_eq_zero_of_le hk.le, Nat.sub_eq_zero_of_le hk]
      rfl
    · rw [if_neg (by simpa using hk), Nat.succ_sub (by omega), drop_succ_cons]

end SortedLists
