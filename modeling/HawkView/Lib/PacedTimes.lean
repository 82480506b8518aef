import Mathlib.Data.List.Count
import Mathlib.Algebra.Order.Group.Int

/-!
# Times in windows

A window opens at the earliest when the one before it has ended, and at most
`limit` times fall into it. An interval as long as a window meets two windows at
most.
-/

namespace PacedTimes

open List

/-- The times so far, when the last window opened at `start`. -/
structure Paced (length : Int) (limit : Nat) (start : Int) (times : List Int) : Prop where
  ended : ∀ t ∈ times, t < start + length
  current : times.countP (fun t => start ≤ t) ≤ limit
  previous : times.countP (fun t => start - length ≤ t ∧ t < start) ≤ limit
  anywhere : ∀ a, times.countP (fun t => a ≤ t ∧ t ≤ a + length) ≤ 2 * limit

variable {length start t : Int} {limit : Nat} {times : List Int}

/-- A first window. -/
theorem paced_single (positive : 0 < length) (room : 0 < limit) :
    Paced length limit t [t] where
  ended x hx := by
    rw [mem_singleton] at hx
    omega
  current := countP_le_length.trans room
  previous := countP_le_length.trans room
  anywhere a := countP_le_length.trans (by simp only [length_singleton]; omega)

section

variable (h : Paced length limit start times)
include h

/-- The last two windows hold twice the limit. -/
theorem Paced.recent {a : Int} (late : start - length ≤ a) :
    times.countP (fun t => a ≤ t ∧ t ≤ a + length) ≤
      limit + times.countP (fun t => start ≤ t) := by
  have hsplit : times.countP (fun t => a ≤ t ∧ t ≤ a + length) ≤
      times.countP (fun t => start - length ≤ t ∧ t < start) +
        times.countP (fun t => start ≤ t) := by
    clear h
    induction times with
    | nil => simp
    | cons x times ih =>
      simp only [countP_cons, decide_eq_true_eq]
      split_ifs <;> omega
  have := h.previous
  omega

/-- One more time in the last window. -/
theorem Paced.grows (opened : start ≤ t)
    (live : t < start + length) (room : times.countP (fun t => start ≤ t) < limit) :
    Paced length limit start (times ++ [t]) where
  ended x hx := by
    rcases mem_append.mp hx with hold | hnew
    · exact h.ended x hold
    · rw [mem_singleton.mp hnew]
      exact live
  current := by
    simp only [countP_append, countP_singleton, opened, decide_true, if_true]
    omega
  previous := by
    have hnew : ¬ (start - length ≤ t ∧ t < start) := by omega
    simp only [countP_append, countP_singleton, hnew, decide_false, Bool.false_eq_true,
      if_false]
    exact h.previous
  anywhere a := by
    simp only [countP_append, countP_singleton, decide_eq_true_eq]
    split_ifs with hin
    · have := h.recent (a := a) (by omega)
      omega
    · exact h.anywhere a

theorem Paced.none_after (later : start + length ≤ t) :
    times.countP (fun x => t ≤ x) = 0 := by
  rw [countP_eq_zero]
  intro x hx
  have := h.ended x hx
  simp only [decide_eq_true_eq]
  omega

/-- One more time, which opens a window after the last one. -/
theorem Paced.opens (positive : 0 < length)
    (room : 0 < limit) (later : start + length ≤ t) :
    Paced length limit t (times ++ [t]) where
  ended x hx := by
    rcases mem_append.mp hx with hold | hnew
    · have := h.ended x hold
      omega
    · rw [mem_singleton.mp hnew]
      omega
  current := by
    rw [countP_append, h.none_after later, Nat.zero_add]
    exact countP_le_length.trans room
  previous := by
    have hnew : ¬ (t - length ≤ t ∧ t < t) := by omega
    simp only [countP_append, countP_singleton, hnew, decide_false, Bool.false_eq_true,
      if_false, Nat.add_zero]
    refine (countP_mono_left fun x _ hx => ?_).trans h.current
    simp only [decide_eq_true_eq] at hx ⊢
    omega
  anywhere a := by
    simp only [countP_append, countP_singleton, decide_eq_true_eq]
    split_ifs with hin
    · have hold : times.countP (fun t => a ≤ t ∧ t ≤ a + length) ≤
          times.countP (fun x => start ≤ x) := countP_mono_left fun x _ hx => by
        simp only [decide_eq_true_eq] at hx ⊢
        omega
      have := h.current
      omega
    · exact h.anywhere a

end

end PacedTimes
