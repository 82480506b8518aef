import Mathlib.Data.List.Basic

/-!
# Length-prefixed parts

A part is framed as a header that states its length, a separator that no header
contains, and its content. Framed parts split off the front of any text, so the
concatenation of frames determines the parts.
-/

universe u

/-- The text before the first separator and the text after it. -/
def splitFirst {α : Type u} [DecidableEq α] (sep : α) : List α → Option (List α × List α)
  | [] => none
  | a :: text =>
    if a = sep then some ([], text)
    else (splitFirst sep text).map fun cut => (a :: cut.1, cut.2)

variable {α : Type u} {front : List α}

theorem splitFirst_append [DecidableEq α] {sep : α} (free : sep ∉ front) (rest : List α) :
    splitFirst sep (front ++ sep :: rest) = some (front, rest) := by
  induction front with
  | nil => simp [splitFirst]
  | cons a front ih =>
    rw [List.mem_cons, not_or] at free
    have hne : a ≠ sep := fun h => free.1 h.symm
    simp [splitFirst, hne, ih free.2]

theorem splitFirst_sound [DecidableEq α] {sep : α} {text rest : List α}
    (h : splitFirst sep text = some (front, rest)) : text = front ++ sep :: rest := by
  induction text generalizing front with
  | nil => cases h
  | cons a text ih =>
    rw [splitFirst] at h
    by_cases ha : a = sep
    · rw [if_pos ha] at h
      cases h
      rw [ha, List.nil_append]
    · rw [if_neg ha, Option.map_eq_some_iff] at h
      obtain ⟨⟨front, rest⟩, hcut, hpair⟩ := h
      cases hpair
      rw [ih hcut, List.cons_append]

/-- How a length is written in front of a part. -/
structure Framing (α : Type u) where
  header : Nat → List α
  sep : α
  header_injective : Function.Injective header
  sep_free : ∀ n, sep ∉ header n

namespace Framing

open List

variable {α : Type u} (F : Framing α)

def frame (part : List α) : List α := F.header part.length ++ F.sep :: part

def join (parts : List (List α)) : List α := parts.flatMap F.frame

variable {s t : List α}

/-- The first separator ends the header. -/
theorem header_split {n m : Nat} (h : F.header n ++ F.sep :: s = F.header m ++ F.sep :: t) :
    n = m ∧ s = t := by
  obtain ⟨middle, hm, hs⟩ | ⟨middle, hn, ht⟩ := List.append_eq_append_iff.mp h
  · cases middle with
    | nil =>
      simp only [append_nil] at hm
      exact ⟨F.header_injective hm.symm, (List.cons.inj hs).2⟩
    | cons a middle =>
      have hsep : F.sep ∈ F.header m := by
        rw [hm, (List.cons.inj hs).1]
        simp
      exact absurd hsep (F.sep_free m)
  · cases middle with
    | nil =>
      simp only [append_nil] at hn
      exact ⟨F.header_injective hn, (List.cons.inj ht).2.symm⟩
    | cons a middle =>
      have hsep : F.sep ∈ F.header n := by
        rw [hn, (List.cons.inj ht).1]
        simp
      exact absurd hsep (F.sep_free n)

/-- A frame splits off the front of a text. -/
theorem frame_split {p q : List α} (h : F.frame p ++ s = F.frame q ++ t) :
    p = q ∧ s = t := by
  simp only [frame, append_assoc, cons_append] at h
  obtain ⟨hlength, hrest⟩ := F.header_split h
  exact append_inj hrest hlength

theorem frame_ne_nil (p : List α) : F.frame p ≠ [] := by
  simp [frame]

theorem join_injective : Function.Injective F.join := by
  intro ps
  induction ps with
  | nil =>
    intro qs h
    cases qs with
    | nil => rfl
    | cons q qs =>
      simp only [join, flatMap_nil, flatMap_cons] at h
      exact absurd (append_eq_nil_iff.mp h.symm).1 (F.frame_ne_nil q)
  | cons p ps ih =>
    intro qs h
    cases qs with
    | nil =>
      simp only [join, flatMap_nil, flatMap_cons] at h
      exact absurd (append_eq_nil_iff.mp h).1 (F.frame_ne_nil p)
    | cons q qs =>
      simp only [join, flatMap_cons] at h
      obtain ⟨rfl, hrest⟩ := F.frame_split h
      rw [ih hrest]

end Framing
