import Mathlib.Data.List.Sort

/-!
# Bursts of instants

An instant reaches a little beyond itself. Instants that reach each other are
near, and a chain of near instants is a burst. A list of spans splits a list of
instants when the spans are apart, hold every instant and are joined inside.
-/

universe u

/-- The last instant that another one still reaches. -/
structure Reach (T : Type u) [LinearOrder T] where
  last : T → T
  monotone : Monotone last
  self : ∀ t, t ≤ last t

structure Span (T : Type u) where
  first : T
  last : T
  deriving DecidableEq, Repr

namespace Span

variable {T : Type u} [LinearOrder T]

def Holds (s : Span T) (t : T) : Prop := s.first ≤ t ∧ t ≤ s.last

instance (s : Span T) : DecidablePred s.Holds :=
  fun t => inferInstanceAs (Decidable (s.first ≤ t ∧ t ≤ s.last))

end Span

namespace Reach

open List

variable {T : Type u} [LinearOrder T] (R : Reach T)

/-- Two instants of the list that reach each other. -/
def Near (times : List T) (t u : T) : Prop :=
  t ∈ times ∧ u ∈ times ∧ t ≤ R.last u ∧ u ≤ R.last t

/-- A chain of instants of the list, each near the next. -/
def Linked (times : List T) : T → T → Prop := Relation.ReflTransGen (R.Near times)

/-- The first span ends before the second can be reached. -/
def Apart (a b : Span T) : Prop := R.last a.last < b.first

structure Splits (times : List T) (spans : List (Span T)) : Prop where
  apart : spans.Pairwise R.Apart
  inside : ∀ t ∈ times, ∃ s ∈ spans, s.Holds t
  started : ∀ s ∈ spans, s.first ∈ times ∧ s.first ≤ s.last
  joined : ∀ s ∈ spans, ∀ t ∈ times, s.Holds t → R.Linked times s.first t

variable {R}

variable {times : List T} {t u : T}

theorem Near.symm (h : R.Near times t u) : R.Near times u t :=
  ⟨h.2.1, h.1, h.2.2.2, h.2.2.1⟩

theorem Linked.symm (h : R.Linked times t u) :
    R.Linked times u t := by
  induction h with
  | refl => exact .refl
  | tail _ hnear ih => exact .head hnear.symm ih

theorem Linked.mono {more : List T} (sub : ∀ t ∈ times, t ∈ more) (h : R.Linked times t u) :
    R.Linked more t u := by
  induction h with
  | refl => exact .refl
  | tail _ near ih => exact .tail ih ⟨sub _ near.1, sub _ near.2.1, near.2.2⟩

namespace Splits

variable {times : List T} {spans : List (Span T)}

theorem of_mem_iff {more : List T} (h : R.Splits times spans) (same : ∀ t, t ∈ times ↔ t ∈ more) :
    R.Splits more spans where
  apart := h.apart
  inside t ht := h.inside t ((same t).mpr ht)
  started s hs := ⟨(same s.first).mp (h.started s hs).1, (h.started s hs).2⟩
  joined s hs t ht held :=
    (h.joined s hs t ((same t).mpr ht) held).mono fun u hu => (same u).mp hu

variable {a b : Span T} {u : T}

/-- An instant of a later span is out of the reach of every instant of an earlier one. -/
theorem apart_holds (h : R.Apart a b) {t : T} (ht : a.Holds t) (hu : b.Holds u) : R.last t < u :=
  calc R.last t ≤ R.last a.last := R.monotone ht.2
    _ < b.first := h
    _ ≤ u := hu.1

theorem lt_of_apart (h : R.Apart a b) {t : T} (ht : a.Holds t) (hu : b.Holds u) :
    t < u := (R.self t).trans_lt (apart_holds h ht hu)

variable {i j : Nat}

theorem index_of_near (h : R.Splits times spans) (hi : spans[i]? = some a)
    (hj : spans[j]? = some b) {t : T} (ht : a.Holds t) (hu : b.Holds u) (near : R.Near times t u) :
    i = j := by
  obtain ⟨hilt, hia⟩ := List.getElem?_eq_some_iff.mp hi
  obtain ⟨hjlt, hjb⟩ := List.getElem?_eq_some_iff.mp hj
  have hpair := pairwise_iff_getElem.mp h.apart
  rcases Nat.lt_trichotomy i j with hlt | heq | hgt
  · have hapart := hpair i j hilt hjlt hlt
    rw [hia, hjb] at hapart
    exact absurd near.2.2.2 (not_le.mpr (apart_holds hapart ht hu))
  · exact heq
  · have hapart := hpair j i hjlt hilt hgt
    rw [hia, hjb] at hapart
    exact absurd near.2.2.1 (not_le.mpr (apart_holds hapart hu ht))

theorem index_unique (h : R.Splits times spans) (hi : spans[i]? = some a)
    (hj : spans[j]? = some b) {t : T} (mem : t ∈ times) (ht : a.Holds t) (hu : b.Holds t) : i = j :=
  h.index_of_near hi hj ht hu ⟨mem, mem, R.self t, R.self t⟩

/-- A chain stays in one span. -/
theorem index_of_linked (h : R.Splits times spans) (hi : spans[i]? = some a)
    (hj : spans[j]? = some b) {t : T} (mem : t ∈ times) (ht : a.Holds t) (hu : b.Holds u)
    (linked : R.Linked times t u) : i = j := by
  induction linked generalizing j b with
  | refl => exact h.index_unique hi hj mem ht hu
  | tail _ near ih =>
    obtain ⟨c, hc, held⟩ := h.inside _ near.1
    obtain ⟨k, hk⟩ := List.mem_iff_getElem?.mp hc
    have hik := ih hk held
    exact hik.trans (h.index_of_near hk hj held hu near)

variable {s : Span T}

section

variable (h : R.Splits times spans)
include h

theorem linked_of_mem (hs : s ∈ spans) {t : T} (ht : t ∈ times)
    (hu : u ∈ times) (holds : s.Holds t) (holds' : s.Holds u) :
    R.Linked times t u :=
  (h.joined s hs t ht holds).symm.trans (h.joined s hs u hu holds')

/-- Two instants lie in one span exactly when a chain links them. -/
theorem index_eq_iff (hi : spans[i]? = some a)
    (hj : spans[j]? = some b) {t : T} (ht : t ∈ times) (hu : u ∈ times) (holds : a.Holds t)
    (holds' : b.Holds u) :
    i = j ↔ R.Linked times t u := by
  constructor
  · rintro rfl
    rw [hi] at hj
    cases hj
    exact h.linked_of_mem (mem_of_getElem? hi) ht hu holds holds'
  · exact h.index_of_linked hi hj ht holds holds'

theorem index_mono (hi : spans[i]? = some a) (hj : spans[j]? = some b)
    {t : T} (holds : a.Holds t) (holds' : b.Holds u) (hle : t ≤ u) : i ≤ j := by
  by_contra hlt
  obtain ⟨hilt, hia⟩ := List.getElem?_eq_some_iff.mp hi
  obtain ⟨hjlt, hjb⟩ := List.getElem?_eq_some_iff.mp hj
  have hapart := pairwise_iff_getElem.mp h.apart j i hjlt hilt (by omega)
  rw [hia, hjb] at hapart
  exact absurd hle (not_le.mpr (lt_of_apart hapart holds' holds))

theorem holds_of_linked (hs : s ∈ spans) {t : T} (ht : t ∈ times)
    (hu : u ∈ times) (holds : s.Holds t) (linked : R.Linked times t u) :
    s.Holds u := by
  obtain ⟨w, hw, holds'⟩ := h.inside u hu
  obtain ⟨i, hi⟩ := List.mem_iff_getElem?.mp hs
  obtain ⟨j, hj⟩ := List.mem_iff_getElem?.mp hw
  rw [h.index_of_linked hi hj ht holds holds' linked, hj] at hi
  cases hi
  exact holds'

end

variable {others : List (Span T)}

theorem mem_of_splits (h : R.Splits times spans) (h' : R.Splits times others)
    (ends : ∀ s ∈ spans, s.last ∈ times) (ends' : ∀ s ∈ others, s.last ∈ times) (hs : s ∈ spans) :
    s ∈ others := by
  obtain ⟨hfirst, hle⟩ := h.started s hs
  obtain ⟨s', hs', held⟩ := h'.inside s.first hfirst
  obtain ⟨hfirst', hle'⟩ := h'.started s' hs'
  have hlast := h'.holds_of_linked hs' hfirst (ends s hs) held
    (h.joined s hs s.last (ends s hs) ⟨hle, le_rfl⟩)
  have hheld := h.holds_of_linked hs hfirst hfirst' ⟨le_rfl, hle⟩
    (h'.joined s' hs' s.first hfirst held).symm
  have hlast' := h.holds_of_linked hs hfirst' (ends' s' hs') hheld
    (h'.joined s' hs' s'.last (ends' s' hs') ⟨hle', le_rfl⟩)
  obtain ⟨first, last⟩ := s
  obtain ⟨first', last'⟩ := s'
  obtain rfl : first = first' := le_antisymm hheld.1 held.1
  obtain rfl : last = last' := le_antisymm hlast.2 hlast'.2
  exact hs'

/-- Spans that end with an instant are told by the instants. -/
theorem unique (h : R.Splits times spans) (h' : R.Splits times others)
    (ends : ∀ s ∈ spans, s.last ∈ times) (ends' : ∀ s ∈ others, s.last ∈ times) :
    spans = others := by
  have hsorted : ∀ {l : List (Span T)}, R.Splits times l →
      l.Pairwise fun u v => u.first < v.first := fun hl =>
    hl.apart.imp_of_mem fun hu _ hapart =>
      (hl.started _ hu).2.trans_lt ((R.self _).trans_lt hapart)
  have : Std.Irrefl fun u v : Span T => u.first < v.first := ⟨fun u => lt_irrefl u.first⟩
  have : Std.Antisymm fun u v : Span T => u.first < v.first :=
    ⟨fun _ _ huv hvu => absurd hvu (lt_asymm huv)⟩
  exact (hsorted h).eq_of_mem_iff (hsorted h') fun _ =>
    ⟨h.mem_of_splits h' ends ends', h'.mem_of_splits h ends' ends⟩

/-! ## One more instant -/

theorem nil : R.Splits [] [] where
  apart := List.Pairwise.nil
  inside _ ht := absurd ht not_mem_nil
  started _ hs := absurd hs not_mem_nil
  joined _ hs := absurd hs not_mem_nil

theorem single (t : T) : R.Splits [t] [⟨t, t⟩] where
  apart := pairwise_singleton _ _
  inside u hu := by
    rw [mem_singleton] at hu
    exact ⟨⟨t, t⟩, mem_singleton_self _, hu ▸ le_rfl, hu ▸ le_rfl⟩
  started s hs := by
    rw [mem_singleton] at hs
    subst hs
    exact ⟨mem_singleton_self t, le_rfl⟩
  joined s hs u hu _ := by
    rw [mem_singleton] at hs hu
    subst hs hu
    exact .refl

variable {cur : Span T} {t : T}

/-- An instant beyond the reach of them all stands in a span of its own. -/
theorem opens (h : R.Splits times spans) (fresh : ∀ s ∈ spans, R.last s.last < t) :
    R.Splits (times ++ [t]) (spans ++ [⟨t, t⟩]) where
  apart := by
    refine pairwise_append.mpr ⟨h.apart, pairwise_singleton _ _, ?_⟩
    intro s hs s' hs'
    rw [mem_singleton] at hs'
    subst hs'
    exact fresh s hs
  inside u hu := by
    rcases mem_append.mp hu with hold | hnew
    · obtain ⟨s, hs, held⟩ := h.inside u hold
      exact ⟨s, mem_append_left _ hs, held⟩
    · rw [mem_singleton] at hnew
      subst hnew
      exact ⟨⟨u, u⟩, by simp, le_rfl, le_rfl⟩
  started s hs := by
    rcases mem_append.mp hs with hold | hnew
    · exact ⟨mem_append_left _ (h.started s hold).1, (h.started s hold).2⟩
    · rw [mem_singleton] at hnew
      subst hnew
      exact ⟨by simp, le_rfl⟩
  joined s hs u hu held := by
    rcases mem_append.mp hs with hold | hnew
    · rcases mem_append.mp hu with hmem | hlast
      · exact (h.joined s hold u hmem held).mono fun v hv => mem_append_left _ hv
      · rw [mem_singleton] at hlast
        subst hlast
        exact absurd (held.2.trans (R.self s.last)) (not_le.mpr (fresh s hold))
    · rw [mem_singleton] at hnew
      subst hnew
      obtain rfl : u = t := le_antisymm held.2 held.1
      exact .refl

/-- An instant that the last span reaches moves the end of that span. -/
theorem grows (h : R.Splits times (spans ++ [cur])) (ends : cur.last ∈ times)
    (le : cur.last ≤ t) (reached : t ≤ R.last cur.last) :
    R.Splits (times ++ [t]) (spans ++ [⟨cur.first, t⟩]) := by
  have hcur : cur ∈ spans ++ [cur] := by simp
  have hordered : cur.first ≤ cur.last := (h.started cur hcur).2
  have hbefore := (pairwise_append.mp h.apart).2.2
  have hout : ∀ s ∈ spans, s.last < t := fun s hs =>
    calc s.last ≤ R.last s.last := R.self _
      _ < cur.first := hbefore s hs cur (mem_singleton_self cur)
      _ ≤ t := hordered.trans le
  constructor
  · refine pairwise_append.mpr
      ⟨(pairwise_append.mp h.apart).1, pairwise_singleton _ _, ?_⟩
    intro s hs s' hs'
    rw [mem_singleton] at hs'
    subst hs'
    exact hbefore s hs cur (mem_singleton_self cur)
  · intro u hu
    rcases mem_append.mp hu with hold | hnew
    · obtain ⟨s, hs, held⟩ := h.inside u hold
      rcases mem_append.mp hs with hearlier | hlast
      · exact ⟨s, mem_append_left _ hearlier, held⟩
      · rw [mem_singleton] at hlast
        subst hlast
        exact ⟨⟨s.first, t⟩, by simp, held.1, held.2.trans le⟩
    · rw [mem_singleton] at hnew
      subst hnew
      exact ⟨⟨cur.first, u⟩, by simp, hordered.trans le, le_rfl⟩
  · intro s hs
    rcases mem_append.mp hs with hearlier | hlast
    · have hstarted := h.started s (mem_append_left _ hearlier)
      exact ⟨mem_append_left _ hstarted.1, hstarted.2⟩
    · rw [mem_singleton] at hlast
      subst hlast
      exact ⟨mem_append_left _ (h.started cur hcur).1, hordered.trans le⟩
  · intro s hs u hu held
    have hgrow : ∀ v ∈ times, v ∈ times ++ [t] := fun v hv => mem_append_left _ hv
    rcases mem_append.mp hs with hearlier | hlast
    · rcases mem_append.mp hu with hmem | hnew
      · exact (h.joined s (mem_append_left _ hearlier) u hmem held).mono hgrow
      · rw [mem_singleton] at hnew
        subst hnew
        exact absurd held.2 (not_le.mpr (hout s hearlier))
    · rw [mem_singleton] at hlast
      subst hlast
      rcases le_total u cur.last with hle | hge
      · have hmem : u ∈ times := by
          rcases mem_append.mp hu with hold | hnew
          · exact hold
          · rw [mem_singleton] at hnew
            have hlast : u = cur.last := le_antisymm hle (hnew ▸ le)
            exact hlast ▸ ends
        exact (h.joined cur hcur u hmem ⟨held.1, hle⟩).mono hgrow
      · have hend := (h.joined cur hcur cur.last ends ⟨hordered, le_rfl⟩).mono hgrow
        have hnear : R.Near (times ++ [t]) cur.last u :=
          ⟨hgrow _ ends, hu, hge.trans (R.self u), held.2.trans reached⟩
        exact .tail hend hnear

end Splits

end Reach
