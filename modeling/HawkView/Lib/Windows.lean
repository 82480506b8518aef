import Mathlib.Data.Finset.Max
import Mathlib.Order.Interval.Finset.Nat

/-!
# Windows over times in order

The times of a list never go down. The window of an end begins at the first item that is no
older than a width, and it is dense when it holds some number of items. Dense windows that
share an item make one piece, and the pieces are the components of the sets of items that fit
in the width.
-/

namespace Windows

universe u

/-- `start e` is the first place that is not older than the width, seen from `e`. -/
structure Sliding (n : Nat) (time : Nat → Int) (width : Int) (start : Nat → Nat) : Prop where
  ordered : ∀ i j, i ≤ j → j < n → time i ≤ time j
  opens : ∀ e < n, start e ≤ e ∧ time e - width ≤ time (start e)
  older : ∀ e < n, ∀ i < start e, time i < time e - width

def Dense (count : Nat) (start : Nat → Nat) (e : Nat) : Prop := start e + count ≤ e + 1

/-- Two places of one dense window, up to an end. -/
def Shared (count : Nat) (start : Nat → Nat) (k : Nat) (i j : Nat) : Prop :=
  ∃ e < k, Dense count start e ∧ (start e ≤ i ∧ i ≤ e) ∧ start e ≤ j ∧ j ≤ e

def Linked (count : Nat) (start : Nat → Nat) (k : Nat) : Nat → Nat → Prop :=
  Relation.ReflTransGen (Shared count start k)

/-- What the dense windows of the first `k` ends come to, as first and last places. -/
structure Pieces (count : Nat) (start : Nat → Nat) (k : Nat) (pieces : List (Nat × Nat)) :
    Prop where
  apart : pieces.Pairwise fun p q => p.2 < q.1
  closed : ∀ p ∈ pieces, p.2 < k ∧ Dense count start p.2
  opened : ∀ p ∈ pieces, ∃ e ≤ p.2, Dense count start e ∧ start e = p.1
  inside : ∀ e < k, Dense count start e → ∃ p ∈ pieces, p.1 ≤ start e ∧ e ≤ p.2
  linked : ∀ p ∈ pieces, ∀ i, p.1 ≤ i → i ≤ p.2 → Linked count start k p.1 i

variable {n k count : Nat} {time : Nat → Int} {width : Int} {start : Nat → Nat}
  {pieces : List (Nat × Nat)} {p : Nat × Nat}

variable {i j : Nat}

theorem Shared.mono {m : Nat} (h : Shared count start k i j) (le : k ≤ m) :
    Shared count start m i j := by
  obtain ⟨e, he, hdense, hi, hj⟩ := h
  exact ⟨e, by omega, hdense, hi, hj⟩

theorem Shared.symm (h : Shared count start k i j) : Shared count start k j i := by
  obtain ⟨e, he, hdense, hi, hj⟩ := h
  exact ⟨e, he, hdense, hj, hi⟩

theorem Linked.mono {m : Nat} (h : Linked count start k i j) (le : k ≤ m) :
    Linked count start m i j := by
  induction h with
  | refl => exact .refl
  | tail _ shared ih => exact .tail ih (shared.mono le)

theorem Linked.symm (h : Linked count start k i j) : Linked count start k j i := by
  induction h with
  | refl => exact .refl
  | tail _ shared ih => exact .head shared.symm ih

theorem Sliding.start_mono (h : Sliding n time width start) (le : i ≤ j) (hj : j < n) :
    start i ≤ start j := by
  by_contra hlt
  have hold := h.older i (by omega) (start j) (by omega)
  have hnew := (h.opens j hj).2
  have hordered := h.ordered i j le hj
  omega

namespace Pieces

theorem nil : Pieces count start 0 [] where
  apart := List.Pairwise.nil
  closed _ hp := absurd hp List.not_mem_nil
  opened _ hp := absurd hp List.not_mem_nil
  inside _ he := absurd he (Nat.not_lt_zero _)
  linked _ hp := absurd hp List.not_mem_nil

theorem first_le (h : Pieces count start k pieces) (sliding : Sliding n time width start)
    (hk : k < n) (hp : p ∈ pieces) : p.1 ≤ start k := by
  obtain ⟨e, hle, _, hfirst⟩ := h.opened p hp
  have hlast := (h.closed p hp).1
  have hmono := sliding.start_mono (i := e) (j := k) (by omega) hk
  omega

theorem first_le_last (h : Pieces count start k pieces) (sliding : Sliding n time width start)
    (hk : k ≤ n) (hp : p ∈ pieces) : p.1 ≤ p.2 := by
  obtain ⟨e, hle, _, hfirst⟩ := h.opened p hp
  have hlast := (h.closed p hp).1
  have hopens := (sliding.opens e (by omega)).1
  omega

variable {q : Nat × Nat}

theorem last_le (h : Pieces count start k (pieces ++ [p])) (sliding : Sliding n time width start)
    (hk : k ≤ n) (hq : q ∈ pieces ++ [p]) : q.2 ≤ p.2 := by
  rcases List.mem_append.mp hq with hold | hlast
  · have hbefore := (List.pairwise_append.mp h.apart).2.2 q hold p (List.mem_singleton_self p)
    have horder := h.first_le_last sliding hk (p := p) (by simp)
    omega
  · obtain rfl := List.mem_singleton.mp hlast
    exact le_rfl

/-- The last item still reaches the tenth-latest of the piece exactly when the windows meet. -/
theorem reach (h : Pieces count start k (pieces ++ [p])) (sliding : Sliding n time width start)
    (hk : k < n) (positive : 0 < count) :
    time (start k) ≤ time (p.2 + 1 - count) + width ↔ start k ≤ p.2 := by
  obtain ⟨hlast, hdense⟩ := h.closed p (by simp)
  have hopens := sliding.opens p.2 (by omega)
  unfold Dense at hdense
  constructor
  · intro hreach
    by_contra hgap
    have hbegins := (sliding.opens k hk).1
    have hnext : time (p.2 + 1) ≤ time (start k) := sliding.ordered _ _ (by omega) (by omega)
    have hstart : start (p.2 + 1) ≤ p.2 + 1 - count := by
      by_contra hlt
      have hold := sliding.older (p.2 + 1) (by omega) (p.2 + 1 - count) (by omega)
      omega
    have hdone : p.2 + 1 < k := by
      by_contra hnot
      obtain rfl : k = p.2 + 1 := by omega
      omega
    obtain ⟨q, hq, _, hheld⟩ := h.inside (p.2 + 1) hdone (by unfold Dense; omega)
    have hle := h.last_le sliding hk.le hq
    omega
  · intro hmeets
    have hfirst : time (start p.2) ≤ time (p.2 + 1 - count) :=
      sliding.ordered _ _ (by omega) (by omega)
    have hbefore : time (start k) ≤ time p.2 := sliding.ordered _ _ hmeets (by omega)
    omega

section

variable (h : Pieces count start k pieces)
include h

/-- A place lies in one piece. -/
theorem unique (hp : p ∈ pieces) (hq : q ∈ pieces) {i : Nat}
    (inside : p.1 ≤ i ∧ i ≤ p.2) (inside' : q.1 ≤ i ∧ i ≤ q.2) :
    p = q := by
  by_contra hne
  have hsymm : Std.Symm fun p q : Nat × Nat => p.2 < q.1 ∨ q.2 < p.1 := ⟨fun _ _ => Or.symm⟩
  have hapart : pieces.Pairwise fun p q => p.2 < q.1 ∨ q.2 < p.1 := h.apart.imp fun hlt => .inl hlt
  have hpair := hapart.forall hp hq hne
  omega

/-- Every place of a piece is in one of the dense windows that make it. -/
theorem window_of_mem (sliding : Sliding n time width start)
    (hk : k ≤ n) (hp : p ∈ pieces) {i : Nat} (first : p.1 ≤ i) (last : i ≤ p.2) :
    ∃ e < k, Dense count start e ∧ (start e ≤ i ∧ i ≤ e) ∧ p.1 ≤ start e ∧ e ≤ p.2 := by
  have hclosed := (h.closed p hp).1
  have hin : ∃ e < k, Dense count start e ∧ start e ≤ i ∧ i ≤ e := by
    rcases Relation.ReflTransGen.cases_tail (h.linked p hp i first last) with rfl | ⟨_, _, hstep⟩
    · obtain ⟨e, hle, hdense, hfirst⟩ := h.opened p hp
      have hopens := (sliding.opens e (by omega)).1
      exact ⟨e, by omega, hdense, by omega, by omega⟩
    · obtain ⟨e, he, hdense, _, hi⟩ := hstep
      exact ⟨e, he, hdense, hi⟩
  obtain ⟨e, he, hdense, hi⟩ := hin
  obtain ⟨q, hq, hfirst, hlast⟩ := h.inside e he hdense
  obtain rfl := h.unique hp hq (i := i) ⟨first, last⟩ ⟨by omega, by omega⟩
  exact ⟨e, he, hdense, hi, hfirst, hlast⟩

theorem skip (sparse : ¬ Dense count start k) :
    Pieces count start (k + 1) pieces where
  apart := h.apart
  closed p hp := ⟨(h.closed p hp).1.trans (Nat.lt_succ_self k), (h.closed p hp).2⟩
  opened := h.opened
  inside e he hdense := by
    rcases Nat.lt_succ_iff_lt_or_eq.mp he with hlt | rfl
    · exact h.inside e hlt hdense
    · exact absurd hdense sparse
  linked p hp i hi hle := (h.linked p hp i hi hle).mono (Nat.le_succ k)

theorem opens (dense : Dense count start k)
    (begins : start k ≤ k) (fresh : ∀ p ∈ pieces, p.2 < start k) :
    Pieces count start (k + 1) (pieces ++ [(start k, k)]) where
  apart := by
    refine List.pairwise_append.mpr ⟨h.apart, List.pairwise_singleton _ _, ?_⟩
    intro p hp q hq
    obtain rfl := List.mem_singleton.mp hq
    exact fresh p hp
  closed q hq := by
    rcases List.mem_append.mp hq with hold | hnew
    · exact ⟨(h.closed q hold).1.trans (Nat.lt_succ_self k), (h.closed q hold).2⟩
    · obtain rfl := List.mem_singleton.mp hnew
      exact ⟨Nat.lt_succ_self k, dense⟩
  opened q hq := by
    rcases List.mem_append.mp hq with hold | hnew
    · exact h.opened q hold
    · obtain rfl := List.mem_singleton.mp hnew
      exact ⟨k, le_rfl, dense, rfl⟩
  inside e he hdense := by
    rcases Nat.lt_succ_iff_lt_or_eq.mp he with hlt | rfl
    · obtain ⟨q, hq, hheld⟩ := h.inside e hlt hdense
      exact ⟨q, List.mem_append_left _ hq, hheld⟩
    · exact ⟨(start e, e), by simp, le_rfl, le_rfl⟩
  linked q hq i hi hle := by
    rcases List.mem_append.mp hq with hold | hnew
    · exact (h.linked q hold i hi hle).mono (Nat.le_succ k)
    · obtain rfl := List.mem_singleton.mp hnew
      exact .single ⟨k, Nat.lt_succ_self k, dense, ⟨le_rfl, begins⟩, hi, hle⟩

end

theorem grows (h : Pieces count start k (pieces ++ [p])) (sliding : Sliding n time width start)
    (hk : k < n) (dense : Dense count start k) (meets : start k ≤ p.2) :
    Pieces count start (k + 1) (pieces ++ [(p.1, k)]) := by
  have hp : p ∈ pieces ++ [p] := by simp
  have hlast := (h.closed p hp).1
  have hfirst := h.first_le sliding hk hp
  obtain ⟨hapart, _, hbefore⟩ := List.pairwise_append.mp h.apart
  constructor
  · refine List.pairwise_append.mpr ⟨hapart, List.pairwise_singleton _ _, ?_⟩
    intro q hq r hr
    obtain rfl := List.mem_singleton.mp hr
    exact hbefore q hq p (List.mem_singleton_self p)
  · intro q hq
    rcases List.mem_append.mp hq with hold | hnew
    · have hclosed := h.closed q (List.mem_append_left _ hold)
      exact ⟨by omega, hclosed.2⟩
    · obtain rfl := List.mem_singleton.mp hnew
      exact ⟨Nat.lt_succ_self k, dense⟩
  · intro q hq
    rcases List.mem_append.mp hq with hold | hnew
    · exact h.opened q (List.mem_append_left _ hold)
    · obtain rfl := List.mem_singleton.mp hnew
      obtain ⟨e, hle, hopened⟩ := h.opened p hp
      exact ⟨e, by simp only; omega, hopened⟩
  · intro e he hdense
    rcases Nat.lt_succ_iff_lt_or_eq.mp he with hlt | rfl
    · obtain ⟨q, hq, hheld⟩ := h.inside e hlt hdense
      rcases List.mem_append.mp hq with hold | hsame
      · exact ⟨q, List.mem_append_left _ hold, hheld⟩
      · obtain rfl := List.mem_singleton.mp hsame
        exact ⟨(q.1, k), by simp, hheld.1, by simp only; omega⟩
    · exact ⟨(p.1, e), by simp, hfirst, le_rfl⟩
  · intro q hq i hi hle
    rcases List.mem_append.mp hq with hold | hnew
    · exact (h.linked q (List.mem_append_left _ hold) i hi hle).mono (Nat.le_succ k)
    · obtain rfl := List.mem_singleton.mp hnew
      simp only at hi hle ⊢
      by_cases hin : i ≤ p.2
      · exact (h.linked p hp i hi hin).mono (Nat.le_succ k)
      · have hto := (h.linked p hp (start k) hfirst meets).mono (Nat.le_succ k)
        exact .tail hto ⟨k, Nat.lt_succ_self k, dense, ⟨le_rfl, by omega⟩, by omega, hle⟩

end Pieces

/-! ## The items of a list -/

section Items

variable {α : Type u}

def timeOf (t : α → Int) (xs : List α) (i : Nat) : Int := (xs[i]?.map t).getD 0

/-- The items from one place to another, both included. -/
def slice (xs : List α) (p : Nat × Nat) : List α := (xs.take (p.2 + 1)).drop p.1

/-- A set of at least `count` items of the list that fit in the width. -/
structure Burst (t : α → Int) (width : Int) (count : Nat) (xs : List α) (S : Finset α) :
    Prop where
  among : ∀ x ∈ S, x ∈ xs
  enough : count ≤ S.card
  close : ∀ x ∈ S, ∀ y ∈ S, t y - t x ≤ width

/-- Two items of one burst. -/
def Together (t : α → Int) (width : Int) (count : Nat) (xs : List α) (x y : α) : Prop :=
  ∃ S, Burst t width count xs S ∧ x ∈ S ∧ y ∈ S

/-- The groups are the components of the bursts under sharing an item. -/
structure Components (t : α → Int) (width : Int) (count : Nat) (xs : List α)
    (groups : List (Finset α)) : Prop where
  held : ∀ S, Burst t width count xs S → ∃! g, g ∈ groups ∧ S ⊆ g
  apart : groups.Pairwise Disjoint
  covered : ∀ g ∈ groups, ∀ x ∈ g, ∃ S, Burst t width count xs S ∧ x ∈ S ∧ S ⊆ g
  joined : ∀ g ∈ groups, ∀ x ∈ g, ∀ y ∈ g,
    Relation.ReflTransGen (Together t width count xs) x y

variable {t : α → Int} {xs : List α}

theorem Components.perm {groups more : List (Finset α)}
    (h : Components t width count xs groups) (perm : groups.Perm more) :
    Components t width count xs more where
  held S burst := by
    obtain ⟨g, ⟨hg, hsub⟩, honly⟩ := h.held S burst
    exact ⟨g, ⟨perm.mem_iff.mp hg, hsub⟩, fun g' hg' => honly g' ⟨perm.mem_iff.mpr hg'.1, hg'.2⟩⟩
  apart := h.apart.perm perm fun hdisjoint => hdisjoint.symm
  covered g hg := h.covered g (perm.mem_iff.mpr hg)
  joined g hg := h.joined g (perm.mem_iff.mpr hg)

theorem timeOf_get {i : Nat} (h : i < xs.length) : timeOf t xs i = t xs[i] := by
  simp [timeOf, h]

/-- The items that pass from the front, and the one where it stops. -/
theorem takeWhile_places {P : α → Bool} (l : List α) :
    (∀ i < (l.takeWhile P).length, ∀ x, l[i]? = some x → P x = true) ∧
      ∀ x, l[(l.takeWhile P).length]? = some x → P x = false := by
  induction l with
  | nil => exact ⟨fun i hi => absurd hi (Nat.not_lt_zero i), fun x hx => by cases hx⟩
  | cons y l ih =>
    cases hy : P y with
    | false =>
      rw [List.takeWhile_cons_of_neg (by simp [hy])]
      refine ⟨fun i hi => absurd hi (Nat.not_lt_zero i), ?_⟩
      rintro x ⟨⟩
      exact hy
    | true =>
      rw [List.takeWhile_cons_of_pos hy]
      refine ⟨?_, fun x hx => ih.2 x hx⟩
      intro i hi x hx
      cases i with
      | zero =>
        cases hx
        exact hy
      | succ i => exact ih.1 i (Nat.lt_of_succ_lt_succ hi) x hx

theorem mem_slice {p : Nat × Nat} {x : α} :
    x ∈ slice xs p ↔ ∃ i, p.1 ≤ i ∧ i ≤ p.2 ∧ xs[i]? = some x := by
  unfold slice
  constructor
  · intro hx
    obtain ⟨j, hj⟩ := List.mem_iff_getElem?.mp hx
    rw [List.getElem?_drop, List.getElem?_take] at hj
    split at hj
    · exact ⟨p.1 + j, by omega, by omega, hj⟩
    · cases hj
  · rintro ⟨i, hfirst, hlast, hi⟩
    refine List.mem_iff_getElem?.mpr ⟨i - p.1, ?_⟩
    rw [List.getElem?_drop, List.getElem?_take, if_pos (by omega)]
    rw [Nat.add_sub_cancel' hfirst]
    exact hi

theorem nodup_slice (nodup : xs.Nodup) (p : Nat × Nat) : (slice xs p).Nodup :=
  nodup.sublist ((List.drop_sublist _ _).trans (List.take_sublist _ _))

theorem length_slice {p : Nat × Nat} (h : p.2 < xs.length) :
    (slice xs p).length = p.2 + 1 - p.1 := by
  simp only [slice, List.length_drop, List.length_take]
  omega

theorem index_unique (nodup : xs.Nodup) {i j : Nat} {x : α} (hi : xs[i]? = some x)
    (hj : xs[j]? = some x) : i = j := by
  obtain ⟨hlt, hx⟩ := List.getElem?_eq_some_iff.mp hi
  obtain ⟨hlt', hx'⟩ := List.getElem?_eq_some_iff.mp hj
  exact (List.Nodup.getElem_inj_iff nodup).mp (hx.trans hx'.symm)

variable [DecidableEq α]

/-- The items of a dense window are a burst. -/
theorem Sliding.burst (h : Sliding xs.length (timeOf t xs) width start) (nodup : xs.Nodup)
    {e : Nat} (he : e < xs.length) (dense : Dense count start e) :
    Burst t width count xs (slice xs (start e, e)).toFinset where
  among x hx := by
    obtain ⟨i, _, _, hi⟩ := mem_slice.mp (List.mem_toFinset.mp hx)
    exact List.mem_of_getElem? hi
  enough := by
    rw [List.toFinset_card_of_nodup (nodup_slice nodup _), length_slice he]
    unfold Dense at dense
    simp only
    omega
  close x hx y hy := by
    obtain ⟨i, hfirst, hlast, hi⟩ := mem_slice.mp (List.mem_toFinset.mp hx)
    obtain ⟨j, _, hbound, hj⟩ := mem_slice.mp (List.mem_toFinset.mp hy)
    obtain ⟨hilt, rfl⟩ := List.getElem?_eq_some_iff.mp hi
    obtain ⟨hjlt, rfl⟩ := List.getElem?_eq_some_iff.mp hj
    rw [← timeOf_get (t := t) hilt, ← timeOf_get (t := t) hjlt]
    have hopens := (h.opens e he).2
    have hbefore := h.ordered _ _ hfirst hilt
    have hafter := h.ordered _ _ hbound he
    simp only at hbefore hafter
    omega

/-- A burst lies in the window of its last item. -/
theorem Sliding.window (h : Sliding xs.length (timeOf t xs) width start) (positive : 0 < count)
    {S : Finset α} (burst : Burst t width count xs S) :
    ∃ e < xs.length, Dense count start e ∧ ∀ x ∈ S, x ∈ slice xs (start e, e) := by
  have hplace : ∀ x ∈ S, xs[xs.idxOf x]? = some x := by
    intro x hx
    have hlt := List.idxOf_lt_length_iff.mpr (burst.among x hx)
    rw [List.getElem?_eq_getElem hlt, List.getElem_idxOf]
  have hinjective : Set.InjOn xs.idxOf (S : Set α) := by
    intro x hx y hy heq
    have hsame := (hplace x hx).symm.trans ((congrArg (xs[·]?) heq).trans (hplace y hy))
    exact Option.some.inj hsame
  have hne : (S.image xs.idxOf).Nonempty := by
    rw [Finset.image_nonempty, ← Finset.card_pos]
    exact positive.trans_le burst.enough
  obtain ⟨last, hlast, he⟩ := Finset.mem_image.mp (Finset.max'_mem _ hne)
  have hle : ∀ x ∈ S, xs.idxOf x ≤ xs.idxOf last := by
    intro x hx
    rw [he]
    exact Finset.le_max' _ _ (Finset.mem_image_of_mem (fun x => xs.idxOf x) hx)
  have hlt : xs.idxOf last < xs.length := List.idxOf_lt_length_iff.mpr (burst.among last hlast)
  have htime : ∀ x ∈ S, timeOf t xs (xs.idxOf x) = t x := by
    intro x hx
    simp [timeOf, hplace x hx]
  have hstart : ∀ x ∈ S, start (xs.idxOf last) ≤ xs.idxOf x := by
    intro x hx
    by_contra hbefore
    have hold := h.older _ hlt (xs.idxOf x) (by omega)
    have hclose := burst.close x hx last hlast
    rw [htime x hx, htime last hlast] at hold
    omega
  refine ⟨xs.idxOf last, hlt, ?_, ?_⟩
  · have hinside : S.image xs.idxOf ⊆ Finset.Icc (start (xs.idxOf last)) (xs.idxOf last) := by
      intro i hi
      obtain ⟨x, hx, rfl⟩ := Finset.mem_image.mp hi
      exact Finset.mem_Icc.mpr ⟨hstart x hx, hle x hx⟩
    have hcard := Finset.card_le_card hinside
    rw [Finset.card_image_of_injOn hinjective, Nat.card_Icc] at hcard
    have henough := burst.enough
    unfold Dense
    omega
  · intro x hx
    exact mem_slice.mpr ⟨_, hstart x hx, hle x hx, hplace x hx⟩

/-- The pieces of a whole list are the components of its bursts. -/
theorem Pieces.components (h : Pieces count start xs.length pieces)
    (sliding : Sliding xs.length (timeOf t xs) width start) (nodup : xs.Nodup)
    (positive : 0 < count) :
    Components t width count xs (pieces.map fun p => (slice xs p).toFinset) := by
  have hwindow : ∀ {e : Nat} {p : Nat × Nat}, p.1 ≤ start e → e ≤ p.2 →
      ∀ x ∈ slice xs (start e, e), x ∈ slice xs p := by
    intro e p hfirst hlast x hx
    obtain ⟨i, hi, hi', hgot⟩ := mem_slice.mp hx
    exact mem_slice.mpr ⟨i, hfirst.trans hi, hi'.trans hlast, hgot⟩
  have hshared : ∀ {i j x y}, Shared count start xs.length i j → xs[i]? = some x →
      xs[j]? = some y → Together t width count xs x y := by
    rintro i j x y ⟨e, he, hdense, hi, hj⟩ hx hy
    refine ⟨_, sliding.burst nodup he hdense, ?_, ?_⟩
    · exact List.mem_toFinset.mpr (mem_slice.mpr ⟨i, hi.1, hi.2, hx⟩)
    · exact List.mem_toFinset.mpr (mem_slice.mpr ⟨j, hj.1, hj.2, hy⟩)
  have hchain : ∀ {i j}, Linked count start xs.length i j → ∀ {x y}, xs[i]? = some x →
      xs[j]? = some y → Relation.ReflTransGen (Together t width count xs) x y := by
    intro i j hlinked
    induction hlinked with
    | refl =>
      intro x y hx hy
      obtain rfl := Option.some.inj (hx.symm.trans hy)
      exact .refl
    | @tail b c _ hstep ih =>
      intro x y hx hy
      obtain ⟨e, he, _, hb, _⟩ := id hstep
      have hlt : b < xs.length := hb.2.trans_lt he
      exact .tail (ih hx (List.getElem?_eq_getElem hlt))
        (hshared hstep (List.getElem?_eq_getElem hlt) hy)
  constructor
  · intro S burst
    obtain ⟨e, he, hdense, hin⟩ := sliding.window positive burst
    obtain ⟨p, hp, hfirst, hlast⟩ := h.inside e he hdense
    have hheld : ∀ x ∈ S, x ∈ slice xs p := fun x hx => hwindow hfirst hlast x (hin x hx)
    refine ⟨(slice xs p).toFinset, ⟨List.mem_map_of_mem hp, ?_⟩, ?_⟩
    · exact fun x hx => List.mem_toFinset.mpr (hheld x hx)
    · rintro g ⟨hg, hsub⟩
      obtain ⟨q, hq, rfl⟩ := List.mem_map.mp hg
      obtain ⟨x, hx⟩ := Finset.card_pos.mp (positive.trans_le burst.enough)
      obtain ⟨i, hi, hi', hgot⟩ := mem_slice.mp (hheld x hx)
      obtain ⟨j, hj, hj', hgot'⟩ := mem_slice.mp (List.mem_toFinset.mp (hsub hx))
      obtain rfl := index_unique nodup hgot hgot'
      rw [h.unique hp hq ⟨hi, hi'⟩ ⟨hj, hj'⟩]
  · refine List.pairwise_map.mpr (h.apart.imp ?_)
    intro p q hlt
    refine Finset.disjoint_left.mpr ?_
    intro x hx hy
    obtain ⟨i, _, hi, hgot⟩ := mem_slice.mp (List.mem_toFinset.mp hx)
    obtain ⟨j, hj, _, hgot'⟩ := mem_slice.mp (List.mem_toFinset.mp hy)
    have hsame := index_unique nodup hgot hgot'
    omega
  · intro g hg x hx
    obtain ⟨p, hp, rfl⟩ := List.mem_map.mp hg
    obtain ⟨i, hfirst, hlast, hi⟩ := mem_slice.mp (List.mem_toFinset.mp hx)
    obtain ⟨e, he, hdense, hin, hopens, hcloses⟩ :=
      h.window_of_mem sliding le_rfl hp hfirst hlast
    refine ⟨_, sliding.burst nodup he hdense, ?_, ?_⟩
    · exact List.mem_toFinset.mpr (mem_slice.mpr ⟨i, hin.1, hin.2, hi⟩)
    · intro y hy
      exact List.mem_toFinset.mpr (hwindow hopens hcloses y (List.mem_toFinset.mp hy))
  · intro g hg x hx y hy
    obtain ⟨p, hp, rfl⟩ := List.mem_map.mp hg
    obtain ⟨i, hi, hi', hx⟩ := mem_slice.mp (List.mem_toFinset.mp hx)
    obtain ⟨j, hj, hj', hy⟩ := mem_slice.mp (List.mem_toFinset.mp hy)
    have hback : Linked count start xs.length i p.1 := (h.linked p hp i hi hi').symm
    exact hchain (hback.trans (h.linked p hp j hj hj')) hx hy

end Items

end Windows
