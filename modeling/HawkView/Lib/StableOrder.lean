import Mathlib.Data.List.Sort
import Mathlib.Data.List.Flatten

/-!
# Stable order and groups

Sorting by a rank keeps the order of elements of one rank, and puts every list
into blocks. Grouping by a key collects the elements of a key in their order,
the groups in the order of their first elements.
-/

namespace StableOrder

open List

variable {α β κ : Type*}

/-- Lists that are rearranged sort to one list when no two elements go before each other. -/
theorem insertionSort_perm {r : α → α → Prop} [DecidableRel r] [Std.Total r] [IsTrans α r]
    {l m : List α} (h : l.Perm m)
    (antisymm : ∀ a ∈ l, ∀ b ∈ l, r a b → r b a → a = b) :
    l.insertionSort r = m.insertionSort r := by
  have hperm := (perm_insertionSort r l).trans (h.trans (perm_insertionSort r m).symm)
  refine Perm.eq_of_pairwise ?_ (pairwise_insertionSort r l) (pairwise_insertionSort r m) hperm
  intro a b ha hb
  exact antisymm a ((perm_insertionSort r l).mem_iff.mp ha) b
    (h.mem_iff.mpr ((perm_insertionSort r m).mem_iff.mp hb))

/-! ## Sorting by a rank -/

def sortOn (rank : α → Nat) (l : List α) : List α :=
  l.insertionSort fun a b => rank a ≤ rank b

instance total_rank (rank : α → Nat) : Std.Total fun a b : α => rank a ≤ rank b :=
  ⟨fun a b => Nat.le_total (rank a) (rank b)⟩

instance trans_rank (rank : α → Nat) : IsTrans α fun a b => rank a ≤ rank b :=
  ⟨fun _ _ _ => Nat.le_trans⟩

variable (rank : α → Nat)

theorem sortOn_perm (l : List α) : (sortOn rank l).Perm l :=
  perm_insertionSort _ l

theorem sortOn_sorted (l : List α) :
    (sortOn rank l).Pairwise fun a b => rank a ≤ rank b :=
  pairwise_insertionSort _ l

theorem filter_orderedInsert (k : Nat) (a : α) (l : List α) :
    (l.orderedInsert (fun a b => rank a ≤ rank b) a).filter (fun x => rank x = k) =
      (a :: l).filter fun x => rank x = k := by
  induction l with
  | nil => rfl
  | cons b l ih =>
    rw [orderedInsert_cons]
    by_cases hle : rank a ≤ rank b
    · rw [if_pos hle]
    · rw [if_neg hle, filter_cons, ih]
      by_cases ha : rank a = k
      · have hb : rank b ≠ k := by omega
        simp [ha, hb]
      · simp [filter_cons, ha]

/-- Elements of one rank keep their order. -/
theorem filter_sortOn (k : Nat) (l : List α) :
    (sortOn rank l).filter (fun x => rank x = k) = l.filter fun x => rank x = k := by
  induction l with
  | nil => rfl
  | cons a l ih =>
    rw [sortOn, insertionSort_cons, filter_orderedInsert, filter_cons, filter_cons]
    rw [sortOn] at ih
    rw [ih]

variable {p : α → Bool}

/-- Elements that can only be of one rank keep their order. -/
theorem filter_sortOn_alike {rank : α → Nat}
    (alike : ∀ a b, p a = true → p b = true → rank a = rank b) (l : List α) :
    (sortOn rank l).filter p = l.filter p := by
  cases hl : l.filter p with
  | nil =>
    rw [filter_eq_nil_iff] at hl ⊢
    intro a ha
    exact hl a ((sortOn_perm rank l).mem_iff.mp ha)
  | cons a rest =>
    have ha : p a = true := by
      have hmem : a ∈ l.filter p := by simp [hl]
      exact (mem_filter.mp hmem).2
    have hnarrow : ∀ m : List α, m.filter p = (m.filter fun x => rank x = rank a).filter p := by
      intro m
      rw [filter_filter]
      apply filter_congr
      intro x _
      by_cases hx : p x = true
      · simp [hx, alike x a hx ha]
      · simp [hx]
    rw [hnarrow, filter_sortOn, ← hnarrow, hl]

section Related

variable {R : α → β → Prop} {r : α → α → Prop} {q : β → β → Prop} [DecidableRel r]
  [DecidableRel q]

variable {l : List α} {m : List β}

theorem forall₂_orderedInsert (same : ∀ a b a' b', R a b → R a' b' → (r a a' ↔ q b b')) {a : α}
    {b : β} (head : R a b) (h : Forall₂ R l m) :
    Forall₂ R (l.orderedInsert r a) (m.orderedInsert q b) := by
  induction h with
  | nil => exact .cons head .nil
  | @cons a' b' l m hab tail ih =>
    rw [orderedInsert_cons, orderedInsert_cons]
    by_cases hr : r a a'
    · rw [if_pos hr, if_pos ((same _ _ _ _ head hab).mp hr)]
      exact .cons head (.cons hab tail)
    · rw [if_neg hr, if_neg fun hq => hr ((same _ _ _ _ head hab).mpr hq)]
      exact .cons hab ih

/-- Lists that are related one by one stay so when both are sorted by the same order. -/
theorem forall₂_insertionSort (same : ∀ a b a' b', R a b → R a' b' → (r a a' ↔ q b b'))
    (h : Forall₂ R l m) : Forall₂ R (l.insertionSort r) (m.insertionSort q) := by
  induction h with
  | nil => exact .nil
  | cons head _ ih => exact forall₂_orderedInsert same head ih

end Related

/-- A list in which nothing precedes an element that has `p` but elements that
have it is its two parts. -/
theorem split_sorted {l : List α} (h : l.Pairwise fun a b => p b → p a) :
    l = l.filter p ++ l.filter fun a => !p a := by
  induction l with
  | nil => rfl
  | cons a l ih =>
    rw [pairwise_cons] at h
    by_cases ha : p a
    · rw [filter_cons_of_pos ha, filter_cons_of_neg (by simp [ha]), cons_append,
        ← ih h.2]
    · have hnone : l.filter p = [] := by
        rw [filter_eq_nil_iff]
        intro b hb hpb
        exact ha (h.1 b hb hpb)
      have hall : (l.filter fun a => !p a) = l := by
        rw [filter_eq_self]
        intro b hb
        have := filter_eq_nil_iff.mp hnone b hb
        simpa using this
      rw [filter_cons_of_neg ha, filter_cons_of_pos (by simp [ha]), hnone, hall]
      rfl

/-! ## Groups -/

section Groups

variable [DecidableEq κ]

/-- `groups.set(k, [...(groups.get(k) ?? []), a])`. -/
def addTo (k : κ) (a : α) : List (κ × List α) → List (κ × List α)
  | [] => [(k, [a])]
  | (k', as) :: rest => if k' = k then (k', as ++ [a]) :: rest else (k', as) :: addTo k a rest

def grouped (key : α → κ) (l : List α) : List (κ × List α) :=
  l.foldl (fun groups a => addTo (key a) a groups) []

/-- The groups are the nonempty ones, each in the order of the list. -/
structure Groups (key : α → κ) (l : List α) (groups : List (κ × List α)) : Prop where
  distinct : (groups.map Prod.fst).Nodup
  members : ∀ g ∈ groups, g.2 = l.filter fun a => key a = g.1
  covers : ∀ a ∈ l, key a ∈ groups.map Prod.fst

theorem map_fst_addTo (k : κ) (a : α) (groups : List (κ × List α)) :
    (addTo k a groups).map Prod.fst =
      if k ∈ groups.map Prod.fst then groups.map Prod.fst else groups.map Prod.fst ++ [k] := by
  induction groups with
  | nil => simp [addTo]
  | cons g groups ih =>
    rw [addTo]
    by_cases hk : g.1 = k
    · simp [hk]
    · have hk' : ¬ k = g.1 := fun h => hk h.symm
      rw [if_neg hk, map_cons, ih]
      by_cases hmem : k ∈ groups.map Prod.fst
      · simp only [hmem, if_true, map_cons, mem_cons, or_true]
      · simp only [hmem, if_false, map_cons, mem_cons, hk', or_false, cons_append]

variable {groups : List (κ × List α)}

theorem mem_addTo {k : κ} {a : α} {g : κ × List α} (distinct : (groups.map Prod.fst).Nodup)
    (h : g ∈ addTo k a groups) :
    (g ∈ groups ∧ g.1 ≠ k) ∨ (∃ as, (k, as) ∈ groups ∧ g = (k, as ++ [a])) ∨
      (k ∉ groups.map Prod.fst ∧ g = (k, [a])) := by
  induction groups with
  | nil =>
    rw [addTo, mem_singleton] at h
    exact .inr (.inr ⟨by simp, h⟩)
  | cons g' groups ih =>
    rw [map_cons, nodup_cons] at distinct
    rw [addTo] at h
    by_cases hk : g'.1 = k
    · rw [if_pos hk] at h
      rcases mem_cons.mp h with rfl | hmem
      · exact .inr (.inl ⟨g'.2, by simp [← hk], by rw [hk]⟩)
      · refine .inl ⟨by simp [hmem], fun hgk => distinct.1 ?_⟩
        rw [hk, ← hgk]
        exact mem_map_of_mem hmem
    · rw [if_neg hk] at h
      rcases mem_cons.mp h with rfl | hmem
      · exact .inl ⟨by simp, hk⟩
      · rcases ih distinct.2 hmem with ⟨hin, hne⟩ | ⟨as, hin, rfl⟩ | ⟨hnot, rfl⟩
        · exact .inl ⟨by simp [hin], hne⟩
        · exact .inr (.inl ⟨as, by simp [hin], rfl⟩)
        · refine .inr (.inr ⟨?_, rfl⟩)
          rw [map_cons, mem_cons, not_or]
          exact ⟨fun heq => hk heq.symm, hnot⟩

variable {key : α → κ} {l : List α}

theorem Groups.add (h : Groups key l groups) (a : α) :
    Groups key (l ++ [a]) (addTo (key a) a groups) where
  distinct := by
    rw [map_fst_addTo]
    split
    · exact h.distinct
    · rename_i hnot
      refine nodup_append.mpr ⟨h.distinct, nodup_singleton _, ?_⟩
      intro x hx y hy heq
      rw [mem_singleton] at hy
      exact hnot (hy ▸ heq ▸ hx)
  members := by
    intro g hg
    rw [filter_append]
    rcases mem_addTo h.distinct hg with ⟨hin, hne⟩ | ⟨as, hin, rfl⟩ | ⟨hnot, rfl⟩
    · have hne' : key a ≠ g.1 := fun heq => hne heq.symm
      simp [h.members g hin, hne']
    · simp [← h.members _ hin]
    · have hnone : (l.filter fun b => key b = key a) = [] := by
        rw [filter_eq_nil_iff]
        intro b hb hkey
        simp only [decide_eq_true_eq] at hkey
        exact hnot (hkey ▸ h.covers b hb)
      simp [hnone]
  covers := by
    intro b hb
    rw [map_fst_addTo]
    rcases mem_append.mp hb with hb | hb
    · have := h.covers b hb
      split
      · exact this
      · exact mem_append_left _ this
    · rw [mem_singleton] at hb
      subst hb
      split
      · assumption
      · simp

theorem foldl_groups (key : α → κ) (l rest : List α) (h : Groups key l groups) :
    Groups key (l ++ rest) (rest.foldl (fun groups a => addTo (key a) a groups) groups) := by
  induction rest generalizing l groups with
  | nil => simpa using h
  | cons a rest ih =>
    have hnext := ih (l ++ [a]) (h.add a)
    rwa [append_assoc] at hnext

theorem grouped_groups (key : α → κ) (l : List α) : Groups key l (grouped key l) :=
  foldl_groups key [] l ⟨nodup_nil, by simp, by simp⟩

/-- Groups of elements that are mapped under their keys. -/
theorem grouped_map (f : β → α) (key : α → κ) (l : List β) :
    grouped key (l.map f) = (grouped (fun b => key (f b)) l).map fun g => (g.1, g.2.map f) := by
  have hadd (k : κ) (b : β) (groups : List (κ × List β)) :
      addTo k (f b) (groups.map fun g => (g.1, g.2.map f)) =
        (addTo k b groups).map fun g => (g.1, g.2.map f) := by
    induction groups with
    | nil => rfl
    | cons g groups ih =>
      rw [map_cons, addTo, addTo]
      split
      · simp
      · rw [ih, map_cons]
  have hfold (groups : List (κ × List β)) :
      (l.map f).foldl (fun groups a => addTo (key a) a groups)
        (groups.map fun g => (g.1, g.2.map f)) =
      (l.foldl (fun groups b => addTo (key (f b)) b groups) groups).map
        fun g => (g.1, g.2.map f) := by
    induction l generalizing groups with
    | nil => rfl
    | cons b l ih => rw [map_cons, foldl_cons, hadd, ih, foldl_cons]
  exact hfold []

/-- What the groups yield for one key is what its own group yields. -/
theorem filter_flatMap_grouped {g : κ × List α → List β} {keyOf : β → κ}
    (hkey : ∀ e ∈ grouped key l, ∀ x ∈ g e, keyOf x = e.1) (k : κ) (hempty : g (k, []) = []) :
    ((grouped key l).flatMap g).filter (fun x => keyOf x = k) =
      g (k, l.filter fun a => key a = k) := by
  have hgroups := grouped_groups key l
  have hother : ∀ (groups : List (κ × List α)), (∀ e ∈ groups, e ∈ grouped key l) →
      k ∉ groups.map Prod.fst → (groups.flatMap g).filter (fun x => keyOf x = k) = [] := by
    intro groups hsub hnot
    rw [filter_eq_nil_iff]
    intro x hx hk
    obtain ⟨e, he, hxe⟩ := mem_flatMap.mp hx
    simp only [decide_eq_true_eq] at hk
    rw [hkey e (hsub e he) x hxe] at hk
    exact hnot (hk ▸ mem_map_of_mem he)
  by_cases hmem : k ∈ (grouped key l).map Prod.fst
  · obtain ⟨e, he, rfl⟩ := mem_map.mp hmem
    obtain ⟨front, back, hsplit⟩ := append_of_mem he
    have hdistinct := hgroups.distinct
    rw [hsplit, map_append, map_cons, nodup_append, nodup_cons] at hdistinct
    have hfront : e.1 ∉ front.map Prod.fst := by
      intro hin
      exact hdistinct.2.2 _ hin _ mem_cons_self rfl
    rw [hsplit, flatMap_append, flatMap_cons, filter_append, filter_append,
      hother front (fun x hx => by rw [hsplit]; simp [hx]) hfront,
      hother back (fun x hx => by rw [hsplit]; simp [hx]) hdistinct.2.1.1, nil_append,
      append_nil, ← hgroups.members e he]
    rw [filter_eq_self]
    intro x hx
    simpa using hkey e he x hx
  · have hnone : (l.filter fun a => key a = k) = [] := by
      rw [filter_eq_nil_iff]
      intro a ha hk
      simp only [decide_eq_true_eq] at hk
      exact hmem (hk ▸ hgroups.covers a ha)
    rw [hother _ (fun e he => he) hmem, hnone, hempty]

end Groups

end StableOrder
