import HawkView.Lib.DistinctKeys
import Mathlib.Algebra.BigOperators.Group.List.Basic
import Mathlib.Algebra.GroupWithZero.Nat
import Mathlib.Data.List.Induction
import Mathlib.Data.List.Perm.Subperm

/-!
# Maps in insertion order

A map holds one value for a key and lists its entries in the order in which
their keys came first. Setting a key that is there keeps its place.
-/

universe u v

structure JsMap (κ : Type u) (α : Type v) where
  entries : List (κ × α)
  unique : (entries.map Prod.fst).Nodup

namespace JsMap

open List

variable {κ : Type u} {α : Type v}

def empty : JsMap κ α := ⟨[], nodup_nil⟩

def values (m : JsMap κ α) : List α := m.entries.map Prod.snd

variable [DecidableEq κ]

/-- The entries after `map.set(k, v)`. -/
def put (k : κ) (v : α) : List (κ × α) → List (κ × α)
  | [] => [(k, v)]
  | (j, w) :: rest => if j = k then (k, v) :: rest else (j, w) :: put k v rest

theorem keys_put (k : κ) (v : α) (es : List (κ × α)) :
    (put k v es).map Prod.fst =
      if k ∈ es.map Prod.fst then es.map Prod.fst else es.map Prod.fst ++ [k] := by
  induction es with
  | nil => rfl
  | cons e es ih =>
    obtain ⟨j, w⟩ := e
    rw [put]
    by_cases hj : j = k
    · rw [if_pos hj, hj]
      simp
    · have hk : k ≠ j := fun h => hj h.symm
      simp only [if_neg hj, map_cons, ih, mem_cons, hk, false_or]
      split_ifs <;> rfl

variable {k : κ} {es : List (κ × α)}

theorem nodup_put (h : (es.map Prod.fst).Nodup) (v : α) :
    ((put k v es).map Prod.fst).Nodup := by
  rw [keys_put]
  split_ifs with hk
  · exact h
  · rw [nodup_append]
    refine ⟨h, nodup_singleton k, ?_⟩
    intro j hj i hi
    rw [mem_singleton] at hi
    rintro rfl
    exact hk (hi ▸ hj)

/-- A new key goes to the end. -/
theorem put_fresh (fresh : k ∉ es.map Prod.fst) (v : α) :
    put k v es = es ++ [(k, v)] := by
  induction es with
  | nil => rfl
  | cons e es ih =>
    rw [map_cons, mem_cons, not_or] at fresh
    have hne : e.1 ≠ k := fun h => fresh.1 h.symm
    rw [put, if_neg hne, ih fresh.2, cons_append]

def set (m : JsMap κ α) (k : κ) (v : α) : JsMap κ α := ⟨put k v m.entries, nodup_put m.unique v⟩

def get? (m : JsMap κ α) (k : κ) : Option α :=
  (m.entries.find? fun entry => entry.1 = k).map Prod.snd

theorem find_put (k j : κ) (v : α) (es : List (κ × α)) :
    (put k v es).find? (fun entry => entry.1 = j) =
      if k = j then some (k, v) else es.find? fun entry => entry.1 = j := by
  induction es with
  | nil => by_cases h : k = j <;> simp [put, h]
  | cons e es ih =>
    obtain ⟨i, w⟩ := e
    rw [put]
    by_cases hi : i = k
    · subst hi
      by_cases hj : i = j <;> simp [hj]
    · rw [if_neg hi, find?_cons, find?_cons, ih]
      by_cases hij : i = j
      · have hkj : k ≠ j := fun h => hi (hij.trans h.symm)
        simp [hij, hkj]
      · simp [hij]

@[simp] theorem get?_empty (k : κ) : (empty : JsMap κ α).get? k = none := rfl

theorem get?_set (m : JsMap κ α) (k j : κ) (v : α) :
    (m.set k v).get? j = if k = j then some v else m.get? j := by
  rw [get?, set, find_put]
  split_ifs <;> rfl

variable {m : JsMap κ α} {v : α}

theorem get?_eq_some :
    m.get? k = some v ↔ (k, v) ∈ m.entries := by
  rw [get?, Option.map_eq_some_iff]
  simp only [DistinctKeys.find_some m.unique]
  constructor
  · rintro ⟨⟨j, w⟩, ⟨hmem, rfl⟩, rfl⟩
    exact hmem
  · intro hmem
    exact ⟨(k, v), ⟨hmem, rfl⟩, rfl⟩

theorem mem_values_set {w : α} (h : w ∈ (m.set k v).values) :
    w = v ∨ w ∈ m.values := by
  obtain ⟨⟨j, _⟩, hentry, rfl⟩ := mem_map.mp h
  have hget := get?_eq_some.mpr hentry
  rw [get?_set] at hget
  split_ifs at hget with hkey
  · exact .inl (Option.some.inj hget).symm
  · exact .inr (mem_map.mpr ⟨_, get?_eq_some.mp hget, rfl⟩)

/-- Maps with the same keys in the same order and the same values are one. -/
theorem ext_get {n : JsMap κ α} (keys : m.entries.map Prod.fst = n.entries.map Prod.fst)
    (h : ∀ k, m.get? k = n.get? k) : m = n := by
  have hentries : m.entries = n.entries := by
    apply ext_getElem?
    intro i
    have hkey := congrArg (fun l => l[i]?) keys
    simp only [getElem?_map] at hkey
    cases hm : m.entries[i]? with
    | none =>
      cases hn : n.entries[i]? with
      | none => rfl
      | some f => simp [hm, hn] at hkey
    | some e =>
      cases hn : n.entries[i]? with
      | none => simp [hm, hn] at hkey
      | some f =>
        have hfst : e.1 = f.1 := by simpa [hm, hn] using hkey
        have hget := h e.1
        rw [get?_eq_some.mpr (mem_of_getElem? hm), hfst,
          get?_eq_some.mpr (mem_of_getElem? hn)] at hget
        exact congrArg some (Prod.ext hfst (Option.some.inj hget))
  cases m
  cases n
  cases hentries
  rfl

/-- `new Map(entries)`. -/
def ofList (es : List (κ × α)) : JsMap κ α := es.foldl (fun m e => m.set e.1 e.2) empty

theorem get?_foldl_set (fresh : k ∉ es.map Prod.fst) (m : JsMap κ α) :
    (es.foldl (fun m e => m.set e.1 e.2) m).get? k = m.get? k := by
  induction es generalizing m with
  | nil => rfl
  | cons e es ih =>
    rw [map_cons, mem_cons, not_or] at fresh
    have hne : e.1 ≠ k := fun h => fresh.1 h.symm
    rw [foldl_cons, ih fresh.2, get?_set, if_neg hne]

theorem get?_ofList_eq_none (fresh : k ∉ es.map Prod.fst) :
    (ofList es).get? k = none := get?_foldl_set fresh empty

theorem ofList_append (es : List (κ × α)) (e : κ × α) :
    ofList (es ++ [e]) = (ofList es).set e.1 e.2 := by
  rw [ofList, foldl_append, foldl_cons, foldl_nil, ← ofList]

theorem mem_keys_ofList :
    k ∈ (ofList es).entries.map Prod.fst ↔ k ∈ es.map Prod.fst := by
  induction es using reverseRecOn with
  | nil => rfl
  | append_singleton es e ih =>
    rw [ofList_append, set, keys_put, map_append, mem_append, ← ih]
    by_cases hk : e.1 ∈ (ofList es).entries.map Prod.fst
    · rw [if_pos hk]
      constructor
      · exact .inl
      · rintro (h | h)
        · exact h
        · rw [map_singleton, mem_singleton] at h
          rwa [h]
    · rw [if_neg hk, mem_append]
      rfl

/-- The last entry of a key counts, so one that has no rival does. -/
theorem get?_ofList_only (h : (k, v) ∈ es) (only : ∀ w, (k, w) ∈ es → w = v) :
    (ofList es).get? k = some v := by
  induction es using reverseRecOn with
  | nil => cases h
  | append_singleton es e ih =>
    rw [ofList_append, get?_set]
    by_cases hk : e.1 = k
    · have hlast : (k, e.2) ∈ es ++ [e] := by simp [← hk]
      rw [if_pos hk, only e.2 hlast]
    · rw [if_neg hk]
      have hmem : (k, v) ∈ es := by
        rcases mem_append.mp h with hes | hlast
        · exact hes
        · rw [mem_singleton] at hlast
          exact absurd (by rw [← hlast]) hk
      exact ih hmem fun w hw => only w (mem_append_left _ hw)

/-- With distinct keys, every entry of the list is there. -/
theorem get?_ofList (unique : (es.map Prod.fst).Nodup) (h : (k, v) ∈ es) :
    (ofList es).get? k = some v := by
  apply get?_ofList_only h
  intro w hw
  have hsame := inj_on_of_nodup_map unique hw h rfl
  exact congrArg Prod.snd hsame

variable {β : Type*} {l : List β} {key : β → κ}

/-- A list whose elements have distinct keys is searched like the map that it fills. -/
theorem get?_ofList_map {val : β → α} (unique : (l.map key).Nodup) (k : κ) :
    (ofList (l.map fun b => (key b, val b))).get? k = (l.find? fun b => key b = k).map val := by
  have hunique : ((l.map fun b => (key b, val b)).map Prod.fst).Nodup := by
    rw [List.map_map]
    exact unique
  cases hfind : l.find? fun b => key b = k with
  | none =>
    apply get?_ofList_eq_none
    rw [List.map_map, mem_map]
    rintro ⟨b, hb, hkey⟩
    exact DistinctKeys.find_none.mp hfind b hb hkey
  | some b =>
    obtain ⟨hb, rfl⟩ := (DistinctKeys.find_some unique).mp hfind
    exact get?_ofList hunique (mem_map.mpr ⟨b, hb, rfl⟩)

/-! ## Items under their own keys -/

/-- Setting what is there changes nothing. -/
theorem put_held (unique : (es.map Prod.fst).Nodup) (h : (k, v) ∈ es) : put k v es = es := by
  induction es with
  | nil => cases h
  | cons e es ih =>
    rw [map_cons, nodup_cons] at unique
    by_cases hk : e.1 = k
    · rcases mem_cons.mp h with rfl | hes
      · rw [put, if_pos rfl]
      · exact absurd (mem_map_of_mem hes) (hk ▸ unique.1)
    · rcases mem_cons.mp h with rfl | hes
      · exact absurd rfl hk
      · rw [put, if_neg hk, ih unique.2 hes]

theorem values_set (m : JsMap κ α) (k : κ) (v : α) :
    (m.set k v).values = (put k v m.entries).map Prod.snd := rfl

/-- The items of a list, each under its key. -/
theorem keyed_ofList (key : β → κ) (l : List β) :
    ∀ e ∈ (ofList (l.map fun a => (key a, a))).entries, e.1 = key e.2 := by
  induction l using reverseRecOn with
  | nil => exact fun e he => absurd he not_mem_nil
  | append_singleton l a ih =>
    rw [map_append, map_singleton, ofList_append]
    intro e he
    have hget := get?_eq_some.mpr he
    rw [get?_set] at hget
    split at hget
    · rename_i hkey
      rw [← hkey, ← Option.some.inj hget]
    · exact ih e (get?_eq_some.mp hget)

theorem nodup_values_keyed (key : β → κ) (l : List β) :
    (ofList (l.map fun a => (key a, a))).values.Nodup := by
  have hkeys : (ofList (l.map fun a => (key a, a))).values.map key =
      (ofList (l.map fun a => (key a, a))).entries.map Prod.fst := by
    rw [values, List.map_map]
    exact map_congr_left fun e he => (keyed_ofList key l e he).symm
  apply List.Nodup.of_map key
  rw [hkeys]
  exact (ofList _).unique

/-- With one item for a key, a map keeps the first place of each item. -/
theorem values_keyed (own : ∀ a ∈ l, ∀ b ∈ l, key a = key b → a = b) :
    (ofList (l.map fun a => (key a, a))).values.Sublist l ∧
      ∀ a, a ∈ (ofList (l.map fun a => (key a, a))).values ↔ a ∈ l := by
  induction l using reverseRecOn with
  | nil => exact ⟨List.Sublist.slnil, fun a => Iff.rfl⟩
  | append_singleton l a ih =>
    obtain ⟨hsub, hmem⟩ := ih fun x hx y hy =>
      own x (mem_append_left _ hx) y (mem_append_left _ hy)
    rw [map_append, map_singleton, ofList_append, values_set]
    by_cases ha : a ∈ l
    · have hheld : (key a, a) ∈ (ofList (l.map fun a => (key a, a))).entries := by
        obtain ⟨e, he, heq⟩ := mem_map.mp ((hmem a).mpr ha)
        obtain rfl : e.2 = a := heq
        rw [← keyed_ofList key l e he]
        exact he
      rw [put_held (ofList _).unique hheld]
      refine ⟨hsub.trans (sublist_append_left l [a]), fun b => ?_⟩
      rw [mem_append, mem_singleton]
      exact (hmem b).trans ⟨.inl, fun h => h.elim id fun hb => hb ▸ ha⟩
    · have hfresh : key a ∉ (ofList (l.map fun a => (key a, a))).entries.map Prod.fst := by
        rw [mem_keys_ofList, List.map_map]
        intro hkey
        obtain ⟨b, hb, heq⟩ := mem_map.mp hkey
        have hsame := own b (mem_append_left _ hb) a
          (mem_append_right _ (mem_singleton_self a)) heq
        exact ha (hsame ▸ hb)
      rw [put_fresh hfresh, map_append]
      refine ⟨hsub.append_right [a], fun b => ?_⟩
      rw [mem_append, mem_append]
      exact or_congr (hmem b) Iff.rfl

/-! ## Keys -/

theorem mem_keys :
    k ∈ m.entries.map Prod.fst ↔ (m.get? k).isSome = true := by
  rw [Option.isSome_iff_exists, mem_map]
  simp only [get?_eq_some]
  constructor
  · rintro ⟨⟨_, v⟩, hmem, rfl⟩
    exact ⟨v, hmem⟩
  · rintro ⟨v, hmem⟩
    exact ⟨(k, v), hmem, rfl⟩

theorem length_set (m : JsMap κ α) (k : κ) (v : α) :
    (m.set k v).entries.length = m.entries.length + if (m.get? k).isSome then 0 else 1 := by
  have hkeys := congrArg List.length (keys_put k v m.entries)
  rw [length_map] at hkeys
  rw [set, hkeys]
  by_cases hk : (m.get? k).isSome = true
  · rw [if_pos (mem_keys.mpr hk), if_pos hk, length_map, Nat.add_zero]
  · rw [if_neg (mt mem_keys.mp hk), if_neg hk, length_append, length_map]
    rfl

/-- Entries that agree on the value of every key make one map, but for its order. -/
theorem entries_ofList_perm {fs : List (κ × α)} (perm : es.Perm fs)
    (agree : ∀ k v w, (k, v) ∈ es → (k, w) ∈ es → v = w) :
    (ofList es).entries.Perm (ofList fs).entries := by
  have held {gs : List (κ × α)} (hgs : gs.Perm es) (e : κ × α) :
      e ∈ (ofList gs).entries ↔ e ∈ es := by
    obtain ⟨k, v⟩ := e
    have honly {v : α} (hv : (k, v) ∈ es) : (ofList gs).get? k = some v :=
      get?_ofList_only (hgs.mem_iff.mpr hv) fun w hw => agree k w v (hgs.mem_iff.mp hw) hv
    rw [← get?_eq_some]
    constructor
    · intro hget
      have hkey : k ∈ gs.map Prod.fst := by
        rw [← mem_keys_ofList, mem_keys, hget]
        rfl
      obtain ⟨⟨_, w⟩, hw, rfl⟩ := mem_map.mp hkey
      have hw' := hgs.mem_iff.mp hw
      rw [honly hw'] at hget
      rwa [← Option.some.inj hget]
    · exact honly
  refine (perm_ext_iff_of_nodup (ofList es).unique.of_map (ofList fs).unique.of_map).mpr ?_
  exact fun e => (held (.refl es) e).trans (held perm.symm e).symm

/-! ## Deleting -/

def filter (m : JsMap κ α) (p : κ → α → Bool) : JsMap κ α :=
  ⟨m.entries.filter fun e => p e.1 e.2, m.unique.sublist (filter_sublist.map _)⟩

theorem get?_filter {p : κ → α → Bool} :
    (m.filter p).get? k = some v ↔ m.get? k = some v ∧ p k v = true := by
  rw [get?_eq_some, get?_eq_some, filter, mem_filter]

/-! ## Sums over the entries -/

section

variable (w : κ × α → Nat)
include w

theorem sum_put_fresh (fresh : k ∉ es.map Prod.fst) (v : α) :
    ((put k v es).map w).sum = (es.map w).sum + w (k, v) := by
  induction es with
  | nil => simp [put]
  | cons e es ih =>
    obtain ⟨j, a⟩ := e
    rw [map_cons, mem_cons, not_or] at fresh
    have hj : j ≠ k := fun h => fresh.1 h.symm
    simp only [put, if_neg hj, map_cons, sum_cons, ih fresh.2]
    omega

theorem sum_put_held {old : α}
    (held : es.find? (fun entry => entry.1 = k) = some (k, old)) (v : α) :
    ((put k v es).map w).sum + w (k, old) = (es.map w).sum + w (k, v) := by
  induction es with
  | nil => cases held
  | cons e es ih =>
    obtain ⟨j, a⟩ := e
    by_cases hj : j = k
    · subst hj
      simp only [find?_cons, decide_true, Option.some.injEq, Prod.mk.injEq,
        true_and] at held
      rw [put, if_pos rfl, map_cons, map_cons, sum_cons, sum_cons, held]
      omega
    · simp only [find?_cons, hj, decide_false] at held
      simp only [put, if_neg hj, map_cons, sum_cons]
      have := ih held
      omega

theorem sum_set_fresh (fresh : m.get? k = none) (v : α) :
    ((m.set k v).entries.map w).sum = (m.entries.map w).sum + w (k, v) := by
  apply sum_put_fresh w
  rw [mem_map]
  rintro ⟨⟨j, old⟩, hmem, rfl⟩
  rw [get?_eq_some.mpr hmem] at fresh
  cases fresh

theorem sum_set_held {old : α} (held : m.get? k = some old) (v : α) :
    ((m.set k v).entries.map w).sum + w (k, old) = (m.entries.map w).sum + w (k, v) := by
  obtain ⟨⟨j, a⟩, hfind, ha⟩ := Option.map_eq_some_iff.mp held
  have hkey : j = k := by simpa using find?_some hfind
  rw [hkey, show a = old from ha] at hfind
  exact sum_put_held w hfind v

end

end JsMap

/-- A set in insertion order. -/
abbrev JsSet (κ : Type u) := JsMap κ Unit

namespace JsSet

open List

variable {κ : Type u}

def elements (s : JsSet κ) : List κ := s.entries.map Prod.fst

def size (s : JsSet κ) : Nat := s.entries.length

theorem nodup_elements (s : JsSet κ) : s.elements.Nodup := s.unique

theorem length_elements (s : JsSet κ) : s.elements.length = s.size := length_map _

variable {s t : JsSet κ}

/-- Sets with the same elements list them in two orders. -/
theorem elements_perm (h : ∀ k, k ∈ s.elements ↔ k ∈ t.elements) :
    s.elements.Perm t.elements :=
  (perm_ext_iff_of_nodup s.nodup_elements t.nodup_elements).mpr h

theorem size_le (h : ∀ k, k ∈ s.elements → k ∈ t.elements) : s.size ≤ t.size := by
  rw [← length_elements, ← length_elements]
  exact (subperm_of_subset s.nodup_elements h).length_le

variable [DecidableEq κ]

def add (s : JsSet κ) (k : κ) : JsSet κ := JsMap.set s k ()

def has (s : JsSet κ) (k : κ) : Bool := (JsMap.get? s k).isSome

variable {k : κ}

theorem elements_add_mem (h : k ∈ s.elements) :
    (s.add k).elements = s.elements := (JsMap.keys_put k () s.entries).trans (if_pos h)

theorem elements_add_new (h : k ∉ s.elements) :
    (s.add k).elements = s.elements ++ [k] := (JsMap.keys_put k () s.entries).trans (if_neg h)

/-- `new Set(ks)`. -/
def ofList (ks : List κ) : JsSet κ := ks.foldl add JsMap.empty

theorem ofList_append (ks : List κ) (k : κ) : ofList (ks ++ [k]) = (ofList ks).add k := by
  rw [ofList, foldl_append]
  rfl

theorem has_iff : s.has k = true ↔ k ∈ s.elements := by
  rw [has, Option.isSome_iff_exists, elements, mem_map]
  simp only [JsMap.get?_eq_some]
  constructor
  · rintro ⟨v, hv⟩
    exact ⟨(k, v), hv, rfl⟩
  · rintro ⟨⟨j, v⟩, hv, rfl⟩
    exact ⟨v, hv⟩

variable {j : κ}

theorem mem_add : j ∈ (s.add k).elements ↔ j = k ∨ j ∈ s.elements := by
  rw [← has_iff, ← has_iff, has, has, add, JsMap.get?_set]
  by_cases hkey : k = j
  · simp [hkey]
  · have hne : ¬ j = k := fun h => hkey h.symm
    simp [hkey, hne]

variable {ks : List κ}

theorem mem_foldl_add :
    j ∈ (ks.foldl add s).elements ↔ j ∈ ks ∨ j ∈ s.elements := by
  induction ks generalizing s with
  | nil => simp
  | cons k ks ih =>
    rw [foldl_cons, ih, mem_add, mem_cons]
    tauto

theorem mem_ofList : j ∈ (ofList ks).elements ↔ j ∈ ks := by
  rw [ofList, mem_foldl_add]
  simp [elements, JsMap.empty]

end JsSet
