import HawkView.Lib.JsMap
import HawkView.Lib.Json
import HawkView.Lib.StableOrder
import Mathlib.Data.FinEnum

/-!
# Rewriting the objects of a JSON value

A rewriting treats the entries of every object of a value. One that only leaves
names out keeps what stands at every path without them; one that puts entries
in an order of their own gives alike values one form.
-/

namespace Json

open List Option

abbrev Entries := List (JsString × Json)

mutual

/-- Applies `f` to the entries of every object, the inner objects first. -/
def rewrite (f : Entries → Entries) : Json → Json
  | .null => .null
  | .bool b => .bool b
  | .number n => .number n
  | .string s => .string s
  | .array items => .array (rewriteItems f items)
  | .object entries => .object (f (rewriteEntries f entries))

def rewriteItems (f : Entries → Entries) : List Json → List Json
  | [] => []
  | v :: rest => rewrite f v :: rewriteItems f rest

def rewriteEntries (f : Entries → Entries) : Entries → Entries
  | [] => []
  | (name, v) :: rest => (name, rewrite f v) :: rewriteEntries f rest

end

variable (f : Entries → Entries)

theorem rewriteItems_eq (items : List Json) :
    rewriteItems f items = items.map (rewrite f) := by
  induction items with
  | nil => rfl
  | cons v items ih => rw [rewriteItems, ih, map_cons]

theorem rewriteEntries_eq (entries : Entries) :
    rewriteEntries f entries = entries.map fun e => (e.1, rewrite f e.2) := by
  induction entries with
  | nil => rfl
  | cons e entries ih => rw [rewriteEntries, ih, map_cons]

theorem shape_rewrite (v : Json) : (rewrite f v).shape = v.shape := by
  cases v <;> rfl

/-- `f` leaves out the entries whose names are not kept, and moves the others. -/
structure Keeping (f : Entries → Entries) (keep : JsString → Bool) : Prop where
  perm : ∀ entries, (f entries).Perm (entries.filter fun e => keep e.1)

section Keeping

variable {f : Entries → Entries} {keep : JsString → Bool}

variable {entries : Entries}

theorem Keeping.names_nodup (h : Keeping f keep) (distinct : (names entries).Nodup) :
    (names (f entries)).Nodup := by
  have hfilter : (names (entries.filter fun e => keep e.1)).Nodup :=
    distinct.sublist (filter_sublist.map Prod.fst)
  exact ((h.perm entries).map Prod.fst).nodup_iff.mpr hfilter

theorem Keeping.lookup (h : Keeping f keep) (distinct : (names entries).Nodup) (name : JsString) :
    (f entries).lookup name = if keep name then entries.lookup name else none := by
  rw [lookup_perm (h.perm entries) (h.names_nodup distinct), lookup_filter]

def Step.kept (keep : JsString → Bool) : Step → Bool
  | .key name => keep name
  | .index _ => true

variable {v : Json}

theorem Keeping.child (h : Keeping f keep) (hv : WellFormed v) (step : Step) :
    child (rewrite f v) step =
      if step.kept keep then (child v step).map (rewrite f) else none := by
  cases hv with
  | array inner =>
    cases step with
    | index i => simp [rewrite, rewriteItems_eq, Json.child, Step.kept]
    | key name => simp [rewrite, Json.child]
  | object inner distinct =>
    cases step with
    | index i => simp [rewrite, Json.child, Step.kept]
    | key name =>
      have distinct' := names_map (rewrite f) _ ▸ distinct
      rw [rewrite, rewriteEntries_eq, Json.child, h.lookup distinct',
        lookup_mapWith fun _ => rewrite f]
      rfl
  | _ => cases step <;> simp [rewrite, Json.child]

theorem WellFormed.child {w : Json} (hv : WellFormed v) {step : Step}
    (hw : Json.child v step = some w) : WellFormed w := by
  cases hv with
  | array inner =>
    cases step with
    | index i => exact inner w (mem_of_getElem? hw)
    | key name => cases hw
  | object inner distinct =>
    cases step with
    | index i => cases hw
    | key name => exact inner _ (lookup_mem hw)
  | _ => cases hw

/-- What stands at a path is kept when every name on the path is. -/
theorem Keeping.shapeAt (h : Keeping f keep) (hv : WellFormed v) (path : List Step) :
    shapeAt (rewrite f v) path =
      if path.all (Step.kept keep) then shapeAt v path else none := by
  induction path generalizing v with
  | nil => simp [Json.shapeAt, shape_rewrite]
  | cons step path ih =>
    rw [Json.shapeAt, h.child hv, Json.shapeAt, all_cons]
    cases hchild : Json.child v step with
    | none => simp
    | some w =>
      by_cases hstep : step.kept keep
      · simp [hstep, ih (hv.child hchild)]
      · simp [hstep]

theorem Keeping.wellFormed (h : Keeping f keep) (hv : WellFormed v) :
    WellFormed (rewrite f v) := by
  induction v using induct with
  | null => exact .null
  | bool b => exact .bool b
  | number n => exact .number n
  | string s => exact .string s
  | array items ih =>
    cases hv with
    | array inner =>
      rw [rewrite, rewriteItems_eq]
      constructor
      intro w hw
      obtain ⟨v, hmem, rfl⟩ := mem_map.mp hw
      exact ih v hmem (inner v hmem)
  | object entries ih =>
    cases hv with
    | object inner distinct =>
      rw [rewrite, rewriteEntries_eq]
      constructor
      · intro e he
        have hfilter := (mem_filter.mp ((h.perm _).mem_iff.mp he)).1
        obtain ⟨e, hmem, rfl⟩ := mem_map.mp hfilter
        exact ih e hmem (inner e hmem)
      · exact h.names_nodup (names_map (rewrite f) entries ▸ distinct)

end Keeping

/-! ## One form for alike values -/

variable {entries others : Entries}

theorem map_perm (g : JsString → Json → Json) (distinct : (names entries).Nodup)
    (distinct' : (names others).Nodup)
    (h : ∀ name, (entries.lookup name).map (g name) = (others.lookup name).map (g name)) :
    (entries.map fun e => (e.1, g e.1 e.2)).Perm (others.map fun e => (e.1, g e.1 e.2)) := by
  have hdistinct := names_mapWith g entries ▸ distinct
  have hdistinct' := names_mapWith g others ▸ distinct'
  rw [perm_ext_iff_of_nodup (nodup_of_names hdistinct) (nodup_of_names hdistinct')]
  rintro ⟨name, v⟩
  rw [← lookup_iff hdistinct, ← lookup_iff hdistinct', lookup_mapWith, lookup_mapWith, h]

variable {v : Json}

theorem Alike.map_items {β : Type} {f : Json → β} {items others : List Json}
    (h : Alike (.array items) (.array others))
    (inner : ∀ x ∈ items, ∀ y ∈ others, Alike x y → f x = f y) :
    items.map f = others.map f := by
  apply ext_getElem?
  intro i
  rw [getElem?_map, getElem?_map]
  rcases h.children (.index i) with ⟨hx, hy⟩ | ⟨x, y, hx, hy, hsame⟩
  · rw [show items[i]? = none from hx, show others[i]? = none from hy]
  · rw [show items[i]? = some x from hx, show others[i]? = some y from hy, map_some,
      map_some, inner x (mem_of_getElem? hx) y (mem_of_getElem? hy) hsame]

/-- A rewriting that does not depend on the order of entries does not tell alike values apart. -/
theorem rewrite_alike {f : Entries → Entries}
    (hf : ∀ entries others : Entries, (names entries).Nodup → entries.Perm others →
      f entries = f others)
    {w : Json} (hv : WellFormed v) (hw : WellFormed w) (h : Alike v w) :
    rewrite f v = rewrite f w := by
  induction v using induct generalizing w with
  | null => cases w <;> first | rfl | cases h.shape
  | bool b => cases w <;> cases h.shape; rfl
  | number n => cases w <;> cases h.shape; rfl
  | string s => cases w <;> cases h.shape; rfl
  | array items ih =>
    cases hw with
    | array inner' =>
      rename_i others
      cases hv with
      | array inner =>
        rw [rewrite, rewrite, rewriteItems_eq, rewriteItems_eq]
        exact congrArg Json.array (h.map_items fun x hx y hy =>
          ih x hx (inner x hx) (inner' y hy))
    | _ => cases h.shape
  | object entries ih =>
    cases hw with
    | object inner' distinct' =>
      rename_i others
      cases hv with
      | object inner distinct =>
        rw [rewrite, rewrite, rewriteEntries_eq, rewriteEntries_eq]
        congr 1
        apply hf _ _ (names_map (rewrite f) entries ▸ distinct)
        apply map_perm (fun _ => rewrite f) distinct distinct'
        intro name
        rcases h.children (.key name) with ⟨hx, hy⟩ | ⟨x, y, hx, hy, hsame⟩
        · rw [show entries.lookup name = none from hx, show others.lookup name = none from hy]
        · have hmem := lookup_mem hx
          rw [show entries.lookup name = some x from hx, show others.lookup name = some y from hy,
            map_some, map_some,
            ih _ hmem (inner _ hmem) (inner' _ (lookup_mem hy)) hsame]
    | _ => cases h.shape

/-! ## The order of names -/

def ByName (a b : JsString × Json) : Prop := a.1 ≤ b.1

instance : DecidableRel ByName := fun a b => inferInstanceAs (Decidable (a.1 ≤ b.1))

instance : Std.Total ByName := ⟨fun a b => List.le_total a.1 b.1⟩

instance : IsTrans (JsString × Json) ByName := ⟨fun _ _ _ => List.le_trans⟩

/-- The number that a name spells when it is an array index. -/
def indexOf (name : JsString) : Option Nat :=
  let value := name.foldl (fun n c => n * 10 + (c.toNat - 0x30)) 0
  if name ≠ [] ∧ (∀ c ∈ name, 0x30 ≤ c ∧ c ≤ 0x39) ∧ (name = [0x30] ∨ name.head? ≠ some 0x30) ∧
      value < 4294967295 then some value
  else none

/-- How an object enumerates entries that it was assigned in the given order:
array indices first, by number. -/
def enumerated (entries : Entries) : Entries :=
  (entries.filter fun e => (indexOf e.1).isSome).insertionSort
      (fun a b => (indexOf a.1).getD 0 ≤ (indexOf b.1).getD 0) ++
    entries.filter fun e => !(indexOf e.1).isSome

/-- The entries assigned in the order of their names. -/
def sortedEntries (entries : Entries) : Entries := enumerated (entries.insertionSort ByName)

theorem enumerated_perm (entries : Entries) : (enumerated entries).Perm entries :=
  ((perm_insertionSort _ _).append_right _).trans (filter_append_perm _ _)

theorem sortedEntries_keeping : Keeping sortedEntries fun _ => true where
  perm entries := by
    rw [filter_eq_self.mpr (fun _ _ => rfl)]
    exact (enumerated_perm _).trans (perm_insertionSort _ _)

theorem shapeAt_sortedEntries (hv : WellFormed v) (path : List Step) :
    shapeAt (rewrite sortedEntries v) path = shapeAt v path := by
  rw [sortedEntries_keeping.shapeAt hv, if_pos]
  rw [List.all_eq_true]
  intro step _
  cases step <;> rfl

/-- Entries with distinct names have one order by name. -/
theorem insertionSort_perm (distinct : (names entries).Nodup) (h : entries.Perm others) :
    entries.insertionSort ByName = others.insertionSort ByName :=
  StableOrder.insertionSort_perm h fun _ ha _ hb hab hba =>
    inj_on_of_nodup_map distinct ha hb (List.le_antisymm hab hba)

theorem sortedEntries_perm (distinct : (names entries).Nodup) (h : entries.Perm others) :
    sortedEntries entries = sortedEntries others := by
  rw [sortedEntries, sortedEntries, insertionSort_perm distinct h]

/-! ## Assigning a name -/

theorem lookup_put (name other : JsString) (v : Json) (entries : Entries) :
    (JsMap.put name v entries).lookup other =
      if name = other then some v else entries.lookup other := by
  induction entries with
  | nil =>
    by_cases h : name = other
    · rw [JsMap.put, if_pos h, h, lookup_cons_self]
    · rw [JsMap.put, if_neg h, lookup_ne (Ne.symm h)]
  | cons e entries ih =>
    obtain ⟨n, w⟩ := e
    rw [JsMap.put]
    by_cases hn : n = name
    · subst hn
      by_cases h : n = other
      · rw [if_pos rfl, if_pos h, h, lookup_cons_self]
      · rw [if_pos rfl, if_neg h, lookup_ne (Ne.symm h), lookup_ne (Ne.symm h)]
    · rw [if_neg hn]
      by_cases h : n = other
      · have hne : name ≠ other := fun heq => hn (h.trans heq.symm)
        rw [if_neg hne, h, lookup_cons_self, lookup_cons_self]
      · rw [lookup_ne (Ne.symm h), lookup_ne (Ne.symm h), ih]

theorem mem_put {name : JsString} {e : JsString × Json} (h : e ∈ JsMap.put name v entries) :
    e = (name, v) ∨ e ∈ entries := by
  induction entries with
  | nil => exact .inl (mem_singleton.mp h)
  | cons o entries ih =>
    rw [JsMap.put] at h
    split at h
    · rcases mem_cons.mp h with rfl | h
      · exact .inl rfl
      · exact .inr (mem_cons_of_mem _ h)
    · rcases mem_cons.mp h with rfl | h
      · exact .inr mem_cons_self
      · exact (ih h).imp_right (mem_cons_of_mem _)

end Json
