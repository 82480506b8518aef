import HawkView.Lib.DistinctKeys

/-!
# Tables with constraints

A table is a list of rows that satisfies its row checks and its unique indexes,
and the two statements on it fail when their result would not. An update is a
`WHERE` predicate with a `SET` function and reports how many rows it touched.
-/

namespace Sql

open List Option

universe u v

/-- The row check of a table and the pairs of rows its unique indexes refuse. -/
structure Schema (Row : Type u) where
  check : Row → Bool
  clash : Row → Row → Bool

variable {Row : Type u}

structure Table (S : Schema Row) where
  rows : List Row
  checked : ∀ r ∈ rows, S.check r = true
  distinct : rows.Pairwise fun a b => S.clash a b = false

structure Update (Row : Type u) where
  applies : Row → Bool
  set : Row → Row

def Update.on (u : Update Row) (r : Row) : Row := if u.applies r then u.set r else r

variable {u : Update Row} {r : Row}

theorem Update.on_pos (h : u.applies r = true) : u.on r = u.set r :=
  if_pos h

theorem Update.on_neg (h : ¬ u.applies r = true) : u.on r = r :=
  if_neg h

/-- What holds of a row before and after the `SET` holds after the update. -/
theorem Update.on_cases {P : Row → Prop} (hit : u.applies r = true → P (u.set r)) (miss : P r) :
    P (u.on r) := by
  by_cases h : u.applies r = true
  · rw [on_pos h]
    exact hit h
  · rw [on_neg h]
    exact miss

/-- A unique index on `key` is part of the schema. -/
def Keyed {Key : Type v} (S : Schema Row) (key : Row → Key) : Prop :=
  ∀ a b, key a = key b → S.clash a b = true

def Update.KeepsKey {Key : Type v} (u : Update Row) (key : Row → Key) : Prop :=
  ∀ r, key (u.set r) = key r

/-- The update names its row by key. -/
def Update.AtKey {Key : Type v} (u : Update Row) (key : Row → Key) (k : Key) : Prop :=
  ∀ r, u.applies r = true → key r = k

namespace Table

variable {S : Schema Row}

def empty : Table S := ⟨[], by simp, by simp⟩

/-- The rows as a table, unless a constraint refuses them. -/
def ofRows (rows : List Row) : Option (Table S) :=
  if h : (∀ r ∈ rows, S.check r = true) ∧ rows.Pairwise fun a b => S.clash a b = false then
    some ⟨rows, h.1, h.2⟩
  else none

/-- `UPDATE … SET … WHERE …`: the table after it and the number of rows it updated. -/
def update (t : Table S) (u : Update Row) : Option (Table S × Nat) :=
  (ofRows (t.rows.map u.on)).map fun t' => (t', t.rows.countP u.applies)

/-- An update whose caller throws unless it hit exactly one row. -/
def updateOne (t : Table S) (u : Update Row) : Option (Table S) :=
  (t.update u).bind fun (t', n) => if n = 1 then some t' else none

/-- `INSERT`, refused by a check or by any unique index. -/
def insert (t : Table S) (r : Row) : Option (Table S) := ofRows (t.rows ++ [r])

/-- `INSERT … ON CONFLICT (key) DO NOTHING`. -/
def insertNew {Key : Type v} [DecidableEq Key] (t : Table S) (key : Row → Key) (r : Row) :
    Option (Table S) :=
  if t.rows.any (key · == key r) then some t else t.insert r

def find {Key : Type v} [DecidableEq Key] (t : Table S) (key : Row → Key) (k : Key) :
    Option Row :=
  t.rows.find? fun r => key r == k

section Rules

variable {t t' : Table S} {r : Row} {u : Update Row} {n : Nat}

variable {rows : List Row}

theorem ofRows_rows (h : ofRows rows = some t) : t.rows = rows := by
  simp only [ofRows] at h
  split at h
  · cases h
    rfl
  · cases h

theorem update_rows (h : t.update u = some (t', n)) : t'.rows = t.rows.map u.on := by
  simp only [update, map_eq_some_iff, Prod.mk.injEq] at h
  obtain ⟨s, hs, rfl, _⟩ := h
  exact ofRows_rows hs

theorem update_count (h : t.update u = some (t', n)) : n = t.rows.countP u.applies := by
  simp only [update, map_eq_some_iff, Prod.mk.injEq] at h
  obtain ⟨_, _, _, hn⟩ := h
  exact hn.symm

theorem insert_rows (h : t.insert r = some t') : t'.rows = t.rows ++ [r] := ofRows_rows h

variable {Key : Type v} [DecidableEq Key] {key : Row → Key} {k : Key}

theorem find_key (h : t.find key k = some r) : key r = k := DistinctKeys.find_key h

theorem find_mem (h : t.find key k = some r) : r ∈ t.rows := mem_of_find?_eq_some h

theorem find_check (h : t.find key k = some r) : S.check r = true :=
  t.checked r (find_mem h)

omit [DecidableEq Key] in
theorem keys_distinct (keyed : Keyed S key)
    (distinct : rows.Pairwise fun a b => S.clash a b = false) : (rows.map key).Nodup := by
  rw [Nodup, pairwise_map]
  refine distinct.imp fun {a b} hclash hkey => ?_
  rw [keyed a b hkey] at hclash
  cases hclash

theorem find_of_mem (keyed : Keyed S key) (h : r ∈ t.rows) : t.find key (key r) = some r :=
  (DistinctKeys.find_some (keys_distinct keyed t.distinct)).mpr ⟨h, rfl⟩

theorem find_isSome : (t.find key k).isSome ↔ ∃ r ∈ t.rows, key r = k := by
  simp [find, find?_isSome]

/-- An update that keeps the keys acts on the row of every key separately. -/
theorem find_update (keeps : u.KeepsKey key) (h : t.update u = some (t', n)) :
    t'.find key k = (t.find key k).map u.on := by
  rw [find, find, update_rows h, find?_map]
  congr 2
  funext r
  have hkey : key (u.on r) = key r :=
    Update.on_cases (P := fun s => key s = key r) (fun _ => keeps r) rfl
  simp [hkey]

theorem find_insert (h : t.insert r = some t') :
    t'.find key k = (t.find key k).or (if key r = k then some r else none) := by
  rw [find, find, insert_rows h, find?_append]
  congr 1
  by_cases hk : key r = k <;> simp [hk]

/-- What several rows that are inserted at once add to a key. -/
theorem find_append {more : List Row} (h : ofRows (t.rows ++ more) = some t') :
    t'.find key k = (t.find key k).or (more.find? fun r => key r == k) := by
  rw [find, find, ofRows_rows h, find?_append]

/-- An insert succeeds only for a key that is not there. -/
theorem insert_fresh (keyed : Keyed S key) (h : t.insert r = some t') :
    t.find key (key r) = none := by
  have hdistinct := t'.distinct
  rw [insert_rows h, pairwise_append] at hdistinct
  cases hfind : t.find key (key r) with
  | none => rfl
  | some a =>
    have hclash := hdistinct.2.2 a (find_mem hfind) r (by simp)
    rw [keyed a r (find_key hfind)] at hclash
    cases hclash

/-- An insert that yields on a conflict leaves the rows that are there alone. -/
theorem find_insertNew (h : t.insertNew key r = some t') :
    t'.find key k = (t.find key k).or (if key r = k then some r else none) := by
  simp only [insertNew] at h
  split at h
  · next hany =>
    cases h
    by_cases hk : key r = k
    · obtain ⟨a, ha, hak⟩ := List.any_eq_true.mp hany
      cases hf : t.find key k with
      | some b => rfl
      | none => exact absurd ((beq_iff_eq.mp hak).trans hk) (DistinctKeys.find_none.mp hf a ha)
    · simp [hk]
  · exact find_insert h

/-- An insert that also yields to a key that is taken elsewhere. -/
theorem find_unless (key : Row → Key) (r : Row) (allowed : Key → Bool)
    (h : allowed (key r) = false ∧ t' = t ∨ allowed (key r) = true ∧ t.insertNew key r = some t') :
    t'.find key k = (t.find key k).or (if allowed k ∧ key r = k then some r else none) := by
  rcases h with ⟨htaken, rfl⟩ | ⟨hfree, hinsert⟩
  · by_cases hk : key r = k
    · simp [← hk, htaken]
    · simp [hk]
  · rw [find_insertNew hinsert]
    by_cases hk : key r = k
    · simp [← hk, hfree]
    · simp [hk]

/-- Where a unique index is the only constraint, an insert that yields always succeeds. -/
theorem insertNew_total (only : ∀ a b, S.clash a b = true → key a = key b)
    (check : S.check r = true) : ∃ t', t.insertNew key r = some t' := by
  simp only [insertNew]
  split
  · exact ⟨t, rfl⟩
  · next hany =>
    simp only [Bool.not_eq_true, List.any_eq_false, beq_iff_eq] at hany
    have hchecked : ∀ a ∈ t.rows ++ [r], S.check a = true := by
      intro a ha
      obtain ha | ha := mem_append.mp ha
      · exact t.checked a ha
      · rw [mem_singleton.mp ha, check]
    have hdistinct : (t.rows ++ [r]).Pairwise fun a b => S.clash a b = false := by
      rw [pairwise_append]
      refine ⟨t.distinct, pairwise_singleton _ _, ?_⟩
      intro a ha b hb
      rw [mem_singleton.mp hb, ← Bool.not_eq_true]
      exact fun hclash => hany a ha (only a r hclash)
    exact ⟨_, by rw [insert, ofRows, dif_pos ⟨hchecked, hdistinct⟩]⟩

/-- A counted row is the row of the key that the update names. -/
theorem update_hit (keyed : Keyed S key) (atKey : u.AtKey key k)
    (h : t.update u = some (t', n)) (hn : n ≠ 0) :
    ∃ r, t.find key k = some r ∧ u.applies r = true := by
  rw [update_count h] at hn
  obtain ⟨r, hr, happlies⟩ := List.countP_pos_iff.mp (Nat.pos_of_ne_zero hn)
  refine ⟨r, ?_, happlies⟩
  rw [← atKey r happlies]
  exact find_of_mem keyed hr

theorem updateOne_update (h : t.updateOne u = some t') : t.update u = some (t', 1) := by
  simp only [updateOne, bind_eq_some_iff] at h
  obtain ⟨⟨s, n⟩, hupdate, hone⟩ := h
  split at hone
  · next hn =>
    cases hone
    cases hn
    exact hupdate
  · cases hone

theorem find_check_update (h : t.update u = some (t', n)) (hr : r ∈ t.rows) :
    S.check (u.on r) = true := by
  apply t'.checked
  rw [update_rows h]
  exact mem_map_of_mem hr

end Rules

end Table

section Bulk

variable {T W F Key R : Type} [DecidableEq Key]

variable {ins : T → W → Option T}

/-- Statements that add one keyed row each, and nothing else, add the first row of every
key that is not there. What else they read is in the frame, which they leave alone. -/
theorem foldlM_view (frame : T → F) (view : T → Key → Option R) (allowed : F → Key → Bool)
    {key : W → Key} {row : W → R}
    (one : ∀ t w t', ins t w = some t' → frame t' = frame t ∧ ∀ k,
      view t' k = (view t k).or (if allowed (frame t) k ∧ key w = k then some (row w) else none))
    {ws : List W} {t t' : T} (h : ws.foldlM ins t = some t') :
    frame t' = frame t ∧ ∀ k, view t' k =
      (view t k).or (if allowed (frame t) k then (ws.find? (key · = k)).map row else none) := by
  induction ws generalizing t with
  | nil =>
    cases h
    refine ⟨rfl, fun k => ?_⟩
    simp
  | cons w ws ih =>
    simp only [foldlM_cons, bind_eq_bind, bind_eq_some_iff] at h
    obtain ⟨s, hs, hrest⟩ := h
    obtain ⟨hframe, hview⟩ := one t w s hs
    obtain ⟨hframe', hview'⟩ := ih hrest
    refine ⟨hframe'.trans hframe, fun k => ?_⟩
    rw [hview' k, hview k, hframe, Option.or_assoc, find?_cons]
    by_cases hallowed : allowed (frame t) k = true
    · by_cases hkey : key w = k <;> simp [hallowed, hkey]
    · simp [hallowed]

theorem foldlM_total (one : ∀ t w, ∃ t', ins t w = some t') (ws : List W) (t : T) :
    ∃ t', ws.foldlM ins t = some t' := by
  induction ws generalizing t with
  | nil => exact ⟨t, rfl⟩
  | cons w ws ih =>
    obtain ⟨s, hs⟩ := one t w
    obtain ⟨t', ht'⟩ := ih s
    exact ⟨t', by simp [hs, ht']⟩

end Bulk

end Sql
