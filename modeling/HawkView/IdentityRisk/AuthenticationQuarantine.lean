import HawkView.IdentityRisk.AuthenticationIngestion

/-!
# The quarantine of contradicted sign-ins

The stored row of a sign-in is its first version, marked when the versions that
were committed contradict one another. Which sign-ins are marked is a property of
the committed records and not of their order.
-/

namespace AuthenticationIntegrity

open Json List Option

variable {ρ : Type} {env : Environment} {scope : Scope}

/-! ## Versions of a sign-in -/

/-- The committed versions of a sign-in, the first one first. -/
def versions (id : JsString) (log : List (SignInRow ρ)) : List (SignInRow ρ) :=
  log.filter fun r => r.microsoftSignInId = id

/-- One version has no fingerprint, one arrived marked, or two have different fingerprints. -/
def Conflict (env : Environment) (vs : List (SignInRow ρ)) : Prop :=
  (∃ v ∈ vs, env.fingerprint v.raw = none) ∨ (∃ v ∈ vs, marked v.raw = true) ∨
    ∃ v ∈ vs, ∃ w ∈ vs, env.fingerprint v.raw ≠ env.fingerprint w.raw

/-- A version that is in conflict by itself or with the first one. -/
def Suspect (env : Environment) (first v : SignInRow ρ) : Prop :=
  env.fingerprint v.raw = none ∨ marked v.raw = true ∨
    env.fingerprint first.raw ≠ env.fingerprint v.raw

variable {first : SignInRow ρ} {rest : List (SignInRow ρ)}

theorem conflict_iff :
    Conflict env (first :: rest) ↔ ∃ v ∈ first :: rest, Suspect env first v := by
  constructor
  · rintro (⟨v, hv, hnone⟩ | ⟨v, hv, hmarked⟩ | ⟨v, hv, w, hw, hne⟩)
    · exact ⟨v, hv, .inl hnone⟩
    · exact ⟨v, hv, .inr (.inl hmarked)⟩
    · by_cases hfirst : env.fingerprint first.raw = env.fingerprint v.raw
      · exact ⟨w, hw, .inr (.inr fun heq => hne (hfirst.symm.trans heq))⟩
      · exact ⟨v, hv, .inr (.inr hfirst)⟩
  · rintro ⟨v, hv, hnone | hmarked | hne⟩
    · exact .inl ⟨v, hv, hnone⟩
    · exact .inr (.inl ⟨v, hv, hmarked⟩)
    · exact .inr (.inr ⟨first, mem_cons_self, v, hv, hne⟩)

variable {vs ws : List (SignInRow ρ)}

theorem conflict_mono (h : Conflict env vs) (sub : ∀ v ∈ vs, v ∈ ws) : Conflict env ws := by
  rcases h with ⟨v, hv, hnone⟩ | ⟨v, hv, hmarked⟩ | ⟨v, hv, w, hw, hne⟩
  · exact .inl ⟨v, sub v hv, hnone⟩
  · exact .inr (.inl ⟨v, sub v hv, hmarked⟩)
  · exact .inr (.inr ⟨v, sub v hv, w, sub w hw, hne⟩)

theorem conflict_perm (h : vs.Perm ws) :
    Conflict env vs ↔ Conflict env ws :=
  ⟨fun hc => conflict_mono hc fun _ => h.mem_iff.mp,
    fun hc => conflict_mono hc fun _ => h.mem_iff.mpr⟩

/-- More versions are in conflict if some of them are, or the first ones differ. -/
theorem conflict_append {v w : SignInRow ρ} :
    Conflict env (v :: vs ++ w :: ws) ↔ Conflict env (v :: vs) ∨ Conflict env (w :: ws) ∨
      env.fingerprint v.raw ≠ env.fingerprint w.raw := by
  constructor
  · intro h
    by_cases hsame : env.fingerprint v.raw = env.fingerprint w.raw
    · rw [cons_append, conflict_iff] at h
      obtain ⟨u, hu, hsuspect⟩ := h
      rw [← cons_append, mem_append] at hu
      rcases hu with hu | hu
      · exact .inl (conflict_iff.mpr ⟨u, hu, hsuspect⟩)
      · refine .inr (.inl (conflict_iff.mpr ⟨u, hu, ?_⟩))
        rwa [Suspect, ← hsame]
    · exact .inr (.inr hsame)
  · rintro (h | h | hne)
    · exact conflict_mono h fun _ => mem_append_left _
    · exact conflict_mono h fun _ => mem_append_right _
    · exact .inr (.inr ⟨v, by simp, w, by simp, hne⟩)

theorem versions_append (id : JsString) (log more : List (SignInRow ρ)) :
    versions id (log ++ more) = versions id log ++ versions id more := filter_append _ _

variable {id : JsString} {r : SignInRow ρ}

theorem versions_id {log : List (SignInRow ρ)} (h : r ∈ versions id log) :
    r.microsoftSignInId = id := by
  simpa using (mem_filter.mp h).2

/-! ## The map of a chunk -/

/-- The entry of a sign-in stands for the versions of it in the chunk. -/
def Stands (env : Environment) : List (SignInRow ρ) → Option (Pending ρ) → Prop
  | [], p => p = none
  | first :: rest, p => ∃ q, p = some q ∧ q.row = first ∧
      q.fingerprint = env.fingerprint first.raw ∧
      (q.because.isSome = true ↔ Conflict env (first :: rest))

theorem ownConflict_isSome : (ownConflict env r.raw).isSome = true ↔
    env.fingerprint r.raw = none ∨ marked r.raw = true := by
  unfold ownConflict
  split
  · simp [*]
  · split <;> simp [*]

variable {p : Pending ρ} {because : Option IntegrityConflictOrigin}

theorem join_because {fingerprint : Option JsString} :
    (p.join fingerprint because).because.isSome = true ↔
      p.because.isSome = true ∨ because.isSome = true ∨ p.fingerprint ≠ fingerprint := by
  by_cases h : p.fingerprint = fingerprint <;> simp [Pending.join, h, isSome_or]

theorem stands_first :
    Stands env [r] (some ⟨r, env.fingerprint r.raw, ownConflict env r.raw⟩) := by
  refine ⟨_, rfl, rfl, rfl, ?_⟩
  rw [ownConflict_isSome, conflict_iff]
  simp [Suspect]

theorem stands_join (h : Stands env (first :: rest) (some p)) :
    Stands env (first :: rest ++ [r])
      (some (p.join (env.fingerprint r.raw) (ownConflict env r.raw))) := by
  obtain ⟨q, hq, hrow, hfingerprint, hbecause⟩ := h
  cases hq
  refine ⟨_, rfl, hrow, hfingerprint, ?_⟩
  have hlast : Conflict env [r] ↔ env.fingerprint r.raw = none ∨ marked r.raw = true := by
    rw [conflict_iff]
    simp [Suspect]
  rw [join_because, hbecause, ownConflict_isSome, ← hlast, hfingerprint]
  exact conflict_append.symm

/-- The map of a chunk, with every record of the chunk in the scope. -/
structure Mapped (env : Environment) (scope : Scope) (chunk : List (SignInRow ρ))
    (unique : JsMap JsString (Pending ρ)) : Prop where
  inScope : ∀ r ∈ chunk, r.toScope = scope
  object : ∀ r ∈ chunk, plain r.raw = true
  stands : ∀ id, Stands env (versions id chunk) (unique.get? id)

variable {unique : JsMap JsString (Pending ρ)}

theorem get_addPending {row : SignInRow ρ} {fingerprint : Option JsString} :
    (addPending unique row fingerprint because).get? id =
      if row.microsoftSignInId = id then
        match unique.get? id with
        | some old => some (old.join fingerprint because)
        | none => some ⟨row, fingerprint, because⟩
      else unique.get? id := by
  unfold addPending
  by_cases hid : row.microsoftSignInId = id
  · subst hid
    cases hget : unique.get? row.microsoftSignInId <;> simp [JsMap.get?_set]
  · cases hget : unique.get? row.microsoftSignInId <;> simp [JsMap.get?_set, hid]

variable {chunk : List (SignInRow ρ)} {c : Collected ρ}

theorem mapped_collect {c' : Collected ρ} (h : Mapped env scope chunk c.unique)
    (hcollect : collect env scope c r = some c') :
    Mapped env scope (chunk ++ [r]) c'.unique := by
  unfold collect at hcollect
  split at hcollect
  · cases hcollect
  rename_i hvalid
  obtain ⟨value, _, hsize⟩ := bind_eq_some_iff.mp hcollect
  simp only at hsize
  split at hsize
  · cases hsize
  cases hsize
  simp only [not_or, not_not, Bool.not_eq_false] at hvalid
  constructor
  · exact forall_mem_append.mpr ⟨h.inScope, forall_mem_singleton.mpr hvalid.1⟩
  · exact forall_mem_append.mpr ⟨h.object, forall_mem_singleton.mpr hvalid.2.2.2⟩
  · intro id
    have hstands := h.stands id
    rw [versions_append, get_addPending]
    by_cases hid : r.microsoftSignInId = id
    · have hversions : versions id [r] = [r] := by simp [versions, hid]
      rw [if_pos hid, hversions]
      cases hold : versions id chunk with
      | nil =>
        rw [hold] at hstands
        rw [show c.unique.get? id = none from hstands]
        exact stands_first
      | cons first rest =>
        rw [hold] at hstands
        have ⟨q, hq, _⟩ := hstands
        rw [hq] at hstands ⊢
        exact stands_join hstands
    · have hversions : versions id [r] = [] := by simp [versions, hid]
      rw [if_neg hid, hversions, append_nil]
      exact hstands

theorem mapped_chunk (h : chunk.foldlM (collect env scope) ⟨0, JsMap.empty⟩ = some c) :
    Mapped env scope chunk c.unique := by
  apply Runs.foldlM_carries (P := fun chunk c => Mapped env scope chunk c.unique) _ _ h
  · exact ⟨nofun, nofun, fun _ => rfl⟩
  · intro chunk r c c' hmapped hcollect
    exact mapped_collect hmapped hcollect

/-! ## What the store keeps of a version -/

theorem marked_withMarker {raw marker : Json} (h : plain raw = true) :
    marked (withMarker raw marker) = true := by
  cases raw with
  | object entries =>
    rw [marked, withMarker, child, lookup_put, if_pos rfl]
    rfl
  | _ => cases h

theorem unmarked_withMarker (raw marker : Json) :
    Alike (deleteAt (withMarker raw marker) [MARKER]) (deleteAt raw [MARKER]) := by
  cases raw with
  | object entries =>
    rintro (_ | ⟨step, path⟩)
    · rfl
    · have hchild : ∀ es : Entries, child (deleteAt (.object es) [MARKER]) step =
          if step = .key MARKER then none else child (.object es) step := by
        intro es
        cases step with
        | index i => simp [deleteAt, child]
        | key name =>
          rw [child_delete_last]
          simp [child]
      rw [shapeAt, shapeAt, withMarker, hchild, hchild]
      split
      · rfl
      · rename_i hstep
        cases step with
        | index i => rfl
        | key name =>
          have hne : MARKER ≠ name := fun heq => hstep (heq ▸ rfl)
          rw [child, lookup_put, if_neg hne, child]
  | _ => exact fun _ => rfl

theorem marked_alike {v w : Json} (h : Alike v w) : marked v = marked w := by
  unfold marked
  rcases h.children (.key MARKER) with ⟨hx, hy⟩ | ⟨x, y, hx, hy, _⟩
  · rw [hx, hy]
  · rw [hx, hy]
    rfl

/-- A stored row is the version, apart from the marker. -/
structure Keeps (row version : SignInRow ρ) : Prop where
  place : row.toScope = version.toScope
  id : row.microsoftSignInId = version.microsoftSignInId
  columns : row.columns = version.columns
  raw : Alike (deleteAt row.raw [MARKER]) (deleteAt version.raw [MARKER])

theorem Keeps.trans {s t : SignInRow ρ} (h : Keeps r s) (h' : Keeps s t) : Keeps r t where
  place := h.place.trans h'.place
  id := h.id.trans h'.id
  columns := h.columns.trans h'.columns
  raw path := (h.raw path).trans (h'.raw path)

theorem keeps_stored (env : Environment) (r : SignInRow ρ) : Keeps (r.stored env) r where
  place := rfl
  id := rfl
  columns := rfl
  raw := (env.jsonb.alike r.wellFormed).deleteAt _ _

theorem keeps_mark (r : SignInRow ρ) (because : IntegrityConflictOrigin) (markedAt : Int) :
    Keeps (r.mark because markedAt) r where
  place := rfl
  id := rfl
  columns := rfl
  raw := unmarked_withMarker _ _

theorem marked_stored (r : SignInRow ρ) : marked (r.stored env).raw = marked r.raw :=
  marked_alike (env.jsonb.alike r.wellFormed)

theorem Keeps.fingerprint {s : SignInRow ρ} (h : Keeps r s) :
    env.fingerprint r.raw = env.fingerprint s.raw := by
  rw [Environment.fingerprint, Environment.fingerprint, ← fingerprint_unmarked _ r.raw,
    ← fingerprint_unmarked _ s.raw]
  exact fingerprint_alike _
    ⟨wellFormed_deleteAt r.wellFormed _, wellFormed_deleteAt s.wellFormed _, h.raw⟩

/-! ## The transaction of a chunk -/

/-- The row of a sign-in in the scope. -/
def rowOf (scope : Scope) (table : SignInLogs ρ) (id : JsString) : Option (SignInRow ρ) :=
  table.find SignInRow.key (scope.customerTenantId, id)

theorem signInSchema_keyed : Sql.Keyed (signInSchema ρ) SignInRow.key := by
  intro a b h
  rw [SignInRow.key, SignInRow.key, Prod.mk.injEq] at h
  simp [signInSchema, h.1, h.2]

variable {table : SignInLogs ρ}

theorem rowOf_id (h : rowOf scope table id = some r) : r.microsoftSignInId = id :=
  congrArg Prod.snd (Sql.Table.find_key h)

/-- The conflict that the chunk adds to a stored row, if the row is not marked. -/
def verdict (env : Environment) (p : Pending ρ) (old : SignInRow ρ) :
    Option IntegrityConflictOrigin :=
  if marked old.raw then none else p.against env old.raw

def settled (env : Environment) (markedAt : Int) (p : Pending ρ) (old : SignInRow ρ) :
    SignInRow ρ :=
  match verdict env p old with
  | some because => (old.mark because markedAt).stored env
  | none => old

variable {markedAt : Int}

theorem rowOf_markUpdate {table' : SignInLogs ρ} {other : JsString} {n : Nat}
    {because : IntegrityConflictOrigin}
    (h : table.update (markUpdate env scope id because markedAt) = some (table', n)) :
    rowOf scope table' other = (rowOf scope table other).map
      (markUpdate env scope id because markedAt).on :=
  Sql.Table.find_update (fun _ => rfl) h

variable {s' : Settling ρ} {old : SignInRow ρ}

/-- What settling one stored row does to the rows of the scope. -/
theorem settleStored_effect {s : Settling ρ} (hplace : old.toScope = scope)
    (hold : rowOf scope s.table old.microsoftSignInId = some old)
    (h : settleStored env scope unique markedAt s old = some s') :
    ∃ p, unique.get? old.microsoftSignInId = some p ∧ plain old.raw = true ∧
      s'.seen = s.seen.add old.microsoftSignInId ∧
      ∀ id, rowOf scope s'.table id =
        if old.microsoftSignInId = id then some (settled env markedAt p old)
        else rowOf scope s.table id := by
  unfold settleStored at h
  split at h
  · cases h
  rename_i p hp
  split at h
  · cases h
  rename_i hplain
  have hobject : plain old.raw = true := by simpa using hplain
  have hsame : ∀ id, verdict env p old = none → rowOf scope s.table id =
      if old.microsoftSignInId = id then some (settled env markedAt p old)
      else rowOf scope s.table id := by
    intro id hnone
    split
    · rename_i hid
      rw [← hid, hold, settled, hnone]
    · rfl
  simp only at h
  split at h
  · rename_i hmarked
    cases h
    exact ⟨p, hp, hobject, rfl, fun id => hsame id (if_pos hmarked)⟩
  rename_i hunmarked
  split at h
  · rename_i hnone
    cases h
    refine ⟨p, hp, hobject, rfl, fun id => hsame id ?_⟩
    rw [verdict, if_neg hunmarked, hnone]
  · rename_i because hbecause
    obtain ⟨⟨table, n⟩, hupdate, hs⟩ := map_eq_some_iff.mp h
    cases hs
    refine ⟨p, hp, hobject, rfl, fun id => ?_⟩
    rw [rowOf_markUpdate hupdate]
    split
    · rename_i hid
      have happlies : (markUpdate env scope old.microsoftSignInId because markedAt).applies old =
          true := by simp [markUpdate, hplace]
      rw [← hid, hold, map_some, Sql.Update.on_pos happlies, settled, verdict,
        if_neg hunmarked, hbecause]
      rfl
    · rename_i hid
      cases hrow : rowOf scope s.table id with
      | none => rfl
      | some r =>
        have hr := rowOf_id hrow
        rw [map_some, Sql.Update.on_neg]
        simp only [markUpdate, Bool.and_eq_true, beq_iff_eq, not_and]
        exact fun _ heq => hid (heq.symm.trans hr)

/-- What settling the stored rows of a chunk does to the rows of the scope. -/
theorem settle_rows {existing : List (SignInRow ρ)} {s : Settling ρ}
    (hplace : ∀ r ∈ existing, r.toScope = scope)
    (hheld : ∀ r ∈ existing, rowOf scope s.table r.microsoftSignInId = some r)
    (distinct : (existing.map (·.microsoftSignInId)).Nodup)
    (h : existing.foldlM (settleStored env scope unique markedAt) s = some s') :
    (∀ id, id ∈ s'.seen.elements ↔ id ∈ s.seen.elements ∨
      id ∈ existing.map (·.microsoftSignInId)) ∧
    (∀ id, id ∉ existing.map (·.microsoftSignInId) →
      rowOf scope s'.table id = rowOf scope s.table id) ∧
    ∀ old ∈ existing, ∃ p, unique.get? old.microsoftSignInId = some p ∧ plain old.raw = true ∧
      rowOf scope s'.table old.microsoftSignInId = some (settled env markedAt p old) := by
  induction existing generalizing s with
  | nil =>
    cases h
    exact ⟨by simp, fun _ _ => rfl, nofun⟩
  | cons old existing ih =>
    rw [foldlM_cons] at h
    obtain ⟨t, ht, hrest⟩ := bind_eq_some_iff.mp h
    obtain ⟨p, hp, hobject, hseen, hrows⟩ :=
      settleStored_effect (hplace old (by simp)) (hheld old (by simp)) ht
    rw [map_cons, nodup_cons] at distinct
    have hheld' : ∀ r ∈ existing, rowOf scope t.table r.microsoftSignInId = some r := by
      intro r hr
      have hne : old.microsoftSignInId ≠ r.microsoftSignInId := by
        intro heq
        apply distinct.1
        rw [heq]
        exact mem_map_of_mem hr
      rw [hrows, if_neg hne]
      exact hheld r (by simp [hr])
    obtain ⟨ihSeen, ihOther, ihOld⟩ := ih (fun r hr => hplace r (by simp [hr])) hheld'
      distinct.2 hrest
    refine ⟨fun id => ?_, fun id hid => ?_, ?_⟩
    · rw [ihSeen, hseen, JsSet.mem_add, map_cons, mem_cons]
      tauto
    · rw [map_cons, mem_cons, not_or] at hid
      rw [ihOther id hid.2, hrows, if_neg (Ne.symm hid.1)]
    · rw [forall_mem_cons]
      refine ⟨⟨p, hp, hobject, ?_⟩, ihOld⟩
      rw [ihOther _ distinct.1, hrows, if_pos rfl]

def InScope (scope : Scope) (table : SignInLogs ρ) : Prop := ∀ r ∈ table.rows, r.toScope = scope

theorem settleStored_inScope {s : Settling ρ} (hscope : InScope scope s.table)
    (h : settleStored env scope unique markedAt s old = some s') : InScope scope s'.table := by
  unfold settleStored at h
  split at h
  · cases h
  split at h
  · cases h
  simp only at h
  split at h
  · cases h
    exact hscope
  split at h
  · cases h
    exact hscope
  · obtain ⟨⟨table, n⟩, hupdate, hs⟩ := map_eq_some_iff.mp h
    cases hs
    intro r hr
    rw [Sql.Table.update_rows hupdate] at hr
    obtain ⟨r, hmem, rfl⟩ := List.mem_map.mp hr
    exact Sql.Update.on_cases (P := fun a : SignInRow ρ => a.toScope = scope) (fun _ => hscope r hmem)
      (hscope r hmem)

section Transaction

variable {ids : List JsString} {table : SignInLogs ρ}

variable {r : SignInRow ρ}

theorem mem_rowsOf (h : r ∈ rowsOf scope ids table) :
    r ∈ table.rows ∧ r.toScope = scope ∧ r.microsoftSignInId ∈ ids := by
  simpa [rowsOf] using h

theorem rowsOf_held (h : r ∈ rowsOf scope ids table) :
    rowOf scope table r.microsoftSignInId = some r := by
  obtain ⟨hmem, hplace, _⟩ := mem_rowsOf h
  have hfind := Sql.Table.find_of_mem signInSchema_keyed hmem
  rwa [SignInRow.key, hplace] at hfind

theorem rowsOf_distinct : ((rowsOf scope ids table).map (·.microsoftSignInId)).Nodup := by
  have hkeys := Sql.Table.keys_distinct signInSchema_keyed table.distinct
  have hsub := hkeys.sublist ((filter_sublist (l := table.rows) (p := fun r =>
    r.toScope == scope && ids.contains r.microsoftSignInId)).map SignInRow.key)
  have hmap : (rowsOf scope ids table).map SignInRow.key =
      ((rowsOf scope ids table).map (·.microsoftSignInId)).map fun id =>
        (scope.customerTenantId, id) := by
    rw [List.map_map]
    apply map_congr_left
    intro r hr
    rw [SignInRow.key, (mem_rowsOf hr).2.1]
    rfl
  apply List.Nodup.of_map fun id => (scope.customerTenantId, id)
  rw [← hmap]
  exact hsub

variable {id : JsString}

theorem rowOf_mem_rowsOf (hscope : InScope scope table) (h : rowOf scope table id = some r)
    (hid : id ∈ ids) : r ∈ rowsOf scope ids table := by
  have hmem : r ∈ table.rows := Sql.Table.find_mem h
  simp [rowsOf, hmem, hscope r hmem, rowOf_id h, hid]

variable {chunk : List (SignInRow ρ)} {unique : JsMap JsString (Pending ρ)}

/-- The entries of the map of a chunk are filed under their own sign-ins. -/
theorem Mapped.row (h : Mapped env scope chunk unique) {p : Pending ρ}
    (hp : unique.get? id = some p) :
    p.row.microsoftSignInId = id ∧ p.row.toScope = scope ∧ plain p.row.raw = true := by
  have hstands := h.stands id
  rw [hp] at hstands
  cases hversions : versions id chunk with
  | nil =>
    rw [hversions] at hstands
    cases hstands
  | cons first rest =>
    rw [hversions] at hstands
    obtain ⟨q, hq, hrow, _⟩ := hstands
    cases hq
    have hmem : first ∈ versions id chunk := by
      rw [hversions]
      exact mem_cons_self
    have hchunk := (mem_filter.mp hmem).1
    rw [hrow]
    exact ⟨versions_id hmem, h.inScope _ hchunk, h.object _ hchunk⟩

theorem data_keeps (p : Pending ρ) (markedAt : Int) : Keeps (p.data markedAt) p.row := by
  unfold Pending.data
  split
  · exact keeps_mark _ _ _
  · exact ⟨rfl, rfl, rfl, fun _ => rfl⟩

/-- The rows of a chunk that are inserted stand behind those that are there. -/
theorem insert_rows (scope : Scope) {data : List (SignInRow ρ)} {table' : SignInLogs ρ}
    (h : (if data.isEmpty then some table else createMany env table data) = some table') :
    table'.rows = table.rows ++ data.map (·.stored env) ∧ ∀ id, rowOf scope table' id =
      (rowOf scope table id).or ((data.map (·.stored env)).find?
        fun r => decide (r.key = (scope.customerTenantId, id))) := by
  split at h
  · rename_i hempty
    cases h
    rw [List.isEmpty_iff.mp hempty]
    simp
  · unfold createMany at h
    split at h
    · exact ⟨Sql.Table.ofRows_rows h, fun id => Sql.Table.find_append h⟩
    · cases h

variable {markedAt : Int}

/-- Among the inserted rows, a sign-in has the row of its entry. -/
theorem find_fresh {seen : JsSet JsString} (hmapped : Mapped env scope chunk unique)
    (hseen : id ∉ seen.elements) :
    ((((unique.values.filter fun p => !seen.has p.row.microsoftSignInId).map
      (Pending.data markedAt)).map (·.stored env)).find?
        fun r => decide (r.key = (scope.customerTenantId, id))) =
      (unique.get? id).map fun p => (p.data markedAt).stored env := by
  have hkey : ∀ q ∈ unique.values,
      (((q.data markedAt).stored env).key = (scope.customerTenantId, id) ↔
        unique.get? id = some q) := by
    intro q hq
    obtain ⟨⟨k, p⟩, hentry, rfl⟩ := List.mem_map.mp hq
    have hget := JsMap.get?_eq_some.mpr hentry
    obtain ⟨hid, hplace, _⟩ := hmapped.row hget
    have hkeeps := (keeps_stored env _).trans (data_keeps p markedAt)
    rw [SignInRow.key, hkeeps.place, hkeeps.id, hid, hplace, Prod.mk.injEq]
    constructor
    · rintro ⟨_, rfl⟩
      exact hget
    · intro hsame
      exact ⟨rfl, hid.symm.trans (hmapped.row hsame).1⟩
  cases hp : unique.get? id with
  | none =>
    rw [List.map_map, map_none, find?_eq_none]
    intro r hr
    obtain ⟨q, hq, rfl⟩ := List.mem_map.mp hr
    have hvalue := (mem_filter.mp hq).1
    rw [decide_eq_true_eq, Function.comp_apply, hkey q hvalue, hp]
    exact nofun
  | some p =>
    have hvalue : p ∈ unique.values :=
      List.mem_map.mpr ⟨(id, p), JsMap.get?_eq_some.mp hp, rfl⟩
    have hfresh : p ∈ unique.values.filter fun p => !seen.has p.row.microsoftSignInId := by
      rw [mem_filter, (hmapped.row hp).1]
      refine ⟨hvalue, ?_⟩
      rw [Bool.not_eq_true', ← Bool.not_eq_true, JsSet.has_iff]
      exact hseen
    rw [List.map_map, find?_map, DistinctKeys.find_only hfresh]
    · rfl
    · exact decide_eq_true ((hkey p hvalue).mpr hp)
    · intro q hq hhit
      have hsame := (hkey q (mem_filter.mp hq).1).mp (of_decide_eq_true hhit)
      rw [hp] at hsame
      exact (Option.some.inj hsame).symm

/-- What the transaction of a chunk does to the rows of the scope. -/
theorem transact_rows {o : Outcome ρ} (hmapped : Mapped env scope chunk unique)
    (hscope : InScope scope table) (h : transact env scope unique markedAt table = some o) :
    InScope scope o.table ∧ ∀ id,
      (unique.get? id = none → rowOf scope o.table id = rowOf scope table id) ∧
      ∀ p, unique.get? id = some p →
        (rowOf scope table id = none →
          rowOf scope o.table id = some ((p.data markedAt).stored env)) ∧
        ∀ old, rowOf scope table id = some old → plain old.raw = true ∧
          rowOf scope o.table id = some (settled env markedAt p old) := by
  unfold transact at h
  simp only at h
  split at h
  swap
  · cases h
  obtain ⟨s, hs, h⟩ := bind_eq_some_iff.mp h
  obtain ⟨table', htable, h⟩ := bind_eq_some_iff.mp h
  split at h
  swap
  · cases h
  obtain rfl : _ = o := Option.some.inj h
  obtain ⟨hseen, hother, hold⟩ := settle_rows (fun r hr => (mem_rowsOf hr).2.1)
    (fun r hr => rowsOf_held hr) rowsOf_distinct hs
  have hsettled : InScope scope s.table := by
    apply Runs.foldlM_carries (P := fun _ s => InScope scope s.table) hscope _ hs
    intro _ old s s' hs hstep
    exact settleStored_inScope hs hstep
  obtain ⟨hrows, hafter⟩ := insert_rows scope htable
  have hids : ∀ id, id ∈ unique.entries.map Prod.fst ↔ unique.get? id ≠ none := by
    intro id
    rw [List.mem_map, Option.ne_none_iff_exists']
    simp only [JsMap.get?_eq_some]
    constructor
    · rintro ⟨⟨k, p⟩, hp, rfl⟩
      exact ⟨p, hp⟩
    · rintro ⟨p, hp⟩
      exact ⟨(id, p), hp, rfl⟩
  have hexisting : ∀ id, id ∈ (rowsOf scope (unique.entries.map Prod.fst) table).map
      (·.microsoftSignInId) → unique.get? id ≠ none ∧ rowOf scope table id ≠ none := by
    intro id hmem
    obtain ⟨r, hr, rfl⟩ := List.mem_map.mp hmem
    rw [rowsOf_held hr]
    exact ⟨(hids _).mp (mem_rowsOf hr).2.2, Option.some_ne_none r⟩
  have huntouched : ∀ id, (unique.get? id = none ∨ rowOf scope table id = none) →
      rowOf scope table' id = (rowOf scope table id).or
        ((unique.get? id).map fun p => (p.data markedAt).stored env) := by
    intro id hnone
    have hnot : id ∉ (rowsOf scope (unique.entries.map Prod.fst) table).map
        (·.microsoftSignInId) := by
      intro hmem
      have := hexisting id hmem
      tauto
    have hunseen : id ∉ s.seen.elements := by
      intro hmem
      rcases (hseen id).mp hmem with hmem | hmem
      · cases hmem
      · exact hnot hmem
    rw [hafter, find_fresh hmapped hunseen, hother id hnot]
  refine ⟨?_, fun id => ⟨fun hnone => ?_, fun p hp => ⟨fun hnone => ?_, fun old hrow => ?_⟩⟩⟩
  · intro r hr
    rw [hrows, mem_append] at hr
    rcases hr with hr | hr
    · exact hsettled r hr
    · obtain ⟨_, hd, rfl⟩ := List.mem_map.mp hr
      obtain ⟨q, hq, rfl⟩ := List.mem_map.mp hd
      obtain ⟨⟨k, p⟩, hentry, rfl⟩ := List.mem_map.mp (mem_filter.mp hq).1
      have hkeeps := (keeps_stored env _).trans (data_keeps p markedAt)
      exact hkeeps.place.trans (hmapped.row (JsMap.get?_eq_some.mpr hentry)).2.1
  · rw [huntouched id (.inl hnone), hnone, map_none, or_none]
  · rw [huntouched id (.inr hnone), hnone, hp]
    rfl
  · have hmem : id ∈ unique.entries.map Prod.fst := (hids id).mpr (by simp [hp])
    obtain ⟨q, hq, hobject, hset⟩ := hold old (rowOf_mem_rowsOf hscope hrow hmem)
    rw [rowOf_id hrow] at hq hset
    rw [hp] at hq
    cases hq
    rw [hafter, hset]
    exact ⟨hobject, rfl⟩

end Transaction

/-! ## Runs -/

/-- The row of a sign-in against its committed versions. -/
def Stored (env : Environment) : List (SignInRow ρ) → Option (SignInRow ρ) → Prop
  | [], row => row = none
  | first :: rest, row => ∃ r, row = some r ∧ Keeps r first ∧
      (marked r.raw = true ↔ Conflict env (first :: rest))

structure Sound (env : Environment) (scope : Scope) (s : State ρ) : Prop where
  inScope : InScope scope s.table
  stored : ∀ id, Stored env (versions id s.log) (rowOf scope s.table id)

theorem marked_settled (hobject : plain old.raw = true) :
    marked (settled env markedAt p old).raw = true ↔
      marked old.raw = true ∨ p.because.isSome = true ∨ env.fingerprint old.raw ≠ p.fingerprint := by
  unfold settled verdict
  by_cases hmarked : marked old.raw = true
  · simp [hmarked]
  · by_cases hsame : env.fingerprint old.raw = p.fingerprint
    · cases hbecause : p.because with
      | none => simp [hmarked, Pending.against, hsame, hbecause]
      | some because =>
        simp [hmarked, Pending.against, hbecause, marked_stored, SignInRow.mark,
          marked_withMarker hobject]
    · cases hbecause : p.because with
      | none =>
        simp [hmarked, Pending.against, hsame, hbecause, marked_stored, SignInRow.mark,
          marked_withMarker hobject]
      | some because =>
        simp [hmarked, Pending.against, hbecause, marked_stored, SignInRow.mark,
          marked_withMarker hobject]

theorem keeps_settled (p : Pending ρ) (old : SignInRow ρ) (markedAt : Int) :
    Keeps (settled env markedAt p old) old := by
  unfold settled
  split
  · exact (keeps_stored env _).trans (keeps_mark _ _ _)
  · exact ⟨rfl, rfl, rfl, fun _ => rfl⟩

/-- A marked row stays as it is. -/
theorem settled_marked (h : marked old.raw = true) : settled env markedAt p old = old := by
  simp [settled, verdict, h]

/-- The first versions of a sign-in are inserted, marked if they are in conflict. -/
theorem stored_data (hobject : plain first.raw = true) (h : Stands env (first :: rest) (some p)) :
    Stored env (first :: rest) (some ((p.data markedAt).stored env)) := by
  obtain ⟨q, hq, hrow, _, hbecause⟩ := h
  cases hq
  refine ⟨_, rfl, hrow ▸ (keeps_stored env _).trans (data_keeps p markedAt), ?_⟩
  rw [marked_stored, ← hbecause]
  unfold Pending.data
  split
  · rename_i because hsome
    rw [hsome, SignInRow.mark, hrow, marked_withMarker hobject]
    simp
  · rename_i hnone
    have hclean : ¬ Conflict env (first :: rest) := by
      rw [← hbecause, hnone]
      exact nofun
    have hunmarked : ¬ marked first.raw = true := fun hmarked =>
      hclean (.inr (.inl ⟨first, mem_cons_self, hmarked⟩))
    simp [hnone, hrow, hunmarked]

/-- Further versions mark the row if they are in conflict, also with the first version. -/
theorem stored_settled {first' : SignInRow ρ} {rest' : List (SignInRow ρ)}
    (hobject : plain old.raw = true) (hold : Stored env (first :: rest) (some old))
    (h : Stands env (first' :: rest') (some p)) :
    Stored env (first :: rest ++ first' :: rest') (some (settled env markedAt p old)) := by
  obtain ⟨r, hr, hkeeps, hmarked⟩ := hold
  cases hr
  obtain ⟨q, hq, hrow, hfingerprint, hbecause⟩ := h
  cases hq
  refine ⟨_, rfl, (keeps_settled p old markedAt).trans hkeeps, ?_⟩
  rw [marked_settled hobject, hmarked, hbecause, hfingerprint, hkeeps.fingerprint]
  exact conflict_append.symm

/-- The commit of a chunk, by sign-in. -/
theorem persistChunk_rows {o : Outcome ρ} (hscope : InScope scope table)
    (h : persistChunk env scope chunk markedAt table = some o) :
    InScope scope o.table ∧ ∀ id,
      (∀ log, Stored env (versions id log) (rowOf scope table id) →
        Stored env (versions id (log ++ chunk)) (rowOf scope o.table id)) ∧
      ∀ r, rowOf scope table id = some r → marked r.raw = true →
        rowOf scope o.table id = some r := by
  obtain ⟨c, hc, htransact⟩ := bind_eq_some_iff.mp h
  have hmapped := mapped_chunk hc
  obtain ⟨hscope', hrows⟩ := transact_rows hmapped hscope htransact
  refine ⟨hscope', fun id => ⟨fun log hstored => ?_, fun r hr hmarked => ?_⟩⟩
  · obtain ⟨hnone, hsome⟩ := hrows id
    have hstands := hmapped.stands id
    rw [versions_append]
    cases hversions : versions id chunk with
    | nil =>
      rw [hversions] at hstands
      rw [hnone hstands, append_nil]
      exact hstored
    | cons first' rest' =>
      rw [hversions] at hstands
      have ⟨p, hp, hrow, _⟩ := hstands
      rw [hp] at hstands
      obtain ⟨hfresh, hheld⟩ := hsome p hp
      cases hlog : versions id log with
      | nil =>
        rw [hlog] at hstored
        rw [hfresh hstored, nil_append]
        exact stored_data (hrow ▸ (hmapped.row hp).2.2) hstands
      | cons first rest =>
        rw [hlog] at hstored
        have ⟨old, hold, _⟩ := hstored
        rw [hold] at hstored
        obtain ⟨hobject, hset⟩ := hheld old hold
        rw [hset]
        exact stored_settled hobject hstored hstands
  · obtain ⟨hnone, hsome⟩ := hrows id
    cases hp : c.unique.get? id with
    | none => rw [hnone hp, hr]
    | some p => rw [((hsome p hp).2 r hr).2, settled_marked hmarked]

variable {s : State ρ} {a : Action ρ}

theorem step_table {s' : State ρ} (h : step env scope s a = some s') :
    (s'.table = s.table ∧ s'.log = s.log) ∨ ∃ chunk markedAt o,
      persistChunk env scope chunk markedAt s.table = some o ∧ s'.table = o.table ∧
        s'.log = s.log ++ chunk := by
  cases a with
  | call id records markedAt =>
    simp only [step] at h
    split at h
    · cases h
      exact .inl ⟨rfl, rfl⟩
    · cases h
  | chunk id =>
    obtain ⟨c, _, hcommit⟩ := bind_eq_some_iff.mp h
    split at hcommit
    · obtain ⟨o, ho, hs⟩ := map_eq_some_iff.mp hcommit
      cases hs
      exact .inr ⟨_, _, o, ho, rfl, rfl⟩
    · cases hcommit
  | ends id =>
    cases h
    exact .inl ⟨rfl, rfl⟩

theorem step_sound {s' : State ρ} (h : Sound env scope s) (hstep : step env scope s a = some s') :
    Sound env scope s' := by
  rcases step_table hstep with ⟨htable, hlog⟩ | ⟨chunk, markedAt, o, ho, htable, hlog⟩
  · exact ⟨htable ▸ h.inScope, htable ▸ hlog ▸ h.stored⟩
  · obtain ⟨hscope, hrows⟩ := persistChunk_rows h.inScope ho
    constructor
    · rw [htable]
      exact hscope
    · intro id
      rw [htable, hlog]
      exact (hrows id).1 s.log (h.stored id)

variable {as : List (Action ρ)}

theorem run_sound (h : Runs.run (step env scope) State.initial as = some s) :
    Sound env scope s := by
  refine Runs.invariant (fun _ _ _ => step_sound) ?_ h
  constructor
  · exact nofun
  · intro id
    rfl

/-- A marked row is there, as it is, after every further run. -/
theorem marked_stays {s' : State ρ} (hsound : Sound env scope s)
    (hr : rowOf scope s.table id = some r) (hmarked : marked r.raw = true)
    (h : Runs.run (step env scope) s as = some s') :
    rowOf scope s'.table id = some r := by
  have hinv := Runs.invariant
    (I := fun t => Sound env scope t ∧ rowOf scope t.table id = some r) (fun t a t' ht hstep => by
      refine ⟨step_sound ht.1 hstep, ?_⟩
      rcases step_table hstep with ⟨htable, _⟩ | ⟨chunk, markedAt, o, ho, htable, _⟩
      · rw [htable]
        exact ht.2
      · rw [htable]
        exact ((persistChunk_rows ht.1.inScope ho).2 id).2 r ht.2 hmarked) ⟨hsound, hr⟩ h
  exact hinv.2

/-- The sign-ins whose rows are marked. -/
def Quarantined (scope : Scope) (s : State ρ) (id : JsString) : Prop :=
  ∃ r, rowOf scope s.table id = some r ∧ marked r.raw = true

theorem quarantined_iff (h : Sound env scope s) :
    Quarantined scope s id ↔ Conflict env (versions id s.log) := by
  have hstored := h.stored id
  cases hversions : versions id s.log with
  | nil =>
    rw [hversions] at hstored
    rw [Quarantined, show rowOf scope s.table id = none from hstored]
    simp [Conflict]
  | cons first rest =>
    rw [hversions] at hstored
    obtain ⟨r, hr, _, hmarked⟩ := hstored
    rw [Quarantined, hr, ← hmarked]
    simp

/-- Over every run of calls on an empty table, a stored row is the first committed version
of its sign-in, and it is marked just when the committed versions are in conflict; a marked
row never changes, and the same records mark the same sign-ins in every order and chunking. -/
theorem quarantine_order_free {as : List (Action ρ)} {s : State ρ}
    (h : Runs.run (step env scope) State.initial as = some s) :
    (∀ id, Stored env (versions id s.log) (rowOf scope s.table id)) ∧
    (∀ bs s', Runs.run (step env scope) s bs = some s' → ∀ id r,
      rowOf scope s.table id = some r → marked r.raw = true →
        rowOf scope s'.table id = some r) ∧
    ∀ bs s', Runs.run (step env scope) State.initial bs = some s' → s'.log.Perm s.log →
      ∀ id, Quarantined scope s' id ↔ Quarantined scope s id := by
  have hsound := run_sound h
  refine ⟨hsound.stored, fun bs s' hs' id r hr hmarked => ?_, fun bs s' hs' hperm id => ?_⟩
  · exact marked_stays hsound hr hmarked hs'
  · rw [quarantined_iff (run_sound hs'), quarantined_iff hsound]
    exact conflict_perm (hperm.filter _)

def sampleEnvironment : Environment where
  sha256 s := s
  jsonb := ⟨fun _ => true, fun v => v, fun h => h, fun _ _ => rfl⟩
  octets _ := 0

def sampleScope : Scope := ⟨js "o", js "t"⟩

def sampleSignIn (userId : JsString) : SignInRow Unit where
  organizationId := js "o"
  customerTenantId := js "t"
  microsoftSignInId := js "s"
  raw := .object [(js "id", .string (js "s")), (js "userId", .string userId)]
  wellFormed := .object (by
    intro e he
    simp only [mem_cons, not_mem_nil, or_false] at he
    rcases he with rfl | rfl <;> exact .string _) (by show [js "id", js "userId"].Nodup; decide)
  columns := ()

/-- A second call replays a sign-in with another user. -/
def sampleRun : List (Action Unit) :=
  [.call 0 [sampleSignIn (js "u")] 0, .chunk 0, .call 1 [sampleSignIn (js "v")] 0, .chunk 1]

theorem quarantine_order_free_replayed :
    ∃ s, Runs.run (step sampleEnvironment sampleScope) State.initial sampleRun = some s ∧
      ∃ r, rowOf sampleScope s.table (js "s") = some r ∧ marked r.raw = true ∧
        ∀ bs s', Runs.run (step sampleEnvironment sampleScope) s bs = some s' →
          rowOf sampleScope s'.table (js "s") = some r := by
  have hrun : (Runs.run (step sampleEnvironment sampleScope) State.initial sampleRun).bind
      (fun s => (rowOf sampleScope s.table (js "s")).map fun r => marked r.raw) = some true := by
    decide +kernel
  obtain ⟨s, hs, hrow⟩ := bind_eq_some_iff.mp hrun
  obtain ⟨r, hr, hmarked⟩ := map_eq_some_iff.mp hrow
  exact ⟨s, hs, r, hr, hmarked, fun bs s' hs' =>
    (quarantine_order_free hs).2.1 bs s' hs' (js "s") r hr hmarked⟩

end AuthenticationIntegrity
