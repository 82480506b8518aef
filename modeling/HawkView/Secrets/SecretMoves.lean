import HawkView.Secrets.SecretStore

/-!
# What a statement does to the secrets

A payload seals a value under a name and a key, and opens to nothing else. Every
statement is one of a few moves.
-/

namespace SecretStore

open JsString List Option

section

variable {gcm : Gcm}

/-! ## Payloads -/

variable (gcm) in
/-- The payload is what sealing the value under the name with the key gives. -/
def Seals (payload : EncryptedPayload) (name : JsString) (key : Bytes) (value : JsString) : Prop :=
  gcm.encrypt key payload.initializationVector (utf8 name) (utf8 value) =
    (payload.ciphertext, payload.authenticationTag)

variable {name value : JsString} {key iv : Bytes} {payload : EncryptedPayload}

theorem encrypt_ok (h : encrypt gcm name value key iv = .ok payload) :
    Seals gcm payload name key value := by
  rw [encrypt] at h
  split at h
  · cases h
  · cases h
    rfl

variable {value' : JsString}

/-- Surrogates that stand alone do not count. -/
theorem Seals.alike (h : Seals gcm payload name key value)
    (alike : toWellFormed value = toWellFormed value') :
    Seals gcm payload name key value' := by
  rw [Seals, ← utf8_iff.mpr alike]
  exact h

variable {row : StoredSecret} {keys : Keys}

/-- A row opens to nothing but what it seals. -/
theorem decrypt_seals {v : JsString} (h : Seals gcm row.toEncryptedPayload row.name key value)
    (opens : decrypt gcm keys row = .ok v) : v = toWellFormed value := by
  cases keys with
  | error reason => cases opens
  | ok ring =>
    simp only [decrypt, bind, Except.bind] at opens
    cases hkey : ring.key row.keyVersion with
    | none =>
      rw [hkey] at opens
      cases opens
    | some key' =>
      rw [hkey] at opens
      cases hopened : gcm.decrypt key' row.initializationVector (utf8 row.name) row.ciphertext
          row.authenticationTag with
      | none =>
        simp only [hopened] at opens
        cases opens
      | some bytes =>
        simp only [hopened, Except.ok.injEq] at opens
        have hbytes : bytes = utf8 value := by
          apply gcm.authentic key key' row.initializationVector (utf8 row.name)
          rw [h]
          exact hopened
        rw [← opens, hbytes, fromUtf8_utf8]

/-- A row opens for who holds the key of its version. -/
theorem decrypt_held {ring : EncryptionKeyRing}
    (h : Seals gcm row.toEncryptedPayload row.name key value)
    (held : ring.key row.keyVersion = some key) :
    decrypt gcm (.ok ring) row = .ok (toWellFormed value) := by
  have hopened : gcm.decrypt key row.initializationVector (utf8 row.name) row.ciphertext
      row.authenticationTag = some (utf8 value) := by
    have hinverts := gcm.inverts key row.initializationVector (utf8 row.name) (utf8 value)
    rw [h] at hinverts
    exact hinverts
  simp only [decrypt, bind, Except.bind, held, hopened, fromUtf8_utf8]

theorem Seals.same {key' : Bytes} (h : Seals gcm payload name key value)
    (h' : Seals gcm payload name key' value') :
    toWellFormed value = toWellFormed value' := by
  rw [← utf8_iff]
  have hinverts := gcm.inverts key' payload.initializationVector (utf8 name) (utf8 value')
  apply Eq.symm
  apply gcm.authentic key key' payload.initializationVector (utf8 name)
  rw [h]
  rw [h'] at hinverts
  exact hinverts

/-! ## Moves -/

/-- What `openAndReseal` goes on with. -/
inductive Opened (gcm : Gcm) (keys : Keys) (secret : StoredSecret) (value : JsString) : Stage → Prop
  | answered : Opened gcm keys secret value (.answered (some value))
  | resealing {ring : EncryptionKeyRing} {resealed : EncryptedPayload} (held : keys = .ok ring)
      (seals : Seals gcm resealed secret.name ring.current value) :
      Opened gcm keys secret value (.resealing secret value resealed ring.currentVersion)

theorem openAndReseal_cases (keys : Keys) (secret : StoredSecret) (iv : Bytes) :
    (∃ reason, openAndReseal gcm keys secret iv = .refused reason) ∨
      ∃ value, decrypt gcm keys secret = .ok value ∧
        Opened gcm keys secret value (openAndReseal gcm keys secret iv) := by
  rw [openAndReseal]
  cases hopens : decrypt gcm keys secret with
  | error reason => exact .inl ⟨reason, rfl⟩
  | ok value =>
    right
    refine ⟨value, rfl, ?_⟩
    cases keys with
    | error reason => cases hopens
    | ok ring =>
      by_cases hcurrent : secret.keyVersion = ring.currentVersion
      · simp only [hcurrent, if_true]
        exact .answered
      · simp only [hcurrent, if_false]
        cases hresealed : encrypt gcm secret.name value ring.current iv with
        | error reason => exact .answered
        | ok resealed => exact .resealing rfl (encrypt_ok hresealed)

/-- A call that stores a value under a name. -/
inductive Stores (t : Session) (draw : Draw) : JsString → JsString → (Uuid → JsString) → Prop
  | store {name value : JsString} {owner : SecretOwner} (called : t.stage = .called)
      (call : t.call = .store name value owner) : Stores t draw name value databaseReference
  | create {name value : JsString} (minting : t.stage = .minting)
      (call : t.call = .accessOrCreate name) (created : draw.createValue = .ok value) :
      Stores t draw name value fun _ => value

/-- What the next statement of a call does. -/
inductive Moves (gcm : Gcm) (t : Session) (draw : Draw) (rows : List StoredSecret) : Progress → Prop
  | refused (reason : Refusal) : Moves gcm t draw rows ⟨rows, .refused reason, none⟩
  | minting {name : JsString} (call : t.call = .accessOrCreate name)
      (absent : findByName rows name = none) : Moves gcm t draw rows ⟨rows, .minting, none⟩
  | opened {secret : StoredSecret} {value : JsString} {stage : Stage} (stored : secret ∈ rows)
      (named : ∀ name, t.call = .accessOrCreate name → secret.name = name)
      (opens : decrypt gcm t.keys secret = .ok value)
      (next : Opened gcm t.keys secret value stage) : Moves gcm t draw rows ⟨rows, stage, none⟩
  | stored {name value : JsString} {answer : Uuid → JsString} {ring : EncryptionKeyRing}
      {payload : EncryptedPayload} {stage : Stage} (stores : Stores t draw name value answer)
      (held : t.keys = .ok ring) (seals : Seals gcm payload name ring.current value)
      (written : draw.outcome ≠ .failed)
      (next : (∃ reason, stage = .refused reason) ∨
        stage = .answered (some (answer (upsert rows name payload ring.currentVersion draw.id).2))) :
      Moves gcm t draw rows
        ⟨(upsert rows name payload ring.currentVersion draw.id).1, stage, some (name, value)⟩
  | resealed {secret : StoredSecret} {value : JsString} {resealed : EncryptedPayload}
      {currentVersion : Nat} (stage : t.stage = .resealing secret value resealed currentVersion)
      (written : draw.outcome ≠ .failed) : Moves gcm t draw rows
        ⟨updateMany rows secret.id secret.keyVersion resealed currentVersion,
          .answered (some value), none⟩
  | deferred {secret : StoredSecret} {value : JsString} {resealed : EncryptedPayload}
      {currentVersion : Nat} (stage : t.stage = .resealing secret value resealed currentVersion) :
      Moves gcm t draw rows ⟨rows, .answered (some value), none⟩
  | deleted {reference : JsString} {selected : StoredSecret → Bool} {stage : Stage}
      (call : t.call = .delete reference)
      (next : (∃ reason, stage = .refused reason) ∨ stage = .answered none) :
      Moves gcm t draw rows ⟨deleteMany rows selected, stage, none⟩

theorem sealedValue_ok {version : Nat}
    (h : sealedValue gcm keys name value iv = .ok (payload, version)) :
    ∃ ring, keys = .ok ring ∧ version = ring.currentVersion ∧
      Seals gcm payload name ring.current value := by
  rw [sealedValue] at h
  split at h
  · cases h
  · cases keys with
    | error reason => cases h
    | ok ring =>
      simp only [bind, Except.bind, pure, Except.pure] at h
      cases hencrypted : encrypt gcm name value ring.current iv with
      | error reason =>
        simp only [hencrypted] at h
        cases h
      | ok encrypted =>
        simp only [hencrypted, Except.ok.injEq, Prod.mk.injEq] at h
        obtain ⟨rfl, rfl⟩ := h
        exact ⟨ring, rfl, rfl, encrypt_ok hencrypted⟩

variable {t : Session} {draw : Draw} {rows : List StoredSecret}

theorem persist_moves {answer : Uuid → JsString} (stores : Stores t draw name value answer) :
    Moves gcm t draw rows (persist gcm t.keys name value draw rows answer) := by
  rw [persist]
  cases hsealed : sealedValue gcm t.keys name value draw.initializationVector with
  | error reason => exact .refused reason
  | ok sealed =>
    obtain ⟨payload, version⟩ := sealed
    obtain ⟨ring, hring, rfl, hseals⟩ := sealedValue_ok hsealed
    cases houtcome : draw.outcome with
    | applied => exact .stored stores hring hseals (by rw [houtcome]; decide) (.inr rfl)
    | lost => exact .stored stores hring hseals (by rw [houtcome]; decide) (.inl ⟨_, rfl⟩)
    | failed => exact .refused _

variable {secret : StoredSecret}

theorem openAndReseal_moves (stored : secret ∈ rows)
    (named : ∀ name, t.call = .accessOrCreate name → secret.name = name) :
    Moves gcm t draw rows ⟨rows, openAndReseal gcm t.keys secret draw.initializationVector, none⟩ := by
  rcases openAndReseal_cases t.keys secret draw.initializationVector with
    ⟨reason, hrefused⟩ | ⟨value, hopens, hnext⟩
  · rw [hrefused]
    exact .refused reason
  · exact .opened stored named hopens hnext

theorem findByName_some (h : findByName rows name = some row) : row ∈ rows ∧ row.name = name :=
  ⟨mem_of_find?_eq_some h, by simpa using find?_some h⟩

theorem findByName_none :
    findByName rows name = none ↔ ∀ row ∈ rows, row.name ≠ name := by
  simp [findByName]

variable {reference : JsString}

theorem accessed_mem (h : accessed rows reference = .ok secret) : secret ∈ rows := by
  simp only [accessed] at h
  split at h
  · split at h
    · split at h
      · cases h
      · rename_i hfound
        cases h
        exact mem_of_find?_eq_some hfound
    · cases h
  · split at h
    · rename_i hfound
      cases h
      exact mem_of_find?_eq_some hfound
    · split at h <;> cases h

theorem deleted_rows {rows' : List StoredSecret} (h : deleted rows reference = .ok rows') :
    ∃ selected, rows' = deleteMany rows selected := by
  simp only [deleted] at h
  split at h
  · split at h
    · cases h
      exact ⟨_, rfl⟩
    · cases h
  · split at h
    · cases h
      exact ⟨_, rfl⟩
    · cases h

theorem advance_moves {p : Progress} (h : advance gcm t draw rows = some p) :
    Moves gcm t draw rows p := by
  obtain ⟨keys, call, stage⟩ := t
  cases stage with
  | called =>
    cases call with
    | store name value owner =>
      simp only [advance] at h
      cases hstorable : assertStorable owner with
      | error reason =>
        simp only [hstorable, Option.some.injEq] at h
        exact h ▸ .refused reason
      | ok storable =>
        simp only [hstorable, Option.some.injEq] at h
        exact h ▸ persist_moves (.store rfl rfl)
    | access reference =>
      simp only [advance] at h
      cases haccessed : accessed rows reference with
      | error reason =>
        simp only [haccessed, Option.some.injEq] at h
        exact h ▸ .refused reason
      | ok secret =>
        simp only [haccessed, Option.some.injEq] at h
        exact h ▸ openAndReseal_moves (accessed_mem haccessed) (fun _ hcall => by cases hcall)
    | accessOrCreate name =>
      simp only [advance] at h
      cases hfound : findByName rows name with
      | none =>
        simp only [hfound, Option.some.injEq] at h
        exact h ▸ .minting rfl hfound
      | some existing =>
        obtain ⟨hmem, hname⟩ := findByName_some hfound
        simp only [hfound, Option.some.injEq] at h
        refine h ▸ openAndReseal_moves hmem (fun name' hcall => ?_)
        cases hcall
        exact hname
    | delete reference =>
      simp only [advance] at h
      cases hdeleted : deleted rows reference with
      | error reason =>
        simp only [hdeleted, Option.some.injEq] at h
        exact h ▸ .refused reason
      | ok rows' =>
        obtain ⟨selected, rfl⟩ := deleted_rows hdeleted
        cases houtcome : draw.outcome with
        | applied =>
          simp only [hdeleted, houtcome, Option.some.injEq] at h
          exact h ▸ .deleted rfl (.inr rfl)
        | lost =>
          simp only [hdeleted, houtcome, Option.some.injEq] at h
          exact h ▸ .deleted rfl (.inl ⟨_, rfl⟩)
        | failed =>
          simp only [hdeleted, houtcome, Option.some.injEq] at h
          exact h ▸ .refused _
  | minting =>
    cases call with
    | accessOrCreate name =>
      simp only [advance] at h
      cases hcreated : draw.createValue with
      | error reason =>
        simp only [hcreated, Option.some.injEq] at h
        exact h ▸ .refused reason
      | ok value =>
        simp only [hcreated, Option.some.injEq] at h
        exact h ▸ persist_moves (.create rfl rfl hcreated)
    | _ => cases h
  | resealing secret value resealed currentVersion =>
    simp only [advance] at h
    cases houtcome : draw.outcome with
    | failed =>
      simp only [houtcome, Option.some.injEq] at h
      exact h ▸ .deferred rfl
    | _ =>
      simp only [houtcome, Option.some.injEq] at h
      exact h ▸ .resealed rfl (by rw [houtcome]; decide)
  | answered answer => cases call <;> cases h
  | refused reason => cases call <;> cases h

variable {s' : State}

theorem crash_cases {s : State} {i : Nat} (h : step gcm s (.crash i) = some s') :
    ∃ t, s.sessions[i]? = some t ∧
      s' = { s with sessions := s.sessions.set i { t with stage := .refused statementFailed } } := by
  obtain ⟨t, ht, hcrash⟩ := bind_eq_some_iff.mp h
  split at hcrash
  · cases hcrash
  · cases hcrash
    exact ⟨t, ht, rfl⟩

theorem advance_cases {s : State} {i : Nat} (h : step gcm s (.advance i draw) = some s') :
    ∃ t p, draw.id ∉ s.ids ∧ s.sessions[i]? = some t ∧ Moves gcm t draw s.rows p ∧
      s' = { rows := p.rows, sessions := s.sessions.set i { t with stage := p.stage },
             stored := p.stored.toList ++ s.stored, ids := draw.id :: s.ids } := by
  rw [step] at h
  split at h
  · cases h
  · rename_i fresh
    obtain ⟨t, ht, hadvance⟩ := bind_eq_some_iff.mp h
    obtain ⟨p, hp, rfl⟩ := map_eq_some_iff.mp hadvance
    exact ⟨t, p, fresh, ht, advance_moves hp, rfl⟩

end

/-! ## Rows after a move -/

section

variable {rows : List StoredSecret} {name : JsString} {payload : EncryptedPayload}
  {keyVersion currentVersion : Nat} {id : Uuid}

theorem upsert_cases (rows : List StoredSecret) (name : JsString) (payload : EncryptedPayload)
    (keyVersion : Nat) (id : Uuid) :
    (∃ existing ∈ rows, existing.name = name ∧ (upsert rows name payload keyVersion id).1 =
      rows.map fun row => if row.name = name then row.reseal payload keyVersion else row) ∨
    (∀ row ∈ rows, row.name ≠ name) ∧ (upsert rows name payload keyVersion id).1 =
      rows ++ [⟨payload, id, name, keyVersion, none⟩] := by
  rw [upsert]
  cases hfound : findByName rows name with
  | none => exact .inr ⟨findByName_none.mp hfound, rfl⟩
  | some existing =>
    obtain ⟨hmem, hname⟩ := findByName_some hfound
    exact .inl ⟨existing, hmem, hname, rfl⟩

variable {row' : StoredSecret}

/-- A row of the table after an `upsert`. -/
theorem mem_upsert (h : row' ∈ (upsert rows name payload keyVersion id).1) :
    row' ∈ rows ∧ row'.name ≠ name ∨
      row'.name = name ∧ row'.toEncryptedPayload = payload ∧ row'.keyVersion = keyVersion ∧
        (row'.id = id ∨ ∃ row ∈ rows, row.name = name ∧ row.id = row'.id) := by
  rcases upsert_cases rows name payload keyVersion id with ⟨_, _, _, hrows⟩ | ⟨habsent, hrows⟩
  · rw [hrows] at h
    obtain ⟨row, hmem, hrow⟩ := mem_map.mp h
    by_cases hname : row.name = name
    · rw [if_pos hname] at hrow
      subst hrow
      exact .inr ⟨hname, rfl, rfl, .inr ⟨row, hmem, hname, rfl⟩⟩
    · rw [if_neg hname] at hrow
      subst hrow
      exact .inl ⟨hmem, hname⟩
  · rw [hrows] at h
    rcases mem_append.mp h with h | h
    · exact .inl ⟨h, habsent row' h⟩
    · cases mem_singleton.mp h
      exact .inr ⟨rfl, rfl, rfl, .inl rfl⟩

theorem names_upsert (names : (rows.map fun row => row.name).Nodup) :
    ((upsert rows name payload keyVersion id).1.map fun row => row.name).Nodup := by
  rcases upsert_cases rows name payload keyVersion id with ⟨_, _, _, hrows⟩ | ⟨habsent, hrows⟩
  · have hsame : (rows.map fun row => if row.name = name then row.reseal payload keyVersion
        else row).map (fun row => row.name) = rows.map fun row => row.name := by
      rw [List.map_map]
      apply map_congr_left
      intro row _
      simp only [Function.comp_apply]
      split <;> rfl
    rwa [hrows, hsame]
  · rw [hrows, map_append, nodup_append]
    refine ⟨names, nodup_singleton _, ?_⟩
    intro a ha b hb
    obtain ⟨row, hmem, rfl⟩ := mem_map.mp ha
    cases mem_singleton.mp hb
    exact habsent row hmem

/-- No two rows have one id. -/
def UniqueIds (rows : List StoredSecret) : Prop :=
  ∀ row ∈ rows, ∀ row' ∈ rows, row.id = row'.id → row = row'

theorem UniqueIds.map {f : StoredSecret → StoredSecret} (h : UniqueIds rows)
    (keeps : ∀ row, (f row).id = row.id) : UniqueIds (rows.map f) := by
  intro row hrow row' hrow' hid
  obtain ⟨r, hr, rfl⟩ := mem_map.mp hrow
  obtain ⟨r', hr', rfl⟩ := mem_map.mp hrow'
  rw [keeps, keeps] at hid
  rw [h r hr r' hr' hid]

theorem UniqueIds.upsert (h : UniqueIds rows) (fresh : ∀ row ∈ rows, row.id ≠ id) :
    UniqueIds (upsert rows name payload keyVersion id).1 := by
  rcases upsert_cases rows name payload keyVersion id with ⟨_, _, _, hrows⟩ | ⟨_, hrows⟩
  · rw [hrows]
    apply h.map
    intro row
    split <;> rfl
  · rw [hrows]
    intro row hrow row' hrow' hid
    simp only [mem_append, mem_singleton] at hrow hrow'
    rcases hrow with hrow | rfl
    · rcases hrow' with hrow' | rfl
      · exact h row hrow row' hrow' hid
      · exact absurd hid (fresh row hrow)
    · rcases hrow' with hrow' | rfl
      · exact absurd hid.symm (fresh row' hrow')
      · rfl

theorem UniqueIds.updateMany (h : UniqueIds rows) :
    UniqueIds (updateMany rows id keyVersion payload currentVersion) := by
  apply h.map
  intro row
  split <;> rfl

theorem named_upsert (h : row' ∈ (upsert rows name payload keyVersion id).1) :
    row'.id = id ∨ ∃ old ∈ rows, old.id = row'.id ∧ old.name = row'.name := by
  rcases mem_upsert h with ⟨hrow, _⟩ | ⟨hname, _, _, hid | ⟨row, hrow, hrowname, hid⟩⟩
  · exact .inr ⟨row', hrow, rfl, rfl⟩
  · exact .inl hid
  · exact .inr ⟨row, hrow, hid, hrowname.trans hname.symm⟩

/-- There is a row of the name after an `upsert`. -/
theorem exists_upsert (rows : List StoredSecret) (name : JsString) (payload : EncryptedPayload)
    (keyVersion : Nat) (id : Uuid) :
    ∃ row ∈ (upsert rows name payload keyVersion id).1, row.name = name := by
  rcases upsert_cases rows name payload keyVersion id with ⟨existing, hmem, hname, hrows⟩ |
    ⟨_, hrows⟩
  · rw [hrows]
    refine ⟨_, mem_map_of_mem hmem, ?_⟩
    rw [if_pos hname]
    exact hname
  · rw [hrows]
    exact ⟨_, mem_append_right _ mem_cons_self, rfl⟩

/-- A row of the table after an `updateMany`. -/
theorem mem_updateMany (h : row' ∈ updateMany rows id keyVersion payload currentVersion) :
    ∃ row ∈ rows, row'.id = row.id ∧ row'.name = row.name ∧
      (row' = row ∧ ¬(row.id = id ∧ row.keyVersion = keyVersion) ∨
        row.id = id ∧ row.keyVersion = keyVersion ∧ row' = row.reseal payload currentVersion) := by
  obtain ⟨row, hmem, hrow⟩ := mem_map.mp h
  by_cases hfound : row.id = id ∧ row.keyVersion = keyVersion
  · rw [if_pos hfound] at hrow
    subst hrow
    exact ⟨row, hmem, rfl, rfl, .inr ⟨hfound.1, hfound.2, rfl⟩⟩
  · rw [if_neg hfound] at hrow
    subst hrow
    exact ⟨row, hmem, rfl, rfl, .inl ⟨rfl, hfound⟩⟩

theorem names_updateMany : (updateMany rows id keyVersion payload currentVersion).map
    (fun row => row.name) = rows.map fun row => row.name := by
  rw [updateMany, List.map_map]
  apply map_congr_left
  intro row _
  simp only [Function.comp_apply]
  split <;> rfl

theorem deleteMany_sublist (selected : StoredSecret → Bool) :
    (deleteMany rows selected).Sublist rows := filter_sublist

end

end SecretStore
