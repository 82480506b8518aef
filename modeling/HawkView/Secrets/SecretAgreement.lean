import HawkView.Secrets.SecretRotation

/-!
# Creating a secret once

Calls that find a name absent mint a value each. They agree as long as nobody
writes over a value that another of them has stored.
-/

namespace SecretStore

open JsString List

section

variable (gcm : Gcm) (n : JsString)

/-- What a call knows of the secret `n`, which has the value `o` or is absent. -/
structure Knows (s : State) (o : Option JsString) (t : Session) : Prop where
  reads : (∃ reference, t.call = .access reference) ∨ ∃ name, t.call = .accessOrCreate name
  answered : t.call = .accessOrCreate n → ∀ u, t.stage = .answered (some u) → o = some u
  resealing : ∀ secret value resealed currentVersion,
    t.stage = .resealing secret value resealed currentVersion →
      (∀ name, t.call = .accessOrCreate name → secret.name = name) ∧
      (secret.name = n → o = some value ∧ ∃ key, Seals gcm resealed n key value) ∧
      secret.id ∈ s.ids ∧ ∀ row ∈ s.rows, row.id = secret.id → row.name = secret.name

/-- The calls agree on the secret `n`. -/
structure Agreed (s : State) (o : Option JsString) : Prop where
  names : (s.rows.map fun row => row.name).Nodup
  unique : UniqueIds s.rows
  ids : ∀ row ∈ s.rows, row.id ∈ s.ids
  absent : o = none → ∀ row ∈ s.rows, row.name ≠ n
  present : ∀ v, o = some v → toWellFormed v = v ∧ ∃ row ∈ s.rows, row.name = n
  seals : ∀ row ∈ s.rows, row.name = n → ∃ v key, o = some v ∧
    Seals gcm row.toEncryptedPayload n key v
  knows : ∀ t ∈ s.sessions, Knows gcm n s o t

/-- Calls only read and create, and nobody writes over another value of the secret `n`. -/
def Agreeing (s : State) : Action → Prop
  | .call _ call => (∃ reference, call = .access reference) ∨ ∃ name, call = .accessOrCreate name
  | .advance i draw => draw.outcome ≠ .failed → ∀ t, s.sessions[i]? = some t →
      t.stage = .minting → t.call = .accessOrCreate n → ∀ value, draw.createValue = .ok value →
        toWellFormed value = value ∧
          ∀ row ∈ s.rows, row.name = n → ∃ key, Seals gcm row.toEncryptedPayload n key value
  | .crash _ => True

end

section

variable {gcm : Gcm} {n : JsString}

variable {s s' : State} {o o' : Option JsString} {t : Session}

/-- What stays of a call's knowledge while names keep their ids and the value stays. -/
theorem Knows.later (h : Knows gcm n s o t) (value : ∀ v, o = some v → o' = some v)
    (ids : ∀ id ∈ s.ids, id ∈ s'.ids)
    (rows : ∀ row ∈ s'.rows, row.id ∉ s.ids ∨ ∃ old ∈ s.rows, old.id = row.id ∧
      old.name = row.name) :
    Knows gcm n s' o' t where
  reads := h.reads
  answered hcall u hstage := value u (h.answered hcall u hstage)
  resealing secret v resealed currentVersion hstage := by
    obtain ⟨hname, hvalue, hknown, hnamed⟩ := h.resealing _ _ _ _ hstage
    refine ⟨hname, fun hn => ⟨value v (hvalue hn).1, (hvalue hn).2⟩, ids _ hknown, ?_⟩
    intro row hrow hid
    rcases rows row hrow with hnew | ⟨old, hold, holdid, holdname⟩
    · exact absurd (hid ▸ hknown) hnew
    · rw [← holdname]
      exact hnamed old hold (holdid.trans hid)

variable {keys : Keys} {stage : Stage}

/-- A call whose stage says nothing knows nothing. -/
theorem Knows.idle {call : Call}
    (reads : (∃ reference, call = .access reference) ∨ ∃ name, call = .accessOrCreate name)
    (answered : ∀ u, stage ≠ .answered (some u))
    (resealing : ∀ secret value resealed currentVersion,
      stage ≠ .resealing secret value resealed currentVersion) :
    Knows gcm n s o ⟨keys, call, stage⟩ where
  reads := reads
  answered _ u hstage := absurd hstage (answered u)
  resealing _ _ _ _ hstage := absurd hstage (resealing _ _ _ _)

/-- What a row of the secret opens to. -/
theorem Agreed.opens (h : Agreed gcm n s o) {row : StoredSecret} (hrow : row ∈ s.rows)
    (hname : row.name = n) {v : JsString} (opens : decrypt gcm keys row = .ok v) : o = some v := by
  obtain ⟨value, key, rfl, hseals⟩ := h.seals row hrow hname
  rw [← hname] at hseals
  rw [decrypt_seals hseals opens, (h.present value rfl).1]

variable {secret : StoredSecret} {value : JsString}

/-- A call that has opened a secret. -/
theorem Agreed.opened (h : Agreed gcm n s o)
    (reads : (∃ reference, t.call = .access reference) ∨ ∃ name, t.call = .accessOrCreate name)
    (stored : secret ∈ s.rows)
    (named : ∀ name, t.call = .accessOrCreate name → secret.name = name)
    (opens : decrypt gcm t.keys secret = .ok value) (next : Opened gcm t.keys secret value stage) :
    Knows gcm n s o ⟨t.keys, t.call, stage⟩ := by
  refine ⟨reads, ?_, ?_⟩
  · intro hcall u hstage
    have ho := h.opens stored (named n hcall) opens
    cases next with
    | answered =>
      cases hstage
      exact ho
    | resealing => cases hstage
  · intro secret' value' resealed currentVersion hstage
    cases next with
    | answered => cases hstage
    | resealing held seals =>
      cases hstage
      refine ⟨named, fun hn => ⟨h.opens stored hn opens, _, hn ▸ seals⟩, h.ids secret stored, ?_⟩
      intro row hrow hid
      rw [h.unique row hrow secret stored hid]

variable {i : Nat}

/-- Other sessions and the one that moved. -/
theorem knows_set (h : ∀ u ∈ s.sessions, Knows gcm n s o u)
    (value : ∀ v, o = some v → o' = some v) (ids : ∀ id ∈ s.ids, id ∈ s'.ids)
    (rows : ∀ row ∈ s'.rows, row.id ∉ s.ids ∨ ∃ old ∈ s.rows, old.id = row.id ∧ old.name = row.name)
    (sessions : s'.sessions = s.sessions.set i t) (moved : Knows gcm n s' o' t) :
    ∀ u ∈ s'.sessions, Knows gcm n s' o' u := by
  intro u hu
  rw [sessions] at hu
  rcases mem_or_eq_of_mem_set hu with hu | rfl
  · exact (h u hu).later value ids rows
  · exact moved

variable {ids : List Uuid}

section

variable (h : Agreed gcm n s o)
include h

/-- A move that leaves the table alone. -/
theorem Agreed.still {stored : List (JsString × JsString)}
    (more : ∀ id ∈ s.ids, id ∈ ids) (moved : Knows gcm n s o t) :
    Agreed gcm n ⟨s.rows, s.sessions.set i t, stored, ids⟩ o := by
  have hrows : ∀ row ∈ s.rows, row.id ∉ s.ids ∨ ∃ old ∈ s.rows, old.id = row.id ∧
      old.name = row.name := fun row hrow => .inr ⟨row, hrow, rfl, rfl⟩
  refine ⟨h.names, h.unique, fun row hrow => more _ (h.ids row hrow), h.absent, h.present, h.seals,
    ?_⟩
  exact knows_set h.knows (fun _ hv => hv) more hrows rfl (moved.later (fun _ hv => hv) more hrows)

/-- A seal is renewed over the value that it seals. -/
theorem Agreed.resealed (ht : t ∈ s.sessions) {resealed : EncryptedPayload}
    {currentVersion : Nat} {stored : List (JsString × JsString)} (more : ∀ id ∈ s.ids, id ∈ ids)
    (stage : t.stage = .resealing secret value resealed currentVersion) :
    Agreed gcm n ⟨updateMany s.rows secret.id secret.keyVersion resealed currentVersion,
      s.sessions.set i ⟨t.keys, t.call, .answered (some value)⟩, stored, ids⟩ o := by
  have hknows := h.knows t ht
  obtain ⟨hname, hvalue, _, hnamed⟩ := hknows.resealing _ _ _ _ stage
  have hrows : ∀ row' ∈ updateMany s.rows secret.id secret.keyVersion resealed currentVersion,
      row'.id ∉ s.ids ∨ ∃ old ∈ s.rows, old.id = row'.id ∧ old.name = row'.name := by
    intro row' hrow'
    obtain ⟨row, hrow, hid, hrowname, _⟩ := mem_updateMany hrow'
    exact .inr ⟨row, hrow, hid.symm, hrowname.symm⟩
  refine ⟨?_, h.unique.updateMany, ?_, ?_, ?_, ?_, ?_⟩
  · rw [names_updateMany]
    exact h.names
  · intro row' hrow'
    obtain ⟨row, hrow, hid, _⟩ := mem_updateMany hrow'
    rw [hid]
    exact more _ (h.ids row hrow)
  · intro ho row' hrow'
    obtain ⟨row, hrow, _, hrowname, _⟩ := mem_updateMany hrow'
    rw [hrowname]
    exact h.absent ho row hrow
  · intro v hv
    obtain ⟨hplain, row, hrow, hrowname⟩ := h.present v hv
    have hmem := mem_map_of_mem (f := fun row : StoredSecret => row.name) hrow
    have hnames : (updateMany s.rows secret.id secret.keyVersion resealed currentVersion).map
        (fun row => row.name) = s.rows.map fun row => row.name := names_updateMany
    rw [← hnames] at hmem
    obtain ⟨row', hrow', hsame⟩ := mem_map.mp hmem
    exact ⟨hplain, row', hrow', hsame.trans hrowname⟩
  · intro row' hrow' hn
    obtain ⟨row, hrow, _, hrowname, ⟨rfl, _⟩ | ⟨hid, _, rfl⟩⟩ := mem_updateMany hrow'
    · exact h.seals _ hrow hn
    · obtain ⟨hsome, key, hseals⟩ := hvalue ((hnamed row hrow hid).symm.trans (hrowname.symm.trans hn))
      exact ⟨value, key, hsome, hseals⟩
  · apply knows_set h.knows (fun _ hv => hv) more hrows rfl
    refine ⟨hknows.reads, ?_, ?_⟩
    · intro hcall u hstage
      cases hstage
      exact (hvalue (hname n hcall)).1
    · intro _ _ _ _ hstage
      cases hstage

/-- A value is minted and stored. -/
theorem Agreed.stored (ht : t ∈ s.sessions) {draw : Draw}
    (fresh : draw.id ∉ s.ids) {name : JsString} {answer : Uuid → JsString} {key : Bytes}
    {payload : EncryptedPayload} {keyVersion : Nat} {stored : List (JsString × JsString)}
    (stores : Stores t draw name value answer) (seals : Seals gcm payload name key value)
    (agreeing : name = n → toWellFormed value = value ∧
      ∀ row ∈ s.rows, row.name = n → ∃ key, Seals gcm row.toEncryptedPayload n key value)
    (next : (∃ reason, stage = .refused reason) ∨
      stage = .answered (some (answer (upsert s.rows name payload keyVersion draw.id).2))) :
    ∃ o', Agreed gcm n ⟨(upsert s.rows name payload keyVersion draw.id).1,
      s.sessions.set i ⟨t.keys, t.call, stage⟩, stored, draw.id :: s.ids⟩ o' := by
  have hknows := h.knows t ht
  have hnew (row : StoredSecret) (hrow : row ∈ s.rows) : row.id ≠ draw.id :=
    fun hid => fresh (hid ▸ h.ids row hrow)
  have hcall : t.call = .accessOrCreate name ∧ ∀ id, answer id = value := by
    cases stores with
    | store called call =>
      rcases hknows.reads with ⟨_, hread⟩ | ⟨_, hread⟩
      · cases call.symm.trans hread
      · cases call.symm.trans hread
    | create minting call created => exact ⟨call, fun _ => rfl⟩
  have hids : ∀ row ∈ (upsert s.rows name payload keyVersion draw.id).1,
      row.id ∈ draw.id :: s.ids := by
    intro row' hrow'
    rcases named_upsert hrow' with hid | ⟨row, hrow, hid, _⟩
    · rw [hid]
      exact mem_cons_self
    · rw [← hid]
      exact mem_cons_of_mem _ (h.ids row hrow)
  have hrows : ∀ row ∈ (upsert s.rows name payload keyVersion draw.id).1,
      row.id ∉ s.ids ∨ ∃ old ∈ s.rows, old.id = row.id ∧ old.name = row.name := by
    intro row hrow
    rcases named_upsert hrow with hid | hold
    · exact .inl (hid ▸ fresh)
    · exact .inr hold
  have hmoved (s' : State) (o' : Option JsString) (ho : name = n → o' = some value) :
      Knows gcm n s' o' ⟨t.keys, t.call, stage⟩ := by
    refine ⟨hknows.reads, ?_, ?_⟩
    · intro hcreate u hstage
      cases hcall.1.symm.trans hcreate
      rcases next with ⟨_, hnext⟩ | hnext
      · cases hnext.symm.trans hstage
      · cases hnext.symm.trans hstage
        rw [hcall.2]
        exact ho rfl
    · intro _ _ _ _ hstage
      rcases next with ⟨_, hnext⟩ | hnext
      · cases hnext.symm.trans hstage
      · cases hnext.symm.trans hstage
  have hmore : ∀ id ∈ s.ids, id ∈ draw.id :: s.ids := fun id hid => mem_cons_of_mem _ hid
  by_cases hn : name = n
  · subst hn
    obtain ⟨hplain, hover⟩ := agreeing rfl
    have hvalue : ∀ v, o = some v → some value = some v := by
      intro v hv
      obtain ⟨hwell, row, hrow, hname⟩ := h.present v hv
      obtain ⟨key', hkey⟩ := hover row hrow hname
      obtain ⟨v', key'', ho, hseals⟩ := h.seals row hrow hname
      cases hv.symm.trans ho
      rw [← hplain, hkey.same hseals, hwell]
    refine ⟨some value, names_upsert h.names, h.unique.upsert hnew, hids, nofun, ?_, ?_, ?_⟩
    · intro v hv
      cases hv
      exact ⟨hplain, exists_upsert _ _ _ _ _⟩
    · intro row hrow hname
      rcases mem_upsert hrow with ⟨_, hne⟩ | ⟨_, hpayload, _⟩
      · exact absurd hname hne
      · exact ⟨value, key, rfl, hpayload ▸ seals⟩
    · exact knows_set h.knows (fun v hv => hvalue v hv ▸ rfl) hmore hrows rfl
        (hmoved _ _ fun _ => rfl)
  · refine ⟨o, names_upsert h.names, h.unique.upsert hnew, hids, ?_, ?_, ?_, ?_⟩
    · intro ho row hrow hname
      rcases mem_upsert hrow with ⟨hold, _⟩ | ⟨hrowname, _⟩
      · exact h.absent ho row hold hname
      · exact hn (hrowname.symm.trans hname)
    · intro v hv
      obtain ⟨hplain, row, hrow, hname⟩ := h.present v hv
      refine ⟨hplain, row, ?_, hname⟩
      have hne : row.name ≠ name := fun hsame => hn (hsame.symm.trans hname)
      rcases upsert_cases s.rows name payload keyVersion draw.id with ⟨_, _, _, hall⟩ | ⟨_, hall⟩
      · rw [hall]
        exact mem_map.mpr ⟨row, hrow, if_neg hne⟩
      · rw [hall]
        exact mem_append_left _ hrow
    · intro row hrow hname
      rcases mem_upsert hrow with ⟨hold, _⟩ | ⟨hrowname, _⟩
      · exact h.seals row hold hname
      · exact absurd (hrowname.symm.trans hname) hn
    · exact knows_set h.knows (fun _ hv => hv) hmore hrows rfl (hmoved _ _ fun hname => absurd hname hn)

theorem agreed_step {a : Action} (agreeing : Agreeing gcm n s a)
    (hstep : step gcm s a = some s') :
    ∃ o', Agreed gcm n s' o' := by
  cases a with
  | call keys call =>
    cases hstep
    refine ⟨o, h.names, h.unique, h.ids, h.absent, h.present, h.seals, ?_⟩
    intro t ht
    rcases mem_append.mp ht with ht | ht
    · exact (h.knows t ht).later (fun _ hv => hv) (fun _ hid => hid)
        fun row hrow => .inr ⟨row, hrow, rfl, rfl⟩
    · rw [mem_singleton.mp ht]
      exact Knows.idle agreeing nofun nofun
  | crash i =>
    obtain ⟨t, ht, rfl⟩ := crash_cases hstep
    have hreads := (h.knows t (mem_of_getElem? ht)).reads
    exact ⟨o, h.still (fun _ hid => hid) (Knows.idle hreads nofun nofun)⟩
  | advance i draw =>
    obtain ⟨t, p, fresh, ht, hmoves, rfl⟩ := advance_cases hstep
    have hmem := mem_of_getElem? ht
    have hknows := h.knows t hmem
    have hmore : ∀ id ∈ s.ids, id ∈ draw.id :: s.ids := fun id hid => mem_cons_of_mem _ hid
    cases hmoves with
    | refused reason => exact ⟨o, h.still hmore (Knows.idle hknows.reads nofun nofun)⟩
    | minting => exact ⟨o, h.still hmore (Knows.idle hknows.reads nofun nofun)⟩
    | opened stored named opens next =>
      exact ⟨o, h.still hmore (h.opened hknows.reads stored named opens next)⟩
    | deferred stage =>
      obtain ⟨hname, hvalue, _⟩ := hknows.resealing _ _ _ _ stage
      refine ⟨o, h.still hmore ⟨hknows.reads, ?_, ?_⟩⟩
      · intro hcall u hstage
        cases hstage
        exact (hvalue (hname n hcall)).1
      · intro _ _ _ _ hstage
        cases hstage
    | resealed stage written => exact ⟨o, h.resealed hmem hmore stage⟩
    | deleted call next =>
      rcases hknows.reads with ⟨_, hread⟩ | ⟨_, hread⟩
      · cases call.symm.trans hread
      · cases call.symm.trans hread
    | stored stores held seals written next =>
      apply h.stored hmem fresh stores seals ?_ next
      rintro rfl
      cases stores with
      | store called call =>
        rcases hknows.reads with ⟨_, hread⟩ | ⟨_, hread⟩
        · cases call.symm.trans hread
        · cases call.symm.trans hread
      | create minting call created => exact agreeing written t ht minting call _ created

end

end

/-! ## Agreement -/

/-- Nobody calls yet, and the secret `n` is absent. -/
structure Absent (n : JsString) (s : State) : Prop where
  sessions : s.sessions = []
  names : (s.rows.map fun row => row.name).Nodup
  unique : UniqueIds s.rows
  ids : ∀ row ∈ s.rows, row.id ∈ s.ids
  absent : ∀ row ∈ s.rows, row.name ≠ n

/-- The secret `n` has this value for whoever asks, and opens for whoever holds its key. -/
structure Settled (gcm : Gcm) (n value : JsString) (s : State) : Prop where
  returned : ∀ t ∈ s.sessions, t.call = .accessOrCreate n → ∀ v, t.stage = .answered (some v) →
    v = value
  accessed : ∀ secret ∈ s.rows, secret.name = n → ∀ keys v, decrypt gcm keys secret = .ok v →
    v = value
  stored : ∃ secret, findByName s.rows n = some secret ∧ ∃ key, ∀ ring : EncryptionKeyRing,
    ring.key secret.keyVersion = some key → decrypt gcm (.ok ring) secret = .ok value

/-- Both calls find the secret absent before either of them stores it. -/
def racingCalls : List Action :=
  [.call (.ok firstRing) (.accessOrCreate sampleName),
    .call (.ok firstRing) (.accessOrCreate sampleName),
    .advance 0 (sampleDraw 0 []), .advance 1 (sampleDraw 1 []),
    .advance 0 (sampleDraw 2 [0x61]), .advance 1 (sampleDraw 3 [0x62])]

theorem emptyState_absent (n : JsString) : Absent n emptyState :=
  ⟨rfl, nodup_nil, nofun, nofun, nofun⟩

/-- The second call comes when the first has stored its value. -/
def quietCalls : List Action :=
  [.call (.ok firstRing) (.accessOrCreate sampleName), .advance 0 (sampleDraw 0 []),
    .advance 0 (sampleDraw 1 [0x61]), .call (.ok firstRing) (.accessOrCreate sampleName),
    .advance 1 (sampleDraw 2 [0x62])]

end SecretStore
