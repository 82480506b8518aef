import HawkView.Secrets.SecretMoves
import Mathlib.Algebra.GroupWithZero.Nat

/-!
# Rotation of the keys

While processes with different keys read and write, every row names the key that
it is sealed with. It holds the latest value as long as no seal is renewed over a
value that was stored since.
-/

namespace SecretStore

open JsString List

section

variable (gcm : Gcm) (keyOf : Nat → Bytes)

/-- The ring holds the keys of its rotation. -/
def Holds (keys : Keys) : Prop :=
  ∀ ring, keys = .ok ring → ring.current = keyOf ring.currentVersion ∧
    ∀ previous, ring.previous = some previous →
      ∀ version, version + 1 = ring.currentVersion → previous = keyOf version

/-- The row is sealed with the key of its version. -/
def StoredSecret.Labelled (row : StoredSecret) (value : JsString) : Prop :=
  Seals gcm row.toEncryptedPayload row.name (keyOf row.keyVersion) value

/-- What a call knows that is about to renew a seal. -/
def Renews (s : State) (t : Session) : Prop :=
  ∀ secret value resealed currentVersion,
    t.stage = .resealing secret value resealed currentVersion →
      Seals gcm resealed secret.name (keyOf currentVersion) value ∧ secret.id ∈ s.ids ∧
        ∀ row ∈ s.rows, row.id = secret.id → row.name = secret.name

/-- Rows name their keys. -/
structure Sound (s : State) : Prop where
  names : (s.rows.map fun row => row.name).Nodup
  ids : ∀ row ∈ s.rows, row.id ∈ s.ids
  unique : UniqueIds s.rows
  labelled : ∀ row ∈ s.rows, ∃ value, row.Labelled gcm keyOf value
  held : ∀ t ∈ s.sessions, Holds keyOf t.keys
  renews : ∀ t ∈ s.sessions, Renews gcm keyOf s t

/-- Rows hold what was stored last under their names. -/
def Latest (s : State) : Prop :=
  ∀ row ∈ s.rows, ∃ value, s.stored.lookup row.name = some value ∧ row.Labelled gcm keyOf value

/-- The keys of a call that begins are those of the rotation. -/
def Rotating : Action → Prop
  | .call keys _ => Holds keyOf keys
  | _ => True

/-- No seal is renewed over another value. -/
def Undisturbed (s : State) : Action → Prop
  | .advance i draw => draw.outcome ≠ .failed → ∀ t, s.sessions[i]? = some t →
      ∀ secret value resealed currentVersion,
        t.stage = .resealing secret value resealed currentVersion →
        ∀ row ∈ s.rows, row.id = secret.id → row.keyVersion = secret.keyVersion →
          ∃ key, Seals gcm row.toEncryptedPayload row.name key value
  | _ => True

end

section

variable {gcm : Gcm} {keyOf : Nat → Bytes}

variable (gcm keyOf) in
/-- What a move leaves of a table whose rows name their keys. -/
structure Kept (s : State) (t : Session) (draw : Draw) (p : Progress) : Prop where
  names : (p.rows.map fun row => row.name).Nodup
  ids : ∀ row ∈ p.rows, row.id ∈ draw.id :: s.ids
  unique : UniqueIds p.rows
  labelled : ∀ row ∈ p.rows, ∃ value, row.Labelled gcm keyOf value
  named : ∀ row ∈ p.rows, row.id = draw.id ∨ ∃ old ∈ s.rows, old.id = row.id ∧ old.name = row.name

variable {s : State} {t : Session} {draw : Draw} {p : Progress}

theorem move_kept (h : Sound gcm keyOf s) (ht : t ∈ s.sessions) (fresh : draw.id ∉ s.ids)
    (moves : Moves gcm t draw s.rows p) :
    Kept gcm keyOf s t draw p := by
  have hsame : Kept gcm keyOf s t draw ⟨s.rows, t.stage, none⟩ :=
    ⟨h.names, fun row hrow => mem_cons_of_mem _ (h.ids row hrow), h.unique, h.labelled,
      fun row hrow => .inr ⟨row, hrow, rfl, rfl⟩⟩
  cases moves with
  | refused => exact ⟨hsame.names, hsame.ids, hsame.unique, hsame.labelled, hsame.named⟩
  | minting => exact ⟨hsame.names, hsame.ids, hsame.unique, hsame.labelled, hsame.named⟩
  | opened => exact ⟨hsame.names, hsame.ids, hsame.unique, hsame.labelled, hsame.named⟩
  | deferred => exact ⟨hsame.names, hsame.ids, hsame.unique, hsame.labelled, hsame.named⟩
  | deleted call next =>
    rename_i selected _
    have hsub : (deleteMany s.rows selected).Sublist s.rows := deleteMany_sublist selected
    exact ⟨h.names.sublist (hsub.map _), fun row hrow => hsame.ids row (hsub.subset hrow),
      fun row hrow row' hrow' => h.unique row (hsub.subset hrow) row' (hsub.subset hrow'),
      fun row hrow => h.labelled row (hsub.subset hrow),
      fun row hrow => hsame.named row (hsub.subset hrow)⟩
  | resealed stage written =>
    rename_i secret value resealed currentVersion
    obtain ⟨hseals, _, hname⟩ := h.renews t ht _ _ _ _ stage
    refine ⟨?_, ?_, ?_, ?_, ?_⟩
    · rw [names_updateMany]
      exact h.names
    · intro row' hrow'
      obtain ⟨row, hrow, hid, _⟩ := mem_updateMany hrow'
      rw [hid]
      exact hsame.ids row hrow
    · exact h.unique.updateMany
    · intro row' hrow'
      obtain ⟨row, hrow, _, _, ⟨rfl, _⟩ | ⟨hid, _, rfl⟩⟩ := mem_updateMany hrow'
      · exact h.labelled _ hrow
      · refine ⟨value, ?_⟩
        have hnamed : (row.reseal resealed currentVersion).name = secret.name := hname row hrow hid
        rw [StoredSecret.Labelled, hnamed]
        exact hseals
    · intro row' hrow'
      obtain ⟨row, hrow, hid, hrowname, _⟩ := mem_updateMany hrow'
      exact .inr ⟨row, hrow, hid.symm, hrowname.symm⟩
  | stored stores held seals written next =>
    rename_i name value answer ring payload _
    have hcurrent := (h.held t ht ring held).1
    have hnew (row : StoredSecret) (hrow : row ∈ s.rows) : row.id ≠ draw.id :=
      fun hid => fresh (hid ▸ h.ids row hrow)
    refine ⟨names_upsert h.names, ?_, h.unique.upsert hnew, ?_, fun row hrow => named_upsert hrow⟩
    · intro row' hrow'
      rcases named_upsert hrow' with hid | ⟨row, hrow, hid, _⟩
      · rw [hid]
        exact mem_cons_self
      · rw [← hid]
        exact hsame.ids row hrow
    · intro row' hrow'
      rcases mem_upsert hrow' with ⟨hrow, _⟩ | ⟨hname, hpayload, hversion, _⟩
      · exact h.labelled row' hrow
      · refine ⟨value, ?_⟩
        rw [StoredSecret.Labelled, hname, hpayload, hversion, ← hcurrent]
        exact seals

variable {secret : StoredSecret}

/-- A name stays with its id. -/
theorem move_named (kept : Kept gcm keyOf s t draw p) (fresh : draw.id ∉ s.ids)
    (known : secret.id ∈ s.ids)
    (named : ∀ row ∈ s.rows, row.id = secret.id → row.name = secret.name) :
    ∀ row ∈ p.rows, row.id = secret.id → row.name = secret.name := by
  intro row hrow hid
  rcases kept.named row hrow with hnew | ⟨old, hold, holdid, holdname⟩
  · exact absurd (hnew ▸ hid ▸ known) fresh
  · rw [← holdname]
    exact named old hold (holdid.trans hid)

variable {value : JsString}

theorem opened_renews {keys : Keys} {call : Call} {stage : Stage} (h : Sound gcm keyOf s)
    (held : Holds keyOf keys) (stored : secret ∈ s.rows)
    (next : Opened gcm keys secret value stage) :
    Renews gcm keyOf s ⟨keys, call, stage⟩ := by
  intro secret' value' resealed currentVersion hstage
  cases next with
  | answered => cases hstage
  | resealing hring hseals =>
    cases hstage
    refine ⟨?_, h.ids secret stored, fun row hrow hid => ?_⟩
    · rw [← (held _ hring).1]
      exact hseals
    · rw [h.unique row hrow secret stored hid]

variable {stored : List (JsString × JsString)}

theorem Renews.move {u : Session} (h : Renews gcm keyOf s u) (kept : Kept gcm keyOf s t draw p)
    (fresh : draw.id ∉ s.ids) {sessions : List Session} :
    Renews gcm keyOf ⟨p.rows, sessions, stored, draw.id :: s.ids⟩ u := by
  intro secret value resealed currentVersion hstage
  obtain ⟨hseals, hknown, hnamed⟩ := h secret value resealed currentVersion hstage
  exact ⟨hseals, mem_cons_of_mem _ hknown, move_named kept fresh hknown hnamed⟩

/-- What a call knows once its statement is done. -/
theorem move_renews (h : Sound gcm keyOf s) (ht : t ∈ s.sessions)
    (moves : Moves gcm t draw s.rows p) :
    Renews gcm keyOf s ⟨t.keys, t.call, p.stage⟩ := by
  cases moves with
  | opened stored named opens next => exact opened_renews h (h.held t ht) stored next
  | stored _ _ _ _ next =>
    intro secret value resealed currentVersion hstage
    rcases next with ⟨reason, hnext⟩ | hnext
    · cases hnext.symm.trans hstage
    · cases hnext.symm.trans hstage
  | deleted call next =>
    intro secret value resealed currentVersion hstage
    rcases next with ⟨reason, hnext⟩ | hnext
    · cases hnext.symm.trans hstage
    · cases hnext.symm.trans hstage
  | _ =>
    intro secret value resealed currentVersion hstage
    cases hstage

variable {s' : State} {a : Action}

theorem sound_step (h : Sound gcm keyOf s) (rotating : Rotating keyOf a)
    (hstep : step gcm s a = some s') : Sound gcm keyOf s' := by
  cases a with
  | call keys call =>
    cases hstep
    refine ⟨h.names, h.ids, h.unique, h.labelled, ?_, ?_⟩
    · exact forall_mem_append.mpr ⟨h.held, forall_mem_singleton.mpr rotating⟩
    · intro t ht
      rcases mem_append.mp ht with ht | ht
      · exact h.renews t ht
      · rw [mem_singleton.mp ht]
        intro _ _ _ _ hstage
        cases hstage
  | crash i =>
    obtain ⟨t, ht, rfl⟩ := crash_cases hstep
    refine ⟨h.names, h.ids, h.unique, h.labelled, ?_, ?_⟩
    · intro u hu
      rcases mem_or_eq_of_mem_set hu with hu | rfl
      · exact h.held u hu
      · exact h.held t (mem_of_getElem? ht)
    · intro u hu
      rcases mem_or_eq_of_mem_set hu with hu | rfl
      · exact h.renews u hu
      · intro _ _ _ _ hstage
        cases hstage
  | advance i draw =>
    obtain ⟨t, p, fresh, ht, hmoves, rfl⟩ := advance_cases hstep
    have hmem := mem_of_getElem? ht
    have hkept := move_kept h hmem fresh hmoves
    refine ⟨hkept.names, hkept.ids, hkept.unique, hkept.labelled, ?_, ?_⟩
    · intro u hu
      rcases mem_or_eq_of_mem_set hu with hu | rfl
      · exact h.held u hu
      · exact h.held t hmem
    · intro u hu
      rcases mem_or_eq_of_mem_set hu with hu | rfl
      · exact (h.renews u hu).move hkept fresh
      · exact (move_renews h hmem hmoves).move hkept fresh

/-! ## The latest values -/

variable {name : JsString}

theorem lookup_cons_self :
    ((name, value) :: stored).lookup name = some value := by
  rw [lookup_cons, beq_self_eq_true]

theorem latest_step (h : Sound gcm keyOf s) (latest : Latest gcm keyOf s)
    (undisturbed : Undisturbed gcm s a) (hstep : step gcm s a = some s') : Latest gcm keyOf s' := by
  cases a with
  | call keys call =>
    cases hstep
    exact latest
  | crash i =>
    obtain ⟨t, _, rfl⟩ := crash_cases hstep
    exact latest
  | advance i draw =>
    obtain ⟨t, p, fresh, ht, hmoves, rfl⟩ := advance_cases hstep
    have hmem := mem_of_getElem? ht
    cases hmoves with
    | deleted call next => exact fun row hrow => latest row ((deleteMany_sublist _).subset hrow)
    | stored stores held seals written next =>
      rename_i name value answer ring payload _
      intro row' hrow'
      rcases mem_upsert hrow' with ⟨hrow, hname⟩ | ⟨hname, hpayload, hversion, _⟩
      · obtain ⟨last, hlast, hlabelled⟩ := latest row' hrow
        refine ⟨last, ?_, hlabelled⟩
        change ((name, value) :: s.stored).lookup _ = _
        rw [lookup_cons, beq_false_of_ne hname, hlast]
      · have hlast : ((name, value) :: s.stored).lookup row'.name = some value := by
          rw [hname]
          exact lookup_cons_self
        refine ⟨value, hlast, ?_⟩
        rw [StoredSecret.Labelled, hname, hpayload, hversion, ← (h.held t hmem _ held).1]
        exact seals
    | resealed stage written =>
      rename_i secret value resealed currentVersion
      obtain ⟨hseals, _, hnamed⟩ := h.renews t hmem _ _ _ _ stage
      intro row' hrow'
      obtain ⟨row, hrow, _, _, ⟨rfl, _⟩ | ⟨hid, hversion, rfl⟩⟩ := mem_updateMany hrow'
      · exact latest _ hrow
      · obtain ⟨last, hlast, hlabelled⟩ := latest row hrow
        obtain ⟨key, hkey⟩ := undisturbed written t ht _ _ _ _ stage row hrow hid hversion
        refine ⟨last, hlast, ?_⟩
        have hname : (row.reseal resealed currentVersion).name = secret.name := hnamed row hrow hid
        rw [StoredSecret.Labelled, hname]
        exact hseals.alike (hkey.same hlabelled)
    | _ => exact latest

end

/-! ## Rotation -/

/-- Nobody calls yet, and every row holds the latest value under the key of its version. -/
structure Start (gcm : Gcm) (keyOf : Nat → Bytes) (s : State) : Prop where
  sessions : s.sessions = []
  names : (s.rows.map fun row => row.name).Nodup
  unique : UniqueIds s.rows
  ids : ∀ row ∈ s.rows, row.id ∈ s.ids
  latest : Latest gcm keyOf s

variable {gcm : Gcm} {keyOf : Nat → Bytes}

theorem Start.sound {s : State} (h : Start gcm keyOf s) :
    Sound gcm keyOf s := by
  refine ⟨h.names, h.ids, h.unique, ?_, ?_, ?_⟩
  · intro row hrow
    obtain ⟨value, _, hlabelled⟩ := h.latest row hrow
    exact ⟨value, hlabelled⟩
  · rw [h.sessions]
    exact forall_mem_nil _
  · rw [h.sessions]
    exact forall_mem_nil _

/-- The rotation is complete when every row opens with the current key alone. -/
theorem complete_iff (gcm : Gcm) (ring : EncryptionKeyRing) (rows : List StoredSecret) :
    (rotationStatus gcm ring rows).complete = true ↔
      ∀ row ∈ rows, ∃ value, decrypt gcm (.ok { ring with previous := none }) row = .ok value := by
  have hrow (row : StoredSecret) :
      ((decrypt gcm (.ok ring) row).isOk && row.keyVersion == ring.currentVersion) = true ↔
        ∃ value, decrypt gcm (.ok { ring with previous := none }) row = .ok value := by
    by_cases hversion : row.keyVersion = ring.currentVersion
    · have hsame : decrypt gcm (.ok { ring with previous := none }) row =
          decrypt gcm (.ok ring) row := by
        simp only [decrypt, bind, Except.bind, EncryptionKeyRing.key, hversion, if_true]
      rw [hsame]
      cases decrypt gcm (.ok ring) row <;> simp [Except.isOk, Except.toBool, hversion]
    · have hnone : ({ ring with previous := none } : EncryptionKeyRing).key row.keyVersion =
          none := by
        simp only [EncryptionKeyRing.key, hversion, if_false]
        split <;> rfl
      constructor
      · simp [hversion]
      · rintro ⟨value, hvalue⟩
        simp only [decrypt, bind, Except.bind, hnone] at hvalue
        cases hvalue
  simp only [rotationStatus, all_map, List.all_eq_true, Function.comp_apply, hrow]

/-- Values without surrogates that stand alone. -/
def Plain : Action → Prop
  | .call _ (.store _ value _) => toWellFormed value = value
  | .advance _ draw => ∀ value, draw.createValue = .ok value → toWellFormed value = value
  | _ => True

def PlainCalls (s : State) : Prop :=
  (∀ e ∈ s.stored, toWellFormed e.2 = e.2) ∧
    ∀ t ∈ s.sessions, ∀ name value owner, t.call = .store name value owner →
      toWellFormed value = value

theorem plain_step {s s' : State} {a : Action} (h : PlainCalls s) (plain : Plain a)
    (hstep : step gcm s a = some s') : PlainCalls s' := by
  obtain ⟨hstored, hcalls⟩ := h
  cases a with
  | call keys call =>
    cases hstep
    refine ⟨hstored, ?_⟩
    intro t ht name value owner hcall
    rcases mem_append.mp ht with ht | ht
    · exact hcalls t ht name value owner hcall
    · cases mem_singleton.mp ht
      cases hcall
      exact plain
  | crash i =>
    obtain ⟨t, ht, rfl⟩ := crash_cases hstep
    refine ⟨hstored, ?_⟩
    intro u hu
    rcases mem_or_eq_of_mem_set hu with hu | rfl
    · exact hcalls u hu
    · exact hcalls t (mem_of_getElem? ht)
  | advance i draw =>
    obtain ⟨t, p, fresh, ht, hmoves, rfl⟩ := advance_cases hstep
    have hmem := mem_of_getElem? ht
    constructor
    · cases hmoves with
      | stored stores held seals written next =>
        intro e he
        rcases mem_cons.mp he with rfl | he
        · cases stores with
          | store called call => exact hcalls t hmem _ _ _ call
          | create minting call created => exact plain _ created
        · exact hstored e he
      | _ => exact hstored
    · intro u hu
      rcases mem_or_eq_of_mem_set hu with hu | rfl
      · exact hcalls u hu
      · exact hcalls t hmem

theorem held_key {ring : EncryptionKeyRing} {version : Nat} {key : Bytes}
    (held : Holds keyOf (.ok ring)) (h : ring.key version = some key) : key = keyOf version := by
  obtain ⟨hcurrent, hprevious⟩ := held ring rfl
  rw [EncryptionKeyRing.key] at h
  split at h
  · rename_i hversion
    rw [hversion, ← hcurrent]
    exact (Option.some.inj h).symm
  · split at h
    · rename_i hversion
      exact hprevious key h version hversion
    · cases h

/-- The row opens to this value, for every process that holds the key of its version. -/
def OpensTo (gcm : Gcm) (keyOf : Nat → Bytes) (row : StoredSecret) (value : JsString) : Prop :=
  (∀ keys v, decrypt gcm keys row = .ok v → v = value) ∧
    ∀ ring, Holds keyOf (.ok ring) → (ring.key row.keyVersion).isSome = true →
      decrypt gcm (.ok ring) row = .ok value

theorem opens_labelled {row : StoredSecret} {value : JsString} (h : row.Labelled gcm keyOf value)
    (plain : toWellFormed value = value) :
    OpensTo gcm keyOf row value := by
  constructor
  · intro keys v hopens
    rw [decrypt_seals h hopens, plain]
  · intro ring held hsome
    obtain ⟨key, hkey⟩ := Option.isSome_iff_exists.mp hsome
    rw [decrypt_held h (held_key held hkey ▸ hkey), plain]

/-- A cipher that writes the text and what it is bound to. -/
def sampleGcm : Gcm where
  encrypt key initializationVector aad text := (text, key ++ initializationVector ++ aad)
  decrypt key initializationVector aad ciphertext authenticationTag :=
    if authenticationTag = key ++ initializationVector ++ aad then some ciphertext else none
  inverts key iv aad text := by rw [if_pos rfl]
  authentic key key' iv aad text text' h := by
    split at h
    · exact (Option.some.inj h).symm
    · cases h

def sampleKey (version : Nat) : Bytes := [version.toUInt8]

def firstRing : EncryptionKeyRing := ⟨1, sampleKey 1, none⟩

def secondRing : EncryptionKeyRing := ⟨2, sampleKey 2, some (sampleKey 1)⟩

def sampleName : JsString := [0x6E]

instance neZeroTen : NeZero 10 := inferInstance

def sampleId (digit : Fin 10) : Uuid where
  text := js "00000000-0000-4000-8000-00000000000" ++ [0x30 + digit.val.toUInt16]
  wellFormed := by revert digit; decide +kernel

/-- The draws of a step that mints this value. -/
def sampleDraw (digit : Fin 10) (value : JsString) : Draw :=
  ⟨[], sampleId digit, .ok value, .applied⟩

def emptyState : State := ⟨[], [], [], []⟩

theorem emptyState_start (gcm : Gcm) (keyOf : Nat → Bytes) : Start gcm keyOf emptyState :=
  ⟨rfl, nodup_nil, nofun, nofun, nofun⟩

theorem rings_hold : Holds sampleKey (.ok firstRing) ∧ Holds sampleKey (.ok secondRing) := by
  constructor
  · intro ring hring
    cases hring
    exact ⟨rfl, nofun⟩
  · intro ring hring
    cases hring
    refine ⟨rfl, ?_⟩
    intro previous hprevious version hversion
    cases hprevious
    cases hversion
    rfl

/-- The process with the newer key opens the secret, the other one stores another value, and then
the seal of the first value is renewed. -/
def lateReseal : List Action :=
  [.call (.ok firstRing) (.store sampleName [0x61] .platform), .advance 0 (sampleDraw 0 []),
    .call (.ok secondRing) (.accessOrCreate sampleName), .advance 1 (sampleDraw 1 []),
    .call (.ok firstRing) (.store sampleName [0x62] .platform), .advance 2 (sampleDraw 2 []),
    .advance 1 (sampleDraw 3 [])]

/-- The seal of a value is renewed before another one is stored. -/
def earlyReseal : List Action :=
  [.call (.ok firstRing) (.store sampleName [0x61] .platform), .advance 0 (sampleDraw 0 []),
    .call (.ok secondRing) (.accessOrCreate sampleName), .advance 1 (sampleDraw 1 []),
    .advance 1 (sampleDraw 2 [])]

end SecretStore
