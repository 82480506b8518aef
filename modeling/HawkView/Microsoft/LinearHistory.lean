import HawkView.Microsoft.ManagedConnectorAuthority

/-!
# One history of publications

Transactions commit in an order, and each publication in it replaces the revision
that the one before left. The advisory lock keeps the row that a transaction has
read, so what it decides on the row is true when it commits.
-/

namespace ManagedConnectorAuthority

open Locking List Option

/-! ## Fingerprints -/

theorem expiry_inj {a b : Option Int} (ha : a.all finite = true) (hb : b.all finite = true)
    (h : a.map IsoTime.toISOString = b.map IsoTime.toISOString) : a = b := by
  cases a with
  | none =>
    cases b with
    | none => rfl
    | some u => cases h
  | some t =>
    cases b with
    | none => cases h
    | some u =>
      simp only [all_some, finite, decide_eq_true_eq] at ha hb
      simp only [map_some, Option.some.injEq] at h
      rw [IsoTime.toISOString_inj ha hb h]

variable {q : Publication}

/-- Equal fingerprints come from equal publications. -/
theorem fingerprint_inj {sha256 : JsString → JsString} (collisionFree : Function.Injective sha256)
    {p : Publication} (hp : p.credentialExpiresAt.all finite = true)
    (hq : q.credentialExpiresAt.all finite = true)
    (h : p.fingerprint sha256 = q.fingerprint sha256) : p = q := by
  have hfacts : p.facts = q.facts := Json.stringify_injective (collisionFree h)
  simp only [Publication.facts, Json.array.injEq, List.cons.injEq, Json.string.injEq,
    Json.number.injEq, and_true] at hfacts
  obtain ⟨hexpected, hoperation, hrevision, hclient, hhome, hexpiry, hversion, hcipher, hvector,
    htag⟩ := hfacts
  have hexpected := map_injective (fun _ _ => Uuid.text_injective)
    (Publication.jsonOption_injective hexpected)
  have hexpiry := expiry_inj hp hq (Publication.jsonOption_injective hexpiry)
  have hcontent : p.content = q.content := by
    have hversion := NumberText.ofInt_injective hversion
    have hcipher := Base64.encode_injective hcipher
    have hvector := Base64.encode_injective hvector
    have htag := Base64.encode_injective htag
    cases hpc : p.content
    cases hqc : q.content
    simp_all
  have hoperation := Uuid.text_injective hoperation
  have hrevision := Uuid.text_injective hrevision
  have hclient := Uuid.text_injective hclient
  have hhome := Uuid.text_injective hhome
  cases p
  cases q
  simp_all

/-! ## Histories -/

def advance (current : Option Uuid) : Event → Option Uuid
  | .published _ p => some p.revision
  | .worked _ _ => current

/-- The current revision after a history. -/
def revisionAfter (start : Option Uuid) (history : List Event) : Option Uuid :=
  history.foldl advance start

/-- A publication replaces the revision it expected, and work is done under the current one. -/
def Fits (current : Option Uuid) : Event → Prop
  | .published _ p => p.expectedRevision = current
  | .worked _ revision => current = some revision

def Linear : Option Uuid → List Event → Prop
  | _, [] => True
  | current, e :: rest => Fits current e ∧ Linear (advance current e) rest

def publications (history : List Event) : List (Nat × Publication) :=
  history.filterMap fun
    | .published session p => some (session, p)
    | .worked _ _ => none

/-- The revisions that have been current, each as often as it became so. -/
def everCurrent (start : Option Uuid) (history : List Event) : List Uuid :=
  start.toList ++ (publications history).map fun r => r.2.revision

variable {start : Option Uuid} {history : List Event} {e : Event} {p : Publication}
  {session : Nat}

theorem revisionAfter_append : revisionAfter start (history ++ [e]) =
    advance (revisionAfter start history) e := by
  rw [revisionAfter, foldl_append]
  rfl

theorem linear_append :
    Linear start (history ++ [e]) ↔
      Linear start history ∧ Fits (revisionAfter start history) e := by
  induction history generalizing start with
  | nil => simp [Linear, revisionAfter]
  | cons first rest ih =>
    rw [cons_append, Linear, Linear, ih, and_assoc]
    rfl

theorem publications_append_published :
    publications (history ++ [.published session p]) = publications history ++ [(session, p)] := by
  simp [publications]

theorem publications_append_worked (revision : Uuid) :
    publications (history ++ [.worked session revision]) = publications history := by
  simp [publications]

theorem mem_publications : (session, p) ∈ publications history ↔
    .published session p ∈ history := by
  unfold publications
  rw [mem_filterMap]
  constructor
  · rintro ⟨e, he, heq⟩
    cases e with
    | published i q =>
      cases heq
      exact he
    | worked i r => cases heq
  · intro h
    exact ⟨_, h, rfl⟩

/-- What publications expected are the revisions that were current before them. -/
theorem expected_of_linear (h : Linear start history) :
    (publications history).map (fun r => r.2.expectedRevision) ++ [revisionAfter start history] =
      start :: (publications history).map fun r => some r.2.revision := by
  induction history generalizing start with
  | nil => simp [publications, revisionAfter]
  | cons e rest ih =>
    obtain ⟨hfits, hrest⟩ := h
    cases e with
    | published i q =>
      have := ih hrest
      simp only [publications, filterMap_cons, map_cons, cons_append] at this ⊢
      rw [← hfits]
      simp only [advance, revisionAfter, foldl_cons] at this ⊢
      rw [this]
    | worked i r => exact ih hrest

/-- With distinct revisions no two publications expected the same. -/
theorem published_once (h : Linear start history) (distinct : (everCurrent start history).Nodup)
    {i j : Nat} (hp : .published i p ∈ history) (hq : .published j q ∈ history)
    (same : p.expectedRevision = q.expectedRevision) : i = j ∧ p = q := by
  have hchain := expected_of_linear h
  have hnodup : (start :: (publications history).map fun r => some r.2.revision).Nodup := by
    have hsome := distinct.map (some_injective Uuid)
    cases start with
    | none =>
      rw [nodup_cons]
      simp only [everCurrent, toList_none, nil_append, List.map_map] at hsome
      exact ⟨by simp, hsome⟩
    | some r =>
      simp only [everCurrent, toList_some, singleton_append, map_cons,
        List.map_map] at hsome
      exact hsome
  rw [← hchain] at hnodup
  have hexpected := (nodup_append.mp hnodup).1
  have heq := inj_on_of_nodup_map hexpected (mem_publications.mpr hp)
    (mem_publications.mpr hq) same
  exact ⟨congrArg Prod.fst heq, congrArg Prod.snd heq⟩

/-! ## What a commit does -/

section Commit

variable {sha256 : JsString → JsString} {db db' : AuthorityDb} {x : Draw} {outcome : Outcome}

/-- A publication that is written expected the current revision and is new. -/
structure Publishes (sha256 : JsString → JsString) (session : Nat) (p : Publication)
    (db db' : AuthorityDb) : Prop where
  write : db' = db.write sha256 session p db.connector
  expected : p.expectedRevision = db.revision
  changed : p.expectedRevision ≠ some p.revision
  unused : db.used p = false

theorem publish_cases {result : PublicationResult}
    (h : publishManagedAuthority sha256 session p db.connector db = (db', result)) :
    db' = db ∧ (∀ a, result ≠ .published a) ∨
      Publishes sha256 session p db db' ∧ result = .published p.authority := by
  unfold publishManagedAuthority at h
  cases hconnector : db.connector with
  | none =>
    rw [hconnector] at h
    simp only at h
    split at h
    · cases h
      exact .inl ⟨rfl, by simp⟩
    rename_i hexpected
    rw [not_not] at hexpected
    split at h
    · cases h
      exact .inl ⟨rfl, by simp⟩
    rename_i hunused
    cases h
    right
    refine ⟨⟨by rw [hconnector], ?_, by simp [hexpected], Bool.eq_false_iff.mpr hunused⟩, rfl⟩
    rw [hexpected, AuthorityDb.revision, hconnector]
    rfl
  | some c =>
    rw [hconnector] at h
    simp only at h
    split at h
    · cases h
      refine .inl ⟨rfl, ?_⟩
      split <;> simp
    split at h
    · cases h
      exact .inl ⟨rfl, by simp⟩
    rename_i hexpected
    rw [not_not] at hexpected
    split at h
    · cases h
      exact .inl ⟨rfl, by simp⟩
    rename_i hfresh
    rw [Bool.or_eq_true, not_or, decide_eq_true_eq, Bool.not_eq_true] at hfresh
    cases h
    right
    refine ⟨⟨by rw [hconnector], ?_, hfresh.1, hfresh.2⟩, rfl⟩
    rw [← hexpected, AuthorityDb.revision, hconnector]
    rfl

/-- Repeated, the current publication is replayed; its operation id with anything else conflicts. -/
theorem publish_repeated (session : Nat) {q : Publication}
    (collisionFree : Function.Injective sha256)
    (latest : db.connector = some (p.stored sha256)) (same : q.operationId = p.operationId)
    (hp : p.credentialExpiresAt.all finite = true) (hq : q.credentialExpiresAt.all finite = true) :
    publishManagedAuthority sha256 session q db.connector db =
      (db, if q = p then .replayed p.authority else .conflict) := by
  have hfingerprint : some (p.fingerprint sha256) = some (q.fingerprint sha256) ↔ q = p := by
    rw [Option.some.injEq]
    constructor
    · exact fun h => (fingerprint_inj collisionFree hp hq h).symm
    · rintro rfl
      rfl
  unfold publishManagedAuthority
  rw [latest]
  simp only [Publication.stored, same, if_true, hfingerprint]

theorem accept_finite {input : PreparedManagedPublication} (h : accept input = some p) :
    p.credentialExpiresAt.all finite = true := by
  unfold accept at h
  simp only [bind_eq_bind] at h
  iterate 5 obtain ⟨_, _, h⟩ := bind_eq_some_iff.mp h
  split at h
  · rename_i hvalid
    cases h
    exact (Bool.and_eq_true_iff.mp hvalid).2
  · cases h

theorem upgrade_cases {prepare : Uuid → EncryptedSecret → Option Sealed} {status : UpgradeStatus}
    (h : upgradeLegacyManagedAuthority sha256 session x prepare db.connector db =
      some (db', status)) :
    db' = db ∨ ∃ p, p.credentialExpiresAt.all finite = true ∧
      Publishes sha256 session p db db' := by
  unfold upgradeLegacyManagedAuthority at h
  cases hconnector : db.connector with
  | none =>
    rw [hconnector] at h
    cases h
    exact .inl rfl
  | some c =>
    rw [hconnector] at h
    simp only at h
    split at h
    · cases h
      exact .inl rfl
    split at h
    · cases h
      exact .inl rfl
    simp only [bind_eq_bind] at h
    obtain ⟨secretId, _, h⟩ := bind_eq_some_iff.mp h
    split at h
    · cases h
      exact .inl rfl
    split at h
    · rename_i source _
      split at h
      · cases h
        exact .inl rfl
      obtain ⟨content, _, h⟩ := bind_eq_some_iff.mp h
      obtain ⟨p, hp, h⟩ := bind_eq_some_iff.mp h
      rw [← hconnector] at h
      split at h
      · rename_i dbp a hpublish
        cases h
        rcases publish_cases hpublish with ⟨_, hnone⟩ | ⟨hpublishes, _⟩
        · exact absurd rfl (hnone a)
        · exact .inr ⟨p, accept_finite hp, hpublishes⟩
      · cases h
    · cases h
      exact .inl rfl

/-- A commit on the row as it is publishes, works under the current revision, or leaves all. -/
inductive Effect (sha256 : JsString → JsString) (session : Nat) (db : AuthorityDb) :
    AuthorityDb → Prop
  | nothing : Effect sha256 session db db
  | publishes {p : Publication} {db' : AuthorityDb}
      (finite : p.credentialExpiresAt.all finite = true)
      (publishes : Publishes sha256 session p db db') : Effect sha256 session db db'
  | works {revision : Uuid} (current : db.revision = some revision) :
      Effect sha256 session db { db with history := db.history ++ [.worked session revision] }

variable {call : Call}

theorem transact_effect (h : transact sha256 call db.connector session x db = some (db', outcome)) :
    Effect sha256 session db db' := by
  cases call with
  | publish input =>
    simp only [transact, map_eq_some_iff] at h
    obtain ⟨p, hp, hpublish⟩ := h
    cases hresult : publishManagedAuthority sha256 session p db.connector db with
    | mk dbp result =>
      rw [hresult] at hpublish
      cases hpublish
      rcases publish_cases hresult with ⟨rfl, _⟩ | ⟨hpublishes, _⟩
      · exact .nothing
      · exact .publishes (accept_finite hp) hpublishes
  | upgrade prepare =>
    simp only [transact, map_eq_some_iff] at h
    obtain ⟨⟨dbu, status⟩, hupgrade, hresult⟩ := h
    cases hresult
    rcases upgrade_cases hupgrade with rfl | ⟨p, hp, hpublishes⟩
    · exact .nothing
    · exact .publishes hp hpublishes
  | work expectedRevision =>
    simp only [transact, map_eq_some_iff] at h
    obtain ⟨expected, _, hwork⟩ := h
    unfold withManagedAuthority at hwork
    cases hconnector : db.connector with
    | none =>
      rw [hconnector] at hwork
      cases hwork
      exact .nothing
    | some c =>
      rw [hconnector] at hwork
      simp only at hwork
      split at hwork
      · rename_i hcurrent
        cases hwork
        have hrevision : db.revision = some expected := by
          rw [AuthorityDb.revision, hconnector, map_some, hcurrent]
        rw [← hconnector]
        exact .works hrevision
      · cases hwork
        exact .nothing

/-- Only a publication changes the row. -/
theorem transact_work (shared : call.mode = .shared) {current : Option StoredAuthority}
    (h : transact sha256 call current session x db = some (db', outcome)) :
    db'.connector = db.connector := by
  cases call with
  | publish input => cases shared
  | upgrade prepare => cases shared
  | work expectedRevision =>
    simp only [transact, map_eq_some_iff] at h
    obtain ⟨expected, _, hwork⟩ := h
    unfold withManagedAuthority at hwork
    cases current with
    | none =>
      cases hwork
      rfl
    | some c =>
      simp only at hwork
      split at hwork <;> cases hwork <;> rfl

end Commit

/-! ## The ledger -/

/-- The row is absent, or was not written by a publication. -/
def Unpublished (db : AuthorityDb) : Prop :=
  db.history = [] ∧ ∀ c, db.connector = some c → c.operationId = none ∧ c.fingerprint = none

/-- The row after a history that began with `row`. -/
def connectorAfter (sha256 : JsString → JsString) (row : Option StoredAuthority)
    (history : List Event) : Option StoredAuthority :=
  match (publications history).getLast? with
  | none => row
  | some (_, p) => some (p.stored sha256)

structure Ledger (sha256 : JsString → JsString) (db₀ db : AuthorityDb) : Prop where
  linear : Linear db₀.revision db.history
  distinct : (everCurrent db₀.revision db.history).Nodup
  current : db.revision = revisionAfter db₀.revision db.history
  connector : db.connector = connectorAfter sha256 db₀.connector db.history
  retired : ∀ r ∈ everCurrent db₀.revision db.history, r ∈ db.revisions ∨ db.revision = some r
  secrets : ∀ session p, .published session p ∈ db.history →
    p.secret ∈ db.secrets ∧ ∀ s ∈ db.secrets, s.id = p.revision → s = p.secret
  finite : ∀ session p, .published session p ∈ db.history →
    p.credentialExpiresAt.all finite = true

section Invariant

variable {sha256 : JsString → JsString} {db₀ db db' : AuthorityDb}

theorem ledger_initial (h : Unpublished db₀) : Ledger sha256 db₀ db₀ := by
  have heverCurrent : everCurrent db₀.revision db₀.history = db₀.revision.toList := by
    simp [everCurrent, h.1, publications]
  refine ⟨by simp [h.1, Linear], ?_, by simp [h.1, revisionAfter],
    by simp [h.1, connectorAfter, publications], ?_, by simp [h.1], by simp [h.1]⟩
  · rw [heverCurrent]
    cases db₀.revision <;> simp
  · intro r hr
    rw [heverCurrent, mem_toList] at hr
    exact .inr hr

theorem Publishes.fresh (h : Publishes sha256 session p db db') :
    (∀ s ∈ db.secrets, s.id ≠ p.revision) ∧ p.revision ∉ db.revisions ∧
      db.revision ≠ some p.revision := by
  have hunused := h.unused
  simp only [AuthorityDb.used, Bool.or_eq_false_iff, List.any_eq_false, Bool.or_eq_true,
    beq_iff_eq, not_or, contains_eq_mem, decide_eq_false_iff_not] at hunused
  refine ⟨fun s hs => (hunused.1 s hs).1, hunused.2, ?_⟩
  rw [← h.expected]
  exact h.changed

theorem ledger_published (h : Ledger sha256 db₀ db)
    (finite : p.credentialExpiresAt.all finite = true) (step : Publishes sha256 session p db db') :
    Ledger sha256 db₀ db' := by
  obtain ⟨hsecrets, hretired, hcurrent⟩ := step.fresh
  have hnew : p.revision ∉ everCurrent db₀.revision db.history := by
    intro hmem
    rcases h.retired _ hmem with hold | hnow
    · exact hretired hold
    · exact hcurrent hnow
  have hever : everCurrent db₀.revision (db.history ++ [.published session p]) =
      everCurrent db₀.revision db.history ++ [p.revision] := by
    simp [everCurrent, publications_append_published]
  have hwrite := step.write
  subst hwrite
  refine ⟨?_, ?_, ?_, ?_, ?_, ?_, ?_⟩
  · rw [AuthorityDb.write, linear_append]
    refine ⟨h.linear, ?_⟩
    rw [Fits, step.expected]
    exact h.current
  · rw [AuthorityDb.write, hever, nodup_append]
    refine ⟨h.distinct, nodup_singleton _, ?_⟩
    intro r hr s hs heq
    rw [mem_singleton] at hs
    rw [heq, hs] at hr
    exact hnew hr
  · rw [AuthorityDb.write, revisionAfter_append]
    rfl
  · rw [AuthorityDb.write, connectorAfter, publications_append_published, getLast?_append]
    rfl
  · intro r hr
    rw [AuthorityDb.write, hever, mem_append, mem_singleton] at hr
    rcases hr with hr | rfl
    · left
      simp only [AuthorityDb.write, mem_append]
      rcases h.retired r hr with hold | hnow
      · exact .inl (.inl hold)
      · refine .inl (.inr ?_)
        rw [mem_toList]
        exact hnow
    · exact .inr rfl
  · intro i q hq
    simp only [AuthorityDb.write, mem_append, mem_singleton] at hq ⊢
    rcases hq with hq | hq
    · obtain ⟨hmem, hunique⟩ := h.secrets i q hq
      refine ⟨.inl hmem, ?_⟩
      rintro s (hs | rfl) hid
      · exact hunique s hs hid
      · exact absurd hid.symm (hsecrets _ hmem)
    · cases hq
      refine ⟨.inr rfl, ?_⟩
      rintro s (hs | rfl) hid
      · exact absurd hid (hsecrets s hs)
      · rfl
  · intro i q hq
    simp only [AuthorityDb.write, mem_append, mem_singleton] at hq
    rcases hq with hq | hq
    · exact h.finite i q hq
    · cases hq
      exact finite

theorem ledger_worked (h : Ledger sha256 db₀ db) {revision : Uuid}
    (current : db.revision = some revision) :
    Ledger sha256 db₀ { db with history := db.history ++ [.worked session revision] } := by
  have hmem : ∀ i q, Event.published i q ∈ db.history ++ [.worked session revision] →
      .published i q ∈ db.history := by
    intro i q hq
    simpa using hq
  have hever : everCurrent db₀.revision (db.history ++ [.worked session revision]) =
      everCurrent db₀.revision db.history := by
    simp [everCurrent, publications_append_worked]
  refine ⟨?_, ?_, ?_, ?_, ?_, fun i q hq => h.secrets i q (hmem i q hq),
    fun i q hq => h.finite i q (hmem i q hq)⟩
  · rw [linear_append]
    refine ⟨h.linear, ?_⟩
    rw [Fits, ← h.current]
    exact current
  · rw [hever]
    exact h.distinct
  · rw [revisionAfter_append]
    exact h.current
  · rw [connectorAfter, publications_append_worked]
    exact h.connector
  · rw [hever]
    exact h.retired

theorem ledger_effect (h : Ledger sha256 db₀ db) (effect : Effect sha256 session db db') :
    Ledger sha256 db₀ db' := by
  cases effect with
  | nothing => exact h
  | publishes finite publishes => exact ledger_published h finite publishes
  | works current => exact ledger_worked h current

end Invariant

/-! ## Sessions -/

/-- A publication or work that a session reported is in the history. -/
def Told (db : AuthorityDb) (i : Nat) : Call → Outcome → Prop
  | .publish input, .publication (.published a) =>
    ∀ p, accept input = some p → a = p.authority ∧ .published i p ∈ db.history
  | .work revision, .work .current =>
    ∀ expected, uuid revision = some expected → .worked i expected ∈ db.history
  | _, _ => True

/-- What a session may rely on: the lock it holds, the row it read under it, what it reported. -/
def Knows (db : AuthorityDb) (i : Nat) (t : Session Unit Phase) : Prop :=
  match t.phase with
  | .waiting _ => True
  | .locked call => ((), call.mode) ∈ t.held
  | .ready call current => ((), call.mode) ∈ t.held ∧ current = db.connector
  | .finished call outcome => Told db i call outcome
  | .failed _ => True

section Sessions

variable {sha256 : JsString → JsString} {db₀ db db' : AuthorityDb}

theorem commit_ready {phase next : Phase} {i : Nat} {x : Draw}
    {write : Nat → Draw → AuthorityDb → Option (AuthorityDb × Phase)}
    (hmove : (program sha256).move phase = .commit write)
    (hwrite : write i x db = some (db', next)) : ∃ call current outcome,
      phase = .ready call current ∧ next = .finished call outcome ∧
      transact sha256 call current i x db = some (db', outcome) := by
  cases phase with
  | ready call current =>
    cases hmove
    simp only [map_eq_some_iff] at hwrite
    obtain ⟨⟨dbt, outcome⟩, htransact, hresult⟩ := hwrite
    cases hresult
    exact ⟨call, current, outcome, rfl, rfl, htransact⟩
  | _ => cases hmove

theorem Effect.keeps (h : Effect sha256 session db db') {e : Event} (he : e ∈ db.history) :
    e ∈ db'.history := by
  cases h with
  | nothing => exact he
  | publishes finite publishes =>
    rw [publishes.write, AuthorityDb.write]
    exact mem_append_left _ he
  | works current => exact mem_append_left _ he

variable {call : Call} {outcome : Outcome}

theorem told_commit {x : Draw}
    (h : transact sha256 call db.connector session x db = some (db', outcome)) :
    Told db' session call outcome := by
  cases call with
  | publish input =>
    simp only [transact, map_eq_some_iff] at h
    obtain ⟨q, hq, h⟩ := h
    cases hresult : publishManagedAuthority sha256 session q db.connector db with
    | mk dbp result =>
      rw [hresult] at h
      cases h
      cases result with
      | published a =>
        intro p haccept
        rw [hq, Option.some.injEq] at haccept
        subst haccept
        rcases publish_cases hresult with ⟨_, hnone⟩ | ⟨hpublishes, hauthority⟩
        · exact absurd rfl (hnone a)
        · refine ⟨PublicationResult.published.inj hauthority, ?_⟩
          change _ ∈ dbp.history
          rw [hpublishes.write]
          exact mem_append_right _ mem_cons_self
      | _ => trivial
  | upgrade prepare =>
    simp only [transact, map_eq_some_iff] at h
    obtain ⟨_, _, h⟩ := h
    cases h
    trivial
  | work revision =>
    simp only [transact, map_eq_some_iff] at h
    obtain ⟨expected, hexpected, h⟩ := h
    unfold withManagedAuthority at h
    cases hconnector : db.connector with
    | none =>
      rw [hconnector] at h
      cases h
      trivial
    | some c =>
      rw [hconnector] at h
      simp only at h
      split at h
      · cases h
        intro other hother
        rw [hexpected, Option.some.injEq] at hother
        subst hother
        exact mem_append_right _ mem_cons_self
      · cases h
        trivial

theorem Told.keeps {i : Nat} (h : Told db i call outcome) (effect : Effect sha256 session db db') :
    Told db' i call outcome := by
  unfold Told at h ⊢
  split
  · intro p haccept
    exact (h p haccept).imp id effect.keeps
  · intro expected hexpected
    exact effect.keeps (h expected hexpected)
  · trivial

theorem discipline (sha256 : JsString → JsString) (db₀ : AuthorityDb) :
    Discipline (program sha256) 0 (Ledger sha256 db₀) Knows where
  start {db i p} _ _ hstarts := by
    cases p with
    | waiting call => trivial
    | _ => cases hstarts
  acquire {db i t lock mode next} _ hknown hmove := by
    obtain ⟨phase, held⟩ := t
    cases phase with
    | waiting call =>
      cases hmove
      exact mem_cons_self
    | _ => cases hmove
  observe {db i t next} _ hknown hmove := by
    obtain ⟨phase, held⟩ := t
    cases phase with
    | locked call =>
      cases hmove
      exact ⟨hknown, rfl⟩
    | _ => cases hmove
  commit {db i t write x db' p} hledger hknown hmove hwrite := by
    obtain ⟨phase, held⟩ := t
    obtain ⟨call, current, outcome, rfl, rfl, htransact⟩ := commit_ready hmove hwrite
    obtain ⟨_, rfl⟩ := hknown
    exact ⟨ledger_effect hledger (transact_effect htransact), told_commit htransact⟩
  stable {db i t write x db' p j u} _ hknown hmove hwrite _ huknown hapart := by
    obtain ⟨phase, held⟩ := t
    obtain ⟨call, current, outcome, rfl, rfl, htransact⟩ := commit_ready hmove hwrite
    obtain ⟨hheld, rfl⟩ := hknown
    obtain ⟨phase, uheld⟩ := u
    cases phase with
    | waiting call => trivial
    | locked call => exact huknown
    | ready other current =>
      obtain ⟨huheld, rfl⟩ := huknown
      refine ⟨huheld, ?_⟩
      cases hmode : call.mode with
      | shared => exact (transact_work hmode htransact).symm
      | exclusive =>
        rw [hmode] at hheld
        exact (hapart.exclusive hheld huheld).elim
    | finished other result => exact Told.keeps huknown (transact_effect htransact)
    | failed other => trivial
  abort {db i t} _ hknown := by
    obtain ⟨phase, held⟩ := t
    cases phase with
    | finished call outcome => exact hknown
    | _ => trivial

/-- The publications of a system are one history, and its sessions tell the truth about it. -/
structure LinearHistory (sha256 : JsString → JsString) (db₀ : AuthorityDb) (s : System) :
    Prop where
  linear : Linear db₀.revision s.db.history
  current : s.db.revision = revisionAfter db₀.revision s.db.history
  distinct : (everCurrent db₀.revision s.db.history).Nodup
  once : ∀ i j p q, .published i p ∈ s.db.history → .published j q ∈ s.db.history →
    p.expectedRevision = q.expectedRevision → i = j ∧ p = q
  told : ∀ (i : Nat) call outcome held,
    s.sessions[i]? = some ⟨.finished call outcome, held⟩ → Told s.db i call outcome
  reference : ∀ c, s.db.connector = some c →
    db₀.connector = some c ∧ publications s.db.history = [] ∨
    c.credentialReference = SECRET_REFERENCE ++ c.configurationRevision.text ∧
      ∃ i p, .published i p ∈ s.db.history ∧ p.revision = c.configurationRevision ∧
        p.secret ∈ s.db.secrets ∧
        ∀ secret ∈ s.db.secrets, secret.id = p.revision → secret = p.secret
  repeated : ∀ (i j : Nat) input p q current held x s',
    (publications s.db.history).getLast? = some (j, p) → accept input = some q →
    q.operationId = p.operationId → s.sessions[i]? = some ⟨.ready (.publish input) current, held⟩ →
    step (program sha256) s (.advance i x) = some s' →
    s'.db = s.db ∧ s'.sessions[i]? = some ⟨.finished (.publish input)
      (.publication (if q = p then .replayed p.authority else .conflict)), []⟩

theorem reference_of_ledger (h : Ledger sha256 db₀ db) {c : StoredAuthority}
    (hc : db.connector = some c) : db₀.connector = some c ∧ publications db.history = [] ∨
      c.credentialReference = SECRET_REFERENCE ++ c.configurationRevision.text ∧
        ∃ i p, .published i p ∈ db.history ∧ p.revision = c.configurationRevision ∧
          p.secret ∈ db.secrets ∧
          ∀ secret ∈ db.secrets, secret.id = p.revision → secret = p.secret := by
  have hrow := h.connector
  unfold connectorAfter at hrow
  cases hlast : (publications db.history).getLast? with
  | none =>
    rw [hlast, hc] at hrow
    exact .inl ⟨hrow.symm, List.getLast?_eq_none_iff.mp hlast⟩
  | some r =>
    obtain ⟨i, p⟩ := r
    rw [hlast, hc, Option.some.injEq] at hrow
    subst hrow
    have hmem := mem_publications.mp (mem_of_getLast? hlast)
    obtain ⟨hsecret, hunique⟩ := h.secrets i p hmem
    exact .inr ⟨rfl, i, p, hmem, rfl, hsecret, hunique⟩

end Sessions

section Sample

def sampleId (digit : JsString) : JsString :=
  digit ++ js "0000000-0000-4000-8000-000000000000"

def bootstrapInput : PreparedManagedPublication where
  expectedRevision := none
  operationId := sampleId (js "1")
  revision := sampleId (js "A")
  clientId := sampleId (js "2")
  homeTenantId := sampleId (js "3")
  credentialExpiresAt := none
  content := ⟨[0x66], List.replicate 12 0, List.replicate 16 0, 1⟩

def sampleDraw : Draw :=
  ⟨⟨sampleId (js "4"), by decide⟩, ⟨sampleId (js "5"), by decide⟩⟩

/-- A publication on an empty store, and work under the revision it published. -/
def bootstrapRun : List (Action Phase Draw) := [
  .start (.waiting (.publish bootstrapInput)),
  .start (.waiting (.work (sampleId (js "a")))),
  .advance 0 sampleDraw, .advance 0 sampleDraw, .advance 0 sampleDraw,
  .advance 1 sampleDraw, .advance 1 sampleDraw, .advance 1 sampleDraw]

/-- A row from before the first publication. -/
def legacyRow : StoredAuthority where
  configurationRevision := ⟨sampleId (js "a"), by decide⟩
  clientId := ⟨sampleId (js "2"), by decide⟩
  homeTenantId := ⟨sampleId (js "3"), by decide⟩
  credentialReference := SECRET_REFERENCE ++ sampleId (js "b")
  operationId := none
  fingerprint := none
  credentialExpiresAt := none

end Sample

end ManagedConnectorAuthority
