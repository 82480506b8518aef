import HawkView.Microsoft.ConsentOperationStore

/-!
# What consent transactions write

An operation moves through its states once. Each commit issues an operation,
brings one a step further or writes nothing, and the history of these commits
says which connection is whose.
-/

namespace ConsentOperations

open Locking ManagedConnectorAuthority List Option

/-! ## States of an operation -/

/-- One step of an operation. -/
inductive Moves : Progress → Progress → Prop
  | claim (c : Claim) : Moves .issued (.claimed c)
  | expire (t : Micros) (state : TerminalState) : Moves .issued (.ended none t state)
  | ends (c : Claim) (t : Micros) (state : TerminalState) :
      Moves (.claimed c) (.ended (some c) t state)
  | apply (c : Claim) (t : Micros) (state : TerminalState) (code : JsString) (connection : Uuid)
      (digest : JsString) : Moves (.claimed c) (.applied c t state code connection digest)

variable {p q : Progress}

theorem Moves.not_terminal (h : Moves p q) : p.terminal = none := by
  cases h <;> rfl

theorem Moves.not_issued (h : Moves p q) : q ≠ .issued := by
  cases h <;> simp

theorem Moves.claim_kept (h : Moves p q) {c : Claim} (hc : p.claim? = some c) :
    q.claim? = some c := by
  cases h with
  | claim d => cases hc
  | expire t state => cases hc
  | ends d t state => exact hc
  | apply d t state code connection digest => exact hc

/-- A row stays as it is, or its operation makes a step. -/
inductive RowStep : Operation → Operation → Prop
  | same (o : Operation) : RowStep o o
  | moved {o : Operation} {t : Trusted} {next : Progress} (trusted : o.trusted = some t)
      (moves : Moves t.progress next) : RowStep o { o with trusted := some ⟨t.expected, next⟩ }

variable {o o' : Operation}

theorem RowStep.terminal (h : RowStep o o') {t : Trusted} {result : ConsentTerminal}
    (trusted : o.trusted = some t) (terminal : t.progress.terminal = some result) : o' = o := by
  cases h with
  | same => rfl
  | moved htrusted hmoves =>
    rw [trusted, Option.some.injEq] at htrusted
    subst htrusted
    rw [hmoves.not_terminal] at terminal
    cases terminal

/-- What the operation was issued for, and a claim once granted, are kept. -/
theorem RowStep.keeps (h : RowStep o o') {t : Trusted} (trusted : o.trusted = some t) :
    ∃ t', o'.trusted = some t' ∧ t'.expected = t.expected ∧
      ∀ c, t.progress.claim? = some c → t'.progress.claim? = some c := by
  cases h with
  | same => exact ⟨t, trusted, rfl, fun _ => id⟩
  | moved htrusted hmoves =>
    rw [trusted, Option.some.injEq] at htrusted
    subst htrusted
    exact ⟨_, rfl, rfl, fun _ => hmoves.claim_kept⟩

/-! ## Reading rows -/

section Rows

variable {db db' : ConsentDb} {k : ConsentOperationKey} {o : Operation} {id : Uuid}
  {next : Progress}

theorem read_mem (h : db.readOperation k = some o) :
    o ∈ db.operations ∧ o.id = k.operationId ∧ o.stateHash = k.stateHash := by
  have hfound := find?_some h
  rw [decide_eq_true_eq] at hfound
  exact ⟨mem_of_find?_eq_some h, hfound⟩

theorem read_progress : (db.progress id next).readOperation k =
    (db.readOperation k).map fun o =>
      if o.id = id then { o with trusted := o.trusted.map fun t => { t with progress := next } }
      else o := by
  unfold ConsentDb.progress ConsentDb.readOperation
  simp only
  rw [find?_map]
  congr 2
  funext o
  simp only [Function.comp_apply]
  split <;> rfl

variable (next) in
theorem read_progress_self {t : Trusted} (read : db.readOperation k = some o)
    (trusted : o.trusted = some t) : (db.progress o.id next).readOperation k =
      some { o with trusted := some ⟨t.expected, next⟩ } := by
  rw [read_progress, read, map_some, if_pos rfl, trusted, map_some]

/-- Every row is there afterwards, as it was or a step further. -/
def Advances (db db' : ConsentDb) : Prop :=
  ∀ k o, db.readOperation k = some o → ∃ o', db'.readOperation k = some o' ∧ RowStep o o'

theorem Advances.refl (db : ConsentDb) : Advances db db := fun _ o h => ⟨o, h, .same o⟩

/-- Only the operations count for reading them. -/
theorem Advances.congr (h : Advances db db') {e : ConsentDb}
    (operations : e.operations = db'.operations) : Advances db e := by
  intro k o hread
  obtain ⟨o', hread', hstep⟩ := h k o hread
  refine ⟨o', ?_, hstep⟩
  rw [ConsentDb.readOperation, operations]
  exact hread'

theorem advances_append (added : Operation) (h : db'.operations = db.operations ++ [added]) :
    Advances db db' := by
  intro k o hread
  refine ⟨o, ?_, .same o⟩
  rw [ConsentDb.readOperation, h, find?_append]
  rw [ConsentDb.readOperation] at hread
  rw [hread, some_or]

/-- A step of one operation: its id is its own. -/
theorem advances_progress (distinct : (db.operations.map Operation.id).Nodup) {t : Trusted}
    (mem : o ∈ db.operations) (trusted : o.trusted = some t) (moves : Moves t.progress next) :
    Advances db (db.progress o.id next) := by
  intro k other hread
  rw [read_progress, hread, map_some]
  refine ⟨_, rfl, ?_⟩
  split
  · rename_i hid
    have heq := inj_on_of_nodup_map distinct (read_mem hread).1 mem hid
    subst heq
    rw [trusted, map_some]
    exact .moved trusted moves
  · exact .same other

theorem map_id_progress : (db.progress id next).operations.map Operation.id =
    db.operations.map Operation.id := by
  unfold ConsentDb.progress
  rw [List.map_map]
  apply map_congr_left
  intro o _
  simp only [Function.comp_apply]
  split <;> rfl

end Rows

/-! ## What a session is told -/

def issues (history : List Event) : List Uuid :=
  history.filterMap fun
    | .issued _ id => some id
    | _ => none

def claims (history : List Event) : List (Nat × Uuid) :=
  history.filterMap fun
    | .claimed session id => some (session, id)
    | _ => none

def applications (history : List Event) : List (Nat × Uuid) :=
  history.filterMap fun
    | .applied session id => some (session, id)
    | _ => none

/-- The operation is terminal, and `holds` of how it ended. -/
def Recorded (db : ConsentDb) (k : ConsentOperationKey) (holds : Progress → Prop) : Prop :=
  ∃ o t, db.readOperation k = some o ∧ o.trusted = some t ∧ t.progress.terminal.isSome ∧
    holds t.progress

variable {db db' : ConsentDb}

theorem Recorded.keeps {k : ConsentOperationKey} {holds : Progress → Prop}
    (h : Recorded db k holds) (advances : Advances db db') : Recorded db' k holds := by
  obtain ⟨o, t, hread, htrusted, hterminal, hholds⟩ := h
  obtain ⟨result, hresult⟩ := isSome_iff_exists.mp hterminal
  obtain ⟨o', hread', hstep⟩ := advances k o hread
  rw [hstep.terminal htrusted hresult] at hread'
  exact ⟨o, t, hread', htrusted, hterminal, hholds⟩

/-- What the outcome of a call says of the store. -/
def Told (sha256 : JsString → JsString) (db : ConsentDb) (i : Nat) : Call → Outcome → Prop
  | .claim k, .claimed context => context.key = k ∧ (i, k.operationId) ∈ claims db.history
  | .claim k, .terminal result => Recorded db k fun p => p.terminal = some result
  | .finish f, .applied result => (i, f.key.operationId) ∈ applications db.history ∧
    Recorded db f.key fun p => p.terminal = some result ∧
      p.claim?.map Claim.id = some f.claimId ∧ p.resultDigest = some (f.result.digest sha256)
  | .finish f, .ended result => Recorded db f.key fun p => p.terminal = some result ∧
    p.claim?.map Claim.id = some f.claimId ∧ p.resultDigest = none
  | .finish f, .replayed result => Recorded db f.key fun p => p.terminal = some result
  | _, _ => True

theorem Told.keeps {sha256 : JsString → JsString} {i : Nat} {call : Call} {outcome : Outcome}
    (h : Told sha256 db i call outcome) (advances : Advances db db')
    (history : ∀ e ∈ db.history, e ∈ db'.history) : Told sha256 db' i call outcome := by
  have hclaims : ∀ r ∈ claims db.history, r ∈ claims db'.history := by
    intro r hr
    obtain ⟨e, he, hevent⟩ := mem_filterMap.mp hr
    exact mem_filterMap.mpr ⟨e, history e he, hevent⟩
  have happlications : ∀ r ∈ applications db.history, r ∈ applications db'.history := by
    intro r hr
    obtain ⟨e, he, hevent⟩ := mem_filterMap.mp hr
    exact mem_filterMap.mpr ⟨e, history e he, hevent⟩
  unfold Told at h ⊢
  split
  · exact h.imp id (hclaims _)
  · exact h.keeps advances
  · exact ⟨happlications _ h.1, h.2.keeps advances⟩
  · exact h.keeps advances
  · exact h.keeps advances
  · trivial

/-! ## What a commit writes -/

/-- What the rest of a transaction does to the store, and to which operation. -/
inductive Effect (sha256 : JsString → JsString) (session : Nat) (x : Draw) (db : ConsentDb) :
    Option Uuid → ConsentDb → Prop
  | nothing {touched : Option Uuid} : Effect sha256 session x db touched db
  | issued {touched : Option Uuid} {o : Operation} {t : Trusted} {db' : ConsentDb}
      (id : o.id = x.operationId)
      (trusted : o.trusted = some t) (expected : t.expected.connection = x.incarnation)
      (operations : db'.operations = db.operations ++ [o]) (drawn : db'.drawn = db.drawn)
      (authority : db'.authority = db.authority)
      (connection : ∀ c ∈ db'.connection, c.incarnation = some x.incarnation)
      (history : db'.history = db.history ++ [.issued session x.operationId]) :
      Effect sha256 session x db touched db'
  | ended {o : Operation} {t : Trusted} {claim : Option Claim} {state : TerminalState}
      (mem : o ∈ db.operations) (trusted : o.trusted = some t)
      (moves : Moves t.progress (.ended claim (truncMillis x.sampledAt) state)) :
      Effect sha256 session x db (some o.id)
        (endWithoutAuthority db o claim state x.sampledAt).1
  | claimed {o : Operation} {t : Trusted} {claim : Claim} (mem : o ∈ db.operations)
      (trusted : o.trusted = some t) (issued : t.progress = .issued) :
      Effect sha256 session x db (some o.id) { db.progress o.id (.claimed claim) with
        history := db.history ++ [.claimed session o.id] }
  | applied {f : Finish} {o : Operation} {t : Trusted} {claim : Claim} {connection : Connection}
      (mem : o ∈ db.operations) (trusted : o.trusted = some t)
      (claimed : t.progress = .claimed claim) :
      Effect sha256 session x db (some o.id)
        (applyResult sha256 f o claim connection session x db).1

section Commits

variable {sha256 : JsString → JsString} {session : Nat} {x : Draw} {db db' : ConsentDb}
  {outcome : Outcome}

variable {current : ManagedAuthority}

theorem issue_effect {c : Issue} {connection : Connection}
    (h : issueConsentOperation c current connection session x db = (db', outcome)) :
    Effect sha256 session x db none db' ∧
      (db'.connection = db.connection ∨ ∀ c ∈ db'.connection, c.status = .pendingConsent) := by
  unfold issueConsentOperation at h
  simp only at h
  split at h
  · cases h
    exact ⟨.nothing, .inl rfl⟩
  split at h
  · cases h
    exact ⟨.nothing, .inl rfl⟩
  · cases h
    constructor
    · apply Effect.issued
      case operations => rfl
      case connection =>
        intro c hc
        rw [mem_some_iff] at hc
        subst hc
        rfl
      all_goals rfl
    · right
      intro c hc
      rw [mem_some_iff] at hc
      subst hc
      rfl

variable {row : Option Operation}

theorem claim_effect {k : ConsentOperationKey}
    (read : ∀ o, row = some o → db.readOperation k = some o)
    (h : claimConsentOperation k row session x db = (db', outcome)) :
    Effect sha256 session x db (some k.operationId) db' ∧
      db'.connection = db.connection ∧ Told sha256 db' session (.claim k) outcome := by
  unfold claimConsentOperation at h
  cases row with
  | none =>
    cases h
    exact ⟨.nothing, rfl, trivial⟩
  | some o =>
    obtain ⟨hmem, hid, _⟩ := read_mem (read o rfl)
    simp only at h
    cases htrusted : o.trusted with
    | none =>
      rw [htrusted] at h
      cases h
      exact ⟨.nothing, rfl, trivial⟩
    | some t =>
      rw [htrusted] at h
      simp only at h
      cases hprogress : t.progress with
      | claimed c =>
        rw [hprogress] at h
        cases h
        exact ⟨.nothing, rfl, trivial⟩
      | issued =>
        rw [hprogress] at h
        simp only at h
        rw [← hid]
        split at h
        · cases h
          refine ⟨.claimed hmem htrusted hprogress, rfl, rfl, ?_⟩
          simp [claims, hid]
        · cases h
          refine ⟨.ended hmem htrusted ?_, rfl, ?_⟩
          · rw [hprogress]
            exact .expire _ _
          · exact ⟨_, _, read_progress_self _ (read o rfl) htrusted, rfl, rfl, rfl⟩
      | applied c at' state code connection digest =>
        rw [hprogress] at h
        cases h
        exact ⟨.nothing, rfl, o, t, read o rfl, htrusted, hprogress ▸ rfl, hprogress ▸ rfl⟩
      | ended c at' state =>
        rw [hprogress] at h
        cases h
        exact ⟨.nothing, rfl, o, t, read o rfl, htrusted, hprogress ▸ rfl, hprogress ▸ rfl⟩

variable {f : Finish} {o : Operation}

theorem heldBy_some {t : Trusted} (h : heldBy f row = some (o, t)) :
    row = some o ∧ o.trusted = some t ∧ t.progress.claim?.map Claim.id = some f.claimId := by
  obtain ⟨p, hrow, h⟩ := bind_eq_some_iff.mp h
  obtain ⟨u, hu, h⟩ := bind_eq_some_iff.mp h
  split at h
  · rename_i hclaim
    cases h
    exact ⟨hrow, hu, hclaim⟩
  · cases h

theorem replay_told {t : Trusted} {prior : Outcome} (read : db.readOperation f.key = some o)
    (trusted : o.trusted = some t) (h : replay sha256 f t.progress = some prior) :
    Told sha256 db session (.finish f) prior := by
  obtain ⟨result, hresult, rfl⟩ := map_eq_some_iff.mp h
  split
  · trivial
  · exact ⟨o, t, read, trusted, hresult ▸ rfl, hresult⟩

variable {claim : Claim}

/-- An end without authority is what the operation then shows. -/
theorem ended_told {t : Trusted} {state : TerminalState} {at' : Micros}
    (read : db.readOperation f.key = some o) (trusted : o.trusted = some t)
    (holder : claim.id = f.claimId) :
    Told sha256 (endWithoutAuthority db o claim state at').1 session (.finish f)
      (.ended (endWithoutAuthority db o claim state at').2) := by
  refine ⟨_, _, read_progress_self _ read trusted, rfl, rfl, rfl, ?_, rfl⟩
  rw [← holder]
  rfl

variable (sha256 session x db) in
theorem applied_cases (f : Finish) (o : Operation) (claim : Claim)
    (c : Connection) :
    ∃ state code, let db' := (applyResult sha256 f o claim c session x db).1
      (applyResult sha256 f o claim c session x db).2 =
        .applied ⟨state, code, some x.incarnation⟩ ∧
      db'.operations = (db.progress o.id (.applied claim (truncMillis x.sampledAt) state code
        x.incarnation (f.result.digest sha256))).operations ∧
      db'.drawn = db.drawn ∧ db'.authority = db.authority ∧
      (∀ n ∈ db'.connection, n.incarnation = some x.incarnation) ∧
      db'.history = db.history ++ [.applied session o.id] := by
  cases hresult : f.result with
  | succeeded displayName primaryDomain grantedPermissions =>
    refine ⟨.succeeded, js "CONNECTED", ?_⟩
    simp [applyResult, hresult, ConsentDb.progress]
  | failed code =>
    refine ⟨.failed, code.text, ?_⟩
    simp [applyResult, hresult, ConsentDb.progress]

/-- An applied result is what the operation then shows. -/
theorem applied_told {t : Trusted} {c : Connection} (read : db.readOperation f.key = some o)
    (trusted : o.trusted = some t) (holder : claim.id = f.claimId)
    (h : applyResult sha256 f o claim c session x db = (db', outcome)) :
    Told sha256 db' session (.finish f) outcome := by
  obtain ⟨state, code, houtcome, hoperations, _, _, _, hhistory⟩ :=
    applied_cases sha256 session x db f o claim c
  rw [h] at houtcome hoperations hhistory
  simp only at houtcome hoperations hhistory
  subst houtcome
  have hread := read_progress_self (.applied claim (truncMillis x.sampledAt) state code
    x.incarnation (f.result.digest sha256)) read trusted
  rw [ConsentDb.readOperation, ← hoperations] at hread
  refine ⟨?_, _, _, hread, rfl, rfl, rfl, ?_, rfl⟩
  · simp [applications, hhistory, (read_mem read).2.1]
  · rw [← holder]
    rfl

/-- A finish that is applied holds the claim, is in time, and finds all as it was issued. -/
def Applies (sha256 : JsString → JsString) (f : Finish) (initial : Trusted)
    (current : ManagedAuthority) (connection : Option Connection) (row : Option Operation)
    (session : Nat) (x : Draw) (db db' : ConsentDb) : Prop :=
  ∃ o t claim c, row = some o ∧ o.trusted = some t ∧ t.progress = .claimed claim ∧
    claim.id = f.claimId ∧ x.sampledAt < claim.finalDeadline ∧ connection = some c ∧
    stillExpected initial t current (some c) = true ∧
    db' = (applyResult sha256 f o claim c session x db).1

theorem finish_cases {initial : Trusted} {connection : Option Connection}
    (read : ∀ o, row = some o → db.readOperation f.key = some o)
    (h : finishConsentOperation sha256 f initial current connection row session x db =
      (db', outcome)) :
    Effect sha256 session x db (some f.key.operationId) db' ∧
      Told sha256 db' session (.finish f) outcome ∧
      (db'.connection = db.connection ∨
        Applies sha256 f initial current connection row session x db db') := by
  unfold finishConsentOperation at h
  cases hheld : heldBy f row with
  | none =>
    rw [hheld] at h
    cases h
    exact ⟨.nothing, trivial, .inl rfl⟩
  | some r =>
    obtain ⟨o, t⟩ := r
    obtain ⟨hrow, htrusted, hclaim⟩ := heldBy_some hheld
    have hread := read o hrow
    obtain ⟨hmem, hid, _⟩ := read_mem hread
    rw [hheld] at h
    simp only at h
    cases hreplay : replay sha256 f t.progress with
    | some prior =>
      rw [hreplay] at h
      cases h
      exact ⟨.nothing, replay_told hread htrusted hreplay, .inl rfl⟩
    | none =>
      rw [hreplay] at h
      simp only at h
      cases hprogress : t.progress with
      | claimed claim =>
        rw [hprogress] at h hclaim
        have hholder := Option.some.inj hclaim
        have hends : ∀ state, Moves t.progress
            (.ended (some claim) (truncMillis x.sampledAt) state) := by
          intro state
          rw [hprogress]
          exact .ends _ _ _
        rw [← hid]
        cases connection with
        | none =>
          cases h
          exact ⟨.ended hmem htrusted (hends _), ended_told hread htrusted hholder, .inl rfl⟩
        | some c =>
          simp only at h
          split at h
          · cases h
            exact ⟨.ended hmem htrusted (hends _), ended_told hread htrusted hholder, .inl rfl⟩
          rename_i hlive
          split at h
          · cases h
            exact ⟨.ended hmem htrusted (hends _), ended_told hread htrusted hholder, .inl rfl⟩
          rename_i hexpected
          have hdb : db' = (applyResult sha256 f o claim c session x db).1 := by
            rw [h]
          refine ⟨hdb ▸ .applied hmem htrusted hprogress, ?_, .inr ⟨o, t, claim, c, hrow, htrusted,
            hprogress, hholder, not_not.mp hlive, rfl, by simpa using hexpected, hdb⟩⟩
          exact applied_told hread htrusted hholder h
      | _ =>
        rw [hprogress] at h
        cases h
        exact ⟨.nothing, trivial, .inl rfl⟩

theorem late_effect (read : ∀ o, row = some o → db.readOperation f.key = some o)
    (h : finishWithoutAuthority sha256 f row x db = (db', outcome)) :
    Effect sha256 session x db (some f.key.operationId) db' ∧ db'.connection = db.connection ∧
      Told sha256 db' session (.finish f) outcome := by
  unfold finishWithoutAuthority at h
  cases hheld : heldBy f row with
  | none =>
    rw [hheld] at h
    cases h
    exact ⟨.nothing, rfl, trivial⟩
  | some r =>
    obtain ⟨o, t⟩ := r
    obtain ⟨hrow, htrusted, hclaim⟩ := heldBy_some hheld
    have hread := read o hrow
    obtain ⟨hmem, hid, _⟩ := read_mem hread
    rw [hheld] at h
    simp only at h
    cases hreplay : replay sha256 f t.progress with
    | some prior =>
      rw [hreplay] at h
      cases h
      exact ⟨.nothing, rfl, replay_told hread htrusted hreplay⟩
    | none =>
      rw [hreplay] at h
      simp only at h
      cases hprogress : t.progress with
      | claimed claim =>
        rw [hprogress] at h hclaim
        cases h
        rw [← hid]
        refine ⟨.ended hmem htrusted ?_, rfl, ended_told hread htrusted (Option.some.inj hclaim)⟩
        rw [hprogress]
        exact .ends _ _ _
      | _ =>
        rw [hprogress] at h
        cases h
        exact ⟨.nothing, rfl, trivial⟩

end Commits

/-! ## The ledger -/

/-- An operation is in the state it was brought to, and the connection is that of the newest. -/
structure Ledger (db : ConsentDb) : Prop where
  ids : (db.operations.map Operation.id).Nodup
  drawnIds : ∀ o ∈ db.operations, o.id ∈ db.drawn
  drawnConnections : ∀ o ∈ db.operations, ∀ t, o.trusted = some t →
    t.expected.connection ∈ db.drawn
  drawnIncarnation : ∀ c ∈ db.connection, ∀ i ∈ c.incarnation, i ∈ db.drawn
  newest : ∀ o ∈ db.operations, ∀ t, o.trusted = some t → ∀ c ∈ db.connection,
    c.incarnation = some t.expected.connection → (issues db.history).getLast? = some o.id
  claimed : ∀ r ∈ claims db.history, r.2 ∈ db.drawn ∧ ∀ o ∈ db.operations, o.id = r.2 →
    ∀ t, o.trusted = some t → t.progress ≠ .issued
  claimedOnce : ((claims db.history).map Prod.snd).Nodup
  applied : ∀ r ∈ applications db.history, r.2 ∈ db.drawn ∧ ∀ o ∈ db.operations, o.id = r.2 →
    ∀ t, o.trusted = some t → t.progress.terminal.isSome
  appliedOnce : ((applications db.history).map Prod.snd).Nodup

namespace Ledger

variable {sha256 : JsString → JsString} {session : Nat} {x : Draw} {db db' : ConsentDb}
  {o : Operation} {t : Trusted} {next : Progress}

theorem congr (h : Ledger db) (operations : db'.operations = db.operations)
    (drawn : db'.drawn = db.drawn) (connection : db'.connection = db.connection)
    (history : db'.history = db.history) : Ledger db' := by
  constructor <;> simp only [operations, drawn, connection, history]
  · exact h.ids
  · exact h.drawnIds
  · exact h.drawnConnections
  · exact h.drawnIncarnation
  · exact h.newest
  · exact h.claimed
  · exact h.claimedOnce
  · exact h.applied
  · exact h.appliedOnce

theorem draw (h : Ledger db) (x : Draw) : Ledger (db.draw x) where
  ids := h.ids
  drawnIds o ho := mem_append_left _ (h.drawnIds o ho)
  drawnConnections o ho t ht := mem_append_left _ (h.drawnConnections o ho t ht)
  drawnIncarnation c hc i hi := mem_append_left _ (h.drawnIncarnation c hc i hi)
  newest := h.newest
  claimed r hr := (h.claimed r hr).imp (mem_append_left _) id
  claimedOnce := h.claimedOnce
  applied r hr := (h.applied r hr).imp (mem_append_left _) id
  appliedOnce := h.appliedOnce

/-- A row of the stepped operations comes from one before. -/
theorem of_progress {id : Uuid} {o' : Operation} {t' : Trusted}
    (mem : o' ∈ (db.progress id next).operations) (trusted : o'.trusted = some t') :
    ∃ o ∈ db.operations, ∃ t, o.trusted = some t ∧ o'.id = o.id ∧ t'.expected = t.expected ∧
      (o.id = id ∧ t'.progress = next ∨ o.id ≠ id ∧ t'.progress = t.progress) := by
  obtain ⟨o, ho, rfl⟩ := List.mem_map.mp mem
  refine ⟨o, ho, ?_⟩
  by_cases hid : o.id = id
  · rw [if_pos hid] at trusted ⊢
    obtain ⟨t, ht, rfl⟩ := map_eq_some_iff.mp trusted
    exact ⟨t, ht, rfl, rfl, .inl ⟨hid, rfl⟩⟩
  · rw [if_neg hid] at trusted ⊢
    exact ⟨t', trusted, rfl, rfl, .inr ⟨hid, rfl⟩⟩

/-- One operation makes a step. -/
theorem progressed (h : Ledger db) (mem : o ∈ db.operations) (trusted : o.trusted = some t)
    (moves : Moves t.progress next) : Ledger (db.progress o.id next) where
  ids := by
    rw [map_id_progress]
    exact h.ids
  drawnIds o' ho' := by
    have hid := mem_map_of_mem (f := Operation.id) ho'
    rw [map_id_progress, List.mem_map] at hid
    obtain ⟨other, hother, heq⟩ := hid
    rw [← heq]
    exact h.drawnIds other hother
  drawnConnections o' ho' t' ht' := by
    obtain ⟨other, hother, u, hu, _, hexpected, _⟩ := of_progress ho' ht'
    rw [hexpected]
    exact h.drawnConnections other hother u hu
  drawnIncarnation := h.drawnIncarnation
  newest o' ho' t' ht' c hc hincarnation := by
    obtain ⟨other, hother, u, hu, hid, hexpected, _⟩ := of_progress ho' ht'
    rw [hexpected] at hincarnation
    rw [hid]
    exact h.newest other hother u hu c hc hincarnation
  claimed r hr := by
    refine ⟨(h.claimed r hr).1, fun o' ho' heq t' ht' => ?_⟩
    obtain ⟨other, hother, u, hu, hid, _, ⟨_, hprogress⟩ | ⟨_, hprogress⟩⟩ := of_progress ho' ht'
    · rw [hprogress]
      exact moves.not_issued
    · rw [hprogress]
      exact (h.claimed r hr).2 other hother (hid ▸ heq) u hu
  claimedOnce := h.claimedOnce
  applied r hr := by
    refine ⟨(h.applied r hr).1, fun o' ho' heq t' ht' => ?_⟩
    obtain ⟨other, hother, u, hu, hid, _, ⟨hsame, _⟩ | ⟨_, hprogress⟩⟩ := of_progress ho' ht'
    · have hterminal := (h.applied r hr).2 o mem (hsame ▸ hid ▸ heq) t trusted
      rw [moves.not_terminal] at hterminal
      cases hterminal
    · rw [hprogress]
      exact (h.applied r hr).2 other hother (hid ▸ heq) u hu
  appliedOnce := h.appliedOnce

theorem fresh_ids (fresh : db.fresh x = true) :
    x.operationId ∉ db.drawn ∧ x.incarnation ∉ db.drawn ∧ x.claimId ∉ db.drawn := by
  unfold ConsentDb.fresh Draw.ids at fresh
  simp only [Bool.and_eq_true, all_cons, all_nil, Bool.not_eq_true', and_true,
    contains_eq_mem, decide_eq_false_iff_not] at fresh
  exact fresh.2

/-- The claim of an issued operation is its first. -/
theorem recordClaimed (h : Ledger db) (mem : o ∈ db.operations) (trusted : o.trusted = some t)
    (issued : t.progress = .issued) (claim : Claim) :
    Ledger { db.progress o.id (.claimed claim) with
      history := db.history ++ [.claimed session o.id] } := by
  have hmoves : Moves t.progress (.claimed claim) := by
    rw [issued]
    exact .claim claim
  have hafter := h.progressed mem trusted hmoves
  have hissues : issues (db.history ++ [.claimed session o.id]) = issues db.history := by
    simp [issues]
  have happlications : applications (db.history ++ [.claimed session o.id]) =
      applications db.history := by
    simp [applications]
  have hclaims : claims (db.history ++ [.claimed session o.id]) =
      claims db.history ++ [(session, o.id)] := by
    simp [claims]
  refine ⟨hafter.ids, hafter.drawnIds, hafter.drawnConnections, hafter.drawnIncarnation,
    ?_, ?_, ?_, ?_, ?_⟩
  · simp only [hissues]
    exact hafter.newest
  · simp only [hclaims, mem_append, mem_singleton]
    rintro r (hr | rfl)
    · exact hafter.claimed r hr
    · refine ⟨h.drawnIds o mem, fun o' ho' heq t' ht' => ?_⟩
      obtain ⟨other, _, u, _, hid, _, ⟨_, hprogress⟩ | ⟨hne, _⟩⟩ := of_progress ho' ht'
      · rw [hprogress]
        exact hmoves.not_issued
      · exact absurd (hid ▸ heq) hne
  · rw [hclaims, map_append, nodup_append]
    refine ⟨h.claimedOnce, nodup_singleton _, ?_⟩
    intro id hid other hother heq
    obtain ⟨r, hr, rfl⟩ := List.mem_map.mp hid
    rw [map_singleton, mem_singleton] at hother
    exact (h.claimed r hr).2 o mem (heq.trans hother).symm t trusted issued
  · simp only [happlications]
    exact hafter.applied
  · rw [happlications]
    exact h.appliedOnce

/-- What is applied is applied first, and to a connection of its own. -/
theorem recordApplied (h : Ledger db) (fresh : db.fresh x = true) (mem : o ∈ db.operations)
    (trusted : o.trusted = some t) (moves : Moves t.progress next)
    (terminal : next.terminal.isSome)
    (operations : db'.operations = (db.progress o.id next).operations)
    (drawn : db'.drawn = db.drawn)
    (connection : ∀ c ∈ db'.connection, c.incarnation = some x.incarnation)
    (history : db'.history = db.history ++ [.applied session o.id]) : Ledger (db'.draw x) := by
  have hafter := (h.progressed mem trusted moves).draw x
  have hclaims : claims db'.history = claims db.history := by
    simp [claims, history]
  have happlications : applications db'.history =
      applications db.history ++ [(session, o.id)] := by
    simp [applications, history]
  have hdrawn : (db'.draw x).drawn = ((db.progress o.id next).draw x).drawn := by
    unfold ConsentDb.draw
    rw [drawn]
    rfl
  refine ⟨?_, ?_, ?_, ?_, ?_, ?_, ?_, ?_, ?_⟩
  · exact operations ▸ hafter.ids
  · rw [hdrawn]
    exact operations ▸ hafter.drawnIds
  · rw [hdrawn]
    exact operations ▸ hafter.drawnConnections
  · intro c hc i hi
    rw [connection c hc, mem_some_iff] at hi
    subst hi
    simp [ConsentDb.draw, Draw.ids]
  · intro o' ho' t' ht' c hc hincarnation
    change o' ∈ db'.operations at ho'
    rw [operations] at ho'
    rw [connection c hc, Option.some.injEq] at hincarnation
    have hold := (h.progressed mem trusted moves).drawnConnections o' ho' t' ht'
    rw [← hincarnation] at hold
    exact absurd hold (fresh_ids fresh).2.1
  · rw [hdrawn]
    change ∀ r ∈ claims db'.history, _ ∧ ∀ o ∈ db'.operations, _
    rw [hclaims, operations]
    exact hafter.claimed
  · change ((claims db'.history).map Prod.snd).Nodup
    rw [hclaims]
    exact h.claimedOnce
  · rw [hdrawn]
    change ∀ r ∈ applications db'.history, _ ∧ ∀ o ∈ db'.operations, _
    rw [happlications, operations]
    intro r hr
    rcases mem_append.mp hr with hr | hr
    · exact hafter.applied r hr
    · rw [mem_singleton] at hr
      subst hr
      refine ⟨mem_append_left _ (h.drawnIds o mem), ?_⟩
      intro o' ho' heq t' ht'
      obtain ⟨other, _, u, _, hid, _, ⟨_, hprogress⟩ | ⟨hne, _⟩⟩ := of_progress ho' ht'
      · rw [hprogress]
        exact terminal
      · exact absurd (hid ▸ heq) hne
  · change ((applications db'.history).map Prod.snd).Nodup
    rw [happlications, map_append, nodup_append]
    refine ⟨h.appliedOnce, nodup_singleton _, ?_⟩
    intro id hid other hother heq
    obtain ⟨r, hr, rfl⟩ := List.mem_map.mp hid
    rw [map_singleton, mem_singleton] at hother
    have hterminal := (h.applied r hr).2 o mem (heq.trans hother).symm t trusted
    rw [moves.not_terminal] at hterminal
    cases hterminal

/-- A new operation is the newest, and the connection becomes its own. -/
theorem recordIssued (h : Ledger db) (fresh : db.fresh x = true) (id : o.id = x.operationId)
    (trusted : o.trusted = some t) (expected : t.expected.connection = x.incarnation)
    (operations : db'.operations = db.operations ++ [o]) (drawn : db'.drawn = db.drawn)
    (connection : ∀ c ∈ db'.connection, c.incarnation = some x.incarnation)
    (history : db'.history = db.history ++ [.issued session x.operationId]) :
    Ledger (db'.draw x) := by
  obtain ⟨hoperation, hincarnation, _⟩ := fresh_ids fresh
  have hissues : issues db'.history = issues db.history ++ [x.operationId] := by
    simp [issues, history]
  have hclaims : claims db'.history = claims db.history := by
    simp [claims, history]
  have happlications : applications db'.history = applications db.history := by
    simp [applications, history]
  have hids : ∀ id, id ∈ db.drawn ∨ id ∈ x.ids → id ∈ (db'.draw x).drawn := by
    intro id hid
    simp only [ConsentDb.draw, drawn, mem_append]
    exact hid
  have hrow : ∀ o' ∈ (db'.draw x).operations, o' ∈ db.operations ∨ o' = o := by
    intro o' ho'
    change o' ∈ db'.operations at ho'
    rw [operations, mem_append, mem_singleton] at ho'
    exact ho'
  refine ⟨?_, ?_, ?_, ?_, ?_, ?_, ?_, ?_, ?_⟩
  · change (db'.operations.map Operation.id).Nodup
    rw [operations, map_append, nodup_append]
    refine ⟨h.ids, nodup_singleton _, ?_⟩
    intro i hi j hj heq
    obtain ⟨o', ho', rfl⟩ := List.mem_map.mp hi
    rw [map_singleton, mem_singleton, id] at hj
    rw [← hj, ← heq] at hoperation
    exact hoperation (h.drawnIds o' ho')
  · intro o' ho'
    apply hids
    rcases hrow o' ho' with ho' | rfl
    · exact .inl (h.drawnIds o' ho')
    · rw [id]
      exact .inr mem_cons_self
  · intro o' ho' t' ht'
    apply hids
    rcases hrow o' ho' with ho' | rfl
    · exact .inl (h.drawnConnections o' ho' t' ht')
    · rw [trusted, Option.some.injEq] at ht'
      subst ht'
      rw [expected]
      exact .inr (by simp [Draw.ids])
  · intro c hc i hi
    rw [connection c hc, mem_some_iff] at hi
    subst hi
    exact hids _ (.inr (by simp [Draw.ids]))
  · intro o' ho' t' ht' c hc hnow
    rw [connection c hc, Option.some.injEq] at hnow
    rcases hrow o' ho' with ho' | rfl
    · have hold := h.drawnConnections o' ho' t' ht'
      rw [← hnow] at hold
      exact absurd hold hincarnation
    · change (issues db'.history).getLast? = _
      rw [hissues, getLast?_append, id]
      rfl
  · change ∀ r ∈ claims db'.history, _
    rw [hclaims]
    intro r hr
    refine ⟨hids _ (.inl (h.claimed r hr).1), fun o' ho' heq t' ht' => ?_⟩
    rcases hrow o' ho' with ho' | rfl
    · exact (h.claimed r hr).2 o' ho' heq t' ht'
    · rw [← id, heq] at hoperation
      exact absurd (h.claimed r hr).1 hoperation
  · change ((claims db'.history).map Prod.snd).Nodup
    rw [hclaims]
    exact h.claimedOnce
  · change ∀ r ∈ applications db'.history, _
    rw [happlications]
    intro r hr
    refine ⟨hids _ (.inl (h.applied r hr).1), fun o' ho' heq t' ht' => ?_⟩
    rcases hrow o' ho' with ho' | rfl
    · exact (h.applied r hr).2 o' ho' heq t' ht'
    · rw [← id, heq] at hoperation
      exact absurd (h.applied r hr).1 hoperation
  · change ((applications db'.history).map Prod.snd).Nodup
    rw [happlications]
    exact h.appliedOnce

end Ledger

namespace Effect

variable {sha256 : JsString → JsString} {session : Nat} {x : Draw} {db db' : ConsentDb}
  {touched : Option Uuid}

section

variable (effect : Effect sha256 session x db touched db')
include effect

theorem ledger (h : Ledger db)
    (fresh : db.fresh x = true) : Ledger (db'.draw x) := by
  cases effect with
  | nothing => exact h.draw x
  | issued id trusted expected operations drawn _ connection history =>
    exact h.recordIssued fresh id trusted expected operations drawn connection history
  | ended mem trusted moves => exact (h.progressed mem trusted moves).draw x
  | claimed mem trusted issued => exact (h.recordClaimed mem trusted issued _).draw x
  | @applied f o t claim c mem trusted claimed =>
    obtain ⟨state, code, _, hoperations, hdrawn, _, hconnection, hhistory⟩ :=
      applied_cases sha256 session x db f o claim c
    refine h.recordApplied fresh mem trusted ?_ rfl hoperations hdrawn hconnection hhistory
    rw [claimed]
    exact .apply _ _ _ _ _ _

theorem advances (h : Ledger db) :
    Advances db (db'.draw x) := by
  cases effect with
  | nothing => exact (Advances.refl db).congr rfl
  | issued _ _ _ operations => exact (advances_append _ operations).congr rfl
  | ended mem trusted moves => exact (advances_progress h.ids mem trusted moves).congr rfl
  | @claimed o t claim mem trusted issued =>
    have hmoves : Moves t.progress (.claimed claim) := by
      rw [issued]
      exact .claim claim
    exact (advances_progress h.ids mem trusted hmoves).congr rfl
  | @applied f o t claim c mem trusted claimed =>
    obtain ⟨state, code, _, hoperations, _⟩ :=
      applied_cases sha256 session x db f o claim c
    refine (advances_progress h.ids mem trusted ?_).congr hoperations
    rw [claimed]
    exact .apply _ _ _ _ _ _

theorem authority : db'.authority = db.authority := by
  cases effect with
  | issued _ _ _ _ _ authority => exact authority
  | @applied f o t claim c mem trusted claimed =>
    obtain ⟨_, _, _, _, _, hauthority, _⟩ :=
      applied_cases sha256 session x db f o claim c
    exact hauthority
  | _ => rfl

theorem keeps {e : Event} (he : e ∈ db.history) :
    e ∈ db'.history := by
  cases effect with
  | nothing => exact he
  | issued _ _ _ _ _ _ _ history =>
    rw [history]
    exact mem_append_left _ he
  | ended => exact he
  | claimed => exact mem_append_left _ he
  | @applied f o t claim c mem trusted claimed =>
    obtain ⟨_, _, _, _, _, _, _, hhistory⟩ :=
      applied_cases sha256 session x db f o claim c
    rw [hhistory]
    exact mem_append_left _ he

/-- The other operations stay as they are. -/
theorem reads {k : ConsentOperationKey}
    {o : Operation} (other : touched ≠ some k.operationId) (read : db.readOperation k = some o) :
    db'.readOperation k = some o := by
  have hprogress : ∀ id next, some id ≠ some k.operationId →
      (db.progress id next).readOperation k = some o := by
    intro id next hne
    rw [read_progress, read, map_some, if_neg]
    rintro rfl
    exact hne (congrArg some (read_mem read).2.1)
  cases effect with
  | nothing => exact read
  | issued _ _ _ operations =>
    rw [ConsentDb.readOperation, operations, find?_append]
    rw [ConsentDb.readOperation] at read
    rw [read, some_or]
  | ended => exact hprogress _ _ other
  | claimed => exact hprogress _ _ other
  | @applied f o t claim c =>
    obtain ⟨_, _, _, hoperations, _⟩ := applied_cases sha256 session x db f o claim c
    rw [ConsentDb.readOperation, hoperations]
    exact hprogress _ _ other

end

end Effect

end ConsentOperations
