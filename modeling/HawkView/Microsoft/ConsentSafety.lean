import HawkView.Microsoft.ConsentLedger

/-!
# Consent operations are safe

Row locks keep what a transaction has read of the operation and of the connection,
and the shared advisory lock keeps the authority, so a finish decides on what is
still true when it commits.
-/

namespace ConsentOperations

open Locking ManagedConnectorAuthority List Option

/-! ## Sessions -/

/-- The shared advisory lock is held on the authority that was read. -/
def Authorized (db : ConsentDb) (held : List (Lock × Mode)) (current : ManagedAuthority) : Prop :=
  (.authority, .shared) ∈ held ∧ db.authority = some current

/-- The connection that was read is locked. -/
def Connected (db : ConsentDb) (held : List (Lock × Mode)) (connection : Option Connection) :
    Prop :=
  ∀ c, connection = some c → (.connection, .exclusive) ∈ held ∧ db.connection = some c

/-- The operation is locked, and a row that was read of it is its row. -/
def Rowed (db : ConsentDb) (held : List (Lock × Mode)) (k : ConsentOperationKey)
    (row : Option Operation) : Prop :=
  (.operation k.operationId, .exclusive) ∈ held ∧ ∀ o, row = some o → db.readOperation k = some o

/-- The operation is claimed by the caller of the finish. -/
def Holder (db : ConsentDb) (f : Finish) : Prop :=
  ∃ o t, db.readOperation f.key = some o ∧ o.trusted = some t ∧
    t.progress.claim?.map Claim.id = some f.claimId

/-- What a session may rely on in its phase. -/
def Knows (sha256 : JsString → JsString) (db : ConsentDb) (i : Nat) (s : Session Lock Phase) :
    Prop :=
  match s.phase with
  | .issueConnection _ _ connection => Connected db s.held connection
  | .issueReady _ _ connection => Connected db s.held (some connection)
  | .claimReady k row => Rowed db s.held k row
  | .finishRead f row => ∀ o t, heldBy f row = some (o, t) → Holder db f ∧
    ∀ result, t.progress.terminal = some result → db.readOperation f.key = some o
  | .finishLocked f _ => (.authority, .shared) ∈ s.held ∧ Holder db f
  | .finishAuthorized f _ current =>
    (∀ a, current = some a → Authorized db s.held a) ∧ Holder db f
  | .finishTenant f _ current _ => Authorized db s.held current ∧ Holder db f
  | .finishConnection f _ current connection =>
    Authorized db s.held current ∧ Connected db s.held connection ∧ Holder db f
  | .finishRoles f _ current connection =>
    Authorized db s.held current ∧ Connected db s.held connection ∧ Holder db f
  | .finishReady f _ current connection row =>
    Authorized db s.held current ∧ Connected db s.held connection ∧ Rowed db s.held f.key row ∧
      (heldBy f row).isSome
  | .finishReplaced f => Holder db f
  | .finishLate f row => Rowed db s.held f.key row ∧ (heldBy f row).isSome
  | .publishReady _ => (.authority, .exclusive) ∈ s.held
  | .finished call outcome => Told sha256 db i call outcome
  | _ => True

/-- What a commit makes of the connection. -/
inductive Connects (sha256 : JsString → JsString) (db : ConsentDb) (i : Nat) (x : Draw)
    (held : List (Lock × Mode)) (phase : Phase) (db' : ConsentDb) : Prop
  | same (connection : db'.connection = db.connection)
  | pending (locked : (.connection, .exclusive) ∈ held)
      (status : ∀ c ∈ db'.connection, c.status = .pendingConsent)
  | decided {f : Finish} {initial : Trusted} {current : ManagedAuthority}
      {connection : Option Connection} {row : Option Operation}
      (locked : (.connection, .exclusive) ∈ held)
      (ready : phase = .finishReady f initial current connection row)
      (applies : Applies sha256 f initial current connection row i x db db')

/-- How a session commits under the locks it holds. -/
inductive Commits (sha256 : JsString → JsString) (db : ConsentDb) (i : Nat) (x : Draw)
    (held : List (Lock × Mode)) (phase : Phase) : ConsentDb → Phase → Prop
  | answered {next : Phase} (knows : Knows sha256 db i ⟨next, []⟩) :
      Commits sha256 db i x held phase db next
  | drawn {touched : Option Uuid} {call : Call} {outcome : Outcome} {db' : ConsentDb}
      (fresh : db.fresh x = true) (effect : Effect sha256 i x db touched db')
      (told : Told sha256 db' i call outcome)
      (connects : Connects sha256 db i x held phase db')
      (locked : ∀ id, touched = some id → (.operation id, .exclusive) ∈ held) :
      Commits sha256 db i x held phase (db'.draw x) (.finished call outcome)
  | published {a : ManagedAuthority} (locked : (.authority, .exclusive) ∈ held) :
      Commits sha256 db i x held phase { db with authority := some a }
        (.finished (.publish a) .published)

section Sessions

variable {sha256 : JsString → JsString} {db db' : ConsentDb} {i : Nat} {x : Draw}
  {held : List (Lock × Mode)} {phase next : Phase}
  {write : Nat → Draw → ConsentDb → Option (ConsentDb × Phase)}

variable {call : Call}

theorem drawing_some {work : Nat → Draw → ConsentDb → ConsentDb × Outcome}
    (hmove : drawing call work = .commit write) (hwrite : write i x db = some (db', next)) :
    db.fresh x = true ∧ ∃ dbw outcome, work i x db = (dbw, outcome) ∧ db' = dbw.draw x ∧
      next = .finished call outcome := by
  cases hmove
  simp only at hwrite
  split at hwrite
  · rename_i hfresh
    cases hwrite
    exact ⟨hfresh, _, _, rfl, rfl, rfl⟩
  · cases hwrite

/-- What a commit of another session leaves to a session that holds these locks. -/
structure Kept (db db' : ConsentDb) (held : List (Lock × Mode)) : Prop where
  authority : (.authority, .shared) ∈ held → db'.authority = db.authority
  connection : (.connection, .exclusive) ∈ held → db'.connection = db.connection
  rows : ∀ k, (.operation k.operationId, .exclusive) ∈ held →
    ∀ o, db.readOperation k = some o → db'.readOperation k = some o
  advances : Advances db db'
  history : ∀ e ∈ db.history, e ∈ db'.history

variable {u : Session Lock Phase}

theorem Commits.kept (h : Commits sha256 db i x held phase db' next) (ledger : Ledger db)
    {t : Session Lock Phase} (apart : Apart t u) (locks : t.held = held) :
    Kept db db' u.held := by
  subst locks
  cases h with
  | answered => exact ⟨fun _ => rfl, fun _ => rfl, fun _ _ _ => id, .refl db, fun _ => id⟩
  | drawn fresh effect told connects locked =>
    refine ⟨fun _ => effect.authority, ?_, ?_, effect.advances ledger, fun _ => effect.keeps⟩
    · intro hu
      cases connects with
      | same connection => exact connection
      | pending locked => exact (apart.exclusive locked hu).elim
      | decided locked => exact (apart.exclusive locked hu).elim
    · intro k hu o hread
      refine effect.reads ?_ hread
      intro htouched
      exact apart.exclusive (locked _ htouched) hu
  | published locked =>
    refine ⟨fun hu => (apart.exclusive locked hu).elim, fun _ => rfl, fun _ _ _ => id,
      (Advances.refl db).congr rfl, fun _ => id⟩

variable {current : ManagedAuthority}

theorem Kept.authorized (h : Kept db db' held) (authorized : Authorized db held current) :
    Authorized db' held current :=
  ⟨authorized.1, (h.authority authorized.1).trans authorized.2⟩

variable {connection : Option Connection}

theorem Kept.connected (h : Kept db db' held) (connected : Connected db held connection) :
    Connected db' held connection := by
  intro c hc
  obtain ⟨hheld, hconnection⟩ := connected c hc
  exact ⟨hheld, (h.connection hheld).trans hconnection⟩

variable {k : ConsentOperationKey}

theorem Kept.rowed (h : Kept db db' held) {row : Option Operation} (rowed : Rowed db held k row) :
    Rowed db' held k row :=
  ⟨rowed.1, fun o ho => h.rows k rowed.1 o (rowed.2 o ho)⟩

variable {f : Finish}

theorem Holder.keeps (h : Holder db f) (advances : Advances db db') :
    Holder db' f := by
  obtain ⟨o, t, hread, htrusted, hholder⟩ := h
  obtain ⟨o', hread', hstep⟩ := advances f.key o hread
  obtain ⟨t', htrusted', _, hclaims⟩ := hstep.keeps htrusted
  obtain ⟨claim, hclaim, hid⟩ := map_eq_some_iff.mp hholder
  exact ⟨o', t', hread', htrusted', map_eq_some_iff.mpr ⟨claim, hclaims claim hclaim, hid⟩⟩

theorem Kept.knows (h : Kept db db' u.held) (knows : Knows sha256 db i u) :
    Knows sha256 db' i u := by
  obtain ⟨phase, held⟩ := u
  cases phase with
  | issueConnection c current connection => exact h.connected knows
  | issueReady c current connection => exact h.connected knows
  | claimReady k row => exact h.rowed knows
  | finishRead f row =>
    intro o t hheld
    obtain ⟨hholder, hread⟩ := knows o t hheld
    refine ⟨hholder.keeps h.advances, fun result hresult => ?_⟩
    obtain ⟨o', hread', hstep⟩ := h.advances f.key o (hread result hresult)
    rw [hread', hstep.terminal (heldBy_some hheld).2.1 hresult]
  | finishLocked f initial => exact knows.imp id (·.keeps h.advances)
  | finishAuthorized f initial current =>
    exact ⟨fun a ha => h.authorized (knows.1 a ha), knows.2.keeps h.advances⟩
  | finishTenant f initial current tenant => exact knows.imp h.authorized (·.keeps h.advances)
  | finishConnection f initial current connection =>
    exact ⟨h.authorized knows.1, h.connected knows.2.1, knows.2.2.keeps h.advances⟩
  | finishRoles f initial current connection =>
    exact ⟨h.authorized knows.1, h.connected knows.2.1, knows.2.2.keeps h.advances⟩
  | finishReady f initial current connection row =>
    exact ⟨h.authorized knows.1, h.connected knows.2.1, h.rowed knows.2.2.1, knows.2.2.2⟩
  | finishReplaced f => exact Holder.keeps knows h.advances
  | finishLate f row => exact knows.imp h.rowed id
  | publishReady a => exact knows
  | finished call outcome => exact Told.keeps knows h.advances h.history
  | _ => trivial

theorem Authorized.cons (h : Authorized db held current) (lock : Lock × Mode) :
    Authorized db (lock :: held) current :=
  ⟨mem_cons_of_mem _ h.1, h.2⟩

theorem Connected.cons (h : Connected db held connection) (lock : Lock × Mode) :
    Connected db (lock :: held) connection :=
  fun c hc => (h c hc).imp (mem_cons_of_mem _) id

theorem connected_none : Connected db held none := fun _ hc => by cases hc

/-- A row that is read as it is locked. -/
theorem rowed_read (k : ConsentOperationKey) :
    Rowed db ((.operation k.operationId, .exclusive) :: held) k (db.readOperation k) :=
  ⟨mem_cons_self, fun _ ho => ho⟩

variable {o : Operation} {t : Trusted}

theorem heldBy_row (trusted : o.trusted = some t)
    (holder : t.progress.claim?.map Claim.id = some f.claimId) :
    heldBy f (some o) = some (o, t) := by
  rw [heldBy, bind_some, trusted, bind_some, if_pos holder]

theorem Holder.reads (h : Holder db f) : (heldBy f (db.readOperation f.key)).isSome := by
  obtain ⟨o, t, hread, htrusted, hholder⟩ := h
  rw [hread, heldBy_row htrusted hholder]
  rfl

/-- The locks a call takes, in their order, and what it reads as it gets them. -/
inductive Acquires : Phase → Lock → Mode → (ConsentDb → Phase) → Prop
  | issueAuthority (c : Issue) :
      Acquires (.waiting (.issue c)) .authority .shared fun _ => .issueLocked c
  | claimOperation (k : ConsentOperationKey) :
      Acquires (.waiting (.claim k)) (.operation k.operationId) .exclusive fun db =>
        .claimReady k (db.readOperation k)
  | publishAuthority (a : ManagedAuthority) :
      Acquires (.waiting (.publish a)) .authority .exclusive fun _ => .publishReady a
  | issueTenant (c : Issue) (a : ManagedAuthority) :
      Acquires (.issueAuthorized c (some a)) .tenant .exclusive fun db =>
        .issueTenant c a db.tenant
  | issueConnection (c : Issue) (a : ManagedAuthority) (tenant : Option Tenant) :
      Acquires (.issueTenant c a tenant) .connection .exclusive fun db =>
        .issueConnection c a db.connection
  | issueRoles (c : Issue) (a : ManagedAuthority) (n : Connection) :
      Acquires (.issueConnection c a (some n)) .roles .exclusive fun _ => .issueReady c a n
  | finishAuthority (f : Finish) (row : Option Operation) (o : Operation) (t : Trusted)
      (held : heldBy f row = some (o, t)) :
      Acquires (.finishRead f row) .authority .shared fun _ => .finishLocked f t
  | finishTenant (f : Finish) (initial : Trusted) (a : ManagedAuthority) :
      Acquires (.finishAuthorized f initial (some a)) .tenant .exclusive fun db =>
        .finishTenant f initial a db.tenant
  | finishConnection (f : Finish) (initial : Trusted) (a : ManagedAuthority)
      (tenant : Option Tenant) :
      Acquires (.finishTenant f initial a tenant) .connection .exclusive fun db =>
        .finishConnection f initial a db.connection
  | withoutTenant (f : Finish) (initial : Trusted) (a : ManagedAuthority)
      (tenant : Option Tenant) :
      Acquires (.finishTenant f initial a tenant) (.operation f.key.operationId) .exclusive
        fun db => .finishReady f initial a none (db.readOperation f.key)
  | finishRoles (f : Finish) (initial : Trusted) (a : ManagedAuthority) (n : Connection) :
      Acquires (.finishConnection f initial a (some n)) .roles .exclusive fun _ =>
        .finishRoles f initial a (some n)
  | withoutConnection (f : Finish) (initial : Trusted) (a : ManagedAuthority) :
      Acquires (.finishConnection f initial a none) (.operation f.key.operationId) .exclusive
        fun db => .finishReady f initial a none (db.readOperation f.key)
  | finishOperation (f : Finish) (initial : Trusted) (a : ManagedAuthority)
      (connection : Option Connection) :
      Acquires (.finishRoles f initial a connection) (.operation f.key.operationId) .exclusive
        fun db => .finishReady f initial a connection (db.readOperation f.key)
  | lateOperation (f : Finish) :
      Acquires (.finishReplaced f) (.operation f.key.operationId) .exclusive fun db =>
        .finishLate f (db.readOperation f.key)

variable {lock : Lock} {mode : Mode} {after : ConsentDb → Phase}

theorem knows_acquire (acquires : Acquires phase lock mode after)
    (knows : Knows sha256 db i ⟨phase, held⟩) :
    Knows sha256 db i ⟨after db, (lock, mode) :: held⟩ := by
  cases acquires with
  | issueAuthority c => trivial
  | claimOperation k => exact rowed_read k
  | publishAuthority a => exact mem_cons_self
  | issueTenant c a => trivial
  | issueConnection c a tenant => exact fun n hn => ⟨mem_cons_self, hn⟩
  | issueRoles c a n => exact Connected.cons knows _
  | finishAuthority f row o t hheld => exact ⟨mem_cons_self, (knows o t hheld).1⟩
  | finishTenant f initial a => exact ⟨(knows.1 a rfl).cons _, knows.2⟩
  | finishConnection f initial a tenant =>
    exact ⟨knows.1.cons _, fun n hn => ⟨mem_cons_self, hn⟩, knows.2⟩
  | withoutTenant f initial a tenant =>
    exact ⟨knows.1.cons _, connected_none, rowed_read f.key, knows.2.reads⟩
  | finishRoles f initial a n => exact ⟨knows.1.cons _, knows.2.1.cons _, knows.2.2⟩
  | withoutConnection f initial a =>
    exact ⟨knows.1.cons _, connected_none, rowed_read f.key, knows.2.2.reads⟩
  | finishOperation f initial a connection =>
    exact ⟨knows.1.cons _, knows.2.1.cons _, rowed_read f.key, knows.2.2.reads⟩
  | lateOperation f => exact ⟨rowed_read f.key, Holder.reads knows⟩

/-- What a call reads without taking a lock. -/
inductive Observes : Phase → (ConsentDb → Phase) → Prop
  | operation (f : Finish) :
      Observes (.waiting (.finish f)) fun db => .finishRead f (db.readOperation f.key)
  | issueAuthority (c : Issue) :
      Observes (.issueLocked c) fun db => .issueAuthorized c db.authority
  | finishAuthority (f : Finish) (initial : Trusted) :
      Observes (.finishLocked f initial) fun db => .finishAuthorized f initial db.authority

/-- What a phase does as it moves on. -/
inductive Makes (sha256 : JsString → JsString) : Phase → Move Lock ConsentDb Phase Draw → Prop
  | acquires {phase : Phase} {lock : Lock} {mode : Mode} {after : ConsentDb → Phase}
      (h : Acquires phase lock mode after) : Makes sha256 phase (.acquire lock mode after)
  | observes {phase : Phase} {after : ConsentDb → Phase} (h : Observes phase after) :
      Makes sha256 phase (.observe after)
  | refuses {phase : Phase} {c : Issue} (issuing : phase.call = .issue c) (reason : Reason) :
      Makes sha256 phase (reject (.issue c) reason)
  | untrusted {f : Finish} {row : Option Operation} (free : heldBy f row = none) :
      Makes sha256 (.finishRead f row) (reject (.finish f) .untrusted)
  | replays {f : Finish} {row : Option Operation} {o : Operation} {t : Trusted} {prior : Outcome}
      (held : heldBy f row = some (o, t)) (known : replay sha256 f t.progress = some prior) :
      Makes sha256 (.finishRead f row) (answer (.finished (.finish f) prior))
  | replaced (f : Finish) (initial : Trusted) (current : Option ManagedAuthority) :
      Makes sha256 (.finishAuthorized f initial current) (answer (.finishReplaced f))
  | issues (c : Issue) (current : ManagedAuthority) (connection : Connection) :
      Makes sha256 (.issueReady c current connection)
        (drawing (.issue c) (issueConsentOperation c current connection))
  | claims (k : ConsentOperationKey) (row : Option Operation) :
      Makes sha256 (.claimReady k row) (drawing (.claim k) (claimConsentOperation k row))
  | finishes (f : Finish) (initial : Trusted) (current : ManagedAuthority)
      (connection : Option Connection) (row : Option Operation) :
      Makes sha256 (.finishReady f initial current connection row)
        (drawing (.finish f) (finishConsentOperation sha256 f initial current connection row))
  | late (f : Finish) (row : Option Operation) :
      Makes sha256 (.finishLate f row)
        (drawing (.finish f) fun _ => finishWithoutAuthority sha256 f row)
  | publishes (a : ManagedAuthority) :
      Makes sha256 (.publishReady a) (.commit fun _ _ db =>
        some ({ db with authority := some a }, .finished (.publish a) .published))
  | rests (phase : Phase) : Makes sha256 phase .rest

theorem makes (sha256 : JsString → JsString) (phase : Phase) :
    Makes sha256 phase (move sha256 phase) := by
  cases phase with
  | waiting call =>
    cases call with
    | finish f => exact .observes (.operation f)
    | _ => exact .acquires (by constructor)
  | issueAuthorized c current =>
    cases current with
    | none => exact .refuses rfl _
    | some a =>
      simp only [move]
      split
      · exact .refuses rfl _
      split
      · exact .refuses rfl _
      · exact .acquires (by constructor)
  | issueTenant c current tenant =>
    simp only [move]
    split
    · exact .acquires (by constructor)
    · exact .refuses rfl _
  | issueConnection c current connection =>
    cases connection with
    | none => exact .refuses rfl _
    | some n => exact .acquires (by constructor)
  | finishRead f row =>
    simp only [move]
    split
    · next hfree => exact .untrusted hfree
    · next o t hheld =>
      split
      · next hknown => exact .replays hheld hknown
      · exact .acquires (.finishAuthority f row o t hheld)
  | finishAuthorized f initial current =>
    cases current with
    | none => exact .replaced f initial none
    | some a =>
      simp only [move]
      split
      · exact .acquires (by constructor)
      · exact .replaced f initial (some a)
  | finishTenant f initial current tenant =>
    simp only [move]
    split
    · exact .acquires (.finishConnection f initial current tenant)
    · exact .acquires (.withoutTenant f initial current tenant)
  | finishConnection f initial current connection =>
    cases connection <;> exact .acquires (by constructor)
  | finishRoles => exact .acquires (by constructor)
  | finishReplaced => exact .acquires (by constructor)
  | issueLocked => exact .observes (by constructor)
  | finishLocked => exact .observes (by constructor)
  | finished => exact .rests _
  | failed => exact .rests _
  | _ => constructor

theorem acquire_cases (hmove : move sha256 phase = .acquire lock mode after) :
    Acquires phase lock mode after := by
  have hmakes := makes sha256 phase
  rw [hmove] at hmakes
  cases hmakes
  assumption

theorem observe_cases (hmove : move sha256 phase = .observe after) :
    Observes phase after := by
  have hmakes := makes sha256 phase
  rw [hmove] at hmakes
  cases hmakes
  assumption

theorem commit_cases (hmove : move sha256 phase = .commit write)
    (hwrite : write i x db = some (db', next)) (knows : Knows sha256 db i ⟨phase, held⟩) :
    Commits sha256 db i x held phase db' next := by
  have hmakes := makes sha256 phase
  rw [hmove] at hmakes
  cases hmakes with
  | refuses =>
    cases hwrite
    exact .answered trivial
  | untrusted =>
    cases hwrite
    exact .answered trivial
  | replays hheld hknown =>
    cases hwrite
    obtain ⟨result, hresult, _⟩ := map_eq_some_iff.mp hknown
    have hread := (knows _ _ hheld).2 result hresult
    exact .answered (replay_told hread (heldBy_some hheld).2.1 hknown)
  | replaced =>
    cases hwrite
    exact .answered knows.2
  | issues c current connection =>
    obtain ⟨hfresh, dbw, outcome, hwork, rfl, rfl⟩ := drawing_some hmove hwrite
    obtain ⟨heffect, hconnection⟩ := issue_effect hwork
    refine .drawn hfresh heffect ?_ ?_ (by simp)
    · cases outcome <;> trivial
    · rcases hconnection with hsame | hpending
      · exact .same hsame
      · exact .pending (knows connection rfl).1 hpending
  | claims =>
    obtain ⟨hfresh, dbw, outcome, hwork, rfl, rfl⟩ := drawing_some hmove hwrite
    obtain ⟨heffect, hconnection, htold⟩ := claim_effect knows.2 hwork
    refine .drawn hfresh heffect htold (.same hconnection) ?_
    rintro id ⟨⟩
    exact knows.1
  | finishes =>
    obtain ⟨_, hconnected, hrowed, _⟩ := knows
    obtain ⟨hfresh, dbw, outcome, hwork, rfl, rfl⟩ := drawing_some hmove hwrite
    obtain ⟨heffect, htold, hconnection⟩ := finish_cases hrowed.2 hwork
    refine .drawn hfresh heffect htold ?_ ?_
    · rcases hconnection with hsame | happlies
      · exact .same hsame
      · obtain ⟨_, _, _, c, _, _, _, _, _, hc, _⟩ := id happlies
        exact .decided (hconnected c hc).1 rfl happlies
    · rintro id ⟨⟩
      exact hrowed.1
  | late =>
    obtain ⟨hfresh, dbw, outcome, hwork, rfl, rfl⟩ := drawing_some (i := i) hmove hwrite
    obtain ⟨heffect, hconnection, htold⟩ := late_effect knows.1.2 hwork
    refine .drawn hfresh heffect htold (.same hconnection) ?_
    rintro id ⟨⟩
    exact knows.1.1
  | publishes =>
    cases hwrite
    exact .published knows

theorem knows_observe (observes : Observes phase after) (knows : Knows sha256 db i ⟨phase, held⟩) :
    Knows sha256 db i ⟨after db, held⟩ := by
  cases observes with
  | operation f =>
    intro o t hheld
    obtain ⟨hrow, htrusted, hholder⟩ := heldBy_some hheld
    exact ⟨⟨o, t, hrow, htrusted, hholder⟩, fun _ _ => hrow⟩
  | issueAuthority c => trivial
  | finishAuthority f initial => exact ⟨fun a ha => ⟨knows.1, ha⟩, knows.2⟩

theorem discipline (sha256 : JsString → JsString) :
    Discipline (program sha256) 0 Ledger (Knows sha256) where
  start {db i p} _ _ hstarts := by
    cases p with
    | waiting call => trivial
    | _ => cases hstarts
  acquire _ hknows hmove := knows_acquire (acquire_cases hmove) hknows
  observe _ hknows hmove := knows_observe (observe_cases hmove) hknows
  commit {db i t write x db' p} hledger hknows hmove hwrite := by
    obtain ⟨phase, held⟩ := t
    cases commit_cases hmove hwrite hknows with
    | answered knows => exact ⟨hledger, knows⟩
    | drawn fresh effect told => exact ⟨effect.ledger hledger fresh, told⟩
    | published => exact ⟨hledger.congr rfl rfl rfl rfl, trivial⟩
  stable {db i t write x db' p j u} hledger hknows hmove hwrite _ huknows hapart := by
    obtain ⟨phase, held⟩ := t
    exact ((commit_cases hmove hwrite hknows).kept hledger hapart rfl).knows huknows
  abort {db i t} _ hknows := by
    obtain ⟨phase, held⟩ := t
    cases phase with
    | finished call outcome => exact hknows
    | _ => trivial

theorem Commits.advances (h : Commits sha256 db i x held phase db' next) (ledger : Ledger db) :
    Advances db db' := by
  cases h with
  | answered => exact .refl db
  | drawn fresh effect => exact effect.advances ledger
  | published => exact (Advances.refl db).congr rfl

/-! ## Terminal operations -/

/-- A row that shows how its operation ended. -/
structure Ended (db : ConsentDb) (k : ConsentOperationKey) (o : Operation) (t : Trusted) :
    Prop where
  read : db.readOperation k = some o
  trusted : o.trusted = some t
  terminal : t.progress.terminal.isSome

theorem Ended.keeps (h : Ended db k o t) (advances : Advances db db') : Ended db' k o t := by
  obtain ⟨result, hresult⟩ := isSome_iff_exists.mp h.terminal
  obtain ⟨o', hread, hstep⟩ := advances k o h.read
  rw [hstep.terminal h.trusted hresult] at hread
  exact ⟨hread, h.trusted, h.terminal⟩

variable (sha256) in
theorem replay_some (f : Finish) {p : Progress} (terminal : p.terminal.isSome) :
    ∃ prior, replay sha256 f p = some prior := by
  obtain ⟨result, hresult⟩ := isSome_iff_exists.mp terminal
  exact ⟨_, map_eq_some_iff.mpr ⟨result, hresult, rfl⟩⟩

/-- A finish that is to answer with how the operation ended. -/
def Replays (sha256 : JsString → JsString) (t : Trusted) (f : Finish) : Phase → Prop
  | .finishRead _ row => (heldBy f row).isSome
  | .finished _ outcome => replay sha256 f t.progress = some outcome
  | _ => True

/-- The holders of the claim among these sessions answer so. -/
def Repeats (sha256 : JsString → JsString) (k : ConsentOperationKey) (t : Trusted)
    (among : Nat → Prop) (i : Nat) (phase : Phase) : Prop :=
  among i → ∀ f, phase.call = .finish f → f.key = k →
    t.progress.claim?.map Claim.id = some f.claimId → Replays sha256 t f phase

section Repeats

variable {k : ConsentOperationKey} {o : Operation} {t : Trusted} {among : Nat → Prop}

variable {after : ConsentDb → Phase}

theorem repeats_acquire {lock : Lock} {mode : Mode} (acquires : Acquires phase lock mode after) :
    Repeats sha256 k t among i (after db) := by
  rintro - f - - -
  cases acquires <;> trivial

theorem repeats_observe (observes : Observes phase after) (ended : Ended db k o t) :
    Repeats sha256 k t among i (after db) := by
  rintro - f hcall rfl hholder
  cases observes with
  | operation g =>
    cases hcall
    change (heldBy f (db.readOperation f.key)).isSome
    rw [ended.read, heldBy_row ended.trusted hholder]
    rfl
  | _ => trivial

/-- A row read under its lock by the holder of the claim. -/
theorem row_ended {f : Finish} {row : Option Operation} (ended : Ended db f.key o t)
    (rowed : Rowed db held f.key row) (holder : (heldBy f row).isSome) : row = some o := by
  obtain ⟨⟨o', t'⟩, hheld⟩ := isSome_iff_exists.mp holder
  obtain ⟨hrow, _, _⟩ := heldBy_some hheld
  have hread := rowed.2 o' hrow
  rw [ended.read] at hread
  exact hrow.trans hread.symm

theorem repeats_commit (hmove : move sha256 phase = .commit write)
    (hwrite : write i x db = some (db', next)) (knows : Knows sha256 db i ⟨phase, held⟩)
    (ended : Ended db k o t) (repeats : Repeats sha256 k t among i phase) :
    Repeats sha256 k t among i next := by
  intro hamong f hcall hkey hholder
  have hrow := heldBy_row ended.trusted hholder
  obtain ⟨prior, hprior⟩ := replay_some sha256 f ended.terminal
  have hmakes := makes sha256 phase
  rw [hmove] at hmakes
  cases hmakes with
  | untrusted hfree =>
    cases hwrite
    cases hcall
    have hsome := repeats hamong f rfl hkey hholder
    rw [Replays, hfree] at hsome
    cases hsome
  | replays hheld hknown =>
    cases hwrite
    cases hcall
    obtain ⟨_, htrusted, _⟩ := heldBy_some hheld
    obtain ⟨result, hresult, _⟩ := map_eq_some_iff.mp hknown
    have hread := (knows _ _ hheld).2 result hresult
    rw [hkey, ended.read, Option.some.injEq] at hread
    subst hread
    rw [ended.trusted, Option.some.injEq] at htrusted
    subst htrusted
    exact hknown
  | replaced =>
    cases hwrite
    trivial
  | finishes =>
    obtain ⟨_, dbw, outcome, hwork, rfl, rfl⟩ := drawing_some hmove hwrite
    cases hcall
    have hsame := row_ended (hkey ▸ ended) knows.2.2.1 knows.2.2.2
    subst hsame
    unfold finishConsentOperation at hwork
    rw [hrow] at hwork
    simp only [hprior] at hwork
    cases hwork
    exact hprior
  | late =>
    obtain ⟨_, dbw, outcome, hwork, rfl, rfl⟩ := drawing_some (i := i) hmove hwrite
    cases hcall
    have hsame := row_ended (hkey ▸ ended) knows.1 knows.2
    subst hsame
    unfold finishWithoutAuthority at hwork
    rw [hrow] at hwork
    simp only [hprior] at hwork
    cases hwork
    exact hprior
  | issues =>
    obtain ⟨_, dbw, outcome, _, rfl, rfl⟩ := drawing_some hmove hwrite
    cases hcall
  | claims =>
    obtain ⟨_, dbw, outcome, _, rfl, rfl⟩ := drawing_some hmove hwrite
    cases hcall
  | refuses =>
    cases hwrite
    cases hcall
  | publishes =>
    cases hwrite
    cases hcall

theorem repeatDiscipline (sha256 : JsString → JsString) (since : Nat) (among : Nat → Prop) :
    Discipline (program sha256) since (fun db => Ledger db ∧ Ended db k o t)
      fun db i u => Knows sha256 db i u ∧ Repeats sha256 k t among i u.phase where
  start {db i p} hstore _ hstarts := by
    refine ⟨(discipline sha256).start hstore.1 (Nat.zero_le i) hstarts, ?_⟩
    cases p with
    | waiting call =>
      intro _ f _ _ _
      trivial
    | _ => cases hstarts
  acquire hstore hknows hmove :=
    ⟨knows_acquire (acquire_cases hmove) hknows.1, repeats_acquire (acquire_cases hmove)⟩
  observe hstore hknows hmove :=
    ⟨knows_observe (observe_cases hmove) hknows.1,
      repeats_observe (observe_cases hmove) hstore.2⟩
  commit {db i u write x db' p} hstore hknows hmove hwrite := by
    obtain ⟨hledger, hknown⟩ := (discipline sha256).commit hstore.1 hknows.1 hmove hwrite
    have hadvances := (commit_cases hmove hwrite hknows.1).advances hstore.1
    exact ⟨⟨hledger, hstore.2.keeps hadvances⟩, hknown,
      repeats_commit hmove hwrite hknows.1 hstore.2 hknows.2⟩
  stable hstore hknows hmove hwrite hij huknows hapart :=
    ⟨(discipline sha256).stable hstore.1 hknows.1 hmove hwrite hij huknows.1 hapart, huknows.2⟩
  abort {db i u} hstore hknows := by
    refine ⟨(discipline sha256).abort hstore.1 hknows.1, ?_⟩
    intro hamong f hcall hkey hholder
    obtain ⟨phase, held⟩ := u
    cases phase with
    | finished call outcome => exact hknows.2 hamong f hcall hkey hholder
    | _ => trivial

end Repeats

end Sessions

/-! ## Safety -/

/-- A call that was not answered yet, nor found the operation claimed by another. -/
def Undecided : Phase → Prop
  | .finishRead f row => (heldBy f row).isSome
  | .finished _ _ => False
  | _ => True

/-- The commit of session `i` decides the connection by the operation `o`. -/
structure Decides (s s' : System) (i : Nat) (x : Draw) (f : Finish) (o : Operation) (t : Trusted)
    (claim : Claim) : Prop where
  session : ∃ phase held, s.sessions[i]? = some ⟨phase, held⟩ ∧ phase.call = .finish f
  read : s.db.readOperation f.key = some o
  trusted : o.trusted = some t
  claimed : t.progress = .claimed claim
  holder : claim.id = f.claimId
  inTime : x.sampledAt < claim.finalDeadline
  connection : ∃ c, s.db.connection = some c ∧ c.incarnation = some t.expected.connection
  newest : (issues s.db.history).getLast? = some o.id
  authority : ∃ a, s.db.authority = some a ∧ a.configurationRevision = t.expected.configuration
  recorded : s'.db.history = s.db.history ++ [.applied i o.id]

/-- What consent operations keep from a state on. -/
structure ConsentSafety (sha256 : JsString → JsString) (s : System) : Prop where
  final : ∀ k o t, Ended s.db k o t → ∀ actions s',
    Runs.run (step (program sha256)) s actions = some s' → Ended s'.db k o t
  claimedOnce : ((claims s.db.history).map Prod.snd).Nodup
  claimedBy : ∀ (i j : Nat) k l a b hi hj,
    s.sessions[i]? = some ⟨.finished (.claim k) (.claimed a), hi⟩ →
    s.sessions[j]? = some ⟨.finished (.claim l) (.claimed b), hj⟩ →
    k.operationId = l.operationId → i = j
  appliedOnce : ((applications s.db.history).map Prod.snd).Nodup
  decides : ∀ action s', step (program sha256) s action = some s' →
    s'.db.connection ≠ s.db.connection →
    (∃ c ∈ s'.db.connection, c.status = .connected ∨ c.status = .error) →
    ∃ i x f o t claim, action = .advance i x ∧ Decides s s' i x f o t claim
  told : ∀ (i : Nat) call outcome held,
    s.sessions[i]? = some ⟨.finished call outcome, held⟩ → Told sha256 s.db i call outcome
  repeated : ∀ (i : Nat) g result held,
    s.sessions[i]? = some ⟨.finished (.finish g) (.applied result), held⟩ →
    ∀ actions s', Runs.run (step (program sha256)) s actions = some s' →
    ∀ (j : Nat) f outcome held', s'.sessions[j]? = some ⟨.finished (.finish f) outcome, held'⟩ →
    f.key = g.key → f.claimId = g.claimId →
    (∀ u, s.sessions[j]? = some u → Undecided u.phase) →
    outcome = if f.result = g.result then .replayed result else .rejected .conflict
  returns : ∀ k o t, Ended s.db k o t → ∀ f x y, f.key = k → (prepared f.value).isSome →
    t.progress.claim?.map Claim.id = some f.claimId →
    ∃ s' outcome, Runs.run (step (program sha256)) s [.start (.waiting (.finish f)),
      .advance s.sessions.length x, .advance s.sessions.length y] = some s' ∧ s'.db = s.db ∧
      s'.sessions[s.sessions.length]? = some ⟨.finished (.finish f) outcome, []⟩
  repeatedEnd : ∀ (i : Nat) g result held,
    s.sessions[i]? = some ⟨.finished (.finish g) (.ended result), held⟩ →
    ∀ actions s', Runs.run (step (program sha256)) s actions = some s' →
    ∀ (j : Nat) f outcome held', s'.sessions[j]? = some ⟨.finished (.finish f) outcome, held'⟩ →
    f.key = g.key → f.claimId = g.claimId →
    (∀ u, s.sessions[j]? = some u → Undecided u.phase) → outcome = .replayed result

section Safety

variable {sha256 : JsString → JsString} {s s' : System}

theorem text_injective : Function.Injective Failure.text := by
  intro a b h
  cases a <;> cases b <;> first | rfl | exact absurd h (by decide)

theorem digest_inj (collisionFree : Function.Injective sha256)
    {p q : PreparedConsentResult} (h : p.digest sha256 = q.digest sha256) : p = q := by
  have hjson : p.json = q.json := Json.stringify_injective (collisionFree h)
  cases p with
  | failed a =>
    cases q with
    | failed b =>
      simp only [PreparedConsentResult.json, Json.object.injEq, List.cons.injEq, Prod.mk.injEq,
        true_and, and_true, Json.string.injEq] at hjson
      rw [text_injective hjson]
    | succeeded displayName primaryDomain grantedPermissions =>
      simp [PreparedConsentResult.json] at hjson
  | succeeded displayName primaryDomain grantedPermissions =>
    cases q with
    | failed b => simp [PreparedConsentResult.json] at hjson
    | succeeded otherName otherDomain otherPermissions =>
      simp only [PreparedConsentResult.json, Json.object.injEq, List.cons.injEq, Prod.mk.injEq,
        true_and, and_true, Json.string.injEq, Json.array.injEq] at hjson
      obtain ⟨hname, hdomain, hpermissions⟩ := hjson
      rw [hname, Publication.jsonOption_injective hdomain,
        List.map_injective_iff.mpr (fun _ _ => Json.string.inj) hpermissions]

variable {k : ConsentOperationKey} {o : Operation} {t : Trusted}

/-- From where an operation ended, its claim's finishes are answered by how it did. -/
theorem ended_holds (h : Holds 0 Ledger (Knows sha256) s) (ended : Ended s.db k o t) :
    Holds s.sessions.length (fun db => Ledger db ∧ Ended db k o t)
      (fun db i u => Knows sha256 db i u ∧ Repeats sha256 k t
        (fun j => ∀ u, s.sessions[j]? = some u → Undecided u.phase) i u.phase) s where
  later := le_rfl
  store := ⟨h.store, ended⟩
  known i u hu := by
    refine ⟨h.known i u hu, ?_⟩
    intro hundecided f hcall hkey hholder
    have hopen := hundecided u hu
    obtain ⟨phase, held⟩ := u
    cases phase with
    | finishRead g row =>
      cases hcall
      exact hopen
    | finished call outcome => exact hopen.elim
    | _ => trivial
  apart := h.apart

variable {actions : List (Action Phase Draw)}

variable {f : Finish} {held : List (Lock × Mode)}

theorem ended_answer (h : Holds 0 Ledger (Knows sha256) s) (ended : Ended s.db k o t)
    (run : Runs.run (step (program sha256)) s actions = some s') {j : Nat} {outcome : Outcome}
    (answered : s'.sessions[j]? = some ⟨.finished (.finish f) outcome, held⟩) (key : f.key = k)
    (holder : t.progress.claim?.map Claim.id = some f.claimId)
    (undecided : ∀ u, s.sessions[j]? = some u → Undecided u.phase) :
    replay sha256 f t.progress = some outcome :=
  ((run_holds (repeatDiscipline sha256 _ _) (ended_holds h ended) run).known j _ answered).2
    undecided f rfl key holder

/-- A finish of an operation that ended is answered by what it reads first. -/
theorem ended_returns (ended : Ended s.db k o t) (x y : Draw) (key : f.key = k)
    (accepted : (prepared f.value).isSome)
    (holder : t.progress.claim?.map Claim.id = some f.claimId) :
    ∃ s' outcome, Runs.run (step (program sha256)) s [.start (.waiting (.finish f)),
      .advance s.sessions.length x, .advance s.sessions.length y] = some s' ∧ s'.db = s.db ∧
      s'.sessions[s.sessions.length]? = some ⟨.finished (.finish f) outcome, []⟩ := by
  subst key
  obtain ⟨prior, hprior⟩ := replay_some sha256 f ended.terminal
  have hheld := heldBy_row ended.trusted holder
  have hstarts : (program sha256).starts (.waiting (.finish f)) = true := accepted
  have hstart : step (program sha256) s (.start (.waiting (.finish f))) =
      some ⟨s.db, s.sessions ++ [⟨.waiting (.finish f), []⟩]⟩ := by
    rw [step, if_pos hstarts]
  have hread : step (program sha256) ⟨s.db, s.sessions ++ [⟨.waiting (.finish f), []⟩]⟩
      (.advance s.sessions.length x) =
        some ⟨s.db, s.sessions ++ [⟨.finishRead f (some o), []⟩]⟩ := by
    simp [step, program, move, ended.read]
  have hanswer : step (program sha256) ⟨s.db, s.sessions ++ [⟨.finishRead f (some o), []⟩]⟩
      (.advance s.sessions.length y) =
        some ⟨s.db, s.sessions ++ [⟨.finished (.finish f) prior, []⟩]⟩ := by
    simp [step, program, move, hheld, hprior, answer]
  refine ⟨⟨s.db, s.sessions ++ [⟨.finished (.finish f) prior, []⟩]⟩, prior, ?_, rfl, by simp⟩
  rw [Runs.run, hstart, bind_some, Runs.run, hread, bind_some, Runs.run, hanswer,
    bind_some, Runs.run]

variable {db : ConsentDb}

theorem applied_connects {x : Draw} {i : Nat} {initial : Trusted} {current : ManagedAuthority}
    {connection : Option Connection} {row : Option Operation} (ledger : Ledger s.db)
    (session : s.sessions[i]? = some ⟨.finishReady f initial current connection row, held⟩)
    (knows : Knows sha256 s.db i ⟨.finishReady f initial current connection row, held⟩)
    (applies : Applies sha256 f initial current connection row i x s.db db) :
    ∃ o t claim, ∀ s' : System, s'.db = db.draw x → Decides s s' i x f o t claim := by
  obtain ⟨⟨_, hauthority⟩, hconnected, ⟨_, hread⟩, _⟩ := knows
  obtain ⟨o, t, claim, c, hrow, htrusted, hclaimed, hholder, htime, hc, hexpected, rfl⟩ := applies
  have hconnection := (hconnected c hc).2
  simp only [stillExpected, any_some, Bool.and_eq_true, decide_eq_true_eq] at hexpected
  obtain ⟨⟨_, hincarnation, _⟩, hrevision, _⟩ := hexpected
  refine ⟨o, t, claim, fun s' hs' => ⟨⟨_, _, session, rfl⟩, hread o hrow, htrusted, hclaimed,
    hholder, htime, ⟨c, hconnection, hincarnation⟩, ?_, ⟨current, hauthority, hrevision⟩, ?_⟩⟩
  · exact ledger.newest o (read_mem (hread o hrow)).1 t htrusted c hconnection hincarnation
  · obtain ⟨_, _, _, _, _, _, _, hhistory⟩ := applied_cases sha256 i x s.db f o claim c
    rw [hs']
    exact hhistory

/-- A commit that leaves the connection decided is that of a finish. -/
theorem decides_step (h : Holds 0 Ledger (Knows sha256) s) {action : Action Phase Draw}
    (hstep : step (program sha256) s action = some s')
    (changed : s'.db.connection ≠ s.db.connection)
    (decided : ∃ c ∈ s'.db.connection, c.status = .connected ∨ c.status = .error) :
    ∃ i x f o t claim, action = .advance i x ∧ Decides s s' i x f o t claim := by
  cases action with
  | start p =>
    simp only [step] at hstep
    split at hstep
    · cases hstep
      exact absurd rfl changed
    · cases hstep
  | abort i =>
    simp only [step, map_eq_some_iff] at hstep
    obtain ⟨_, _, rfl⟩ := hstep
    exact absurd rfl changed
  | advance i x =>
    simp only [step, bind_eq_some_iff] at hstep
    obtain ⟨⟨phase, held⟩, hsession, hmove⟩ := hstep
    have hknows := h.known i _ hsession
    split at hmove
    · split at hmove
      · cases hmove
        exact absurd rfl changed
      · cases hmove
    · cases hmove
      exact absurd rfl changed
    · rename_i write hwrite
      simp only [map_eq_some_iff, Prod.exists] at hmove
      obtain ⟨db, next, hdb, rfl⟩ := hmove
      cases commit_cases hwrite hdb hknows with
      | answered => exact absurd rfl changed
      | published => exact absurd rfl changed
      | drawn fresh effect told connects locked =>
        cases connects with
        | same connection => exact absurd connection changed
        | pending _ status =>
          obtain ⟨c, hc, hstatus⟩ := decided
          have hpending := status c hc
          rw [hpending] at hstatus
          rcases hstatus with hstatus | hstatus <;> cases hstatus
        | decided _ ready applies =>
          subst ready
          obtain ⟨o, t, claim, hdecides⟩ := applied_connects h.store hsession hknows applies
          exact ⟨i, x, _, o, t, claim, rfl, hdecides _ rfl⟩
    · cases hmove

/-- No operation was issued yet, and the ids in use count as drawn. -/
structure Unissued (db : ConsentDb) : Prop where
  untrusted : ∀ o ∈ db.operations, o.trusted = none
  distinct : (db.operations.map Operation.id).Nodup
  ids : ∀ o ∈ db.operations, o.id ∈ db.drawn
  incarnation : ∀ c ∈ db.connection, ∀ i ∈ c.incarnation, i ∈ db.drawn
  history : db.history = []

theorem ledger_initial (h : Unissued db) : Ledger db where
  ids := h.distinct
  drawnIds := h.ids
  drawnConnections o ho t ht := by
    rw [h.untrusted o ho] at ht
    cases ht
  drawnIncarnation := h.incarnation
  newest o ho t ht := by
    rw [h.untrusted o ho] at ht
    cases ht
  claimed r hr := by
    rw [h.history] at hr
    cases hr
  claimedOnce := by
    rw [h.history]
    exact nodup_nil
  applied r hr := by
    rw [h.history] at hr
    cases hr
  appliedOnce := by
    rw [h.history]
    exact nodup_nil

end Safety

section Sample

def sampleId (digit : JsString) : JsString := digit ++ js "0000000-0000-4000-8000-000000000000"

def sampleAuthority : ManagedAuthority where
  configurationRevision := ⟨sampleId (js "a"), by decide⟩
  clientId := ⟨sampleId (js "b"), by decide⟩
  homeTenantId := ⟨sampleId (js "c"), by decide⟩
  credentialReference := SECRET_REFERENCE ++ sampleId (js "a")

def sampleDb : ConsentDb where
  authority := some sampleAuthority
  tenant := some ⟨⟨sampleId (js "d"), by decide⟩, js "Contoso", none, false⟩
  connection := some ⟨none, .other, [], none⟩
  roleAttempt := none
  operations := []
  foreignHashes := []
  drawn := []
  history := []

def issueDraw : Draw :=
  ⟨1000, ⟨sampleId (js "1"), by decide⟩, ⟨sampleId (js "2"), by decide⟩,
    ⟨sampleId (js "3"), by decide⟩⟩

def claimDraw : Draw :=
  ⟨2000, ⟨sampleId (js "4"), by decide⟩, ⟨sampleId (js "5"), by decide⟩,
    ⟨sampleId (js "6"), by decide⟩⟩

def finishDraw : Draw :=
  ⟨3000, ⟨sampleId (js "7"), by decide⟩, ⟨sampleId (js "8"), by decide⟩,
    ⟨sampleId (js "9"), by decide⟩⟩

def sampleKey : ConsentOperationKey := ⟨issueDraw.operationId, js "state"⟩

/-- An operation is issued, claimed and finished. -/
def sampleRun : List (Action Phase Draw) :=
  .start (.waiting (.issue
    ⟨⟨sampleId (js "d"), by decide⟩, sampleAuthority.configurationRevision, none, js "state"⟩)) ::
  List.replicate 6 (.advance 0 issueDraw) ++ .start (.waiting (.claim sampleKey)) ::
  List.replicate 2 (.advance 1 claimDraw) ++ .start (.waiting (.finish
    ⟨sampleKey, claimDraw.claimId, .failed .consentDenied⟩)) ::
  List.replicate 8 (.advance 2 finishDraw)

end Sample

end ConsentOperations
