import HawkView.Alerts.EmailRegularRelease

/-!
# The email release store

The transactions of `EmailReleaseStore`: `claim`, `open`, `maySend`, `withdraw`
and `settle`. Each is atomic, holds its row locks until it commits, and is `none`
where it throws. `open` freezes the request of a message and counts the attempt
before anything is sent.
-/

namespace EmailReleaseStore

open SendTables SendQueue SendStore EmailRegularRelease Option

structure FrozenEmail where
  key : IdempotencyKey
  payload : JsString
  recipient : OperatorAddress
  deriving DecidableEq, Repr

structure VerifiedRecipient where
  address : OperatorAddress
  verifiedAt : Millis
  deriving DecidableEq, Repr

inductive EmailProviderResult
  | accepted (providerId : ProviderMessageId)
  | unknown
  | retryable (code : JsString) (retryAfterMs : Int)
  | permanent
  deriving DecidableEq, Repr

def EmailProviderResult.code : EmailProviderResult → JsString
  | accepted _ => []
  | unknown => js "PROVIDER_OUTCOME_UNKNOWN"
  | retryable code _ => code
  | permanent => js "PROVIDER_REQUEST_REJECTED"

/-! ## Claim -/

/-- What the queries of `claim` on other tables answered. -/
structure ControlledQueries where
  clock : Micros
  epochBlocks : Bool
  candidate : Option MessageId
  notificationsEligible : Bool

def existingEnvelope (db : Database) (config : EmailReleaseConfig) : Option EnvelopeRow :=
  db.envelopes.rows.find? fun v => v.activationId == config.activationId

/-- The envelope of the activation is the one that this configuration made. -/
def matchesConfig (v : EnvelopeRow) (config : EmailReleaseConfig) : Bool :=
  v.organizationId == config.organizationId && v.ownerUserId == config.ownerUserId &&
  v.recipientHash == config.recipientHash && iso v.startsAt == config.startsAt &&
  iso v.expiresAt == config.expiresAt && v.fromAddress == config.sender &&
  v.appOrigin == config.appOrigin

def overlaps (db : Database) (config : EmailReleaseConfig) : Bool :=
  db.envelopes.rows.any fun v =>
    v.organizationId == config.organizationId &&
      decide (timestamptz config.startsAt < v.expiresAt)

/-- The `WHERE` clause of the candidate query, as far as it is about the send tables. -/
def controlledCandidate (db : Database) (config : EmailReleaseConfig) (now : Millis)
    (r : JobRow) : Bool :=
  pending r.state && r.attemptsMade == 0 && decide (r.notBeforeAt ≤ timestamptz now) &&
  claimFree r (timestamptz now) && decide (timestamptz config.startsAt ≤ r.createdAt) &&
  decide (r.createdAt < timestamptz config.expiresAt) &&
  ofOrganization config.organizationId r.messageId && (db.envelope r.messageId).isNone

/-- The row that `claim` locks, if any; the error is where it throws. -/
def controlledRow (db : Database) (config : EmailReleaseConfig) (now : Millis)
    (q : ControlledQueries) : Except Unit (Option JobRow) :=
  if q.epochBlocks then .ok none
  else match existingEnvelope db config with
    | some v =>
      if matchesConfig v config then .ok (db.job v.messageId) else .error ()
    | none =>
      if overlaps db config then .ok none
      else match q.candidate.bind db.job with
        | some r =>
          if controlledCandidate db config now r ∧ q.notificationsEligible = true then
            .ok (some r)
          else .ok none
        | none => .ok none

def exhaustJob (m : MessageId) (clock : Micros) : Sql.Update JobRow where
  applies r := r.messageId == m && pending r.state && claimFree r clock
  set r := { r with
    state := .exhausted
    claimedBy := none, claimedAt := none, claimExpiresAt := none }

def controlledEnvelope (config : EmailReleaseConfig) (m : MessageId) (key : IdempotencyKey)
    (clock : Micros) : EnvelopeRow where
  messageId := m
  activationId := config.activationId
  organizationId := config.organizationId
  ownerUserId := config.ownerUserId
  recipientHash := config.recipientHash
  startsAt := timestamptz config.startsAt
  expiresAt := timestamptz config.expiresAt
  fromAddress := config.sender
  appOrigin := config.appOrigin
  recipientAddress := none
  verifiedAt := none
  payload := none
  idempotencyKey := key
  providerId := none
  createdAt := clock
  releaseMode := .controlled
  regularEpochId := none

def claimControlled (db : Database) (config : EmailReleaseConfig) (now : Millis)
    (q : ControlledQueries) (worker : WorkerId) (key : IdempotencyKey) :
    Option (Database × Option EmailClaim) :=
  match controlledRow db config now q with
  | .error () => none
  | .ok none => some (db, none)
  | .ok (some row) =>
    if pending row.state = false then some (db, none)
    else if row.attemptsMade ≥ min row.maxAttempts EMAIL_ATTEMPTS then
      (execute db (exhaustJob row.messageId q.clock)).map fun (db', _) => (db', none)
    else
      takeClaim db config worker now EMAIL_ATTEMPTS row
        (controlledEnvelope config row.messageId key q.clock)

/-! ## Open -/

/-- The lock on the job: still claimed by this worker, with no attempt since the claim. -/
def live (claim : EmailClaim) (r : JobRow) (clock : Micros) : Bool :=
  heldFor claim r clock 7 && r.attemptsMade == claim.job.attemptsMade &&
  decide (r.attemptsMade < min r.maxAttempts 3)

def freezeEnvelope (m : MessageId) (recipient : VerifiedRecipient) (payload : JsString) :
    Sql.Update EnvelopeRow where
  applies v := v.messageId == m && v.payload.isNone
  set v := { v with
    recipientAddress := some recipient.address
    verifiedAt := some (timestamptz recipient.verifiedAt)
    payload := some payload }

/-- Freeze the request of a message unless it is frozen. -/
def freeze (db : Database) (v : EnvelopeRow) (recipient : VerifiedRecipient)
    (payload : JsString) : Option Database :=
  match v.payload with
  | some _ => some db
  | none =>
    (db.envelopes.update (freezeEnvelope v.messageId recipient payload)).map
      fun (envelopes, _) => { db with envelopes := envelopes }

def addAttempt (db : Database) (m : MessageId) (attemptNo : Nat) (now : Millis) :
    Option Database :=
  (db.attempts.insert ⟨m, attemptNo, timestamptz now, none, none, none, none⟩).map
    fun attempts => { db with attempts := attempts }

def countAttempt (claim : EmailClaim) (attemptNo : Nat) (now : Millis) :
    Sql.Update JobRow where
  applies r :=
    r.messageId == claim.job.messageId && heldBy r (some claim.worker) && r.state == .claimed
  set r := { r with
    attemptsMade := r.attemptsMade + 1
    notBeforeAt := timestamptz (now + backoffMs attemptNo) }

/-- The durable reservation of one attempt; `some (db, none)` for a suppressed address. -/
def reserve (db : Database) (claim : EmailClaim) (recipient : VerifiedRecipient)
    (q : OpenQueries) (now : Millis) : Option (Database × Option FrozenEmail) :=
  match db.job claim.job.messageId, db.envelope claim.job.messageId with
  | some r, envelope =>
    if live claim r q.clock = false then none
    else if q.suppressed then some (db, none)
    else match envelope with
      | none => none
      | some v =>
        if iso v.expiresAt ≤ now ∨
            v.recipientAddress.any (fun address => address != recipient.address) = true then none
        else do
          let payload := v.payload.getD q.rendered
          let attemptNo := claim.job.attemptsMade + 1
          let db₁ ← freeze db v recipient payload
          let db₂ ← addAttempt db₁ claim.job.messageId attemptNo now
          let (db₃, _) ← execute db₂ (countAttempt claim attemptNo now)
          some (db₃, some ⟨v.idempotencyKey, payload, recipient.address⟩)
  | none, _ => none

inductive OpenOutcome
  | refused (status : RegularEmailStatus)
  | suppressed
  | opened (envelope : FrozenEmail)
  deriving DecidableEq, Repr

def OpenOutcome.ofReserved : Option FrozenEmail → OpenOutcome
  | some envelope => .opened envelope
  | none => .suppressed

/-- `open`: the gate of the regular mode, then the reservation. -/
def openClaim (db : Database) (claim : EmailClaim) (recipient : VerifiedRecipient)
    (q : OpenQueries) (now : Millis) : Option (Database × OpenOutcome) :=
  match claim.config.mode with
  | .controlled =>
    (reserve db claim recipient q now).map fun (db', e) => (db', .ofReserved e)
  | .regular =>
    match regularReservationGate db claim q with
    | .lost => none
    | .stop status =>
      (execute db (stopJob claim.job.messageId (some claim.worker) q.clock)).map
        fun (db', _) => (db', .refused status)
    | .defer =>
      (execute db (deferJob claim.job.messageId (some claim.worker) q.atIso q.clock)).map
        fun (db', _) => (db', .refused .rateLimited)
    | .pass =>
      (reserve db claim recipient q q.atIso).map fun (db', e) => (db', .ofReserved e)

/-! ## The last check, withdrawal and settlement -/

/-- `maySend`: the final check, `authorized` being its conditions on other tables. -/
def maySend (db : Database) (claim : EmailClaim) (envelope : FrozenEmail) (clock : Micros)
    (authorized : Bool) : Bool :=
  match db.job claim.job.messageId, db.envelope claim.job.messageId with
  | some r, some v =>
    heldFor claim r clock 6 && r.attemptsMade == claim.job.attemptsMade + 1 &&
    decide (clock + 6 * second < v.expiresAt) &&
    v.recipientAddress == some envelope.recipient && v.idempotencyKey == envelope.key &&
    v.organizationId == claim.config.organizationId &&
    v.ownerUserId == claim.config.ownerUserId && v.releaseMode == claim.config.mode &&
    authorized
  | _, _ => false

/-- The job is claimed by this worker and the claim has not run out. -/
def heldNow (claim : EmailClaim) (r : JobRow) (clock : Micros) : Bool :=
  r.messageId == claim.job.messageId && heldFor claim r clock 0

def withdrawJob (claim : EmailClaim) (reason : WithdrawnReason) (clock : Micros) :
    Sql.Update JobRow where
  applies r := heldNow claim r clock
  set r := { r with
    state := .withdrawn
    withdrawnAt := some clock, withdrawnBecause := some reason
    claimedBy := none, claimedAt := none, claimExpiresAt := none }

def vetoAttempt (claim : EmailClaim) : Sql.Update AttemptRow where
  applies a :=
    a.messageId == claim.job.messageId && a.attemptNo == claim.job.attemptsMade + 1 &&
    a.settledKind.isNone
  set a := { a with because := some (js "NOT_SENT_LOCAL_VETO") }

def withdraw (db : Database) (claim : EmailClaim) (reason : WithdrawnReason)
    (clock : Micros) : Option Database := do
  let (db', changed) ← execute db (withdrawJob claim reason clock)
  if changed = 1 then
    (db'.attempts.update (vetoAttempt claim)).map
      fun (attempts, _) => { db' with attempts := attempts }
  else some db'

/-- The provider's answer in the vocabulary of the queue. -/
def settledOf (result : EmailProviderResult) (atIso : Millis) : Settled :=
  match result with
  | .accepted providerId => .accepted providerId atIso
  | .permanent => .refusedPermanent atIso result.code
  | _ => .refusedRetryable atIso result.code

def settleJob (claim : EmailClaim) (result : EmailProviderResult) (now : Millis)
    (clock : Micros) : Sql.Update JobRow where
  applies r := heldNow claim r clock && r.attemptsMade == claim.job.attemptsMade + 1
  set r :=
    let next := afterAttempt claim.job (settledOf result now)
    let nextAt := match result with
      | .retryable _ retryAfterMs => max next.notBeforeIso (now + min retryAfterMs 3600000)
      | _ => next.notBeforeIso
    { r with
      state := next.state
      providerId := (settledOf result now).providerId
      notBeforeAt := timestamptz nextAt
      claimedBy := none, claimedAt := none, claimExpiresAt := none }

/-- An outcome that is not known stays open in the attempt row. -/
def settleAttemptRow (claim : EmailClaim) (result : EmailProviderResult) (now : Millis) :
    Sql.Update AttemptRow where
  applies a :=
    a.messageId == claim.job.messageId && a.attemptNo == claim.job.attemptsMade + 1 &&
    a.settledKind.isNone
  set a :=
    let settled := settledOf result now
    let known := result != .unknown
    { a with
      settledKind := if known then some settled.kind else none
      settledAt := if known then some (timestamptz now) else none
      providerId := settled.providerId
      because := settled.because }

def acceptEnvelope (m : MessageId) (providerId : ProviderMessageId) :
    Sql.Update EnvelopeRow where
  applies v := v.messageId == m && v.providerId.all (· == providerId)
  set v := { v with providerId := some providerId }

def recordAccepted (db : Database) (claim : EmailClaim) :
    EmailProviderResult → Option Database
  | .accepted providerId =>
    (db.envelopes.update (acceptEnvelope claim.job.messageId providerId)).map
      fun (envelopes, _) => { db with envelopes := envelopes }
  | _ => some db

def settle (db : Database) (claim : EmailClaim) (result : EmailProviderResult)
    (now : Millis) (clock : Micros) : Option Database := do
  let jobs ← db.jobs.updateOne (settleJob claim result now clock)
  let attempts ← db.attempts.updateOne (settleAttemptRow claim result now)
  recordAccepted { db with jobs := jobs, attempts := attempts } claim result

/-! ## What a transaction keeps -/

/-- The request that an envelope has frozen. -/
def frozenRow (v : EnvelopeRow) : Option FrozenEmail :=
  match v.payload, v.recipientAddress with
  | some payload, some recipient => some ⟨v.idempotencyKey, payload, recipient⟩
  | _, _ => none

/-- The request that is frozen for a message. -/
def frozen (db : Database) (m : MessageId) : Option FrozenEmail :=
  (db.envelope m).bind frozenRow

/-- Jobs keep their budget, attempts stay, and a frozen request stays as it is. -/
structure Extends (db db' : Database) : Prop where
  job : ∀ m r, db.job m = some r →
    ∃ r', db'.job m = some r' ∧ r'.maxAttempts = r.maxAttempts
  attempt : ∀ m n, (db.attempt m n).isSome → (db'.attempt m n).isSome
  frozen : ∀ m e, frozen db m = some e → frozen db' m = some e

section Extension

variable {db db' db'' : Database}

theorem Extends.refl (db : Database) : Extends db db :=
  ⟨fun _ r h => ⟨r, h, rfl⟩, fun _ _ h => h, fun _ _ h => h⟩

theorem Extends.trans (h : Extends db db') (h' : Extends db' db'') : Extends db db'' := by
  refine ⟨?_, fun m n hn => h'.attempt m n (h.attempt m n hn),
    fun m e he => h'.frozen m e (h.frozen m e he)⟩
  intro m r hr
  obtain ⟨r', hr', hmax'⟩ := h.job m r hr
  obtain ⟨r'', hr'', hmax''⟩ := h'.job m r' hr'
  exact ⟨r'', hr'', hmax''.trans hmax'⟩

/-- An update that leaves the budgets of the jobs alone. -/
def KeepsBudget (u : Sql.Update JobRow) : Prop := ∀ r, (u.set r).maxAttempts = r.maxAttempts

variable {u : Sql.Update JobRow}

theorem KeepsBudget.on (h : KeepsBudget u) (r : JobRow) :
    (u.on r).maxAttempts = r.maxAttempts :=
  Sql.Update.on_cases (P := fun s : JobRow => s.maxAttempts = r.maxAttempts) (fun _ => h r) rfl

theorem extends_of_jobs (budget : KeepsBudget u) (jobs : ∀ m, db'.job m = (db.job m).map u.on)
    (attempts : ∀ m n, (db.attempt m n).isSome → (db'.attempt m n).isSome)
    (envelopes : db'.envelopes = db.envelopes) : Extends db db' := by
  refine ⟨?_, attempts, ?_⟩
  · intro m r hr
    refine ⟨u.on r, ?_, budget.on r⟩
    rw [jobs, hr]
    rfl
  · intro m e he
    simpa [EmailReleaseStore.frozen, Database.envelope, envelopes] using he

theorem execute_extends {rows : Nat} (keeps : u.KeepsKey JobRow.messageId)
    (budget : KeepsBudget u) (h : execute db u = some (db', rows)) : Extends db db' := by
  obtain ⟨hattempts, henvelopes⟩ := execute_tables h
  refine extends_of_jobs budget (execute_job keeps h) ?_ henvelopes
  intro m n hn
  simpa [Database.attempt, hattempts] using hn

variable {m : MessageId} {now : Millis}

theorem addAttempt_tables {n : Nat} (h : addAttempt db m n now = some db') :
    db'.jobs = db.jobs ∧ db'.envelopes = db.envelopes := by
  simp only [addAttempt, map_eq_some_iff] at h
  obtain ⟨_, _, hdb⟩ := h
  subst hdb
  exact ⟨rfl, rfl⟩

theorem addAttempt_spec {n : Nat} (h : addAttempt db m n now = some db') :
    db.attempt m n = none ∧ (db'.attempt m n).isSome ∧
      (∀ m' n', (db'.attempt m' n').isSome → (db.attempt m' n').isSome ∨ m' = m) ∧
      Extends db db' := by
  have htables := addAttempt_tables h
  simp only [addAttempt, map_eq_some_iff] at h
  obtain ⟨attempts, hinsert, hdb⟩ := h
  have hfresh : db.attempt m n = none := Sql.Table.insert_fresh attempts_keyed hinsert
  have hfind : ∀ m' n', db'.attempt m' n' = (db.attempt m' n').or
      (if AttemptRow.key ⟨m, n, timestamptz now, none, none, none, none⟩ = (m', n') then
        some ⟨m, n, timestamptz now, none, none, none, none⟩ else none) := by
    subst hdb
    exact fun m' n' => Sql.Table.find_insert hinsert
  refine ⟨hfresh, ?_, ?_, ?_, ?_, ?_⟩
  · rw [hfind, hfresh]
    simp [AttemptRow.key]
  · intro m' n' hn
    rw [hfind] at hn
    by_cases hkey : (m, n) = (m', n')
    · exact Or.inr (Prod.mk.inj hkey).1.symm
    · rw [if_neg (by simpa [AttemptRow.key] using hkey), or_none] at hn
      exact Or.inl hn
  · intro m' r hr
    exact ⟨r, by simpa [Database.job, htables.1] using hr, rfl⟩
  · intro m' n' hn
    rw [hfind]
    simp [hn]
  · intro m' e he
    simpa [EmailReleaseStore.frozen, Database.envelope, htables.2] using he

variable {v : EnvelopeRow}

theorem frozen_of_envelope {payload recipient : JsString} (h : db.envelope m = some v)
    (hpayload : v.payload = some payload) (hrecipient : v.recipientAddress = some recipient) :
    EmailReleaseStore.frozen db m = some ⟨v.idempotencyKey, payload, recipient⟩ := by
  simp [EmailReleaseStore.frozen, frozenRow, h, hpayload, hrecipient]

/-- The recipient of an envelope is set together with its payload. -/
theorem recipient_of_payload (h : db.envelope m = some v) :
    v.recipientAddress.isSome = v.payload.isSome := by
  have hcheck : v.check = true := Sql.Table.find_check h
  simp only [EnvelopeRow.check, allOrNone, Bool.and_eq_true, beq_iff_eq] at hcheck
  exact hcheck.1.2.1.trans hcheck.1.2.2

/-- Updating envelopes without touching what is frozen. -/
theorem envelopes_extends {u : Sql.Update EnvelopeRow}
    (envelope : ∀ m, db'.envelope m = (db.envelope m).map u.on)
    (keeps : ∀ v, u.applies v = true → v.payload.isSome →
      (u.set v).payload = v.payload ∧ (u.set v).recipientAddress = v.recipientAddress ∧
        (u.set v).idempotencyKey = v.idempotencyKey)
    (jobs : db'.jobs = db.jobs) (attempts : db'.attempts = db.attempts) :
    Extends db db' := by
  refine ⟨?_, ?_, ?_⟩
  · intro m r hr
    exact ⟨r, by simpa [Database.job, jobs] using hr, rfl⟩
  · intro m n hn
    simpa [Database.attempt, attempts] using hn
  · intro m e he
    simp only [EmailReleaseStore.frozen, bind_eq_some_iff] at he ⊢
    obtain ⟨v, hv, he⟩ := he
    refine ⟨u.on v, by rw [envelope, hv]; rfl, ?_⟩
    by_cases happlies : u.applies v = true
    · have hsome : v.payload.isSome := by
        cases hpayload : v.payload with
        | none => simp [frozenRow, hpayload] at he
        | some payload => rfl
      obtain ⟨h₁, h₂, h₃⟩ := keeps v happlies hsome
      rw [Sql.Update.on_pos happlies, frozenRow, h₁, h₂, h₃]
      exact he
    · rw [Sql.Update.on_neg happlies]
      exact he

variable {recipient : VerifiedRecipient}

theorem freeze_spec {rendered : JsString} (hv : db.envelope m = some v)
    (hrecipient : ¬ v.recipientAddress.any (fun address => address != recipient.address) = true)
    (h : freeze db v recipient (v.payload.getD rendered) = some db') :
    EmailReleaseStore.frozen db' m =
        some ⟨v.idempotencyKey, v.payload.getD rendered, recipient.address⟩ ∧
      db'.jobs = db.jobs ∧ db'.attempts = db.attempts ∧ Extends db db' := by
  unfold freeze at h
  split at h
  · next payload hpayload =>
    have hdb := Option.some.inj h
    subst hdb
    have hsome : v.recipientAddress.isSome := by
      rw [recipient_of_payload hv, hpayload]
      rfl
    obtain ⟨address, haddress⟩ := isSome_iff_exists.mp hsome
    have hsame : address = recipient.address := by
      simpa [haddress] using hrecipient
    subst hsame
    refine ⟨?_, rfl, rfl, Extends.refl db⟩
    rw [hpayload]
    exact frozen_of_envelope hv hpayload haddress
  · next hpayload =>
    simp only [map_eq_some_iff] at h
    obtain ⟨⟨envelopes, n⟩, hupdate, hdb⟩ := h
    subst hdb
    rw [hpayload, getD_none] at hupdate ⊢
    have hfind : ∀ k, (⟨db.jobs, db.attempts, envelopes⟩ : Database).envelope k =
        (db.envelope k).map (freezeEnvelope v.messageId recipient rendered).on :=
      fun k => Sql.Table.find_update (fun _ => rfl) hupdate
    refine ⟨?_, rfl, rfl, envelopes_extends hfind ?_ rfl rfl⟩
    · have happlies : (freezeEnvelope v.messageId recipient rendered).applies v = true := by
        simp [freezeEnvelope, hpayload]
      have hrow := hfind m
      rw [hv, map_some, Sql.Update.on_pos happlies] at hrow
      exact frozen_of_envelope (v := (freezeEnvelope v.messageId recipient rendered).set v)
        hrow rfl rfl
    · intro v' happlies hsome
      simp [freezeEnvelope] at happlies
      simp [happlies.2] at hsome

variable {claim : EmailClaim}

variable {q : OpenQueries}

theorem reserve_none (h : reserve db claim recipient q now = some (db', none)) : db' = db := by
  unfold reserve at h
  split at h
  · split at h
    · cases h
    · split at h
      · cases h
        rfl
      · split at h
        · cases h
        · split at h
          · cases h
          · simp [bind_eq_some_iff] at h
  · cases h

/-- What a reservation did: one fresh attempt, counted and with its request frozen. -/
theorem reserve_spec {e : FrozenEmail} (h : reserve db claim recipient q now = some (db', some e)) :
    (∃ r, db.job claim.job.messageId = some r ∧ live claim r q.clock = true) ∧
    db.attempt claim.job.messageId (claim.job.attemptsMade + 1) = none ∧
    (db'.attempt claim.job.messageId (claim.job.attemptsMade + 1)).isSome ∧
    frozen db' claim.job.messageId = some e ∧
    (∀ m, db'.job m =
      (db.job m).map (countAttempt claim (claim.job.attemptsMade + 1) now).on) ∧
    (∀ m n, (db'.attempt m n).isSome →
      (db.attempt m n).isSome ∨ m = claim.job.messageId) ∧
    Extends db db' := by
  unfold reserve at h
  split at h
  · next envelope r hr =>
    split at h
    · cases h
    next hlive =>
    split at h
    · cases h
    split at h
    · cases h
    next v hv =>
    split at h
    · cases h
    next hguard =>
    obtain ⟨_, hrecipient⟩ := not_or.mp hguard
    simp only [bind_eq_bind, bind_eq_some_iff, Option.some.injEq,
      Prod.mk.injEq] at h
    obtain ⟨db₁, hfreeze, db₂, hattempt, ⟨db₃, rows⟩, hexecute, hdb, he⟩ := h
    obtain ⟨hfrozen, hjobs₁, hattempts₁, hextends₁⟩ := freeze_spec hv hrecipient hfreeze
    obtain ⟨hfresh, hopen, honly, hextends₂⟩ := addAttempt_spec hattempt
    have hjobs₂ := (addAttempt_tables hattempt).1
    have hkeeps : (countAttempt claim (claim.job.attemptsMade + 1) now).KeepsKey
        JobRow.messageId := fun _ => rfl
    have hextends₃ := execute_extends hkeeps (fun _ => rfl) hexecute
    subst hdb he
    refine ⟨⟨r, hr, by simpa using hlive⟩, ?_, hextends₃.attempt _ _ hopen,
      hextends₃.frozen _ _ (hextends₂.frozen _ _ hfrozen), ?_, ?_,
      hextends₁.trans (hextends₂.trans hextends₃)⟩
    · simpa [Database.attempt, hattempts₁] using hfresh
    · intro m
      have hjob := execute_job hkeeps hexecute m
      simpa [Database.job, hjobs₂, hjobs₁] using hjob
    · intro m n hn
      have hold := honly m n (by simpa [Database.attempt, (execute_tables hexecute).1] using hn)
      simpa [Database.attempt, hattempts₁] using hold
  · cases h

variable {clock : Micros}

theorem withdraw_spec {reason : WithdrawnReason} (h : withdraw db claim reason clock = some db') :
    (∀ m, db'.job m = (db.job m).map (withdrawJob claim reason clock).on) ∧
      (∀ m n, (db'.attempt m n).isSome = (db.attempt m n).isSome) ∧ Extends db db' := by
  simp only [withdraw, bind_eq_bind, bind_eq_some_iff] at h
  obtain ⟨⟨db₁, changed⟩, hexecute, h⟩ := h
  have hkeeps : (withdrawJob claim reason clock).KeepsKey JobRow.messageId := fun _ => rfl
  have hjob := execute_job hkeeps hexecute
  have htables := execute_tables hexecute
  have hattempts : (∀ m, db'.job m = db₁.job m) ∧ db'.envelopes = db₁.envelopes ∧
      ∀ m n, (db'.attempt m n).isSome = (db₁.attempt m n).isSome := by
    split at h
    · simp only [map_eq_some_iff] at h
      obtain ⟨⟨attempts, rows⟩, hupdate, hdb⟩ := h
      subst hdb
      have hkeepsKey : (vetoAttempt claim).KeepsKey AttemptRow.key := fun _ => rfl
      refine ⟨fun _ => rfl, rfl, fun m n => ?_⟩
      have hfind := Sql.Table.find_update (k := (m, n)) hkeepsKey hupdate
      simp [Database.attempt, hfind]
    · cases h
      exact ⟨fun _ => rfl, rfl, fun _ _ => rfl⟩
  obtain ⟨hjobs, henvelopes, hattempts⟩ := hattempts
  have hattemptsEq : ∀ m n, (db'.attempt m n).isSome = (db.attempt m n).isSome := by
    intro m n
    rw [hattempts]
    simp [Database.attempt, htables.1]
  refine ⟨fun m => (hjobs m).trans (hjob m), hattemptsEq,
    extends_of_jobs (u := withdrawJob claim reason clock) (fun _ => rfl)
      (fun m => (hjobs m).trans (hjob m)) ?_ (henvelopes.trans htables.2)⟩
  intro m n hn
  rw [hattemptsEq]
  exact hn

/-- What a committed settlement did. -/
theorem settle_spec {result : EmailProviderResult}
    (h : settle db claim result now clock = some db') :
    (∃ r, db.job claim.job.messageId = some r ∧
      (settleJob claim result now clock).applies r = true) ∧
    (∀ m, db'.job m = (db.job m).map (settleJob claim result now clock).on) ∧
    (∀ m n, (db'.attempt m n).isSome = (db.attempt m n).isSome) ∧ Extends db db' := by
  simp only [settle, bind_eq_bind, bind_eq_some_iff] at h
  obtain ⟨jobs, hjobs, attempts, hattempts, h⟩ := h
  have hjobs := Sql.Table.updateOne_update hjobs
  have hattempts := Sql.Table.updateOne_update hattempts
  have hkeeps : (settleJob claim result now clock).KeepsKey JobRow.messageId := fun _ => rfl
  have hkeepsKey : (settleAttemptRow claim result now).KeepsKey AttemptRow.key := fun _ => rfl
  have atKey : (settleJob claim result now clock).AtKey JobRow.messageId
      claim.job.messageId := by
    intro r hr
    simp only [settleJob, heldNow, Bool.and_eq_true, beq_iff_eq] at hr
    exact hr.1.1
  have hattempt : ∀ m n, (attempts.find AttemptRow.key (m, n)).isSome =
      (db.attempt m n).isSome := by
    intro m n
    rw [Sql.Table.find_update hkeepsKey hattempts, isSome_map]
    rfl
  have hfirst : Extends db ⟨jobs, attempts, db.envelopes⟩ :=
    extends_of_jobs (u := settleJob claim result now clock) (fun _ => rfl)
      (fun m => Sql.Table.find_update hkeeps hjobs)
      (fun m n hn => (hattempt m n).trans hn) rfl
  have hlast : (∀ m, db'.job m = jobs.find JobRow.messageId m) ∧
      (∀ m n, db'.attempt m n = attempts.find AttemptRow.key (m, n)) ∧
      Extends ⟨jobs, attempts, db.envelopes⟩ db' := by
    unfold recordAccepted at h
    split at h
    · simp only [map_eq_some_iff] at h
      obtain ⟨⟨envelopes, rows⟩, hupdate, hdb⟩ := h
      subst hdb
      refine ⟨fun _ => rfl, fun _ _ => rfl,
        envelopes_extends (fun m => Sql.Table.find_update (fun _ => rfl) hupdate) ?_ rfl rfl⟩
      intro v _ _
      exact ⟨rfl, rfl, rfl⟩
    · cases h
      exact ⟨fun _ => rfl, fun _ _ => rfl, Extends.refl _⟩
  refine ⟨Sql.Table.update_hit jobs_keyed atKey hjobs Nat.one_ne_zero, ?_, ?_,
    hfirst.trans hlast.2.2⟩
  · intro m
    rw [hlast.1]
    exact Sql.Table.find_update hkeeps hjobs
  · intro m n
    rw [hlast.2.1]
    exact hattempt m n

theorem addEnvelope_spec (h : addEnvelope db v = some db') :
    db'.jobs = db.jobs ∧ db'.attempts = db.attempts ∧ Extends db db' := by
  unfold addEnvelope at h
  split at h
  · cases h
    exact ⟨rfl, rfl, Extends.refl db⟩
  · simp only [map_eq_some_iff] at h
    obtain ⟨envelopes, hinsert, hdb⟩ := h
    subst hdb
    refine ⟨rfl, rfl, fun m r hr => ⟨r, hr, rfl⟩, fun _ _ hn => hn, ?_⟩
    intro m e he
    simp only [EmailReleaseStore.frozen, bind_eq_some_iff] at he ⊢
    obtain ⟨v', hv', he⟩ := he
    refine ⟨v', ?_, he⟩
    rw [Database.envelope, Sql.Table.find_insert hinsert]
    simp only [Database.envelope] at hv'
    rw [hv']
    rfl

/-- What a claim did, won or not. -/
theorem takeClaim_spec {config : EmailReleaseConfig} {worker : WorkerId} {nowIso : Millis}
    {cap : Nat} {row : JobRow} {won : Option EmailClaim}
    (h : takeClaim db config worker nowIso cap row v = some (db', won)) :
    (∀ m, db'.job m =
      (db.job m).map (claimStatement row.messageId worker nowIso holdForMs).on) ∧
    db'.attempts = db.attempts ∧ Extends db db' := by
  simp only [takeClaim, bind_eq_bind, bind_eq_some_iff] at h
  obtain ⟨⟨db₁, rows⟩, hexecute, h⟩ := h
  have hkeeps : (claimStatement row.messageId worker nowIso holdForMs).KeepsKey
      JobRow.messageId := fun _ => rfl
  have hjob := execute_job hkeeps hexecute
  have htables := execute_tables hexecute
  have hextends := execute_extends hkeeps (fun _ => rfl) hexecute
  split at h
  · simp only [bind_eq_some_iff] at h
    obtain ⟨db₂, henvelope, h⟩ := h
    cases h
    obtain ⟨hjobs₂, hattempts₂, hextends₂⟩ := addEnvelope_spec henvelope
    refine ⟨?_, hattempts₂.trans htables.1, hextends.trans hextends₂⟩
    intro m
    rw [← hjob m]
    simp [Database.job, hjobs₂]
  · cases h
    exact ⟨hjob, htables.1, hextends⟩

end Extension

theorem exhaustJob_liveOnly (m : MessageId) (clock : Micros) :
    LiveOnly (exhaustJob m clock) := by
  intro r h
  simp only [exhaustJob, Bool.and_eq_true, pending, Bool.or_eq_true, beq_iff_eq] at h
  rcases h.1.2 with hstate | hstate <;> rw [hstate] <;> rfl

theorem heldFor_claimed {claim : EmailClaim} {r : JobRow} {clock : Micros} {seconds : Int}
    (h : heldFor claim r clock seconds = true) :
    r.state = .claimed ∧ r.claimedBy = some claim.worker := by
  simp only [heldFor, heldBy, Bool.and_eq_true, beq_iff_eq] at h
  exact ⟨h.1.1, h.1.2.2⟩

variable (claim : EmailClaim)

theorem withdrawJob_liveOnly (reason : WithdrawnReason) (clock : Micros) :
    LiveOnly (withdrawJob claim reason clock) := by
  intro r h
  simp only [withdrawJob, heldNow, Bool.and_eq_true] at h
  rw [(heldFor_claimed h.2).1]
  rfl

theorem countAttempt_liveOnly (attemptNo : Nat) (now : Millis) :
    LiveOnly (countAttempt claim attemptNo now) := by
  intro r h
  simp only [countAttempt, Bool.and_eq_true, beq_iff_eq] at h
  rw [h.2]
  rfl

theorem settleJob_liveOnly (result : EmailProviderResult) (now : Millis)
    (clock : Micros) : LiveOnly (settleJob claim result now clock) := by
  intro r h
  simp only [settleJob, heldNow, Bool.and_eq_true] at h
  rw [(heldFor_claimed h.1.2).1]
  rfl

end EmailReleaseStore
