import HawkView.Alerts.EmailReleaseStore

/-!
# One run of the email release

`runEmailRelease` as a process: claim, resolve, reserve, resolve again, veto and
hand over to the provider at most once. A run may stop for good between any two
of its actions, for want of time or because something threw.
-/

namespace EmailRelease

open SendTables SendQueue SendStore SendWorker EmailRegularRelease EmailReleaseStore Option

inductive EmailRunStatus
  | noBudget | noWork | withdrawn | suppressed | accepted | unknown | retryable | permanent
  | failedSafe
  | regular (status : RegularEmailStatus)
  deriving DecidableEq, Repr

def EmailRunStatus.ofResult : EmailProviderResult → EmailRunStatus
  | .accepted _ => .accepted
  | .unknown => .unknown
  | .retryable _ _ => .retryable
  | .permanent => .permanent

inductive Phase
  | claiming
  | resolving (claim : EmailClaim)
  | checking (claim : EmailClaim) (recipient : VerifiedRecipient) (body : Body)
  | opening (claim : EmailClaim) (recipient : VerifiedRecipient) (body : Body)
  | reserved (claim : EmailClaim) (envelope : FrozenEmail)
  | resolvedAgain (claim : EmailClaim) (envelope : FrozenEmail)
  | vetoing (claim : EmailClaim) (envelope : FrozenEmail)
  | cleared (claim : EmailClaim) (envelope : FrozenEmail)
  | handingOver (claim : EmailClaim) (envelope : FrozenEmail)
  | sending (claim : EmailClaim)
  | settling (claim : EmailClaim) (result : EmailProviderResult)
  | withdrawing (claim : EmailClaim) (reason : WithdrawnReason) (status : EmailRunStatus)
  | finished (status : EmailRunStatus) (attempted : Nat)
  deriving DecidableEq, Repr

structure Release where
  config : EmailReleaseConfig
  phase : Phase

def runEmailRelease (config : EmailReleaseConfig) : Release := ⟨config, .claiming⟩

inductive ReleaseAction
  | claimControlled (now : Millis) (q : ControlledQueries) (worker : WorkerId)
      (key : IdempotencyKey)
  | claimRegular (q : RegularQueries) (worker : WorkerId) (key : IdempotencyKey)
  | resolve (resolution : Resolution) (recipient : Option VerifiedRecipient)
  | isSuppressed (answer : Bool)
  | openClaim (q : OpenQueries) (now : Millis)
  | resolveAgain (resolution : Resolution)
  | configurationStillMatches (answer : Bool)
  | maySend (clock : Micros) (authorized : Bool)
  | sendResendEmail
  | answer (result : EmailProviderResult)
  | settle (now : Millis) (clock : Micros)
  | withdraw (clock : Micros)
  | stop (status : EmailRunStatus)

namespace Release

def goto (r : Release) (phase : Phase) : Release := { r with phase := phase }

/-- The `catch` of the run. -/
def failedSafe (r : Release) (attempted : Nat) : Release :=
  r.goto (.finished .failedSafe attempted)

/-- After a claim transaction. -/
def claimed (r : Release) (claim : Option EmailClaim) (status : Option RegularEmailStatus) :
    Release :=
  match claim with
  | some claim => r.goto (.resolving claim)
  | none => r.goto (.finished ((status.map .regular).getD .noWork) 0)

/-- After the first resolution, which also names the verified recipient. -/
def resolved (r : Release) (claim : EmailClaim) (recipient : Option VerifiedRecipient) :
    Resolution → Release
  | .doNotSend because => r.goto (.withdrawing claim because .withdrawn)
  | .send _ body =>
    match recipient with
    | none => r.goto (.withdrawing claim .noVerifiedRecipient .withdrawn)
    | some recipient => r.goto (.checking claim recipient body)

/-- After `open`. -/
def opened (r : Release) (claim : EmailClaim) : OpenOutcome → Release
  | .refused status => r.goto (.finished (.regular status) 0)
  | .suppressed => r.goto (.withdrawing claim .noVerifiedRecipient .suppressed)
  | .opened envelope => r.goto (.reserved claim envelope)

/-- After the second resolution. -/
def resolvedAgain (r : Release) (claim : EmailClaim) (envelope : FrozenEmail) :
    Resolution → Release
  | .doNotSend because => r.goto (.withdrawing claim because .withdrawn)
  | .send recipient _ =>
    if recipient = envelope.recipient then r.goto (.resolvedAgain claim envelope)
    else r.goto (.withdrawing claim .noVerifiedRecipient .withdrawn)

/-- Whether the provider has been called. -/
def attempted (r : Release) : Nat :=
  match r.phase with
  | .sending _ => 1
  | .settling _ _ => 1
  | .finished _ n => n
  | _ => 0

/-- One action of a run: the tables, the run and the events after it. -/
def step (db : Database) (r : Release) :
    ReleaseAction → Option (Database × Release × List Event)
  | .claimControlled now q worker key =>
    match r.phase, r.config.mode with
    | .claiming, .controlled =>
      match EmailReleaseStore.claimControlled db r.config now q worker key with
      | some (db', claim) => some (db', r.claimed claim none, [])
      | none => some (db, r.failedSafe 0, [])
    | _, _ => none
  | .claimRegular q worker key =>
    match r.phase, r.config.mode with
    | .claiming, .regular =>
      match claimRegularEmail db r.config q worker key with
      | some (db', claim, status) => some (db', r.claimed claim status, [])
      | none => some (db, r.failedSafe 0, [])
    | _, _ => none
  | .resolve resolution recipient =>
    match r.phase with
    | .resolving claim => some (db, r.resolved claim recipient resolution, [])
    | _ => none
  | .isSuppressed answer =>
    match r.phase with
    | .checking claim recipient body =>
      some (db, if answer then r.goto (.withdrawing claim .noVerifiedRecipient .suppressed)
        else r.goto (.opening claim recipient body), [])
    | _ => none
  | .openClaim q now =>
    match r.phase with
    | .opening claim recipient _ =>
      match EmailReleaseStore.openClaim db claim recipient q now with
      | some (db', outcome) => some (db', r.opened claim outcome, [])
      | none => some (db, r.failedSafe 0, [])
    | _ => none
  | .resolveAgain resolution =>
    match r.phase with
    | .reserved claim envelope => some (db, r.resolvedAgain claim envelope resolution, [])
    | _ => none
  | .configurationStillMatches answer =>
    match r.phase with
    | .resolvedAgain claim envelope =>
      some (db, if answer then r.goto (.vetoing claim envelope)
        else r.goto (.withdrawing claim .alertTypeDisabled .withdrawn), [])
    | .cleared claim envelope =>
      some (db, if answer then r.goto (.handingOver claim envelope)
        else r.goto (.withdrawing claim .alertTypeDisabled .withdrawn), [])
    | _ => none
  | .maySend clock authorized =>
    match r.phase with
    | .vetoing claim envelope =>
      some (db, if EmailReleaseStore.maySend db claim envelope clock authorized then
          r.goto (.cleared claim envelope)
        else r.goto (.withdrawing claim .noVerifiedRecipient .withdrawn), [])
    | _ => none
  | .sendResendEmail =>
    match r.phase with
    | .handingOver claim envelope =>
      some (db, r.goto (.sending claim),
        [.providerSend ⟨claim.job.messageId, claim.job.attemptsMade + 1, envelope.recipient,
          envelope.payload, envelope.key⟩])
    | _ => none
  | .answer result =>
    match r.phase with
    | .sending claim => some (db, r.goto (.settling claim result), [])
    | _ => none
  | .settle now clock =>
    match r.phase with
    | .settling claim result =>
      match EmailReleaseStore.settle db claim result now clock with
      | some db' =>
        some (db', r.goto (.finished (.ofResult result) 1),
          [.settled claim.job.messageId (claim.job.attemptsMade + 1)])
      | none => some (db, r.failedSafe 1, [])
    | _ => none
  | .withdraw clock =>
    match r.phase with
    | .withdrawing claim reason status =>
      match EmailReleaseStore.withdraw db claim reason clock with
      | some db' => some (db', r.goto (.finished status 0), [])
      | none => some (db, r.failedSafe 0, [])
    | _ => none
  | .stop status => some (db, r.goto (.finished status r.attempted), [])

/-! ## What an action can do -/

end Release

/-- The reservation that a phase may still hand to the provider. -/
def Phase.reservation : Phase → Option (EmailClaim × FrozenEmail)
  | .reserved claim envelope => some (claim, envelope)
  | .resolvedAgain claim envelope => some (claim, envelope)
  | .vetoing claim envelope => some (claim, envelope)
  | .cleared claim envelope => some (claim, envelope)
  | .handingOver claim envelope => some (claim, envelope)
  | _ => none

namespace Release

/-- The job that an action puts back in the queue for a rate limit. -/
def defers (db : Database) (r : Release) : ReleaseAction → Option MessageId
  | .claimRegular q _ _ =>
    match r.phase, r.config.mode with
    | .claiming, .regular =>
      match decideRegular db r.config q with
      | .defer m => some m
      | _ => none
    | _, _ => none
  | .openClaim q _ =>
    match r.phase with
    | .opening claim _ _ =>
      if claim.config.mode = .regular ∧ regularReservationGate db claim q = .defer then
        some claim.job.messageId
      else none
    | _ => none
  | _ => none

/-- The run goes on with the reservation it has, or without one. -/
def Quiet (r r' : Release) : Prop :=
  ∀ held, r'.phase.reservation = some held → r.phase.reservation = some held

/-- An update that finishes the jobs it touches, and not as cancelled. -/
structure Finishes (u : Sql.Update JobRow) : Prop where
  keepsKey : u.KeepsKey JobRow.messageId
  keepsBudget : KeepsBudget u
  liveOnly : LiveOnly u
  finished : ∀ r, terminal (u.set r).state = true ∧ (u.set r).state ≠ .cancelled

/-- Everything an action of a release can do. -/
inductive Effect (db : Database) (r : Release) (a : ReleaseAction) :
    Database → Release → List Event → Prop
  | quiet {r'} (h : Quiet r r') : Effect db r a db r' []
  | finish {u db' r'} (finishes : Finishes u) (jobs : ∀ m, db'.job m = (db.job m).map u.on)
      (attempts : ∀ m n, (db'.attempt m n).isSome = (db.attempt m n).isSome)
      (extension : Extends db db') (quiet : Quiet r r') : Effect db r a db' r' []
  | defer {m worker atIso clock db' rows r'} (decided : r.defers db a = some m)
      (executed : execute db (deferJob m worker atIso clock) = some (db', rows))
      (quiet : Quiet r r') : Effect db r a db' r' []
  | claim {config worker nowIso cap row v db' won r'}
      (taken : takeClaim db config worker nowIso cap row v = some (db', won))
      (quiet : Quiet r r') : Effect db r a db' r' []
  | reserve {claim recipient q now db' e}
      (reserved : EmailReleaseStore.reserve db claim recipient q now = some (db', some e)) :
      Effect db r a db' (r.goto (.reserved claim e)) []
  | send {claim e} (phase : r.phase = .handingOver claim e) :
      Effect db r a db (r.goto (.sending claim))
        [.providerSend ⟨claim.job.messageId, claim.job.attemptsMade + 1, e.recipient,
          e.payload, e.key⟩]
  | settle {claim result now clock db' r'}
      (committed : EmailReleaseStore.settle db claim result now clock = some db')
      (quiet : Quiet r r') :
      Effect db r a db' r' [.settled claim.job.messageId (claim.job.attemptsMade + 1)]

variable {r r' : Release}

theorem quiet_of_none (h : r'.phase.reservation = none) : Quiet r r' := by
  intro held hheld
  rw [h] at hheld
  cases hheld

theorem quiet_claimed (r : Release) (won : Option EmailClaim)
    (status : Option RegularEmailStatus) : Quiet r (r.claimed won status) := by
  cases won <;> exact quiet_of_none rfl

theorem quiet_resolved (r : Release) (claim : EmailClaim) (recipient : Option VerifiedRecipient)
    (resolution : Resolution) : Quiet r (r.resolved claim recipient resolution) := by
  cases resolution with
  | doNotSend because => exact quiet_of_none rfl
  | send address body => cases recipient <;> exact quiet_of_none rfl

variable {claim : EmailClaim}

theorem quiet_resolvedAgain {envelope : FrozenEmail} (phase : r.phase = .reserved claim envelope)
    (resolution : Resolution) :
    Quiet r (r.resolvedAgain claim envelope resolution) := by
  cases resolution with
  | doNotSend because => exact quiet_of_none rfl
  | send recipient body =>
    simp only [resolvedAgain]
    split
    · intro held hheld
      rw [phase]
      exact hheld
    · exact quiet_of_none rfl

theorem stopJob_finishes (m : MessageId) (worker : Option WorkerId) (clock : Micros) :
    Finishes (stopJob m worker clock) :=
  ⟨fun _ => rfl, fun _ => rfl, stopJob_liveOnly m worker clock,
    fun _ => ⟨rfl, by simp [stopJob]⟩⟩

theorem exhaustJob_finishes (m : MessageId) (clock : Micros) : Finishes (exhaustJob m clock) :=
  ⟨fun _ => rfl, fun _ => rfl, exhaustJob_liveOnly m clock,
    fun _ => ⟨rfl, by simp [exhaustJob]⟩⟩

theorem withdrawJob_finishes (claim : EmailClaim) (reason : WithdrawnReason) (clock : Micros) :
    Finishes (withdrawJob claim reason clock) :=
  ⟨fun _ => rfl, fun _ => rfl, withdrawJob_liveOnly claim reason clock,
    fun _ => ⟨rfl, by simp [withdrawJob]⟩⟩

variable {db db' : Database} {a : ReleaseAction}

/-- A finishing update run by itself. -/
theorem effect_execute {u : Sql.Update JobRow} {rows : Nat} (finishes : Finishes u)
    (executed : execute db u = some (db', rows)) (quiet : Quiet r r') :
    Effect db r a db' r' [] := by
  refine .finish finishes (execute_job finishes.keepsKey executed) ?_
    (execute_extends finishes.keepsKey finishes.keepsBudget executed) quiet
  intro m n
  simp [Database.attempt, (execute_tables executed).1]

variable {now : Millis} {worker : WorkerId} {key : IdempotencyKey} {won : Option EmailClaim}

/-- The inversion of `step` at a claim of the controlled mode. -/
theorem effect_claimControlled {config : EmailReleaseConfig} {q : ControlledQueries}
    (h : EmailReleaseStore.claimControlled db config now q worker key = some (db', won)) :
    Effect db r a db' (r.claimed won none) [] := by
  unfold EmailReleaseStore.claimControlled at h
  split at h
  · cases h
  · cases h
    exact .quiet (quiet_claimed r _ _)
  · split at h
    · cases h
      exact .quiet (quiet_claimed r _ _)
    · split at h
      · simp only [map_eq_some_iff, Prod.mk.injEq] at h
        obtain ⟨⟨_, rows⟩, hexecuted, rfl, rfl⟩ := h
        exact effect_execute (exhaustJob_finishes _ _) hexecuted (quiet_claimed r _ _)
      · exact .claim h (quiet_claimed r _ _)

/-- The inversion of `step` at a claim of the regular mode. -/
theorem effect_claimRegular {q : RegularQueries} {status : Option RegularEmailStatus}
    (phase : r.phase = .claiming) (mode : r.config.mode = .regular)
    (h : claimRegularEmail db r.config q worker key = some (db', won, status)) :
    Effect db r (.claimRegular q worker key) db' (r.claimed won status) [] := by
  unfold claimRegularEmail at h
  split at h
  · cases h
    exact .quiet (quiet_claimed r _ _)
  · simp only [map_eq_some_iff, Prod.mk.injEq] at h
    obtain ⟨⟨_, rows⟩, hexecuted, rfl, rfl, rfl⟩ := h
    exact effect_execute (stopJob_finishes _ _ _) hexecuted (quiet_claimed r _ _)
  · next m hdecided =>
    simp only [map_eq_some_iff, Prod.mk.injEq] at h
    obtain ⟨⟨_, rows⟩, hexecuted, rfl, rfl, rfl⟩ := h
    refine .defer (m := m) ?_ hexecuted (quiet_claimed r _ _)
    simp [defers, phase, mode, hdecided]
  · simp only [map_eq_some_iff, Prod.mk.injEq] at h
    obtain ⟨⟨_, won'⟩, htaken, rfl, rfl, rfl⟩ := h
    exact .claim htaken (quiet_claimed r _ _)

variable {recipient : VerifiedRecipient} {q : OpenQueries}

theorem effect_reserve {e : Option FrozenEmail}
    (h : EmailReleaseStore.reserve db claim recipient q now = some (db', e)) :
    Effect db r a db' (r.opened claim (.ofReserved e)) [] := by
  cases e with
  | none =>
    rw [reserve_none h]
    exact .quiet (quiet_of_none rfl)
  | some e => exact .reserve h

/-- The inversion of `step` at `open`. -/
theorem effect_openClaim {body : Body} {outcome : OpenOutcome}
    (phase : r.phase = .opening claim recipient body)
    (h : EmailReleaseStore.openClaim db claim recipient q now = some (db', outcome)) :
    Effect db r (.openClaim q now) db' (r.opened claim outcome) [] := by
  unfold EmailReleaseStore.openClaim at h
  split at h
  · simp only [map_eq_some_iff, Prod.mk.injEq] at h
    obtain ⟨⟨_, e⟩, hreserved, rfl, rfl⟩ := h
    exact effect_reserve hreserved
  · next mode =>
    split at h
    · cases h
    · simp only [map_eq_some_iff, Prod.mk.injEq] at h
      obtain ⟨⟨_, rows⟩, hexecuted, rfl, rfl⟩ := h
      exact effect_execute (stopJob_finishes _ _ _) hexecuted (quiet_of_none rfl)
    · next hdecided =>
      simp only [map_eq_some_iff, Prod.mk.injEq] at h
      obtain ⟨⟨_, rows⟩, hexecuted, rfl, rfl⟩ := h
      refine .defer (m := claim.job.messageId) ?_ hexecuted (quiet_of_none rfl)
      simp [defers, phase, mode, hdecided]
    · simp only [map_eq_some_iff, Prod.mk.injEq] at h
      obtain ⟨⟨_, e⟩, hreserved, rfl, rfl⟩ := h
      exact effect_reserve hreserved

/-- The inversion of `step`. -/
theorem step_effect {events : List Event} (h : r.step db a = some (db', r', events)) :
    Effect db r a db' r' events := by
  cases a with
  | claimControlled now q worker key =>
    simp only [step] at h
    split at h
    · split at h
      · next hclaim =>
        cases h
        exact effect_claimControlled hclaim
      · cases h
        exact .quiet (quiet_of_none rfl)
    · cases h
  | claimRegular q worker key =>
    simp only [step] at h
    split at h
    · next hphase hmode =>
      split at h
      · next hclaim =>
        cases h
        exact effect_claimRegular hphase hmode hclaim
      · cases h
        exact .quiet (quiet_of_none rfl)
    · cases h
  | resolve resolution recipient =>
    simp only [step] at h
    split at h
    · cases h
      exact .quiet (quiet_resolved r _ _ _)
    · cases h
  | isSuppressed answer =>
    simp only [step] at h
    split at h
    · cases h
      cases answer <;> exact .quiet (quiet_of_none rfl)
    · cases h
  | openClaim q now =>
    simp only [step] at h
    split at h
    · next claim recipient body hphase =>
      split at h
      · next hopened =>
        cases h
        exact effect_openClaim hphase hopened
      · cases h
        exact .quiet (quiet_of_none rfl)
    · cases h
  | resolveAgain resolution =>
    simp only [step] at h
    split at h
    · next claim envelope hphase =>
      cases h
      exact .quiet (quiet_resolvedAgain hphase resolution)
    · cases h
  | configurationStillMatches answer =>
    simp only [step] at h
    split at h
    · next claim envelope hphase =>
      cases h
      cases answer with
      | false => exact .quiet (quiet_of_none rfl)
      | true =>
        refine .quiet fun held hheld => ?_
        rw [hphase]
        exact hheld
    · next claim envelope hphase =>
      cases h
      cases answer with
      | false => exact .quiet (quiet_of_none rfl)
      | true =>
        refine .quiet fun held hheld => ?_
        rw [hphase]
        exact hheld
    · cases h
  | maySend clock authorized =>
    simp only [step] at h
    split at h
    · next claim envelope hphase =>
      cases h
      refine .quiet fun held hheld => ?_
      split at hheld
      · rw [hphase]
        exact hheld
      · cases hheld
    · cases h
  | sendResendEmail =>
    simp only [step] at h
    split at h
    · next claim envelope hphase =>
      cases h
      exact .send hphase
    · cases h
  | answer result =>
    simp only [step] at h
    split at h
    · cases h
      exact .quiet (quiet_of_none rfl)
    · cases h
  | settle now clock =>
    simp only [step] at h
    split at h
    · split at h
      · next hcommitted =>
        cases h
        exact .settle hcommitted (quiet_of_none rfl)
      · cases h
        exact .quiet (quiet_of_none rfl)
    · cases h
  | withdraw clock =>
    simp only [step] at h
    split at h
    · split at h
      · next hwithdrawn =>
        cases h
        obtain ⟨hjobs, hattempts, hextends⟩ := withdraw_spec hwithdrawn
        exact .finish (withdrawJob_finishes _ _ _) hjobs hattempts hextends
          (quiet_of_none rfl)
      · cases h
        exact .quiet (quiet_of_none rfl)
    · cases h
  | stop status =>
    cases h
    exact .quiet (quiet_of_none rfl)

end Release

end EmailRelease
