import HawkView.Alerts.SendStore

/-!
# The queue consumer

One call of `drainOnce` as a process. Between two of its actions any other
process may act on the tables, and it may stop for good after any of them. What
the message source, the suppression list, the transport and a failing statement
answer is part of the action.
-/

namespace SendWorker

open SendTables SendQueue SendStore List

/-- What the job is worth sending right now. -/
inductive Resolution
  | send (recipient : OperatorAddress) (body : Body)
  | doNotSend (because : WithdrawnReason)
  deriving DecidableEq, Repr

inductive ProviderAnswer
  | accepted (providerId : ProviderMessageId)
  | refused (permanent : Bool) (because : JsString)
  deriving DecidableEq, Repr

def settlementFor (answer : ProviderAnswer) (nowIso : Millis) : Settled :=
  match answer with
  | .accepted providerId => .accepted providerId nowIso
  | .refused true because => .refusedPermanent nowIso because
  | .refused false because => .refusedRetryable nowIso because

def suppressesAddress : Settled → Bool
  | .refusedPermanent _ _ => true
  | _ => false

inductive FailedAt
  | resolve | openAttempt | send | settle
  deriving DecidableEq, Repr

inductive JobResult
  | sent (messageId : MessageId) (attemptNo : Nat)
  | refused (messageId : MessageId) (attemptNo : Nat) (settled : Settled)
  | withdrawn (messageId : MessageId) (because : WithdrawnReason)
  | alreadySettled (messageId : MessageId) (because : WithdrawnReason)
  | suppressedAddress (messageId : MessageId) (address : OperatorAddress)
  | lostClaim (messageId : MessageId)
  | ineligible (messageId : MessageId) (because : Ineligible)
  | failed (messageId : MessageId) (failedAt : FailedAt) (because : JsString)
  deriving DecidableEq, Repr

structure DrainOptions where
  worker : WorkerId
  nowIso : Millis
  holdForMs : Millis
  limit : Nat
  deriving DecidableEq, Repr

/-- A job that `eligibility` let through. -/
structure EligibleJob where
  job : SendJob
  eligible : ∃ nowIso, eligibility job nowIso = .mayAttempt

/-- An eligible job with the permit that its claim produced. -/
structure Claimed extends EligibleJob where
  permit : SendPermit
  won : ∃ rows, claimOutcome rows job = some permit

/-- What a provider is handed. -/
structure ProviderSend where
  messageId : MessageId
  attemptNo : Nat
  recipient : OperatorAddress
  payload : Body
  idempotencyKey : IdempotencyKey
  deriving DecidableEq, Repr

/-- What happened outside the tables, and what an operator was told. -/
inductive Event
  | providerSend (send : ProviderSend)
  | settled (messageId : MessageId) (attemptNo : Nat)
  | cancelled (jobs : List CancelledJob)
  deriving DecidableEq, Repr

inductive Phase
  | reading
  | next
  | claiming (chosen : EligibleJob)
  | resolving (held : Claimed)
  | withdrawing (held : Claimed) (because : WithdrawnReason)
  | checking (held : Claimed) (recipient : OperatorAddress) (body : Body)
  | opening (held : Claimed) (recipient : OperatorAddress) (body : Body)
  | opened (held : Claimed) (recipient : OperatorAddress) (body : Body)
  | sending (held : Claimed) (recipient : OperatorAddress)
  | settling (held : Claimed) (recipient : OperatorAddress) (settled : Settled)
  | suppressing (held : Claimed) (recipient : OperatorAddress) (settled : Settled)
  | finished

structure Drain where
  options : DrainOptions
  due : List SendJob
  considered : Nat
  results : List JobResult
  phase : Phase

def drainOnce (options : DrainOptions) : Drain := ⟨options, [], 0, [], .reading⟩

inductive DrainAction
  | readDue (answer : List JobRow)
  | readFailed (because : JsString)
  | take
  | claim
  | claimFailed (because : JsString)
  | resolve (resolution : Resolution)
  | resolveFailed (because : JsString)
  | withdraw
  | withdrawFailed (because : JsString)
  | checkSuppressed (has : Bool)
  | openAttempt
  | openFailed (because : JsString)
  | attemptSend (has : Bool)
  | answer (answer : ProviderAnswer)
  | sendFailed (because : JsString)
  | settle
  | settleFailed (because : JsString)
  | suppress
  | suppressFailed (because : JsString)
  deriving DecidableEq, Repr

namespace Drain

/-- Record a result and go on with the next job. -/
def report (d : Drain) (result : JobResult) : Drain :=
  { d with results := d.results ++ [result], phase := .next }

def goto (d : Drain) (phase : Phase) : Drain := { d with phase := phase }

/-- The loop head: the next job is claimed if it is eligible. -/
def take (d : Drain) : Drain :=
  match d.due with
  | [] => d.goto .finished
  | job :: due =>
    match h : eligibility job d.options.nowIso with
    | .mayNot because => { d with due := due }.report (.ineligible job.messageId because)
    | .mayAttempt => { d with due := due, phase := .claiming ⟨job, d.options.nowIso, h⟩ }

/-- What the row count of the claim says. -/
def claimed (d : Drain) (chosen : EligibleJob) (rows : Nat) : Drain :=
  match h : claimOutcome rows chosen.job with
  | some permit => d.goto (.resolving ⟨chosen, permit, rows, h⟩)
  | none => d.report (.lostClaim chosen.job.messageId)

def resolved (d : Drain) (held : Claimed) : Resolution → Drain
  | .send recipient body => d.goto (.checking held recipient body)
  | .doNotSend because => d.goto (.withdrawing held because)

/-- The text of an error that a broken constraint throws. -/
def constraint : JsString := js "constraint"

/-- The result of a settled attempt, after which the drain goes on. -/
def settledResult (d : Drain) (held : Claimed) : Settled → Drain
  | .accepted _ _ => d.report (.sent held.job.messageId held.permit.attemptNo)
  | settled => d.report (.refused held.job.messageId held.permit.attemptNo settled)

/-- One action of a drain: the tables, the drain and the events after it. -/
def step (db : Database) (d : Drain) :
    DrainAction → Option (Database × Drain × List Event)
  | .readDue answer =>
    match d.phase with
    | .reading =>
      if isDueJobs db d.options.nowIso d.options.limit answer then
        some (db, { d with
          due := answer.map jobFrom, considered := answer.length, phase := .next }, [])
      else none
    | _ => none
  | .readFailed because =>
    match d.phase with
    | .reading => some (db, (d.report (.failed [] .resolve because)).goto .finished, [])
    | _ => none
  | .take =>
    match d.phase with
    | .next => some (db, d.take, [])
    | _ => none
  | .claim =>
    match d.phase with
    | .claiming chosen =>
      match execute db (claimStatement chosen.job.messageId d.options.worker d.options.nowIso
          d.options.holdForMs) with
      | some (db', rows) => some (db', d.claimed chosen rows, [])
      | none => some (db, d.report (.failed chosen.job.messageId .openAttempt constraint), [])
    | _ => none
  | .claimFailed because =>
    match d.phase with
    | .claiming chosen =>
      some (db, d.report (.failed chosen.job.messageId .openAttempt because), [])
    | _ => none
  | .resolve resolution =>
    match d.phase with
    | .resolving held => some (db, d.resolved held resolution, [])
    | _ => none
  | .resolveFailed because =>
    match d.phase with
    | .resolving held => some (db, d.report (.failed held.job.messageId .resolve because), [])
    | _ => none
  | .withdraw =>
    match d.phase with
    | .withdrawing held because =>
      match execute db (withdrawStatement held.job.messageId because d.options.nowIso) with
      | some (db', rows) =>
        some (db', d.report
          (if rows = 1 then .withdrawn held.job.messageId because
          else .alreadySettled held.job.messageId because), [])
      | none => some (db, d.report (.failed held.job.messageId .settle constraint), [])
    | _ => none
  | .withdrawFailed because =>
    match d.phase with
    | .withdrawing held _ => some (db, d.report (.failed held.job.messageId .settle because), [])
    | _ => none
  | .checkSuppressed has =>
    match d.phase with
    | .checking held recipient body =>
      some (db, if has then d.report (.suppressedAddress held.job.messageId recipient)
        else d.goto (.opening held recipient body), [])
    | _ => none
  | .openAttempt =>
    match d.phase with
    | .opening held recipient body =>
      match SendStore.openAttempt db
          ⟨held.job.messageId, held.permit.attemptNo, d.options.nowIso, none⟩ with
      | some db' => some (db', d.goto (.opened held recipient body), [])
      | none => some (db, d.report (.failed held.job.messageId .openAttempt constraint), [])
    | _ => none
  | .openFailed because =>
    match d.phase with
    | .opening held _ _ =>
      some (db, d.report (.failed held.job.messageId .openAttempt because), [])
    | _ => none
  | .attemptSend has =>
    match d.phase with
    | .opened held recipient body =>
      if has then some (db, d.report (.suppressedAddress held.job.messageId recipient), [])
      else some (db, d.goto (.sending held recipient),
        [.providerSend ⟨held.permit.messageId, held.permit.attemptNo, recipient, body,
          held.job.idempotencyKey⟩])
    | _ => none
  | .answer answer =>
    match d.phase with
    | .sending held recipient =>
      some (db, d.goto (.settling held recipient (settlementFor answer d.options.nowIso)), [])
    | _ => none
  | .sendFailed because =>
    match d.phase with
    | .sending held _ => some (db, d.report (.failed held.job.messageId .send because), [])
    | _ => none
  | .settle =>
    match d.phase with
    | .settling held recipient settled =>
      match settleAttempt db (beginAttempt held.permit d.options.nowIso) settled
          (afterAttempt held.job settled) with
      | some db' =>
        some (db', if suppressesAddress settled then d.goto (.suppressing held recipient settled)
          else d.settledResult held settled,
          [.settled held.job.messageId held.permit.attemptNo])
      | none => some (db, d.report (.failed held.job.messageId .settle constraint), [])
    | _ => none
  | .settleFailed because =>
    match d.phase with
    | .settling held _ _ => some (db, d.report (.failed held.job.messageId .settle because), [])
    | _ => none
  | .suppress =>
    match d.phase with
    | .suppressing held _ settled => some (db, d.settledResult held settled, [])
    | _ => none
  | .suppressFailed because =>
    match d.phase with
    | .suppressing held _ settled =>
      some (db, (d.report (.failed held.job.messageId .settle because)).settledResult held settled,
        [])
    | _ => none

end Drain

/-- The permit is for the job: it names its message and its next attempt. -/
theorem Claimed.permit_eq (held : Claimed) :
    held.permit.messageId = held.job.messageId ∧
      held.permit.attemptNo = held.job.attemptsMade + 1 := by
  obtain ⟨rows, h⟩ := held.won
  unfold claimOutcome at h
  split at h
  · have hpermit := Option.some.inj h
    rw [← hpermit]
    exact ⟨rfl, rfl⟩
  · cases h

theorem EligibleJob.within (chosen : EligibleJob) :
    chosen.job.attemptsMade < chosen.job.maxAttempts := by
  obtain ⟨_, h⟩ := chosen.eligible
  exact (eligible_iff.mp h).2.1

/-! ## What an action can do -/

/-- The claim that a phase holds. -/
def Phase.held : Phase → Option Claimed
  | .resolving held => some held
  | .withdrawing held _ => some held
  | .checking held _ _ => some held
  | .opening held _ _ => some held
  | .opened held _ _ => some held
  | .sending held _ => some held
  | .settling held _ _ => some held
  | .suppressing held _ _ => some held
  | _ => none

/-- The send of a phase that has left and is not settled. -/
def Phase.inFlight : Phase → Option Claimed
  | .sending held _ => some held
  | .settling held _ _ => some held
  | _ => none

/-- The claim of a phase whose attempt row has been written and that has sent nothing. -/
def Phase.openedFor : Phase → Option Claimed
  | .opened held _ _ => some held
  | _ => none

/-- The snapshot that a phase works on. -/
def Phase.job : Phase → Option SendJob
  | .claiming chosen => some chosen.job
  | phase => phase.held.map fun held => held.job

namespace Drain

/-- Every snapshot of a job that the drain still has. -/
def snapshots (d : Drain) : List SendJob := d.due ++ d.phase.job.toList

/-- The drain goes on with what it has, or gives its claim up. -/
structure Quiet (d d' : Drain) : Prop where
  snapshots : d'.snapshots ⊆ d.snapshots
  held : ∀ held, d'.phase.held = some held → d.phase.held = some held
  inFlight : ∀ held, d'.phase.inFlight = some held → d.phase.inFlight = some held
  opened : ∀ held, d'.phase.openedFor = some held → d.phase.openedFor = some held

/-- Everything an action of a drain can do. -/
inductive Effect (db : Database) (d : Drain) :
    DrainAction → Database → Drain → List Event → Prop
  | quiet {a d'} (h : Quiet d d') : Effect db d a db d' []
  | read {a answer d'} (h : isDueJobs db d.options.nowIso d.options.limit answer = true)
      (due : d'.due = answer.map jobFrom) (phase : d'.phase = .next) : Effect db d a db d' []
  | claim {a chosen db' rows d'} (phase : d.phase = .claiming chosen)
      (executed : execute db (claimStatement chosen.job.messageId d.options.worker
        d.options.nowIso d.options.holdForMs) = some (db', rows))
      (after : d' = d.claimed chosen rows) : Effect db d a db' d' []
  | withdraw {a held because db' rows d'} (phase : d.phase = .withdrawing held because)
      (executed : execute db
        (withdrawStatement held.job.messageId because d.options.nowIso) = some (db', rows))
      (quiet : Quiet d d') : Effect db d a db' d' []
  | openAttempt {a held recipient body db'} (phase : d.phase = .opening held recipient body)
      (opened : SendStore.openAttempt db
        ⟨held.job.messageId, held.permit.attemptNo, d.options.nowIso, none⟩ = some db') :
      Effect db d a db' (d.goto (.opened held recipient body)) []
  | send {held recipient body} (phase : d.phase = .opened held recipient body) :
      Effect db d (.attemptSend false) db (d.goto (.sending held recipient))
        [.providerSend ⟨held.permit.messageId, held.permit.attemptNo, recipient, body,
          held.job.idempotencyKey⟩]
  | settle {held recipient settled db' d'} (phase : d.phase = .settling held recipient settled)
      (committed : settleAttempt db (beginAttempt held.permit d.options.nowIso) settled
        (afterAttempt held.job settled) = some db')
      (quiet : Quiet d d') (ended : d'.phase.inFlight = none) :
      Effect db d .settle db' d' [.settled held.job.messageId held.permit.attemptNo]

variable {d d' : Drain}

theorem quiet_of_phase (due : d'.due ⊆ d.due)
    (job : ∀ job, d'.phase.job = some job → d.phase.job = some job)
    (held : ∀ held, d'.phase.held = some held → d.phase.held = some held)
    (inFlight : ∀ held, d'.phase.inFlight = some held → d.phase.inFlight = some held)
    (opened : ∀ held, d'.phase.openedFor = some held → d.phase.openedFor = some held) :
    Quiet d d' := by
  refine ⟨?_, held, inFlight, opened⟩
  intro j hj
  simp only [snapshots, mem_append, Option.mem_toList] at hj ⊢
  rcases hj with hdue | hjob
  · exact Or.inl (due hdue)
  · exact Or.inr (job j hjob)

theorem quiet_report (d : Drain) (result : JobResult) : Quiet d (d.report result) := by
  refine quiet_of_phase (fun _ h => h) ?_ ?_ ?_ ?_ <;> intro _ h <;> cases h

theorem quiet_settledResult (d : Drain) (held : Claimed) (settled : Settled) :
    Quiet d (d.settledResult held settled) := by
  cases settled <;> exact quiet_report d _

theorem settledResult_inFlight (d : Drain) (held : Claimed) (settled : Settled) :
    (d.settledResult held settled).phase.inFlight = none := by
  cases settled <;> rfl

theorem quiet_take (d : Drain) : Quiet d d.take := by
  unfold take
  cases hdue : d.due with
  | nil =>
    refine quiet_of_phase (fun _ h => h) ?_ ?_ ?_ ?_ <;> intro _ h <;> cases h
  | cons job due =>
    dsimp only
    split
    · refine quiet_of_phase ?_ ?_ ?_ ?_ ?_
      · intro j hj
        rw [hdue]
        exact mem_cons_of_mem _ hj
      all_goals intro _ h; cases h
    · refine ⟨?_, ?_, ?_, ?_⟩
      · intro j hj
        simp only [snapshots, Phase.job, mem_append, Option.mem_toList,
          Option.some.injEq] at hj
        rw [snapshots, hdue]
        rcases hj with hdue | rfl
        · simp [hdue]
        · simp
      all_goals intro _ h; cases h

variable {chosen : EligibleJob}

/-- A claim, won or lost, is still about the job that was chosen, and nothing is in flight. -/
theorem claimed_snapshots (phase : d.phase = .claiming chosen) (rows : Nat) :
    (d.claimed chosen rows).snapshots ⊆ d.snapshots := by
  intro job hjob
  unfold claimed at hjob
  split at hjob
  · simpa [snapshots, goto, phase, Phase.job, Phase.held] using hjob
  · have hdue : job ∈ d.due := by
      simpa [snapshots, report, Phase.job, Phase.held] using hjob
    exact mem_append_left _ hdue

/-- A claim is held only if the row count was one. -/
theorem claimed_held {rows : Nat} {held : Claimed}
    (h : (d.claimed chosen rows).phase.held = some held) :
    held.job = chosen.job ∧ rows ≠ 0 := by
  unfold claimed at h
  split at h
  · next permit hwon =>
    cases h
    refine ⟨rfl, ?_⟩
    rintro rfl
    cases hwon
  · cases h

theorem claimed_openedFor (d : Drain) (chosen : EligibleJob) (rows : Nat) :
    (d.claimed chosen rows).phase.openedFor = none := by
  unfold claimed
  split <;> rfl

theorem claimed_inFlight (d : Drain) (chosen : EligibleJob) (rows : Nat) :
    (d.claimed chosen rows).phase.inFlight = none := by
  unfold claimed
  split <;> rfl

/-- The inversion of `step`. -/
theorem step_effect {db db' : Database} {a : DrainAction} {events : List Event}
    (h : d.step db a = some (db', d', events)) : Effect db d a db' d' events := by
  cases a with
  | readDue answer =>
    simp only [step] at h
    split at h
    · split at h
      · next hanswer =>
        cases h
        exact .read hanswer rfl rfl
      · cases h
    · cases h
  | readFailed because =>
    simp only [step] at h
    split at h
    · cases h
      refine .quiet (quiet_of_phase (fun _ h => h) ?_ ?_ ?_ ?_) <;> intro _ h <;> cases h
    · cases h
  | take =>
    simp only [step] at h
    split at h
    · cases h
      exact .quiet (quiet_take d)
    · cases h
  | claim =>
    simp only [step] at h
    split at h
    · next chosen hphase =>
      split at h
      · next hexecuted =>
        cases h
        exact .claim hphase hexecuted rfl
      · cases h
        exact .quiet (quiet_report d _)
    · cases h
  | resolve resolution =>
    simp only [step] at h
    split at h
    · next held hphase =>
      cases h
      refine .quiet (quiet_of_phase ?_ ?_ ?_ ?_ ?_) <;>
        cases resolution <;>
          simp [resolved, goto, hphase, Phase.job, Phase.held, Phase.inFlight, Phase.openedFor]
    · cases h
  | withdraw =>
    simp only [step] at h
    split at h
    · next held because hphase =>
      split at h
      · next hexecuted =>
        cases h
        exact .withdraw hphase hexecuted (quiet_report d _)
      · cases h
        exact .quiet (quiet_report d _)
    · cases h
  | checkSuppressed has =>
    simp only [step] at h
    split at h
    · next held recipient body hphase =>
      cases h
      cases has with
      | true => exact .quiet (quiet_report d _)
      | false =>
        refine .quiet (quiet_of_phase ?_ ?_ ?_ ?_ ?_) <;>
          simp [goto, hphase, Phase.job, Phase.held, Phase.inFlight, Phase.openedFor]
    · cases h
  | openAttempt =>
    simp only [step] at h
    split at h
    · next held recipient body hphase =>
      split at h
      · next hopened =>
        cases h
        exact .openAttempt hphase hopened
      · cases h
        exact .quiet (quiet_report d _)
    · cases h
  | attemptSend has =>
    simp only [step] at h
    split at h
    · next held recipient body hphase =>
      cases has with
      | true =>
        cases h
        exact .quiet (quiet_report d _)
      | false =>
        cases h
        exact .send hphase
    · cases h
  | answer answer =>
    simp only [step] at h
    split at h
    · next held recipient hphase =>
      cases h
      refine .quiet (quiet_of_phase ?_ ?_ ?_ ?_ ?_) <;>
        simp [goto, hphase, Phase.job, Phase.held, Phase.inFlight, Phase.openedFor]
    · cases h
  | settle =>
    simp only [step] at h
    split at h
    · next held recipient settled hphase =>
      split at h
      · next hcommitted =>
        cases h
        cases hsuppresses : suppressesAddress settled with
        | true =>
          refine .settle hphase hcommitted (quiet_of_phase ?_ ?_ ?_ ?_ ?_) ?_ <;>
            simp [goto, hphase, Phase.job, Phase.held, Phase.inFlight, Phase.openedFor]
        | false =>
          exact .settle hphase hcommitted (quiet_settledResult d held settled)
            (settledResult_inFlight d held settled)
      · cases h
        exact .quiet (quiet_report d _)
    · cases h
  | suppress =>
    simp only [step] at h
    split at h
    · cases h
      exact .quiet (quiet_settledResult d _ _)
    · cases h
  | suppressFailed because =>
    simp only [step] at h
    split at h
    · next held _ settled _ =>
      cases h
      refine .quiet (quiet_of_phase ?_ ?_ ?_ ?_ ?_) <;> cases settled <;>
        simp [settledResult, report, Phase.job, Phase.held, Phase.inFlight, Phase.openedFor]
    · cases h
  | _ =>
    simp only [step] at h
    split at h
    · cases h
      exact .quiet (quiet_report d _)
    · cases h

end Drain

end SendWorker
