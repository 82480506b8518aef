import HawkView.Lib.Runs
import HawkView.Alerts.EmailRelease

/-!
# The send system

Any number of drains and email releases over one database, with the intake that
adds jobs and the operator who cancels them. One action of one party is one
step; a process that crashes is gone, and its place may be taken by a new one.
-/

namespace SendSystem

open SendTables SendQueue SendStore SendWorker EmailRegularRelease EmailReleaseStore
open EmailRelease Option

/-- The columns of a new job that the intake decides. -/
structure NewJob where
  messageId : MessageId
  idempotencyKey : IdempotencyKey
  maxAttempts : Nat
  notBeforeAt : Micros
  createdAt : Micros
  deriving DecidableEq, Repr

def NewJob.row (job : NewJob) : JobRow where
  messageId := job.messageId
  idempotencyKey := job.idempotencyKey
  state := .ready
  attemptsMade := 0
  maxAttempts := job.maxAttempts
  notBeforeAt := job.notBeforeAt
  claimedBy := none
  claimedAt := none
  claimExpiresAt := none
  providerId := none
  createdAt := job.createdAt
  cancelledAt := none
  cancelledBy := none
  cancelledBecause := none
  withdrawnAt := none
  withdrawnBecause := none

structure World where
  db : Database
  drains : Nat → Option Drain
  releases : Nat → Option Release
  log : List Event

/-- No process is running and nothing has happened. -/
def World.start (db : Database) : World := ⟨db, fun _ => none, fun _ => none, []⟩

inductive Action
  | enqueue (job : NewJob)
  | cancel (order : CancelOrder) (nowIso : Millis)
  | startDrain (i : Nat) (options : DrainOptions)
  | drain (i : Nat) (a : DrainAction)
  | crashDrain (i : Nat)
  | startRelease (i : Nat) (config : EmailReleaseConfig)
  | release (i : Nat) (a : ReleaseAction)
  | crashRelease (i : Nat)

/-- The steps of drains, of the intake and of the stop button. -/
def Action.ofDrains : Action → Bool
  | .startRelease _ _ => false
  | .release _ _ => false
  | .crashRelease _ => false
  | _ => true

/-- The steps of email releases, of the intake and of the stop button. -/
def Action.ofReleases : Action → Bool
  | .startDrain _ _ => false
  | .drain _ _ => false
  | .crashDrain _ => false
  | _ => true

/-- `INSERT … ON CONFLICT (message_id) DO NOTHING`. -/
def enqueue (db : Database) (job : NewJob) : Option Database :=
  (db.jobs.insertNew JobRow.messageId job.row).map fun jobs => { db with jobs := jobs }

/-- The jobs that a stop reports. -/
def cancelled (db : Database) (order : CancelOrder) : List CancelledJob :=
  classifyCancellation (cancelledRows order db.jobs.rows)

def step (w : World) : Action → Option World
  | .enqueue job => (enqueue w.db job).map fun db => { w with db := db }
  | .cancel order nowIso =>
    (execute w.db (cancelStatement order nowIso)).map fun (db, _) =>
      { w with db := db, log := w.log ++ [.cancelled (cancelled w.db order)] }
  | .startDrain i options =>
    match w.drains i with
    | none => some { w with drains := Function.update w.drains i (some (drainOnce options)) }
    | some _ => none
  | .drain i a => do
    let d ← w.drains i
    let (db, d', events) ← d.step w.db a
    some { w with
      db := db, drains := Function.update w.drains i (some d'), log := w.log ++ events }
  | .crashDrain i => some { w with drains := Function.update w.drains i none }
  | .startRelease i config =>
    match w.releases i with
    | none =>
      some { w with releases := Function.update w.releases i (some (runEmailRelease config)) }
    | some _ => none
  | .release i a => do
    let r ← w.releases i
    let (db, r', events) ← r.step w.db a
    some { w with
      db := db, releases := Function.update w.releases i (some r'), log := w.log ++ events }
  | .crashRelease i => some { w with releases := Function.update w.releases i none }

/-- The world after the actions, if each was possible. -/
abbrev run : World → List Action → Option World := Runs.run step

/-- The calls of the provider. -/
def providerSends (log : List Event) : List ProviderSend :=
  log.filterMap fun event => match event with
    | .providerSend send => some send
    | _ => none

theorem providerSends_append (log log' : List Event) :
    providerSends (log ++ log') = providerSends log ++ providerSends log' :=
  List.filterMap_append

theorem providerSends_one (send : ProviderSend) :
    providerSends [.providerSend send] = [send] := rfl

/-- A run holds a reservation that it has not handed over. -/
def Reserved (w : World) (i : Nat) (claim : EmailClaim) (e : FrozenEmail) : Prop :=
  ∃ r, w.releases i = some r ∧ r.phase.reservation = some (claim, e)

/-! ## The inversion of a step -/

/-- Everything a step of the system can do. -/
inductive Effect (w : World) : Action → World → Prop
  | enqueue {job db} (enqueued : enqueue w.db job = some db) :
      Effect w (.enqueue job) { w with db := db }
  | cancel {order nowIso db rows}
      (executed : execute w.db (cancelStatement order nowIso) = some (db, rows)) :
      Effect w (.cancel order nowIso)
        { w with db := db, log := w.log ++ [.cancelled (cancelled w.db order)] }
  | startDrain {i options} :
      Effect w (.startDrain i options)
        { w with drains := Function.update w.drains i (some (drainOnce options)) }
  | drain {i a d db d' events} (running : w.drains i = some d)
      (effect : Drain.Effect w.db d a db d' events) :
      Effect w (.drain i a)
        { w with
          db := db, drains := Function.update w.drains i (some d'), log := w.log ++ events }
  | crashDrain {i} :
      Effect w (.crashDrain i) { w with drains := Function.update w.drains i none }
  | startRelease {i config} :
      Effect w (.startRelease i config)
        { w with releases := Function.update w.releases i (some (runEmailRelease config)) }
  | release {i a r db r' events} (running : w.releases i = some r)
      (effect : Release.Effect w.db r a db r' events) :
      Effect w (.release i a)
        { w with
          db := db, releases := Function.update w.releases i (some r'),
          log := w.log ++ events }
  | crashRelease {i} :
      Effect w (.crashRelease i) { w with releases := Function.update w.releases i none }

theorem step_effect {w w' : World} {a : Action} (h : step w a = some w') : Effect w a w' := by
  cases a with
  | enqueue job =>
    simp only [step, map_eq_some_iff] at h
    obtain ⟨db, hdb, rfl⟩ := h
    exact .enqueue hdb
  | cancel order nowIso =>
    simp only [step, map_eq_some_iff] at h
    obtain ⟨⟨db, rows⟩, hdb, rfl⟩ := h
    exact .cancel hdb
  | startDrain i options =>
    simp only [step] at h
    split at h
    · cases h
      exact .startDrain
    · cases h
  | drain i a =>
    simp only [step, bind_eq_bind, bind_eq_some_iff] at h
    obtain ⟨d, hd, ⟨db, d', events⟩, hstep, h⟩ := h
    cases h
    exact .drain hd (Drain.step_effect hstep)
  | crashDrain i =>
    cases h
    exact .crashDrain
  | startRelease i config =>
    simp only [step] at h
    split at h
    · cases h
      exact .startRelease
    · cases h
  | release i a =>
    simp only [step, bind_eq_bind, bind_eq_some_iff] at h
    obtain ⟨r, hr, ⟨db, r', events⟩, hstep, h⟩ := h
    cases h
    exact .release hr (Release.step_effect hstep)
  | crashRelease i =>
    cases h
    exact .crashRelease

/-! ## What every step keeps -/

variable {i : Nat}

/-- What holds of every process and of the one put among them holds of all. -/
theorem forall_update {δ : Type} {processes : Nat → Option δ} {d : Option δ} {P : Nat → δ → Prop}
    (others : ∀ j e, processes j = some e → P j e) (placed : ∀ e, d = some e → P i e) :
    ∀ j e, Function.update processes i d j = some e → P j e := by
  intro j e h
  by_cases hj : j = i
  · subst hj
    rw [Function.update_self] at h
    exact placed e h
  · rw [Function.update_of_ne hj] at h
    exact others j e h

/-- Where a property of a process comes from, after one was put among them. -/
theorem update_cases {δ : Type} {processes : Nat → Option δ} {j : Nat} {d : Option δ} {e : δ}
    (h : Function.update processes i d j = some e) :
    (j ≠ i ∧ processes j = some e) ∨ (j = i ∧ d = some e) := by
  by_cases hj : j = i
  · subst hj
    rw [Function.update_self] at h
    exact Or.inr ⟨rfl, h⟩
  · rw [Function.update_of_ne hj] at h
    exact Or.inl ⟨hj, h⟩

/-- A drain put into a world. -/
def withDrain (w : World) (db : Database) (i : Nat) (d : Option Drain) (events : List Event) :
    World :=
  { w with db := db, drains := Function.update w.drains i d, log := w.log ++ events }

/-- A release put into a world. -/
def withRelease (w : World) (db : Database) (i : Nat) (r : Option Release)
    (events : List Event) : World :=
  { w with db := db, releases := Function.update w.releases i r, log := w.log ++ events }

variable {db : Database}

theorem reserved_withRelease {w : World} {j : Nat} {r : Option Release} {events : List Event}
    {claim : EmailClaim} {e : FrozenEmail} (h : Reserved (withRelease w db i r events) j claim e) :
    (j ≠ i ∧ Reserved w j claim e) ∨
      (j = i ∧ ∃ r', r = some r' ∧ r'.phase.reservation = some (claim, e)) := by
  obtain ⟨r', hr', hheld⟩ := h
  rcases update_cases hr' with ⟨hj, hold⟩ | ⟨hj, hnew⟩
  · exact Or.inl ⟨hj, r', hold, hheld⟩
  · exact Or.inr ⟨hj, r', hnew, hheld⟩

variable {db' : Database} {job : NewJob}

theorem enqueue_job (h : enqueue db job = some db') (m : MessageId) :
    db'.job m = (db.job m).or (if job.messageId = m then some job.row else none) := by
  simp only [enqueue, map_eq_some_iff] at h
  obtain ⟨jobs, hinsert, hdb⟩ := h
  subst hdb
  exact Sql.Table.find_insertNew hinsert

theorem enqueue_tables (h : enqueue db job = some db') :
    db'.attempts = db.attempts ∧ db'.envelopes = db.envelopes := by
  simp only [enqueue, map_eq_some_iff] at h
  obtain ⟨_, _, hdb⟩ := h
  subst hdb
  exact ⟨rfl, rfl⟩

theorem enqueue_extends (h : enqueue db job = some db') :
    Extends db db' := by
  obtain ⟨hattempts, henvelopes⟩ := enqueue_tables h
  refine ⟨?_, ?_, ?_⟩
  · intro m r hr
    exact ⟨r, by rw [enqueue_job h, hr]; rfl, rfl⟩
  · intro m n hn
    simpa [Database.attempt, hattempts] using hn
  · intro m e he
    simpa [frozen, Database.envelope, henvelopes] using he

/-! ## Sample runs -/

/-- A job of an organization, due at once, with a budget of attempts. -/
def sampleJob (maxAttempts : Nat) : NewJob :=
  ⟨js "incident/org|key", js "incident/org|key", maxAttempts, 0, 0⟩

/-- The row of a job that a worker holds from one time to another. -/
def heldRow (r : JobRow) (worker : WorkerId) (fromIso toIso : Millis) : JobRow :=
  { r with
    state := .claimed
    claimedBy := some worker
    claimedAt := some (timestamptz fromIso)
    claimExpiresAt := some (timestamptz toIso) }

/-- A drain that reads one row and takes its job as far as the call of the provider. -/
def sendingDrain (i : Nat) (options : DrainOptions) (r : JobRow) : List Action :=
  [.startDrain i options, .drain i (.readDue [r]), .drain i .take, .drain i .claim,
    .drain i (.resolve (.send (js "ops@msp.example") (js "body"))),
    .drain i (.checkSuppressed false), .drain i .openAttempt, .drain i (.attemptSend false)]

/-- The world that a run from the empty database reaches, if it is possible. -/
def reached (as : List Action) : World := (run (.start .empty) as).getD (.start .empty)

variable {as : List Action}

theorem run_reached (h : (run (.start .empty) as).isSome) :
    run (.start .empty) as = some (reached as) := by
  obtain ⟨w, hw⟩ := isSome_iff_exists.mp h
  rw [reached, hw]
  rfl

theorem run_reached_append {bs : List Action} (h : (run (.start .empty) (as ++ bs)).isSome) :
    run (reached as) bs = some (reached (as ++ bs)) := by
  obtain ⟨w, has, hbs⟩ := Runs.run_append.mp (run_reached h)
  have hw : reached as = w := by simp [reached, run, has]
  rw [hw]
  exact hbs

end SendSystem
