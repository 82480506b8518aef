import HawkView.Alerts.SendSystem

/-!
# What a stop reports

`STOPPED_BEFORE_ANY_ATTEMPT` is read off a job that is unclaimed and has no
attempt counted. A drain counts its attempt when it settles, so until then only
its claim tells of a send in flight. Everything that takes a claim away leaves a
count or a finished job behind, `deferJob` excepted.
-/

namespace Cancellation

open SendTables SendQueue SendStore SendWorker EmailRegularRelease EmailReleaseStore
open EmailRelease SendSystem List Option

def HasAttempt (db : Database) (m : MessageId) : Prop := ∃ n, (db.attempt m n).isSome

/-- A drain still holds a claim that it won on the job. -/
def Holds (w : World) (m : MessageId) : Prop :=
  ∃ i d held, w.drains i = some d ∧ d.phase.held = some held ∧ held.job.messageId = m

/-- Something has been, or may still be, attempted for the job. -/
def Traced (w : World) (m : MessageId) : Prop := HasAttempt w.db m ∨ Holds w m

/-- A stop has reported that it stopped the job before any attempt. -/
def Labelled (log : List Event) (m : MessageId) : Prop :=
  ∃ jobs, .cancelled jobs ∈ log ∧
    ∃ job ∈ jobs, job.messageId = m ∧ job.outcome = .stoppedBeforeAnyAttempt

/-- In every run, a job that was stopped before any attempt is never sent by anybody and has
no attempt row. -/
def StoppedMeansUnsent : Prop :=
  ∀ (as : List Action) (w : World) (m : MessageId),
    run (.start .empty) as = some w → Labelled w.log m →
      (∀ send ∈ providerSends w.log, send.messageId ≠ m) ∧ ¬ HasAttempt w.db m

/-- A job that is put back with no attempt counted has no attempt row, and no drain still
holds a claim on it. -/
def DefersUntouched (w : World) : Action → Prop
  | .release i a => ∀ r m row, w.releases i = some r → r.defers w.db a = some m →
      w.db.job m = some row → row.attemptsMade = 0 → ¬ Traced w m
  | _ => True

/-- What a stop would report as stopped before any attempt. -/
def Stoppable (r : JobRow) : Prop :=
  terminal r.state = false ∧ r.attemptsMade = 0 ∧ r.claimedBy = none

structure Inv (w : World) : Prop where
  covered : ∀ m, Traced w m → ∃ r, w.db.job m = some r ∧ ¬ Stoppable r
  sentRow : ∀ send ∈ providerSends w.log, HasAttempt w.db send.messageId
  openedRow : ∀ i d held, w.drains i = some d → d.phase.openedFor = some held →
    HasAttempt w.db held.job.messageId
  reservedRow : ∀ i claim e, Reserved w i claim e → HasAttempt w.db claim.job.messageId
  labelled : ∀ m, Labelled w.log m →
    ¬ Traced w m ∧ ∃ r, w.db.job m = some r ∧ r.state = .cancelled

theorem inv_start : Inv (.start .empty) where
  covered m h := by
    rcases h with ⟨n, hn⟩ | ⟨i, d, held, hd, _⟩
    · cases hn
    · cases hd
  sentRow send h := by cases h
  openedRow i d held h := by cases h
  reservedRow i claim e h := by
    obtain ⟨r, hr, _⟩ := h
    cases hr
  labelled m h := by
    obtain ⟨jobs, hjobs, _⟩ := h
    cases hjobs

/-- What a step may change: no job becomes stoppable while something is traced for it, and
whatever is new is backed by a row that is not stoppable, or by an attempt. -/
structure Change (w w' : World) : Prop where
  rows : ∀ m r, w.db.job m = some r → ∃ r', w'.db.job m = some r' ∧
    (Traced w m → ¬ Stoppable r → ¬ Stoppable r') ∧
    (¬ Traced w m → r.state = .cancelled → r'.state = .cancelled)
  traced : ∀ m, Traced w' m → Traced w m ∨
    ∃ r r', w.db.job m = some r ∧ r.state ≠ .cancelled ∧ w'.db.job m = some r' ∧
      ¬ Stoppable r'
  attempts : ∀ m, HasAttempt w.db m → HasAttempt w'.db m
  sent : ∀ send ∈ providerSends w'.log,
    send ∈ providerSends w.log ∨ HasAttempt w.db send.messageId
  opened : ∀ i d held, w'.drains i = some d → d.phase.openedFor = some held →
    (∃ d₀, w.drains i = some d₀ ∧ d₀.phase.openedFor = some held) ∨
      HasAttempt w'.db held.job.messageId
  reserved : ∀ i claim e, Reserved w' i claim e →
    Reserved w i claim e ∨ HasAttempt w'.db claim.job.messageId
  labels : ∀ m, Labelled w'.log m → Labelled w.log m ∨
    ((Traced w' m → Traced w m) ∧ (∃ r, w.db.job m = some r ∧ Stoppable r) ∧
      ∃ r', w'.db.job m = some r' ∧ r'.state = .cancelled)

variable {w w' : World}

theorem inv_change (inv : Inv w) (change : Change w w') : Inv w' where
  covered m h := by
    rcases change.traced m h with hold | ⟨r, r', _, _, hr', hbusy⟩
    · obtain ⟨r, hr, hbusy⟩ := inv.covered m hold
      obtain ⟨r', hr', hkept, _⟩ := change.rows m r hr
      exact ⟨r', hr', hkept hold hbusy⟩
    · exact ⟨r', hr', hbusy⟩
  sentRow send h := by
    rcases change.sent send h with hold | hnew
    · exact change.attempts _ (inv.sentRow send hold)
    · exact change.attempts _ hnew
  openedRow i d held hd hheld := by
    rcases change.opened i d held hd hheld with ⟨d₀, hd₀, hheld₀⟩ | hnew
    · exact change.attempts _ (inv.openedRow i d₀ held hd₀ hheld₀)
    · exact hnew
  reservedRow i claim e h := by
    rcases change.reserved i claim e h with hold | hnew
    · exact change.attempts _ (inv.reservedRow i claim e hold)
    · exact hnew
  labelled m h := by
    rcases change.labels m h with hold | ⟨htraced, ⟨r, hr, hstoppable⟩, hcancelled⟩
    · obtain ⟨huntraced, r, hr, hstate⟩ := inv.labelled m hold
      obtain ⟨r', hr', _, hkept⟩ := change.rows m r hr
      refine ⟨?_, r', hr', hkept huntraced hstate⟩
      intro hnew
      rcases change.traced m hnew with htraced | ⟨r₀, _, hr₀, hne, _⟩
      · exact huntraced htraced
      · rw [hr] at hr₀
        cases hr₀
        exact hne hstate
    · refine ⟨?_, hcancelled⟩
      intro hnew
      obtain ⟨r₀, hr₀, hbusy⟩ := inv.covered m (htraced hnew)
      rw [hr] at hr₀
      cases hr₀
      exact hbusy hstoppable

/-! ## Rows -/

variable {r : JobRow}

theorem not_stoppable_of_terminal (h : terminal r.state = true) :
    ¬ Stoppable r := by
  rintro ⟨hlive, _⟩
  rw [h] at hlive
  cases hlive

theorem not_stoppable_of_claimed (h : r.claimedBy.isSome) : ¬ Stoppable r := by
  rintro ⟨_, _, hfree⟩
  rw [hfree] at h
  cases h

theorem not_stoppable_of_attempts (h : r.attemptsMade ≠ 0) : ¬ Stoppable r :=
  fun hstoppable => h hstoppable.2.1

/-- What a step of the world keeps of the rows. -/
def RowsKept (w : World) (db : Database) : Prop :=
  ∀ m r, w.db.job m = some r → ∃ r', db.job m = some r' ∧
    (Traced w m → ¬ Stoppable r → ¬ Stoppable r') ∧
    (¬ Traced w m → r.state = .cancelled → r'.state = .cancelled)

variable {db : Database} {u : Sql.Update JobRow}

/-- An update that leaves no row stoppable and spares what is cancelled and untraced. -/
theorem rows_of_update (jobs : ∀ m, db.job m = (w.db.job m).map u.on)
    (busy : ∀ r, u.applies r = true → ¬ Stoppable (u.set r))
    (spared : ∀ m r, w.db.job m = some r → ¬ Traced w m → r.state = .cancelled →
      u.applies r = false) :
    RowsKept w db := by
  intro m r hr
  refine ⟨u.on r, by rw [jobs, hr]; rfl, ?_, ?_⟩
  · intro _ hbusy
    exact Sql.Update.on_cases (P := fun s => ¬ Stoppable s) (busy r) hbusy
  · intro huntraced hstate
    rw [Sql.Update.on_neg (by rw [spared m r hr huntraced hstate]; simp)]
    exact hstate

theorem liveOnly_spares (liveOnly : LiveOnly u) (h : r.state = .cancelled) :
    u.applies r = false := by
  cases happlies : u.applies r with
  | false => rfl
  | true =>
    have hlive := liveOnly r happlies
    rw [h] at hlive
    cases hlive

theorem rows_of_liveOnly (liveOnly : LiveOnly u) (jobs : ∀ m, db.job m = (w.db.job m).map u.on)
    (busy : ∀ r, u.applies r = true → ¬ Stoppable (u.set r)) :
    RowsKept w db :=
  rows_of_update jobs busy fun _ _ _ _ hstate => liveOnly_spares liveOnly hstate

theorem rows_of_eq (jobs : ∀ m, db.job m = w.db.job m) :
    RowsKept w db :=
  fun m r hr => ⟨r, (jobs m).trans hr, fun _ h => h, fun _ h => h⟩

/-! ## Steps -/

/-- No attempt has come or gone. -/
def SameAttempts (db db' : Database) : Prop := ∀ m, HasAttempt db' m ↔ HasAttempt db m

variable {db' : Database}

theorem sameAttempts_of_isSome (h : ∀ m n, (db'.attempt m n).isSome = (db.attempt m n).isSome) :
    SameAttempts db db' := by
  intro m
  simp only [HasAttempt, h]

theorem sameAttempts_of_table (h : db'.attempts = db.attempts) :
    SameAttempts db db' := by
  apply sameAttempts_of_isSome
  intro m n
  rw [Database.attempt, Database.attempt, h]

/-- Attempts stay, and those that come are accounted for. -/
structure Opens (db db' : Database) (accounted : MessageId → Prop) : Prop where
  kept : ∀ m, HasAttempt db m → HasAttempt db' m
  traced : ∀ m, HasAttempt db' m → HasAttempt db m ∨ accounted m

theorem SameAttempts.opens (h : SameAttempts db db') {accounted : MessageId → Prop} :
    Opens db db' accounted :=
  ⟨fun m => (h m).mpr, fun m hm => Or.inl ((h m).mp hm)⟩

theorem opens_none {accounted : MessageId → Prop} : Opens db db accounted :=
  SameAttempts.opens fun _ => Iff.rfl

variable {events : List Event}

theorem labelled_append {log : List Event} {m : MessageId}
    (silent : ∀ jobs, .cancelled jobs ∉ events) (h : Labelled (log ++ events) m) :
    Labelled log m := by
  obtain ⟨jobs, hjobs, hlabel⟩ := h
  rcases mem_append.mp hjobs with hold | hnew
  · exact ⟨jobs, hold, hlabel⟩
  · exact absurd hnew (silent jobs)

variable {i : Nat} {d d' : Drain}

/-- A change that a drain's action makes. -/
theorem change_drain (running : w.drains i = some d) (rows : RowsKept w db)
    (opens : Opens w.db db (Holds w))
    (held : ∀ held, d'.phase.held = some held → d.phase.held = some held ∨
      ∃ r r', w.db.job held.job.messageId = some r ∧ r.state ≠ .cancelled ∧
        db.job held.job.messageId = some r' ∧ ¬ Stoppable r')
    (opened : ∀ held, d'.phase.openedFor = some held → d.phase.openedFor = some held ∨
      HasAttempt db held.job.messageId)
    (sent : ∀ send ∈ providerSends events, HasAttempt w.db send.messageId)
    (silent : ∀ jobs, .cancelled jobs ∉ events) :
    Change w (withDrain w db i (some d') events) where
  rows := rows
  traced m h := by
    rcases h with hattempt | ⟨j, e, held', he, hheld, rfl⟩
    · exact Or.inl (opens.traced m hattempt)
    · rcases update_cases he with ⟨_, hold⟩ | ⟨rfl, hnew⟩
      · exact Or.inl (Or.inr ⟨j, e, held', hold, hheld, rfl⟩)
      · cases hnew
        rcases held held' hheld with hold | hnew
        · exact Or.inl (Or.inr ⟨j, d, held', running, hold, rfl⟩)
        · exact Or.inr hnew
  attempts := opens.kept
  sent send h := by
    simp only [withDrain, providerSends_append, mem_append] at h
    exact h.imp id (sent send)
  opened j e held' he hheld := by
    rcases update_cases he with ⟨_, hold⟩ | ⟨rfl, hnew⟩
    · exact Or.inl ⟨e, hold, hheld⟩
    · cases hnew
      exact (opened held' hheld).imp (fun hold => ⟨d, running, hold⟩) id
  reserved _ _ _ h := Or.inl h
  labels _ h := Or.inl (labelled_append silent h)

/-- A drain that starts, or is gone. -/
theorem change_idle_drain {d : Option Drain}
    (idle : ∀ d', d = some d' → d'.phase.held = none ∧ d'.phase.openedFor = none) :
    Change w (withDrain w w.db i d []) where
  rows := rows_of_eq fun _ => rfl
  traced m h := by
    rcases h with hattempt | ⟨j, e, held', he, hheld, rfl⟩
    · exact Or.inl (Or.inl hattempt)
    · rcases update_cases he with ⟨_, hold⟩ | ⟨_, hnew⟩
      · exact Or.inl (Or.inr ⟨j, e, held', hold, hheld, rfl⟩)
      · rw [(idle e hnew).1] at hheld
        cases hheld
  attempts _ h := h
  sent send h := by
    simp only [withDrain, append_nil] at h
    exact Or.inl h
  opened j e held' he hheld := by
    rcases update_cases he with ⟨_, hold⟩ | ⟨_, hnew⟩
    · exact Or.inl ⟨e, hold, hheld⟩
    · rw [(idle e hnew).2] at hheld
      cases hheld
  reserved _ _ _ h := Or.inl h
  labels _ h := Or.inl (labelled_append (by simp) h)

/-- A change that a release's action makes. -/
theorem change_release {r : Option Release} (rows : RowsKept w db)
    (opens : Opens w.db db fun m => ∃ r r', w.db.job m = some r ∧ r.state ≠ .cancelled ∧
      db.job m = some r' ∧ ¬ Stoppable r')
    (reserved : ∀ r', r = some r' → ∀ claim e, r'.phase.reservation = some (claim, e) →
      Reserved w i claim e ∨ HasAttempt db claim.job.messageId)
    (sent : ∀ send ∈ providerSends events, HasAttempt w.db send.messageId)
    (silent : ∀ jobs, .cancelled jobs ∉ events) :
    Change w (withRelease w db i r events) where
  rows := rows
  traced m h := by
    rcases h with hattempt | hholds
    · exact (opens.traced m hattempt).imp Or.inl id
    · exact Or.inl (Or.inr hholds)
  attempts := opens.kept
  sent send h := by
    simp only [withRelease, providerSends_append, mem_append] at h
    exact h.imp id (sent send)
  opened _ d _ hd hheld := Or.inl ⟨d, hd, hheld⟩
  reserved j claim e h := by
    rcases reserved_withRelease h with ⟨_, hold⟩ | ⟨rfl, r', hr', hheld⟩
    · exact Or.inl hold
    · exact reserved r' hr' claim e hheld
  labels _ h := Or.inl (labelled_append silent h)

theorem change_enqueue {job : NewJob} (enqueued : enqueue w.db job = some db) :
    Change w { w with db := db } where
  rows m r hr := by
    refine ⟨r, ?_, fun _ h => h, fun _ h => h⟩
    show db.job m = some r
    rw [enqueue_job enqueued, hr]
    rfl
  traced m h := Or.inl (h.imp (sameAttempts_of_table (enqueue_tables enqueued).1 m).mp id)
  attempts m h := (sameAttempts_of_table (enqueue_tables enqueued).1 m).mpr h
  sent _ h := Or.inl h
  opened _ d _ hd hheld := Or.inl ⟨d, hd, hheld⟩
  reserved _ _ _ h := Or.inl h
  labels _ h := Or.inl h

variable {order : CancelOrder}

/-- A job that a stop reports as stopped was stoppable. -/
theorem stoppable_of_reported {job : CancelledJob} (h : job ∈ cancelled db order)
    (label : job.outcome = .stoppedBeforeAnyAttempt) :
    ∃ r, db.job job.messageId = some r ∧ order.scope.targets r = true ∧ Stoppable r := by
  simp only [cancelled, classifyCancellation, cancelledRows, List.map_map, List.mem_map,
    mem_filter, Function.comp_apply] at h
  obtain ⟨r, ⟨hr, htargets⟩, hjob⟩ := h
  subst hjob
  refine ⟨r, Sql.Table.find_of_mem jobs_keyed hr, htargets, ?_⟩
  have hlive := cancelStatement_liveOnly order 0 r htargets
  simp only [ite_eq_right_iff, reduceCtorEq, imp_false, not_or, Nat.pos_iff_ne_zero,
    not_not, isSome_iff_ne_none] at label
  exact ⟨hlive, label.1, label.2⟩

theorem change_cancel {nowIso : Millis} {rows : Nat}
    (executed : execute w.db (cancelStatement order nowIso) = some (db, rows)) :
    Change w { w with db := db, log := w.log ++ [.cancelled (cancelled w.db order)] } where
  rows := rows_of_liveOnly (cancelStatement_liveOnly _ _) (execute_job (fun _ => rfl) executed)
    fun _ _ => not_stoppable_of_terminal rfl
  traced m h := Or.inl (h.imp (sameAttempts_of_table (execute_tables executed).1 m).mp id)
  attempts m h := (sameAttempts_of_table (execute_tables executed).1 m).mpr h
  sent send h := by
    rw [providerSends_append] at h
    exact Or.inl (by simpa [providerSends] using h)
  opened _ d _ hd hheld := Or.inl ⟨d, hd, hheld⟩
  reserved _ _ _ h := Or.inl h
  labels m h := by
    obtain ⟨jobs, hjobs, job, hjob, rfl, houtcome⟩ := h
    rcases mem_append.mp hjobs with hold | hnew
    · exact Or.inl ⟨jobs, hold, job, hjob, rfl, houtcome⟩
    · cases mem_singleton.mp hnew
      obtain ⟨r, hr, htargets, hstoppable⟩ := stoppable_of_reported hjob houtcome
      refine Or.inr ⟨?_, ⟨r, hr, hstoppable⟩, (cancelStatement order nowIso).set r, ?_, rfl⟩
      · exact Or.imp (sameAttempts_of_table (execute_tables executed).1 _).mp id
      · show db.job job.messageId = _
        rw [execute_job (fun _ => rfl) executed, hr, map_some]
        exact congrArg some (Sql.Update.on_pos htargets)

/-- A drain's action is a change. -/
theorem change_of_drain {a : DrainAction} (inv : Inv w) (running : w.drains i = some d)
    (effect : Drain.Effect w.db d a db d' events) :
    Change w (withDrain w db i (some d') events) := by
  have hcovered : ∀ {held}, d.phase.held = some held → Traced w held.job.messageId :=
    fun hheld => Or.inr ⟨i, d, _, running, hheld, rfl⟩
  cases effect with
  | quiet quiet =>
    exact change_drain running (rows_of_eq fun _ => rfl) opens_none
      (fun held h => Or.inl (quiet.held held h)) (fun held h => Or.inl (quiet.opened held h))
      (by simp [providerSends]) (by simp)
  | read _ _ phase =>
    refine change_drain running (rows_of_eq fun _ => rfl) opens_none ?_ ?_
      (by simp [providerSends]) (by simp) <;>
      intro held hheld <;> rw [phase] at hheld <;> cases hheld
  | @claim _ chosen _ rows _ phase executed after =>
    subst after
    have hjobs := execute_job (fun _ => rfl) executed
    refine change_drain running (rows_of_liveOnly (claimStatement_liveOnly _ _ _ _) hjobs
      (fun _ _ => not_stoppable_of_claimed rfl))
      (sameAttempts_of_table (execute_tables executed).1).opens ?_ ?_ (by simp [providerSends])
      (by simp)
    · intro held hheld
      obtain ⟨hjob, hrows⟩ := Drain.claimed_held hheld
      rw [hjob]
      have hat : (claimStatement chosen.job.messageId d.options.worker d.options.nowIso
          d.options.holdForMs).AtKey JobRow.messageId chosen.job.messageId := by
        intro r hr
        simp only [claimStatement, Bool.and_eq_true, beq_iff_eq] at hr
        exact hr.1.1.1.1
      obtain ⟨r, hr, happlies⟩ := execute_hit hat executed hrows
      refine Or.inr ⟨r, _, hr, ?_, by rw [hjobs, hr]; rfl, ?_⟩
      · intro hcancelled
        rw [liveOnly_spares (claimStatement_liveOnly _ _ _ _) hcancelled] at happlies
        cases happlies
      · rw [Sql.Update.on_pos happlies]
        exact not_stoppable_of_claimed rfl
    · intro held hheld
      rw [Drain.claimed_openedFor] at hheld
      cases hheld
  | withdraw _ executed quiet =>
    exact change_drain running (rows_of_liveOnly (withdrawStatement_liveOnly _ _ _)
      (execute_job (fun _ => rfl) executed) (fun _ _ => not_stoppable_of_terminal rfl))
      (sameAttempts_of_table (execute_tables executed).1).opens
      (fun held h => Or.inl (quiet.held held h)) (fun held h => Or.inl (quiet.opened held h))
      (by simp [providerSends]) (by simp)
  | @openAttempt _ held recipient body _ phase opened =>
    have hheld : d.phase.held = some held := by
      rw [phase]
      rfl
    have hfind := openAttempt_attempt opened
    refine change_drain running (rows_of_eq fun m => ?_) ⟨?_, ?_⟩ (fun held' h => Or.inl ?_) ?_
      (by simp [providerSends]) (by simp)
    · simp [Database.job, (openAttempt_tables opened).1]
    · rintro m ⟨n, hn⟩
      refine ⟨n, ?_⟩
      rw [hfind]
      simp [hn]
    · rintro m ⟨n, hn⟩
      rw [hfind] at hn
      by_cases hkey : (held.job.messageId, held.permit.attemptNo) = (m, n)
      · cases hkey
        exact hcovered hheld
      · rw [if_neg hkey, or_none] at hn
        exact Or.inl ⟨n, hn⟩
    · rw [hheld]
      exact h
    · intro held' h
      cases h
      refine Or.inr ⟨held.permit.attemptNo, ?_⟩
      rw [hfind]
      simp
  | @send held recipient body phase =>
    refine change_drain running (rows_of_eq fun _ => rfl) opens_none
      (fun held' h => Or.inl ?_) (fun held' h => by cases h) ?_ (by simp)
    · rw [phase]
      exact h
    · intro send hsend
      have hrow := inv.openedRow i d held running (by rw [phase]; rfl)
      rw [providerSends_one, mem_singleton] at hsend
      rw [hsend, held.permit_eq.1]
      exact hrow
  | @settle held recipient settled _ _ phase committed quiet ended =>
    obtain ⟨_, hjobs, hattempts, _⟩ := settleAttempt_spec committed
    have hheld : d.phase.held = some held := by
      rw [phase]
      rfl
    have hsame : SameAttempts w.db db := sameAttempts_of_isSome (by simp [hattempts])
    refine change_drain running (rows_of_update hjobs ?_ ?_) hsame.opens
      (fun held h => Or.inl (quiet.held held h)) (fun held h => Or.inl (quiet.opened held h))
      (by simp [providerSends]) (by simp)
    · intro r _
      exact not_stoppable_of_attempts (by simp [advanceJob])
    · intro m r hr huntraced _
      have hkey : r.messageId = m := Sql.Table.find_key hr
      have hne : held.job.messageId ≠ m := by
        rintro rfl
        exact huntraced (hcovered hheld)
      simpa [advanceJob, hkey] using fun h => hne h.symm

/-- A release's action is a change, if it puts no traced job back uncounted. -/
theorem change_of_release {r r' : Release} {a : ReleaseAction} (inv : Inv w)
    (running : w.releases i = some r) (guard : DefersUntouched w (.release i a))
    (effect : Release.Effect w.db r a db r' events) :
    Change w (withRelease w db i (some r') events) := by
  have hquiet : Release.Quiet r r' → ∀ s, some r' = some s → ∀ claim e,
      s.phase.reservation = some (claim, e) →
        Reserved w i claim e ∨ HasAttempt db claim.job.messageId := by
    rintro quiet _ ⟨⟩ claim e hheld
    exact Or.inl ⟨r, running, quiet _ hheld⟩
  cases effect with
  | quiet quiet =>
    exact change_release (rows_of_eq fun _ => rfl) opens_none
      (hquiet quiet) (by simp [providerSends]) (by simp)
  | @finish u _ _ finishes jobs attempts _ quiet =>
    have hsame : SameAttempts w.db db := sameAttempts_of_isSome (by simp [attempts])
    exact change_release (rows_of_liveOnly finishes.liveOnly jobs
      (fun r _ => not_stoppable_of_terminal (finishes.finished r).1)) hsame.opens (hquiet quiet)
      (by simp [providerSends]) (by simp)
  | @defer m worker atIso clock _ rows _ decided executed quiet =>
    have hsame : SameAttempts w.db db := sameAttempts_of_table (execute_tables executed).1
    have hjobs := execute_job (u := deferJob m worker atIso clock) (fun _ => rfl) executed
    refine change_release ?_ hsame.opens (hquiet quiet) (by simp [providerSends]) (by simp)
    intro m' row hrow
    refine ⟨_, by rw [hjobs, hrow]; rfl, ?_, ?_⟩
    · intro htraced hbusy
      refine Sql.Update.on_cases (P := fun s => ¬ Stoppable s) (fun happlies => ?_) hbusy
      · have hm : row.messageId = m := by
          simp only [deferJob, Bool.and_eq_true, beq_iff_eq] at happlies
          exact happlies.1.1
        have hm' : row.messageId = m' := Sql.Table.find_key hrow
        refine not_stoppable_of_attempts (r := (deferJob m worker atIso clock).set row) ?_
        intro hzero
        refine guard r m row running decided ?_ hzero ?_
        · rw [← hm, hm']
          exact hrow
        · rw [← hm, hm']
          exact htraced
    · intro _ hstate
      rw [Sql.Update.on_neg]
      · exact hstate
      · rw [liveOnly_spares (deferJob_liveOnly _ _ _ _) hstate]
        simp
  | claim taken quiet =>
    obtain ⟨hjobs, hattempts, _⟩ := takeClaim_spec taken
    exact change_release (rows_of_liveOnly (claimStatement_liveOnly _ _ _ _) hjobs
      (fun _ _ => not_stoppable_of_claimed rfl)) (sameAttempts_of_table hattempts).opens
      (hquiet quiet) (by simp [providerSends]) (by simp)
  | @reserve claim recipient q now _ e reserved =>
    obtain ⟨⟨row, hrow, hlive⟩, _, hopen, _, hjobs, honly, hextends⟩ := reserve_spec reserved
    simp only [live, Bool.and_eq_true] at hlive
    obtain ⟨hclaimed, hworker⟩ := heldFor_claimed hlive.1.1
    have happlies : (countAttempt claim (claim.job.attemptsMade + 1) now).applies row = true := by
      have hkey : row.messageId = claim.job.messageId := Sql.Table.find_key hrow
      simp [countAttempt, heldBy, hclaimed, hworker, hkey]
    refine change_release (rows_of_liveOnly (countAttempt_liveOnly _ _ _) hjobs
      (fun r _ => not_stoppable_of_attempts (by simp [countAttempt]))) ⟨?_, ?_⟩ ?_
      (by simp [providerSends]) (by simp)
    · rintro m ⟨n, hn⟩
      exact ⟨n, hextends.attempt m n hn⟩
    · rintro m ⟨n, hn⟩
      rcases honly m n hn with hold | rfl
      · exact Or.inl ⟨n, hold⟩
      · refine Or.inr ⟨row, _, hrow, by rw [hclaimed]; simp, by rw [hjobs, hrow]; rfl, ?_⟩
        rw [Sql.Update.on_pos happlies]
        exact not_stoppable_of_attempts (by simp [countAttempt])
    · rintro _ ⟨⟩ claim' e' hheld
      cases hheld
      exact Or.inr ⟨_, hopen⟩
  | @send claim e phase =>
    have hreserved : Reserved w i claim e := ⟨r, running, by rw [phase]; rfl⟩
    refine change_release (rows_of_eq fun _ => rfl) opens_none ?_ ?_ (by simp)
    · rintro _ ⟨⟩ claim' e' hheld
      cases hheld
    · intro send hsend
      rw [providerSends_one, mem_singleton] at hsend
      rw [hsend]
      exact inv.reservedRow i claim e hreserved
  | @settle claim result now clock _ _ committed quiet =>
    obtain ⟨_, hjobs, hattempts, _⟩ := settle_spec committed
    refine change_release (rows_of_liveOnly (settleJob_liveOnly _ _ _ _) hjobs ?_)
      (sameAttempts_of_isSome hattempts).opens (hquiet quiet) (by simp [providerSends]) (by simp)
    intro row happlies
    simp only [settleJob, Bool.and_eq_true, beq_iff_eq] at happlies
    refine not_stoppable_of_attempts ?_
    simp [settleJob, happlies.2]

variable {a : Action}

/-- The invariant is kept by every step that the guard allows. -/
theorem inv_step (inv : Inv w) (guard : DefersUntouched w a) (h : step w a = some w') : Inv w' := by
  cases step_effect h with
  | enqueue enqueued => exact inv_change inv (change_enqueue enqueued)
  | cancel executed => exact inv_change inv (change_cancel executed)
  | @startDrain i options =>
    have hstart := inv_change inv (change_idle_drain (i := i) (d := some (drainOnce options))
      (by rintro _ ⟨⟩; exact ⟨rfl, rfl⟩))
    simpa [withDrain] using hstart
  | @crashDrain i =>
    have hgone := inv_change inv (change_idle_drain (i := i) (d := none) (by rintro _ ⟨⟩))
    simpa [withDrain] using hgone
  | drain running effect => exact inv_change inv (change_of_drain inv running effect)
  | @startRelease i config =>
    have hstart : Inv (withRelease w w.db i (some (runEmailRelease config)) []) :=
      inv_change inv (change_release (rows_of_eq fun _ => rfl) opens_none
        (by rintro _ ⟨⟩ _ _ hheld; cases hheld) (by simp [providerSends]) (by simp))
    simpa [withRelease] using hstart
  | @crashRelease i =>
    have hgone : Inv (withRelease w w.db i none []) :=
      inv_change inv (change_release (rows_of_eq fun _ => rfl) opens_none (by rintro _ ⟨⟩)
        (by simp [providerSends]) (by simp))
    simpa [withRelease] using hgone
  | release running effect =>
    exact inv_change inv (change_of_release inv running guard effect)

/-! ## Runs -/

/-- Unless a rate limit puts a traced job back uncounted: what a stop reports as stopped
before any attempt was sent by nobody, before or after it, and has no attempt row. -/
theorem stopped_is_unsent {as : List Action} {w : World}
    (guarded : Runs.Along step DefersUntouched (.start .empty) as)
    (h : run (.start .empty) as = some w) {m : MessageId} (label : Labelled w.log m) :
    (∀ send ∈ providerSends w.log, send.messageId ≠ m) ∧ ¬ HasAttempt w.db m := by
  have inv := Runs.invariant_along (fun _ _ _ => inv_step) inv_start guarded h
  obtain ⟨huntraced, _⟩ := inv.labelled m label
  refine ⟨?_, fun hattempt => huntraced (Or.inl hattempt)⟩
  rintro send hsend rfl
  exact huntraced (Or.inl (inv.sentRow send hsend))

/-- A stop of every job, pressed at a time. -/
def stopEverything (nowIso : Millis) : Action :=
  .cancel ⟨.everything nowIso, js "operator", ⟨js "spam", by decide⟩⟩ nowIso

/-- A stop before anything was claimed, with a drain that reads the queue around it. -/
def stoppedInTime : List Action :=
  [.enqueue (sampleJob 3), .startDrain 0 ⟨js "a", 0, 1000, 1⟩,
    .drain 0 (.readDue [(sampleJob 3).row]), stopEverything 500, .drain 0 .take, .drain 0 .claim]

/-- No job is put back. -/
def NoDefer (w : World) : Action → Prop
  | .release i a => (w.releases i).bind (fun r => r.defers w.db a) = none
  | _ => True

instance (w : World) : ∀ a, Decidable (NoDefer w a) := by
  intro a
  unfold NoDefer
  split <;> infer_instance

theorem defersUntouched_of_noDefer (h : NoDefer w a) :
    DefersUntouched w a := by
  cases a with
  | release i a =>
    intro r m row running decided
    simp [NoDefer, running, decided] at h
  | _ => trivial

theorem stopped_in_time_is_unsent :
    (∀ send ∈ providerSends (reached stoppedInTime).log,
      send.messageId ≠ (sampleJob 3).messageId) ∧
      ¬ HasAttempt (reached stoppedInTime).db (sampleJob 3).messageId :=
  have hcalm : Runs.Along step NoDefer (.start .empty) stoppedInTime := by decide
  stopped_is_unsent (Runs.along_mono (fun _ _ => defersUntouched_of_noDefer) hcalm)
    (run_reached (by decide))
    ⟨[⟨(sampleJob 3).messageId, .stoppedBeforeAnyAttempt, .ready, 0, false⟩], by decide,
      ⟨(sampleJob 3).messageId, .stoppedBeforeAnyAttempt, .ready, 0, false⟩, by decide⟩

/-- A regular release of the sample organization. -/
def regularConfig : EmailReleaseConfig :=
  ⟨.regular, js "epoch", js "org", js "owner", js "hash", 0, 0, js "alerts@hawkview.example",
    js "https://console.hawkviewapp.com"⟩

/-- Another job of the sample organization. -/
def otherJob (n : UInt16) : NewJob :=
  ⟨js "incident/org|" ++ [n], js "incident/org|" ++ [n], 3, 0, 0⟩

/-- A regular release that claims a job. -/
def claimingRelease (n : UInt16) (m : MessageId) (nowIso : Millis) : List Action :=
  [.startRelease n.toNat regularConfig,
    .release n.toNat (.claimRegular ⟨timestamptz nowIso, .ok 0, true, some m, true⟩
      (js "email/" ++ [n]) (js "hv-email-v1-" ++ [n]))]

/-- A message whose release claims it and then finds that its incident is over. -/
def withdrawnMessage (n : UInt16) : List Action :=
  .enqueue (otherJob n) :: claimingRelease n (otherJob n).messageId 10000 ++
  [.release n.toNat (.resolve (.doNotSend .incidentNoLongerActionable) none),
    .release n.toNat (.withdraw (timestamptz 10000))]

/-- A drain sends a job and dies; six new messages later the rate limit puts it back, and an
operator stops it. -/
def sentAndPutBack : List Action :=
  [.enqueue (sampleJob 3)] ++ sendingDrain 0 ⟨js "a", 0, 1000, 1⟩ (sampleJob 3).row ++
  [.crashDrain 0] ++ [49, 50, 51, 52, 53, 54].flatMap withdrawnMessage ++
  claimingRelease 55 (sampleJob 3).messageId 20000 ++ [stopEverything 30000]

/-- A job that was sent can be reported as stopped before any attempt. -/
theorem stopped_after_send : ¬ StoppedMeansUnsent := by
  intro claim
  have hsent : (⟨(sampleJob 3).messageId, 1, js "ops@msp.example", js "body",
      (sampleJob 3).idempotencyKey⟩ : ProviderSend) ∈
        providerSends (reached sentAndPutBack).log := by
    decide
  have hunsent := (claim sentAndPutBack _ (sampleJob 3).messageId (run_reached (by decide))
    ⟨[⟨(sampleJob 3).messageId, .stoppedBeforeAnyAttempt, .ready, 0, false⟩], by decide,
      ⟨(sampleJob 3).messageId, .stoppedBeforeAnyAttempt, .ready, 0, false⟩, by decide⟩).1
  exact hunsent _ hsent rfl

end Cancellation
