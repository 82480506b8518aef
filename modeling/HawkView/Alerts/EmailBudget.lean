import HawkView.Alerts.SendSystem
import Mathlib.Data.List.Perm.Subperm

/-!
# The request and the budget of an email

`open` counts an attempt and freezes the request before the provider can be
called, and it does both in one transaction that takes the attempt's number. So
however the runs interleave and wherever they stop, a number is used for one
call at most, and every call for a message carries the same request.
-/

namespace EmailBudget

open SendTables SendQueue SendStore SendWorker EmailRegularRelease EmailReleaseStore
open EmailRelease SendSystem List

/-- The calls of the provider for a message. -/
def sendsFor (log : List Event) (m : MessageId) : List ProviderSend :=
  (providerSends log).filter fun send => send.messageId == m

variable {m : MessageId}

theorem mem_sendsFor {log : List Event} {send : ProviderSend} :
    send ∈ sendsFor log m ↔ send ∈ providerSends log ∧ send.messageId = m := by
  simp [sendsFor]

/-- What a call hands over. -/
def request (send : ProviderSend) : FrozenEmail :=
  ⟨send.idempotencyKey, send.payload, send.recipient⟩

/-- The attempt is within the budget of its job and its row is there, and the request is
the one that is frozen for the message. -/
structure Backed (db : Database) (m : MessageId) (n : Nat) (e : FrozenEmail) : Prop where
  budget : 1 ≤ n ∧ ∃ r, db.job m = some r ∧ n ≤ min r.maxAttempts 3
  attempt : (db.attempt m n).isSome
  frozen : frozen db m = some e

variable {db : Database} {e : FrozenEmail}

theorem Backed.extends {db' : Database} {n : Nat} (h : Backed db m n e)
    (extension : Extends db db') : Backed db' m n e := by
  obtain ⟨hn, r, hr, hmax⟩ := h.budget
  obtain ⟨r', hr', hsame⟩ := extension.job m r hr
  exact ⟨⟨hn, r', hr', hsame ▸ hmax⟩, extension.attempt m n h.attempt,
    extension.frozen m e h.frozen⟩

/-- The call that a reservation is for. -/
def attemptOf (claim : EmailClaim) : MessageId × Nat :=
  (claim.job.messageId, claim.job.attemptsMade + 1)

def attemptKey (send : ProviderSend) : MessageId × Nat := (send.messageId, send.attemptNo)

structure Inv (w : World) : Prop where
  reserved : ∀ i claim e, Reserved w i claim e →
    Backed w.db claim.job.messageId (claim.job.attemptsMade + 1) e
  unsent : ∀ i claim e, Reserved w i claim e →
    attemptOf claim ∉ (providerSends w.log).map attemptKey
  alone : ∀ i j claim claim' e e', Reserved w i claim e → Reserved w j claim' e' →
    attemptOf claim = attemptOf claim' → i = j
  sent : ∀ send ∈ providerSends w.log,
    Backed w.db send.messageId send.attemptNo (request send)
  once : ((providerSends w.log).map attemptKey).Nodup

theorem inv_start (db : Database) : Inv (.start db) where
  reserved i claim e h := by
    obtain ⟨r, hr, _⟩ := h
    cases hr
  unsent i claim e h := by
    obtain ⟨r, hr, _⟩ := h
    cases hr
  alone i j claim claim' e e' h := by
    obtain ⟨r, hr, _⟩ := h
    cases hr
  sent send h := by cases h
  once := nodup_nil

variable {w w' : World}

/-- A step that calls nobody and reserves nothing. -/
theorem inv_calm (inv : Inv w) (extension : Extends w.db w'.db)
    (log : providerSends w'.log = providerSends w.log)
    (reserved : ∀ i claim e, Reserved w' i claim e → Reserved w i claim e) : Inv w' where
  reserved i claim e h := (inv.reserved i claim e (reserved i claim e h)).extends extension
  unsent i claim e h := by
    rw [log]
    exact inv.unsent i claim e (reserved i claim e h)
  alone i j claim claim' e e' h h' :=
    inv.alone i j claim claim' e e' (reserved i claim e h) (reserved j claim' e' h')
  sent send h := by
    rw [log] at h
    exact (inv.sent send h).extends extension
  once := by
    rw [log]
    exact inv.once

variable {i : Nat} {r : Release}

/-- A release's step that calls nobody and reserves nothing. -/
theorem inv_calm_release {r' : Release} {events : List Event} (inv : Inv w)
    (running : w.releases i = some r) (extension : Extends w.db db)
    (events_calm : providerSends events = []) (quiet : Release.Quiet r r') :
    Inv (withRelease w db i (some r') events) := by
  refine inv_calm inv extension ?_ ?_
  · simp [withRelease, providerSends_append, events_calm]
  · intro j claim e h
    rcases reserved_withRelease h with ⟨_, hold⟩ | ⟨rfl, r'', hr'', hheld⟩
    · exact hold
    · cases hr''
      exact ⟨r, running, quiet _ hheld⟩

/-- A release that starts or is gone. -/
theorem inv_idle_release {r : Option Release} (inv : Inv w)
    (idle : ∀ r', r = some r' → r'.phase.reservation = none) :
    Inv (withRelease w w.db i r []) := by
  refine inv_calm inv (Extends.refl _) (by simp [withRelease]) ?_
  intro j claim e h
  rcases reserved_withRelease h with ⟨_, hold⟩ | ⟨rfl, r', hr', hheld⟩
  · exact hold
  · rw [idle r' hr'] at hheld
    cases hheld

variable {claim : EmailClaim}

/-- A reservation takes a number that no reservation and no call has had. -/
theorem inv_reserve {recipient : VerifiedRecipient} {q : OpenQueries} {now : Millis} (inv : Inv w)
    (reserved : reserve w.db claim recipient q now = some (db, some e)) :
    Inv (withRelease w db i (some (r.goto (.reserved claim e))) []) := by
  obtain ⟨⟨row, hrow, hlive⟩, hfresh, hopen, hfrozen, _, _, hextends⟩ := reserve_spec reserved
  simp only [live, Bool.and_eq_true, beq_iff_eq, decide_eq_true_eq] at hlive
  obtain ⟨⟨_, hmade⟩, hbudget⟩ := hlive
  obtain ⟨row', hrow', hmax⟩ := hextends.job _ _ hrow
  have hbacked : Backed db claim.job.messageId (claim.job.attemptsMade + 1) e :=
    ⟨⟨by omega, row', hrow', by omega⟩, hopen, hfrozen⟩
  -- A backed call has a row for its attempt, and this attempt had none.
  have hnew : ∀ {m n e'}, Backed w.db m n e' → (m, n) ≠ attemptOf claim := by
    intro m n e' hold heq
    cases heq
    have hrow := hold.attempt
    rw [hfresh] at hrow
    cases hrow
  have hmine : ∀ j claim' e', Reserved (withRelease w db i (some (r.goto (.reserved claim e)))
      []) j claim' e' → (j ≠ i ∧ Reserved w j claim' e') ∨ (j = i ∧ claim' = claim ∧ e' = e) := by
    intro j claim' e' h
    rcases reserved_withRelease h with hold | ⟨hj, r', hr', hheld⟩
    · exact Or.inl hold
    · cases hr'
      cases hheld
      exact Or.inr ⟨hj, rfl, rfl⟩
  have hlog : providerSends (withRelease w db i (some (r.goto (.reserved claim e))) []).log =
      providerSends w.log := by
    simp [withRelease]
  refine ⟨?_, ?_, ?_, ?_, ?_⟩
  · intro j claim' e' h
    rcases hmine j claim' e' h with ⟨_, hold⟩ | ⟨_, rfl, rfl⟩
    · exact (inv.reserved j claim' e' hold).extends hextends
    · exact hbacked
  · intro j claim' e' h
    rw [hlog]
    rcases hmine j claim' e' h with ⟨_, hold⟩ | ⟨_, rfl, rfl⟩
    · exact inv.unsent j claim' e' hold
    · intro hsent
      obtain ⟨send, hsend, heq⟩ := mem_map.mp hsent
      exact hnew (inv.sent send hsend) heq
  · intro j k claim₁ claim₂ e₁ e₂ h₁ h₂ heq
    rcases hmine j claim₁ e₁ h₁ with ⟨_, hold₁⟩ | ⟨hj, rfl, _⟩ <;>
      rcases hmine k claim₂ e₂ h₂ with ⟨_, hold₂⟩ | ⟨hk, rfl, _⟩
    · exact inv.alone j k claim₁ claim₂ e₁ e₂ hold₁ hold₂ heq
    · exact absurd heq (hnew (inv.reserved j claim₁ e₁ hold₁))
    · exact absurd heq.symm (hnew (inv.reserved k claim₂ e₂ hold₂))
    · exact hj.trans hk.symm
  · intro send hsend
    rw [hlog] at hsend
    exact (inv.sent send hsend).extends hextends
  · rw [hlog]
    exact inv.once

/-- Handing a reservation over uses its number up. -/
theorem inv_send (inv : Inv w) (running : w.releases i = some r)
    (phase : r.phase = .handingOver claim e) :
    Inv (withRelease w w.db i (some (r.goto (.sending claim)))
      [.providerSend ⟨claim.job.messageId, claim.job.attemptsMade + 1, e.recipient,
        e.payload, e.key⟩]) := by
  have hmine : Reserved w i claim e := ⟨r, running, by rw [phase]; rfl⟩
  have hothers : ∀ j claim' e', Reserved (withRelease w w.db i (some (r.goto (.sending claim)))
      [.providerSend ⟨claim.job.messageId, claim.job.attemptsMade + 1, e.recipient,
        e.payload, e.key⟩]) j claim' e' → j ≠ i ∧ Reserved w j claim' e' := by
    intro j claim' e' h
    rcases reserved_withRelease h with hold | ⟨_, r', hr', hheld⟩
    · exact hold
    · cases hr'
      cases hheld
  have hlog : providerSends (w.log ++ [.providerSend ⟨claim.job.messageId,
      claim.job.attemptsMade + 1, e.recipient, e.payload, e.key⟩]) =
      providerSends w.log ++ [⟨claim.job.messageId, claim.job.attemptsMade + 1, e.recipient,
        e.payload, e.key⟩] := by
    rw [providerSends_append, providerSends_one]
  refine ⟨?_, ?_, ?_, ?_, ?_⟩
  · intro j claim' e' h
    exact inv.reserved j claim' e' (hothers j claim' e' h).2
  · intro j claim' e' h
    obtain ⟨hj, hold⟩ := hothers j claim' e' h
    simp only [withRelease, hlog, map_append, mem_append, not_or]
    refine ⟨inv.unsent j claim' e' hold, ?_⟩
    intro hlast
    exact hj (inv.alone j i claim' claim e' e hold hmine (mem_singleton.mp hlast))
  · intro j k claim₁ claim₂ e₁ e₂ h₁ h₂ heq
    exact inv.alone j k claim₁ claim₂ e₁ e₂ (hothers j claim₁ e₁ h₁).2
      (hothers k claim₂ e₂ h₂).2 heq
  · intro send hsend
    simp only [withRelease, hlog, mem_append, mem_singleton] at hsend
    rcases hsend with hold | rfl
    · exact inv.sent send hold
    · exact inv.reserved i claim e hmine
  · simp only [withRelease, hlog, map_append]
    refine nodup_append.mpr ⟨inv.once, by simp, ?_⟩
    intro key hkey key' hlast
    have hsame : key' = attemptOf claim := mem_singleton.mp hlast
    rintro rfl
    rw [hsame] at hkey
    exact inv.unsent i claim e hmine hkey

/-- The invariant is kept by every step that is not a drain's. -/
theorem inv_step {a : Action} (inv : Inv w) (ofReleases : a.ofReleases = true)
    (h : step w a = some w') : Inv w' := by
  cases step_effect h with
  | enqueue enqueued => exact inv_calm inv (enqueue_extends enqueued) rfl (fun _ _ _ h => h)
  | cancel executed =>
    refine inv_calm inv (execute_extends (fun _ => rfl) (fun _ => rfl) executed) ?_
      (fun _ _ _ h => h)
    rw [providerSends_append]
    exact append_nil _
  | @startRelease i config =>
    have hstart := inv_idle_release (i := i) (r := some (runEmailRelease config)) inv
      (by rintro _ ⟨⟩; rfl)
    simpa [withRelease] using hstart
  | @crashRelease i =>
    have hgone := inv_idle_release (i := i) (r := none) inv (by rintro _ ⟨⟩)
    simpa [withRelease] using hgone
  | release running effect =>
    cases effect with
    | quiet quiet => exact inv_calm_release inv running (Extends.refl _) rfl quiet
    | finish _ _ _ extension quiet => exact inv_calm_release inv running extension rfl quiet
    | defer _ executed quiet =>
      exact inv_calm_release inv running
        (execute_extends (fun _ => rfl) (fun _ => rfl) executed) rfl quiet
    | claim taken quiet =>
      exact inv_calm_release inv running (takeClaim_spec taken).2.2 rfl quiet
    | reserve reserved => exact inv_reserve inv reserved
    | send phase => exact inv_send inv running phase
    | settle committed quiet =>
      exact inv_calm_release inv running (settle_spec committed).2.2.2 rfl quiet
  | startDrain => cases ofReleases
  | drain _ _ => cases ofReleases
  | crashDrain => cases ofReleases

/-! ## Runs -/

theorem inv_reached {as : List Action} (ofReleases : as.all Action.ofReleases = true)
    (h : run (.start db) as = some w) :
    Inv w := by
  suffices hall : ∀ (as : List Action) (v : World), Inv v →
      as.all Action.ofReleases = true → run v as = some w → Inv w from
    hall as _ (inv_start db) ofReleases h
  intro as
  induction as with
  | nil =>
    intro v hv _ hrun
    cases hrun
    exact hv
  | cons a as ih =>
    intro v hv hall hrun
    rw [all_cons, Bool.and_eq_true] at hall
    obtain ⟨v', hstep, hrest⟩ := Runs.run_cons.mp hrun
    exact ih v' (inv_step hv hall.1 hstep) hall.2 hrest

/-- The numbers of the calls for a message are distinct. -/
theorem attempts_distinct (inv : Inv w) (m : MessageId) :
    ((sendsFor w.log m).map ProviderSend.attemptNo).Nodup := by
  have hsub : ((sendsFor w.log m).map attemptKey).Nodup :=
    inv.once.sublist ((filter_sublist).map attemptKey)
  refine List.Nodup.of_map (fun n => (m, n)) ?_
  rw [List.map_map]
  convert hsub using 1
  apply map_congr_left
  intro send hsend
  simp [attemptKey, (mem_sendsFor.mp hsend).2]

theorem length_le_of_distinct {ns : List Nat} {k : Nat} (distinct : ns.Nodup)
    (bounds : ∀ n ∈ ns, 1 ≤ n ∧ n ≤ k) : ns.length ≤ k := by
  have hsub : ns ⊆ List.range' 1 k := by
    intro n hn
    rw [mem_range'_1]
    have := bounds n hn
    omega
  have hlength := (subperm_of_subset distinct hsub).length_le
  simpa using hlength

/-- However the releases interleave and wherever they stop: the provider is called for a
message at most as often as its budget and the cap of the store allow, with one request,
and with another attempt number each time. -/
theorem email_sends_bounded {db : Database} {as : List Action} {w : World}
    (ofReleases : as.all Action.ofReleases = true) (h : run (.start db) as = some w)
    (m : MessageId) :
    (∀ r, w.db.job m = some r →
      (sendsFor w.log m).length ≤ min r.maxAttempts EMAIL_ATTEMPTS) ∧
    (∀ send ∈ sendsFor w.log m, ∀ send' ∈ sendsFor w.log m,
      send.idempotencyKey = send'.idempotencyKey ∧ send.recipient = send'.recipient ∧
        send.payload = send'.payload) ∧
    ((sendsFor w.log m).map ProviderSend.attemptNo).Nodup := by
  have inv := inv_reached ofReleases h
  have hbacked : ∀ send ∈ sendsFor w.log m, Backed w.db m send.attemptNo (request send) := by
    intro send hsend
    obtain ⟨hmem, rfl⟩ := mem_sendsFor.mp hsend
    exact inv.sent send hmem
  refine ⟨?_, ?_, attempts_distinct inv m⟩
  · intro r hr
    rw [← length_map ProviderSend.attemptNo]
    refine length_le_of_distinct (attempts_distinct inv m) ?_
    intro n hn
    obtain ⟨send, hsend, rfl⟩ := mem_map.mp hn
    obtain ⟨hone, r', hr', hbudget⟩ := (hbacked send hsend).budget
    have hsame : r' = r := Option.some.inj (hr'.symm.trans hr)
    subst hsame
    exact ⟨hone, hbudget⟩
  · intro send hsend send' hsend'
    have hsame : request send = request send' :=
      Option.some.inj ((hbacked send hsend).frozen.symm.trans (hbacked send' hsend').frozen)
    simp only [request, FrozenEmail.mk.injEq] at hsame
    exact ⟨hsame.1, hsame.2.2, hsame.2.1⟩

/-- A controlled release of the sample organization, open for an hour. -/
def sampleConfig : EmailReleaseConfig :=
  ⟨.controlled, js "activation", js "org", js "owner", js "hash", 0, 3600000,
    js "alerts@hawkview.example", js "https://console.hawkviewapp.com"⟩

/-- A release that claims the sample job at a time and gets as far as the provider call. -/
def sendingRelease (i : Nat) (worker : WorkerId) (now : Millis) : List Action :=
  [.startRelease i sampleConfig,
    .release i (.claimControlled now
      ⟨timestamptz now, false, some (sampleJob 5).messageId, true⟩ worker (js "hv-email-v1-1")),
    .release i (.resolve (.send (js "ops@msp.example") (js "body"))
      (some ⟨js "ops@msp.example", now⟩)),
    .release i (.isSuppressed false),
    .release i (.openClaim ⟨timestamptz now, true, true, false, js "payload"⟩ now),
    .release i (.resolveAgain (.send (js "ops@msp.example") (js "body"))),
    .release i (.configurationStillMatches true), .release i (.maySend (timestamptz now) true),
    .release i (.configurationStillMatches true), .release i .sendResendEmail]

/-- A release whose provider is busy, and a second one that crashes in its call. -/
def twoReleases : List Action :=
  [.enqueue (sampleJob 5)] ++ sendingRelease 0 (js "email/1") 1000 ++
  [.release 0 (.answer (.retryable (js "PROVIDER_BUSY") 60000)),
    .release 0 (.settle 2000 (timestamptz 2000))] ++
  sendingRelease 1 (js "email/2") 100000 ++ [.crashRelease 1]

theorem two_releases_bounded :
    (sendsFor (reached twoReleases).log (sampleJob 5).messageId).length = 2 ∧
      ((sendsFor (reached twoReleases).log (sampleJob 5).messageId).map
        ProviderSend.attemptNo).Nodup :=
  have hrun : run (.start .empty) twoReleases = some (reached twoReleases) :=
    run_reached (by decide)
  ⟨by decide, (email_sends_bounded (by decide) hrun (sampleJob 5).messageId).2.2⟩

end EmailBudget
