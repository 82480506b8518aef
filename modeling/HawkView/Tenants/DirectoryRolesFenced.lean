import HawkView.Tenants.DirectoryRoles

/-!
# Directory role receipts are fenced

A call reads, gives the scope a new incarnation, removes the tenant, claims an
attempt, ends one or completes one; the last two only for the attempt that runs.
Ids are drawn once, so an attempt that was replaced is never the running one
again, and the two tables are written together by completions alone.
-/

namespace DirectoryRoles

open ManagedConnectorAuthority List Option

/-! ## What a call can do -/

/-- A result that comes with no write. -/
def Result.quiet : Result → Bool
  | .rejected _ => true
  | .legacy => true
  | .replayed _ => true
  | _ => false

/-- A result of a new incarnation of the scope. -/
def Result.rescopes : Result → Bool
  | .applied _ _ => true
  | .activated _ => true
  | _ => false

/-- The attempt runs, under the incarnations that are current. -/
structure Owned (db : RoleDb) (a : RoleAttempt Uuid) (s : State) (t : Attempt) : Prop where
  state : db.state = some s
  attempt : s.attempt = some t
  owns : owns t a = true
  configuration : ∃ authority, db.authority = some authority ∧
    authority.configurationRevision = a.configurationRevision
  connection : ∃ connection, db.connection = some connection ∧
    connection.incarnation = some a.connectionIncarnation
  scope : s.scope = some ⟨a.scopeVersion, a.scopeIncarnation⟩
  tenant : db.tenant ≠ none

namespace Claim

def attemptId (c : Claim) : Uuid := c.attempt.attemptId

/-- The columns of the attempt that was claimed. -/
def running (c : Claim) : Attempt where
  id := c.attempt.attemptId
  connection := c.attempt.connectionIncarnation
  configuration := c.attempt.configurationRevision
  scope := c.attempt.scopeIncarnation
  startedAt := c.startedAt
  expiresAt := c.expiresAt
  outcome := .running
  terminalAt := none

end Claim

/-- No attempt of the configuration is running and live. -/
def Vacant (s : State) (configuration : Uuid) (sampledAt : Micros) : Prop :=
  ∀ t, s.attempt = some t → t.outcome = .running → t.configuration = configuration →
    t.live sampledAt = false

/-- The effects of a call that an attempt made, or none did. -/
inductive Effect (x : Draw) (db : RoleDb) (actor : Option (RoleAttempt Uuid)) :
    RoleDb → Result → Prop
  | read (result : Result) (quiet : result.quiet = true) : Effect x db actor db result
  | rescoped (s : State) (connection : Option Connection) (result : Result)
      (kind : result.rescopes = true) (nobody : actor = none) (tenant : db.tenant ≠ none)
      (attempt : s.attempt = none) (complete : s.complete = db.state.bind State.complete) :
      Effect x db actor { db with state := some s, connection } result
  | removed (nobody : actor = none) : Effect x db actor
      { db with tenant := none, connection := none, state := none, snapshot := none, evidence := [] }
      .removed
  | claimed (claim : Claim) (s s' : State) (nobody : actor = none)
      (tenant : db.tenant ≠ none) (state : db.state = some s) (id : claim.attemptId = x.attemptId)
      (vacant : Vacant s claim.attempt.configurationRevision x.sampledAt)
      (configuration : ∃ authority, db.authority = some authority ∧
        authority.configurationRevision = claim.attempt.configurationRevision)
      (attempt : s'.attempt = some claim.running) (complete : s'.complete = s.complete) :
      Effect x db actor { db with state := some s', claims := claim :: db.claims }
        (.claimed claim.attempt claim.startedAt claim.expiresAt)
  | ended (a : RoleAttempt Uuid) (s s' : State) (t : Attempt) (outcome : AttemptOutcome)
      (caller : actor = some a) (own : Owned db a s t)
      (attempt : s'.attempt =
        some { t with outcome, terminalAt := some (truncMillis x.sampledAt) })
      (complete : s'.complete = s.complete) : Effect x db actor
      { db with state := some s' } (.terminal outcome a.attemptId)
  | completed (done : Completion) (s s' : State) (t : Attempt) (evidence : List EvidenceEvent)
      (caller : actor = some done.attempt) (own : Owned db done.attempt s t)
      (live : t.live x.sampledAt = true) (checkedAt : done.checkedAt = truncMillis x.sampledAt)
      (accepted : prepared done.collection = true)
      (attempt : s'.attempt =
        some { t with outcome := .complete, terminalAt := some done.checkedAt })
      (complete : s'.complete = some done.complete) : Effect x db actor
      { db with
        state := some s'
        snapshot := some done.snapshot
        evidence
        completions := done :: db.completions } (.committed done.receipt)

/-- Who makes a call: the attempt that it names, if any. -/
def Call.actor : Call → Option (RoleAttempt Uuid)
  | .finishRoleAttempt a _ => attempt a
  | .completeRoleAttempt a _ => attempt a
  | _ => none

section Effects

variable {env : Env} {x : Draw} {db db' : RoleDb} {result : Result}

variable {s : State}

theorem write_some (h : db.write s = some db') : db' = { db with state := some s } := by
  unfold RoleDb.write at h
  split at h
  · exact (Option.some.inj h).symm
  · cases h

variable {who : DirectoryControlIdentity Uuid}

theorem tenantOf_some {tenant : Tenant} (h : db.tenantOf who = some tenant) : db.tenant ≠ none := by
  unfold RoleDb.tenantOf at h
  intro hnone
  rw [hnone] at h
  cases h

variable {locked : Locked}

theorem lockScope_some (h : lockScope db who = some locked) :
    db.tenant ≠ none ∧ locked.state = db.state ∧
      ∃ connection, db.connection = some connection ∧
        connection.incarnation = locked.incarnation := by
  obtain ⟨tenant, htenant, h⟩ := bind_eq_some_iff.mp h
  obtain ⟨connection, hconnection, h⟩ := bind_eq_some_iff.mp h
  split at h
  · cases h
    exact ⟨tenantOf_some htenant, rfl, connection, hconnection, rfl⟩
  · cases h

theorem lockControl_some {current : Control} (h : lockControl db who = some current) :
    db.tenant ≠ none := by
  obtain ⟨tenant, htenant, _⟩ := bind_eq_some_iff.mp h
  exact tenantOf_some htenant

/-- Under the authority the work is done, and otherwise nothing. -/
theorem underAuthority_some {who : RoleIdentity Uuid} {work : Option (RoleDb × Result)}
    (h : underAuthority db who work = some (db', result)) :
    db' = db ∧ result = .rejected .superseded ∨ work = some (db', result) ∧
      ∃ authority, db.authority = some authority ∧
        authority.configurationRevision = who.configurationRevision := by
  unfold underAuthority at h
  split at h
  · rename_i hauthority
    obtain ⟨authority, hsome, heq⟩ := (Option.any_eq_true _ _).mp hauthority
    exact .inr ⟨h, authority, hsome, of_decide_eq_true heq⟩
  · cases h
    exact .inl ⟨rfl, rfl⟩

theorem writeRevokedScope_some (h : writeRevokedScope x db = some db') :
    ∃ s : State, db' = { db with state := some s } ∧ s.attempt = none ∧
      s.complete = db.state.bind State.complete := by
  refine ⟨_, write_some h, rfl, ?_⟩
  cases db.state <;> rfl

/-- An activation gives the scope a new incarnation. -/
theorem activateRoleScope_effect {who : RoleIdentity Uuid} {conn scope : Option Uuid}
    {rotateConnection : Bool}
    (h : activateRoleScope who conn scope rotateConnection x db = some (db', result)) :
    Effect x db none db' result := by
  obtain ⟨rfl, rfl⟩ | ⟨h, _⟩ := underAuthority_some h
  · exact .read _ rfl
  split at h
  · cases h
    exact .read _ rfl
  rename_i locked hlocked
  obtain ⟨htenant, hstate, _⟩ := lockScope_some hlocked
  split at h
  · cases h
    exact .read _ rfl
  obtain ⟨written, hwrite, hnext⟩ := map_eq_some_iff.mp h
  cases hnext
  rw [write_some hwrite]
  refine .rescoped _ _ _ rfl rfl htenant rfl ?_
  rw [hstate]
  cases db.state <;> rfl

variable {expected : DirectoryControlExpectation Uuid}

theorem setDirectoryRoleControl_effect {enabled : Bool}
    (h : setDirectoryRoleControl who expected enabled x db = some (db', result)) :
    Effect x db none db' result := by
  unfold setDirectoryRoleControl at h
  split at h
  · cases h
    exact .read _ rfl
  rename_i current hcurrent
  have htenant := lockControl_some hcurrent
  split at h
  · cases h
    exact .read _ rfl
  split at h
  · split at h
    · cases h
      exact .read _ rfl
    split at h
    · obtain ⟨⟨written, inner⟩, hactivate, hnext⟩ := map_eq_some_iff.mp h
      have heffect := activateRoleScope_effect hactivate
      cases inner with
      | activated context =>
        cases hnext
        cases heffect with
        | read result quiet => cases quiet
        | rescoped s connection result kind nobody tenant attempt complete =>
          exact .rescoped s connection _ rfl nobody tenant attempt complete
      | _ =>
        cases hnext
        exact heffect
    · cases h
      exact .read _ rfl
  · obtain ⟨written, hwrite, hnext⟩ := map_eq_some_iff.mp h
    cases hnext
    obtain ⟨s, rfl, hattempt, hcomplete⟩ := writeRevokedScope_some hwrite
    exact .rescoped s db.connection _ rfl rfl htenant hattempt hcomplete

theorem removeManagedDirectoryTenant_effect
    (h : removeManagedDirectoryTenant who expected x db = some (db', result)) :
    Effect x db none db' result := by
  unfold removeManagedDirectoryTenant at h
  split at h
  · cases h
    exact .read _ rfl
  split at h
  · cases h
    exact .read _ rfl
  obtain ⟨written, hwrite, hnext⟩ := map_eq_some_iff.mp h
  cases hnext
  obtain ⟨s, rfl, _, _⟩ := writeRevokedScope_some hwrite
  exact .removed rfl

theorem claimRoleAttempt_effect {ctx : RoleContext Uuid}
    (h : claimRoleAttempt ctx x db = some (db', result)) : Effect x db none db' result := by
  obtain ⟨rfl, rfl⟩ | ⟨h, hauthority⟩ := underAuthority_some h
  · exact .read _ rfl
  split at h
  · cases h
    exact .read _ rfl
  rename_i locked hlocked
  obtain ⟨htenant, hstate, _⟩ := lockScope_some hlocked
  split at h
  · cases h
    exact .read _ rfl
  rename_i s hs
  split at h
  · cases h
    exact .read _ rfl
  split at h
  · cases h
    exact .read _ rfl
  rename_i hbusy
  obtain ⟨written, hwrite, hnext⟩ := map_eq_some_iff.mp h
  cases hnext
  rw [write_some hwrite]
  refine .claimed ⟨⟨ctx, x.attemptId⟩, _, _⟩ s _ rfl htenant (hstate ▸ hs) rfl ?_ hauthority rfl rfl
  intro t ht hrunning hconfiguration
  rw [ht, any_some, hrunning, hconfiguration] at hbusy
  simpa using hbusy

theorem captureRoleAttempt_effect (h : captureRoleAttempt who x db = some (db', result)) :
    Effect x db none db' result := by
  unfold captureRoleAttempt at h
  split at h
  · cases h
    exact .read _ rfl
  split at h
  · cases h
    split <;> exact .read _ rfl
  split at h
  · split at h
    · exact claimRoleAttempt_effect h
    · cases h
      exact .read _ rfl
  · cases h
    exact .read _ rfl

variable {a : RoleAttempt Uuid} {t : Attempt}

/-- A locked scope that agrees is that of the attempt. -/
theorem owned_of_locked
    (hauthority : ∃ authority, db.authority = some authority ∧
      authority.configurationRevision = a.configurationRevision)
    (hlocked : lockScope db a.toDirectoryControlIdentity = some locked)
    (hs : locked.state = some s) (hagrees : ¬(!locked.agrees s a.toRoleContext) = true)
    (ht : s.attempt.filter (fun t => owns t a) = some t) : Owned db a s t := by
  obtain ⟨htenant, hstate, connection, hconnection, hincarnation⟩ := lockScope_some hlocked
  obtain ⟨hattempt, howns⟩ := filter_eq_some_iff.mp ht
  simp only [Locked.agrees, Bool.not_eq_true', Bool.not_eq_false, Bool.and_eq_true,
    beq_iff_eq] at hagrees
  exact ⟨hstate ▸ hs, hattempt, howns, hauthority,
    ⟨connection, hconnection, hincarnation.trans hagrees.1⟩, hagrees.2, htenant⟩

theorem terminal_effect {outcome : AttemptOutcome} (own : Owned db a s t)
    (h : terminal s t a (truncMillis x.sampledAt) outcome db = some (db', result)) :
    Effect x db (some a) db' result := by
  unfold terminal at h
  split at h
  · obtain ⟨written, hwrite, hnext⟩ := map_eq_some_iff.mp h
    cases hnext
    rw [write_some hwrite]
    exact .ended a s _ t outcome rfl own rfl rfl
  · cases h

theorem finishRoleAttempt_effect {finish : Finish}
    (h : finishRoleAttempt a finish x db = some (db', result)) :
    Effect x db (some a) db' result := by
  obtain ⟨rfl, rfl⟩ | ⟨h, hauthority⟩ := underAuthority_some h
  · exact .read _ rfl
  split at h
  · cases h
    exact .read _ rfl
  rename_i locked hlocked
  split at h
  · cases h
    exact .read _ rfl
  rename_i s hs
  split at h
  · cases h
    exact .read _ rfl
  rename_i hagrees
  split at h
  · cases h
    exact .read _ rfl
  rename_i t ht
  split at h
  · cases h
    exact .read _ rfl
  · exact terminal_effect (owned_of_locked hauthority hlocked hs hagrees ht) h

theorem completeRoleAttempt_effect {collection : PreparedRoleCollection}
    (accepted : prepared collection = true)
    (h : completeRoleAttempt env a collection x db = some (db', result)) :
    Effect x db (some a) db' result := by
  obtain ⟨rfl, rfl⟩ | ⟨h, hauthority⟩ := underAuthority_some h
  · exact .read _ rfl
  split at h
  · cases h
    exact .read _ rfl
  rename_i locked hlocked
  split at h
  · cases h
    exact .read _ rfl
  rename_i s hs
  split at h
  · cases h
    exact .read _ rfl
  rename_i hagrees
  split at h
  · cases h
    refine .read _ ?_
    unfold replay
    split
    · rfl
    · split <;> rfl
  split at h
  · cases h
    exact .read _ rfl
  rename_i t ht
  have hown := owned_of_locked hauthority hlocked hs hagrees ht
  simp only at h
  split at h
  · rename_i hlive
    obtain ⟨evidence, _, h⟩ := bind_eq_some_iff.mp h
    obtain ⟨written, hwrite, hnext⟩ := bind_eq_some_iff.mp h
    cases hnext
    rw [write_some hwrite]
    exact .completed ⟨a, collection, _⟩ s _ t _ rfl hown hlive rfl accepted rfl rfl
  · exact terminal_effect hown h

/-- Every call has one of the effects. -/
theorem transact_effect {call : Call} (h : transact env call x db = some (db', result)) :
    Effect x db call.actor db' result := by
  cases call with
  | setDirectoryRoleControl who expectation enabled =>
    obtain ⟨_, _, h⟩ := bind_eq_some_iff.mp h
    obtain ⟨_, _, h⟩ := bind_eq_some_iff.mp h
    exact setDirectoryRoleControl_effect h
  | activateRoleScope who conn scope rotateConnection =>
    obtain ⟨_, _, h⟩ := bind_eq_some_iff.mp h
    obtain ⟨_, _, h⟩ := bind_eq_some_iff.mp h
    obtain ⟨_, _, h⟩ := bind_eq_some_iff.mp h
    exact activateRoleScope_effect h
  | captureRoleAttempt who =>
    obtain ⟨_, _, h⟩ := bind_eq_some_iff.mp h
    exact captureRoleAttempt_effect h
  | claimRoleAttempt ctx =>
    obtain ⟨_, _, h⟩ := bind_eq_some_iff.mp h
    exact claimRoleAttempt_effect h
  | finishRoleAttempt a finish =>
    obtain ⟨a', ha, h⟩ := bind_eq_some_iff.mp h
    rw [Call.actor, ha]
    exact finishRoleAttempt_effect h
  | completeRoleAttempt a collection =>
    simp only [transact] at h
    split at h
    · rename_i haccepted
      obtain ⟨a', ha, h⟩ := bind_eq_some_iff.mp h
      rw [Call.actor, ha]
      exact completeRoleAttempt_effect haccepted h
    · cases h
  | removeManagedDirectoryTenant who expectation =>
    obtain ⟨_, _, h⟩ := bind_eq_some_iff.mp h
    obtain ⟨_, _, h⟩ := bind_eq_some_iff.mp h
    exact removeManagedDirectoryTenant_effect h

end Effects

/-! ## What the rows keep -/

/-- The columns are those of the claim. -/
structure Claim.Issued (c : Claim) (t : Attempt) : Prop where
  id : t.id = c.attempt.attemptId
  connection : t.connection = c.attempt.connectionIncarnation
  configuration : t.configuration = c.attempt.configurationRevision
  scope : t.scope = c.attempt.scopeIncarnation
  startedAt : t.startedAt = c.startedAt
  expiresAt : t.expiresAt = c.expiresAt

/-- The snapshot is that of the last completion, and of no attempt before the first. -/
def Published (last : Option Completion) (snapshot : Option Snapshot) : Prop :=
  match last with
  | some done => snapshot = some done.snapshot
  | none => ∀ s, snapshot = some s → s.publicationId = none

structure Kept (db : RoleDb) : Prop where
  gone : db.tenant = none → db.state = none
  issued : ∀ s, db.state = some s → ∀ t, s.attempt = some t → ∃ c ∈ db.claims, c.Issued t
  drawn : ∀ c ∈ db.claims, c.attemptId ∈ db.drawn
  distinct : (db.claims.map Claim.attemptId).Nodup
  complete : db.tenant ≠ none →
    db.state.bind State.complete = db.completions.head?.map Completion.complete
  published : db.tenant ≠ none → Published db.completions.head? db.snapshot
  accepted : ∀ done ∈ db.completions, prepared done.collection = true

section Runs

variable {env : Env} {x : Draw} {db db' : RoleDb} {result : Result}
  {actor : Option (RoleAttempt Uuid)}

theorem forall_attempt_gone (P : Attempt → Prop) :
    ∀ u : State, none = some u → ∀ t, u.attempt = some t → P t := by
  intro u hu
  exact absurd hu (some_ne_none u).symm

variable {s : State}

theorem forall_attempt_none (h : s.attempt = none) (P : Attempt → Prop) :
    ∀ u, some s = some u → ∀ t, u.attempt = some t → P t := by
  intro u hu t ht
  obtain rfl := Option.some.inj hu
  exact absurd (h.symm.trans ht) (some_ne_none t).symm

variable {t : Attempt}

theorem forall_attempt_some (h : s.attempt = some t) {P : Attempt → Prop} (ht : P t) :
    ∀ u, some s = some u → ∀ t, u.attempt = some t → P t := by
  intro u hu t' ht'
  obtain rfl := Option.some.inj hu
  obtain rfl := Option.some.inj (h.symm.trans ht')
  exact ht

theorem Claim.issued_running (c : Claim) : c.Issued c.running := ⟨rfl, rfl, rfl, rfl, rfl, rfl⟩

/-- An attempt that ends keeps its claim. -/
theorem Claim.Issued.ended {c : Claim} (h : c.Issued t) (outcome : AttemptOutcome)
    (terminalAt : Option Micros) : c.Issued { t with outcome, terminalAt } :=
  ⟨h.id, h.connection, h.configuration, h.scope, h.startedAt, h.expiresAt⟩

theorem Kept.advance (h : Kept db) (x : Draw) : Kept (db.advance x) where
  gone := h.gone
  issued := h.issued
  drawn c hc := mem_append_right _ (h.drawn c hc)
  distinct := h.distinct
  complete := h.complete
  published := h.published
  accepted := h.accepted

theorem Kept.effect (h : Kept db) (drawn : x.attemptId ∈ db.drawn)
    (fresh : ∀ c ∈ db.claims, c.attemptId ≠ x.attemptId) (heffect : Effect x db actor db' result) :
    Kept db' := by
  cases heffect with
  | read result quiet => exact h
  | rescoped s connection result kind nobody tenant attempt complete =>
    refine ⟨fun hnone => absurd hnone tenant, ?_, h.drawn, h.distinct, ?_, h.published, h.accepted⟩
    · exact forall_attempt_none attempt _
    · intro htenant
      exact complete.trans (h.complete htenant)
  | removed =>
    exact ⟨fun _ => rfl, forall_attempt_gone _, h.drawn, h.distinct, fun hne => absurd rfl hne,
      fun hne => absurd rfl hne, h.accepted⟩
  | claimed claim s s' nobody tenant state id vacant configuration attempt complete =>
    refine ⟨fun hnone => absurd hnone tenant, ?_, ?_, ?_, ?_, h.published, h.accepted⟩
    · exact forall_attempt_some attempt ⟨claim, mem_cons_self, claim.issued_running⟩
    · intro c hc
      rcases mem_cons.mp hc with rfl | hc
      · rw [id]
        exact drawn
      · exact h.drawn c hc
    · refine nodup_cons.mpr ⟨?_, h.distinct⟩
      intro hmem
      obtain ⟨c, hc, heq⟩ := mem_map.mp hmem
      exact fresh c hc (heq.trans id)
    · intro htenant
      have hbefore := h.complete htenant
      rw [state] at hbefore
      exact complete.trans hbefore
  | ended a s s' t outcome caller own attempt complete =>
    refine ⟨fun hnone => absurd hnone own.tenant, ?_, h.drawn, h.distinct, ?_, h.published,
      h.accepted⟩
    · obtain ⟨c, hc, hissued⟩ := h.issued s own.state t own.attempt
      exact forall_attempt_some attempt ⟨c, hc, hissued.ended _ _⟩
    · intro htenant
      have hbefore := h.complete htenant
      rw [own.state] at hbefore
      exact complete.trans hbefore
  | completed done s s' t evidence caller own live checkedAt accepted attempt complete =>
    refine ⟨fun hnone => absurd hnone own.tenant, ?_, h.drawn, h.distinct, fun _ => complete,
      fun _ => rfl, ?_⟩
    · obtain ⟨c, hc, hissued⟩ := h.issued s own.state t own.attempt
      exact forall_attempt_some attempt ⟨c, hc, hissued.ended _ _⟩
    · exact forall_mem_cons.mpr ⟨accepted, h.accepted⟩

variable {call : Call}

/-- A call that is performed has an effect after its draw. -/
theorem perform_effect (h : perform env db call x = some (db', result)) :
    db.admits x = true ∧ Effect x (db.advance x) call.actor db' result := by
  unfold perform at h
  split at h
  · exact ⟨by assumption, transact_effect h⟩
  · cases h

theorem admits_fresh (h : db.admits x = true) : x.attemptId ∉ db.drawn := by
  simp only [RoleDb.admits, Bool.and_eq_true, List.all_eq_true] at h
  have hid := h.1.2 x.attemptId (by simp [Draw.ids])
  simpa using hid

theorem Kept.performed (h : Kept db) (hperform : perform env db call x = some (db', result)) :
    Kept db' := by
  obtain ⟨hadmits, heffect⟩ := perform_effect hperform
  have hfresh := admits_fresh hadmits
  refine (h.advance x).effect ?_ ?_ heffect
  · exact mem_append_left _ (by simp [Draw.ids])
  · intro c hc heq
    exact hfresh (heq ▸ h.drawn c hc)

variable {action : Action}

theorem step_kept (h : Kept db) (hstep : step env db action = some db') :
    Kept db' := by
  cases action with
  | call call x =>
    obtain ⟨⟨written, result⟩, hperform, rfl⟩ := map_eq_some_iff.mp hstep
    exact h.performed hperform
  | authority authority =>
    cases hstep
    exact ⟨h.gone, h.issued, h.drawn, h.distinct, h.complete, h.published, h.accepted⟩
  | tenant status =>
    cases hstep
    have hsame : ∀ f : Tenant → Tenant, db.tenant.map f = none ↔ db.tenant = none :=
      fun f => map_eq_none_iff
    refine ⟨fun hnone => h.gone ((hsame _).mp hnone), h.issued, h.drawn, h.distinct, ?_, ?_,
      h.accepted⟩
    · exact fun hne => h.complete fun hnone => hne ((hsame _).mpr hnone)
    · exact fun hne => h.published fun hnone => hne ((hsame _).mpr hnone)
  | connection connection =>
    cases hstep
    exact ⟨h.gone, h.issued, h.drawn, h.distinct, h.complete, h.published, h.accepted⟩

/-! ## Attempts that were replaced -/

/-- The attempt is not the one in the row, and its id is not drawn again. -/
structure Past (id : Uuid) (db : RoleDb) : Prop where
  drawn : id ∈ db.drawn
  attempt : ∀ s, db.state = some s → ∀ t, s.attempt = some t → t.id ≠ id

variable {id : Uuid}

theorem Past.effect (h : Past id db) (fresh : x.attemptId ≠ id)
    (heffect : Effect x db actor db' result) : Past id db' := by
  refine ⟨?_, ?_⟩
  · cases heffect <;> exact h.drawn
  cases heffect with
  | read result quiet => exact h.attempt
  | rescoped s connection result kind nobody tenant attempt complete =>
    exact forall_attempt_none attempt _
  | removed => exact forall_attempt_gone _
  | claimed claim s s' nobody tenant state id vacant configuration attempt complete =>
    exact forall_attempt_some attempt fun heq => fresh (id.symm.trans heq)
  | ended a s s' t outcome caller own attempt complete =>
    have hid : t.id ≠ id := h.attempt s own.state t own.attempt
    exact forall_attempt_some attempt hid
  | completed done s s' t evidence caller own live checkedAt accepted attempt complete =>
    have hid : t.id ≠ id := h.attempt s own.state t own.attempt
    exact forall_attempt_some attempt hid

theorem step_past (h : Past id db) (hstep : step env db action = some db') : Past id db' := by
  cases action with
  | call call x =>
    obtain ⟨⟨written, result⟩, hperform, rfl⟩ := map_eq_some_iff.mp hstep
    obtain ⟨hadmits, heffect⟩ := perform_effect hperform
    have hfresh := admits_fresh hadmits
    have hadvance : Past id (db.advance x) := ⟨mem_append_right _ h.drawn, h.attempt⟩
    exact hadvance.effect (fun heq => hfresh (heq ▸ h.drawn)) heffect
  | _ =>
    cases hstep
    exact ⟨h.drawn, h.attempt⟩

/-- A result that takes the row from an attempt. -/
def Result.fences : Result → Bool
  | .applied _ _ => true
  | .activated _ => true
  | .claimed _ _ _ => true
  | .removed => true
  | _ => false

/-- After a fence no attempt from before it is in the row. -/
theorem fence_past (drawn : id ∈ db.drawn) (h : perform env db call x = some (db', result))
    (fences : result.fences = true) :
    Past id db' := by
  obtain ⟨hadmits, heffect⟩ := perform_effect h
  have hfresh := admits_fresh hadmits
  have hdrawn : id ∈ (db.advance x).drawn := mem_append_right _ drawn
  cases heffect with
  | read result quiet => cases result <;> simp [Result.quiet, Result.fences] at quiet fences
  | rescoped s connection result kind nobody tenant attempt complete =>
    refine ⟨hdrawn, ?_⟩
    exact forall_attempt_none attempt _
  | removed => exact ⟨hdrawn, forall_attempt_gone _⟩
  | claimed claim s s' nobody tenant state id vacant configuration attempt complete =>
    refine ⟨hdrawn, ?_⟩
    exact forall_attempt_some attempt fun heq => hfresh ((id.symm.trans heq) ▸ drawn)
  | _ => cases fences

variable {a : RoleAttempt Uuid}

/-- A call of an attempt that is not in the row writes nothing. -/
theorem past_unchanged (past : Past a.attemptId db) (actor : call.actor = some a)
    (h : perform env db call x = some (db', result)) :
    db' = db.advance x := by
  obtain ⟨_, heffect⟩ := perform_effect h
  have howned : ∀ s t, Owned (db.advance x) a s t → False := by
    intro s t own
    have hid := own.owns
    simp only [owns, Bool.and_eq_true, beq_iff_eq] at hid
    exact past.attempt s own.state t own.attempt hid.1.1.1.1
  rw [actor] at heffect
  cases heffect with
  | read result quiet => rfl
  | rescoped s connection result kind nobody => cases nobody
  | removed nobody => cases nobody
  | claimed claim s s' nobody => cases nobody
  | ended b s s' t outcome caller own =>
    cases caller
    exact (howned s t own).elim
  | completed done s s' t evidence caller own =>
    cases caller
    exact (howned s t own).elim

/-! ## Repeating a completion -/

/-- The incarnations of the attempt are the current ones. -/
def Current (db : RoleDb) (a : RoleAttempt Uuid) : Prop :=
  (∃ authority, db.authority = some authority ∧
    authority.configurationRevision = a.configurationRevision) ∧
  ∃ locked s, lockScope db a.toDirectoryControlIdentity = some locked ∧ locked.state = some s ∧
    locked.agrees s a.toRoleContext = true

/-- The same digest, as many rows, and an equal payload. -/
def SameContent (env : Env) (c d : PreparedRoleCollection) : Prop :=
  c.contentDigest = d.contentDigest ∧ c.rows.length = d.rows.length ∧
    env.canonical c.payload = env.canonical d.payload

instance (env : Env) (c d : PreparedRoleCollection) : Decidable (SameContent env c d) := by
  unfold SameContent
  infer_instance

theorem completion_names (done : Completion) : done.complete.names done.attempt = true := by
  simp [Complete.names, Completion.complete]

/-- The last completion is answered from what was retained of it. -/
theorem replay_latest (done : Completion) (collection : PreparedRoleCollection) :
    replay env done.attempt collection done.complete (some done.snapshot) =
      if SameContent env done.collection collection then .replayed done.receipt
      else .rejected .conflict := by
  have hnames : ¬(!done.complete.names done.attempt) = true := by simp [completion_names]
  unfold replay
  rw [if_neg hnames]
  by_cases hsame : SameContent env done.collection collection
  · have ⟨hdigest, hrows, hpayload⟩ := hsame
    have hreceipt : receipt done.attempt done.complete.checkedAt collection.contentDigest
        collection.rows.length = done.receipt := by
      rw [← hdigest, ← hrows]
      rfl
    rw [if_pos hsame, if_pos ⟨hdigest, hrows, by simp [Completion.snapshot, Completion.complete,
      hpayload]⟩, hreceipt]
  · rw [if_neg hsame, if_neg]
    rintro ⟨hdigest, hrows, hprevious⟩
    have hpayload := (of_decide_eq_true hprevious).2.1
    exact hsame ⟨hdigest, hrows, hpayload⟩

variable {done : Completion}

theorem Kept.latest (h : Kept db) (hdone : db.completions.head? = some done)
    (htenant : db.tenant ≠ none) :
    ∃ s, db.state = some s ∧ s.complete = some done.complete ∧ db.snapshot = some done.snapshot := by
  have hcomplete := h.complete htenant
  have hpublished := h.published htenant
  rw [hdone] at hcomplete hpublished
  obtain ⟨s, hs, hc⟩ := bind_eq_some_iff.mp hcomplete
  exact ⟨s, hs, hc, hpublished⟩

variable (env) in
/-- A completion under the current incarnations, of the attempt completed last. -/
theorem completeRoleAttempt_latest (h : Kept db) (hdone : db.completions.head? = some done)
    (hcurrent : Current db done.attempt) (collection : PreparedRoleCollection) (x : Draw) :
    completeRoleAttempt env done.attempt collection x db =
      some (db, if SameContent env done.collection collection then .replayed done.receipt
        else .rejected .conflict) := by
  obtain ⟨⟨authority, hauthority, hrevision⟩, locked, s, hlocked, hs, hagrees⟩ := hcurrent
  obtain ⟨htenant, hstate, _⟩ := lockScope_some hlocked
  obtain ⟨s', hs', hcomplete, hsnapshot⟩ := h.latest hdone htenant
  obtain rfl : s' = s := Option.some.inj (hs'.symm.trans (hstate.symm.trans hs))
  have hmine : s'.complete.filter (fun c => c.id = done.attempt.attemptId) =
      some done.complete := by
    rw [hcomplete]
    simp [Completion.complete]
  simp only [completeRoleAttempt, underAuthority, hauthority, any_some, hrevision,
    decide_true, if_true, hlocked, hs, hagrees, Bool.not_true, Bool.false_eq_true, if_false, hmine,
    hsnapshot, replay_latest]

variable {collection : PreparedRoleCollection}

/-- The attempt completed last is not the one that runs. -/
theorem completeRoleAttempt_retained (h : Kept db) (hdone : db.completions.head? = some done)
    (hid : a.attemptId = done.attempt.attemptId)
    (hcall : completeRoleAttempt env a collection x db = some (db', result)) : db' = db := by
  obtain ⟨rfl, -⟩ | ⟨hcall, hauthority⟩ := underAuthority_some hcall
  · rfl
  split at hcall
  · cases hcall
    rfl
  rename_i locked hlocked
  obtain ⟨htenant, hstate, _⟩ := lockScope_some hlocked
  obtain ⟨s', hs', hcomplete, -⟩ := h.latest hdone htenant
  split at hcall
  · cases hcall
    rfl
  rename_i s hs
  obtain rfl : s' = s := Option.some.inj (hs'.symm.trans (hstate.symm.trans hs))
  have hmine : s'.complete.filter (fun c => c.id = a.attemptId) = some done.complete := by
    rw [hcomplete, hid]
    simp [Completion.complete]
  rw [hmine] at hcall
  split at hcall
  · cases hcall
    rfl
  · exact (Prod.mk.inj (Option.some.inj hcall)).1.symm

/-! ## Every reachable state -/

/-- Nothing was claimed or completed yet. -/
structure Initial (db : RoleDb) : Prop where
  gone : db.tenant = none → db.state = none
  state : ∀ s, db.state = some s → s.attempt = none ∧ s.complete = none
  snapshot : ∀ s, db.snapshot = some s → s.publicationId = none
  claims : db.claims = []
  completions : db.completions = []

theorem Initial.kept (h : Initial db) : Kept db where
  gone := h.gone
  issued s hs t ht := by
    rw [(h.state s hs).1] at ht
    cases ht
  drawn c hc := by
    rw [h.claims] at hc
    cases hc
  distinct := by
    rw [h.claims]
    exact nodup_nil
  complete _ := by
    rw [h.completions]
    cases hs : db.state with
    | none => rfl
    | some s => exact (h.state s hs).2
  published _ := by
    rw [h.completions]
    exact h.snapshot
  accepted done hdone := by
    rw [h.completions] at hdone
    cases hdone

theorem run_kept {actions : List Action} (init : Initial db)
    (h : Runs.run (step env) db actions = some db') : Kept db' :=
  Runs.invariant (I := Kept) (fun _ _ _ hkept => step_kept hkept) init.kept h

/-- What holds of the receipts in a state and after it. -/
structure Fenced (env : Env) (db : RoleDb) : Prop where
  owned : ∀ input collection x db' result,
    perform env db (.completeRoleAttempt input collection) x = some (db', result) →
    (∃ receipt, result = .committed receipt) ∨ db'.snapshot ≠ db.snapshot →
    ∃ a s t, attempt input = some a ∧ Owned db a s t ∧ t.live x.sampledAt = true ∧
      ∃ c ∈ db.claims, c.Issued t
  fenced : ∀ call x db₁ result, perform env db call x = some (db₁, result) →
    result.fences = true → ∀ c ∈ db.claims, ∀ actions db₂,
    Runs.run (step env) db₁ actions = some db₂ → ∀ call' a y db₃ result',
    call'.actor = some a → a.attemptId = c.attemptId →
    perform env db₂ call' y = some (db₃, result') → db₃ = db₂.advance y
  undisplaced : ∀ call x db' a startedAt expiresAt,
    perform env db call x = some (db', .claimed a startedAt expiresAt) →
    ∀ s t authority, db.state = some s → s.attempt = some t → t.outcome = .running →
    db.authority = some authority → authority.configurationRevision = t.configuration →
    t.expiresAt ≤ x.sampledAt
  agree : ∀ s c, db.state = some s → s.complete = some c →
    ∃ p rows, db.snapshot = some p ∧ p.publicationId = some c.id ∧ p.observedAt = c.checkedAt ∧
      p.payload = .array rows ∧ rows.length = c.count
  latest : ∀ done, db.completions.head? = some done → db.tenant ≠ none →
    ∃ s, db.state = some s ∧ s.complete = some done.complete ∧ db.snapshot = some done.snapshot
  repeated : ∀ done, db.completions.head? = some done → ∀ input collection x,
    attempt input = some done.attempt → prepared collection = true → db.admits x = true →
    Current db done.attempt →
    perform env db (.completeRoleAttempt input collection) x =
      some (db.advance x, if SameContent env done.collection collection then .replayed done.receipt
        else .rejected .conflict)
  unwritten : ∀ done, db.completions.head? = some done → ∀ input a collection x db' result,
    attempt input = some a → a.attemptId = done.attempt.attemptId →
    perform env db (.completeRoleAttempt input collection) x = some (db', result) →
    db' = db.advance x

variable {input : RoleAttempt JsString}

theorem perform_complete
    (h : perform env db (.completeRoleAttempt input collection) x = some (db', result)) :
    ∃ a, attempt input = some a ∧ prepared collection = true ∧
      completeRoleAttempt env a collection x (db.advance x) = some (db', result) := by
  unfold perform at h
  split at h
  · simp only [transact] at h
    split at h
    · rename_i haccepted
      obtain ⟨a, ha, hcall⟩ := bind_eq_some_iff.mp h
      exact ⟨a, ha, haccepted, hcall⟩
    · cases h
  · cases h

theorem Kept.owned (h : Kept db)
    (hperform : perform env db (.completeRoleAttempt input collection) x = some (db', result))
    (hwritten : (∃ receipt, result = .committed receipt) ∨ db'.snapshot ≠ db.snapshot) :
    ∃ a s t, attempt input = some a ∧ Owned db a s t ∧ t.live x.sampledAt = true ∧
      ∃ c ∈ db.claims, c.Issued t := by
  obtain ⟨a, ha, haccepted, hcall⟩ := perform_complete hperform
  have heffect := completeRoleAttempt_effect haccepted hcall
  cases heffect with
  | read result quiet =>
    rcases hwritten with ⟨receipt, rfl⟩ | hne
    · cases quiet
    · exact absurd rfl hne
  | rescoped s connection result kind nobody => cases nobody
  | removed nobody => cases nobody
  | claimed claim s s' nobody => cases nobody
  | ended b s s' t outcome =>
    rcases hwritten with ⟨receipt, hreceipt⟩ | hne
    · cases hreceipt
    · exact absurd rfl hne
  | completed done s s' t evidence caller own live =>
    cases caller
    refine ⟨done.attempt, s, t, ha, ⟨own.state, own.attempt, own.owns, own.configuration,
      own.connection, own.scope, own.tenant⟩, live, ?_⟩
    exact h.issued s own.state t own.attempt

theorem perform_undisplaced {startedAt expiresAt : Micros}
    (hperform : perform env db call x = some (db', .claimed a startedAt expiresAt))
    {authority : ManagedAuthority} (hs : db.state = some s) (ht : s.attempt = some t)
    (hrunning : t.outcome = .running) (hauthority : db.authority = some authority)
    (hcurrent : authority.configurationRevision = t.configuration) : t.expiresAt ≤ x.sampledAt := by
  obtain ⟨_, heffect⟩ := perform_effect hperform
  cases heffect with
  | read result quiet => cases quiet
  | rescoped s connection result kind => cases kind
  | claimed claim u u' nobody tenant state id vacant configuration =>
    obtain rfl : u = s := Option.some.inj (state.symm.trans hs)
    obtain ⟨authority', hauthority', hrevision⟩ := configuration
    obtain rfl : authority' = authority := Option.some.inj (hauthority'.symm.trans hauthority)
    have hdead := vacant t ht hrunning (hcurrent.symm.trans hrevision)
    exact not_lt.mp (of_decide_eq_false hdead)

theorem Kept.agree (h : Kept db) {c : Complete} (hs : db.state = some s)
    (hc : s.complete = some c) :
    ∃ p rows, db.snapshot = some p ∧ p.publicationId = some c.id ∧ p.observedAt = c.checkedAt ∧
      p.payload = .array rows ∧ rows.length = c.count := by
  have htenant : db.tenant ≠ none := by
    intro hnone
    rw [h.gone hnone] at hs
    cases hs
  have hcomplete := h.complete htenant
  rw [hs, bind_some, hc] at hcomplete
  obtain ⟨done, hdone, rfl⟩ := map_eq_some_iff.mp hcomplete.symm
  obtain ⟨_, _, _, hsnapshot⟩ := h.latest hdone htenant
  exact ⟨done.snapshot, done.collection.rows, hsnapshot, rfl, rfl, rfl, rfl⟩

theorem Kept.fenced (h : Kept db) : Fenced env db where
  owned _ _ _ _ _ hperform hwritten := h.owned hperform hwritten
  fenced call x db₁ result hperform hfences c hc actions db₂ hrun call' a y db₃ result' hactor hid
      hperform' := by
    have hpast : Past c.attemptId db₁ := fence_past (h.drawn c hc) hperform hfences
    have hlater : Past c.attemptId db₂ :=
      Runs.invariant (I := Past c.attemptId) (fun _ _ _ hp => step_past hp) hpast hrun
    exact past_unchanged (hid ▸ hlater) hactor hperform'
  undisplaced _ _ _ _ _ _ hperform _ _ _ hs ht hrunning hauthority hcurrent :=
    perform_undisplaced hperform hs ht hrunning hauthority hcurrent
  agree _ _ hs hc := h.agree hs hc
  latest _ hdone htenant := h.latest hdone htenant
  repeated done hdone input collection x hinput haccepted hadmits hcurrent := by
    have hlatest := completeRoleAttempt_latest env (h.advance x) hdone hcurrent collection x
    simp only [perform, hadmits, if_true, transact, haccepted, hinput]
    exact hlatest
  unwritten done hdone input a collection x db' result hinput hid hperform := by
    obtain ⟨a', ha', -, hcall⟩ := perform_complete hperform
    obtain rfl : a' = a := Option.some.inj (ha'.symm.trans hinput)
    exact completeRoleAttempt_retained (h.advance x) hdone hid hcall

end Runs

/-- Directory role receipts are fenced in every state that can be reached. -/
theorem receipts_fenced (env : Env) (db : RoleDb) (init : Initial db) (actions : List Action)
    (db' : RoleDb) (h : Runs.run (step env) db actions = some db') : Fenced env db' :=
  (run_kept init h).fenced

/-! ## A sample -/

namespace Sample

def env : Env where
  buildDifference _ _ _ _ _ := some []
  canonical := Json.stringify

theorem tenantId_isUuid :
    isUuid (js "0b000000-0000-4000-8000-000000000001") = true := by decide

theorem microsoftId_isUuid :
    isUuid (js "0b000000-0000-4000-8000-000000000002") = true := by decide

def tenantId : Uuid := ⟨_, tenantId_isUuid⟩
def microsoftId : Uuid := ⟨_, microsoftId_isUuid⟩
def organizationId : Uuid := ⟨js "0b000000-0000-4000-8000-000000000003", by decide⟩
def revision : Uuid := ⟨js "0b000000-0000-4000-8000-000000000004", by decide⟩
def incarnation : Uuid := ⟨js "0b000000-0000-4000-8000-000000000005", by decide⟩
def scopeId : Uuid := ⟨js "0b000000-0000-4000-8000-000000000006", by decide⟩
def attemptId : Uuid := ⟨js "0b000000-0000-4000-8000-000000000007", by decide⟩

def spare (digit : UInt16) : Uuid :=
  if h : isUuid ((js "0b000000-0000-4000-8000-00000000010").concat (0x30 + digit)) = true then
    ⟨_, h⟩
  else tenantId

def db : RoleDb where
  authority := some ⟨revision, tenantId, tenantId, []⟩
  tenant := some ⟨⟨organizationId, tenantId, microsoftId⟩, .active⟩
  connection := some ⟨none, .connected, .hawkviewManaged⟩
  state := none
  snapshot := none
  evidence := []
  clock := 0
  drawn := []
  claims := []
  completions := []

def identity : RoleIdentity JsString :=
  ⟨⟨organizationId.text, tenantId.text, microsoftId.text⟩, revision.text⟩

def context : RoleContext JsString :=
  ⟨identity, incarnation.text, scopeId.text, DIRECTORY_ROLE_RECEIPT_SCOPE⟩

def collection : PreparedRoleCollection := ⟨[.null], List.replicate 64 0x61⟩

/-- An activation, a claim, and its completion, twice. -/
def actions : List Action :=
  [.call (.activateRoleScope identity none none false)
      ⟨1000, incarnation, scopeId, spare 0⟩,
    .call (.claimRoleAttempt context)
      ⟨2000, spare 1, spare 2, attemptId⟩,
    .call (.completeRoleAttempt ⟨context, attemptId.text⟩ collection)
      ⟨3000, spare 3, spare 4, spare 5⟩,
    .call (.completeRoleAttempt ⟨context, attemptId.text⟩ collection)
      ⟨4000, spare 6, spare 7, spare 8⟩]

end Sample

open Sample in
theorem receipts_fenced_completed : ∃ db', Runs.run (step env) db actions = some db' ∧
    db'.completions.length = 1 ∧ Fenced env db' := by
  have init : Initial db := ⟨fun _ => rfl, fun s h => absurd h.symm (some_ne_none s),
    fun s h => absurd h.symm (some_ne_none s), rfl, rfl⟩
  have hrun : (Runs.run (step env) db actions).map (·.completions.length) = some 1 := by
    decide +kernel
  obtain ⟨db', hreached, hcompletions⟩ := map_eq_some_iff.mp hrun
  exact ⟨db', hreached, hcompletions, receipts_fenced env db init actions db' hreached⟩

end DirectoryRoles
