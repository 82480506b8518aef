import HawkView.Tenants.PimLedger

/-!
# PIM schedule publication is linear

Whoever writes an attempt holds the row of the tenant, so the work of one
transaction is an effect on the rows as they are when it commits. The locks on the
authority and on the connection keep what it has read of them.
-/

namespace PimSchedule

open List Option

open Locking ManagedConnectorAuthority
open DirectoryRoles (Micros Tenant Connection)

/-! ## What a transaction can do -/

/-- The receipt that a result hands out. -/
def Result.receipt? : Result → Option PimReceipt
  | .committed receipt => some receipt
  | .replayed receipt => some receipt
  | _ => none

/-- What the work of a transaction does to the rows. -/
inductive Effect (x : Draw) (db : PimDb) : PimDb → Result → Prop
  | rescoped (scopes : List PimScopeRecord) (result : Result) (quiet : result.receipt? = none) :
      Effect x db { db with scopes } result
  | ended (f : PimAttemptRecord → PimAttemptRecord) (scopes : List PimScopeRecord)
      (envelopes : List (Uuid × ParsedEnvelope)) (wireFailures : List (Uuid × WireFailure))
      (result : Result) (ends : ∀ r ∈ db.attempts, Ends r (f r)) (quiet : result.receipt? = none) :
      Effect x db { db with attempts := db.attempts.map f, scopes, envelopes, wireFailures } result
  | begun (f : PimAttemptRecord → PimAttemptRecord) (scopes : List PimScopeRecord)
      (ctx : PimContext Uuid) (lifetimeMs : Int) (result : Result)
      (ends : ∀ r ∈ db.attempts, Ends r (f r)) (home : Home db.tenant ctx.toPimIdentity)
      (free : ∀ r ∈ db.attempts.map f, r.plane = ctx.plane → r.terminalAt ≠ none)
      (quiet : result.receipt? = none) :
      Effect x db
        { db with attempts := db.attempts.map f ++ [begunAttempt ctx lifetimeMs x], scopes } result
  | replayed (row : PimAttemptRecord) (receipt : PimReceipt) (mem : row ∈ db.attempts)
      (outcome : row.outcome = some .committed) (saved : receiptFromRecord row = some receipt) :
      Effect x db db (.replayed receipt)
  | committed (row : PimAttemptRecord) (payload : PreparedPimCollection) (c : Commit)
      (receipt : PimReceipt) (place : ParsedObservationRow → ParsedObservationRow)
      (envelopes : List (Uuid × ParsedEnvelope)) (mem : row ∈ db.attempts)
      (running : row.terminalAt = none)
      (commit : c.row = row.commit payload
        (unchangedAt ((commitsOf row.plane db.commits).head?.map Commit.row)
          payload.contentDigest) x.second)
      (bound : c.Bound) (saved : receiptFromRecord c.row = some receipt) :
      Effect x db { db with
        attempts := db.attempts.map (publishRow row c.row)
        observations := db.observations ++ payload.rows.map fun o => (row.id, place o)
        envelopes
        commits := c :: db.commits } (.committed receipt)

section Work

variable {db db' : PimDb} {x : Draw} {result : Result} {connection : Uuid}

theorem insertScope_eq (who : PimIdentity Uuid) (version : JsString) :
    ∃ scopes, db.insertScope who version x = { db with scopes } := by
  unfold PimDb.insertScope
  split
  · exact ⟨db.scopes, rfl⟩
  · exact ⟨_, rfl⟩

variable {tenant : Tenant} {r : PimAttemptRecord} {who : PimIdentity Uuid}

theorem ofPlane_eq (home : Home tenant r.toPimIdentity) (here : Home tenant who) :
    r.ofPlane who = (r.plane == who.plane) := by
  have hcustomer : r.customerTenantId = who.customerTenantId := home.1.trans here.1.symm
  have horganization : r.organizationId = who.organizationId := home.2.trans here.2.symm
  simp [PimAttemptRecord.ofPlane, hcustomer, horganization]

theorem retire_ends (who : PimIdentity Uuid) (at' : Micros) (r : PimAttemptRecord) :
    Ends r (if r.ofPlane who && r.running && decide (r.expiresAt ≤ at') then r.abandon at'
      else r) := by
  split
  · rename_i hexpired
    simp only [Bool.and_eq_true, PimAttemptRecord.running, isNone_iff_eq_none] at hexpired
    exact .abandoned at' hexpired.1.2
  · exact .same

theorem inflight_nil {attempts : List PimAttemptRecord}
    (home : ∀ r ∈ attempts, Home tenant r.toPimIdentity) (here : Home tenant who)
    (h : inflight who attempts = []) :
    ∀ r ∈ attempts, r.plane = who.plane → r.terminalAt ≠ none := by
  intro r hr hplane hrunning
  apply filter_eq_nil_iff.mp h r hr
  rw [ofPlane_eq (home r hr) here, PimAttemptRecord.running, hrunning, hplane]
  simp

variable {lifetimeMs : Int}

/-- An attempt begins, or the one that is in flight is found. -/
theorem start_effect (h : Sound db) {c : PimContext Uuid} (home : Home db.tenant c.toPimIdentity)
    (scopes : List PimScopeRecord) {attempt : Option (PimAttempt Uuid)}
    (hstart : start c lifetimeMs x { db with scopes } = (db', attempt))
    (quiet : result.receipt? = none) : Effect x db db' result := by
  unfold start at hstart
  simp only at hstart
  split at hstart
  · cases hstart
    exact .ended _ scopes db.envelopes db.wireFailures result
      (fun r _ => retire_ends c.toPimIdentity x.first r) quiet
  · rename_i hfree
    cases hstart
    refine .begun _ scopes c lifetimeMs result
      (fun r _ => retire_ends c.toPimIdentity x.first r) home ?_ quiet
    apply inflight_nil ?_ home (not_not.mp hfree)
    intro r hr
    obtain ⟨s, hs, rfl⟩ := mem_map.mp hr
    rw [((retire_ends c.toPimIdentity x.first s).advances (h.shape s hs)).context]
    exact h.home s hs

variable {version : JsString}

theorem capture_effect (h : Sound db) {authority : ManagedAuthority} (home : Home db.tenant who)
    (hcapture : capturePimAttempt who version lifetimeMs authority connection x db =
      (db', result)) :
    Effect x db db' result := by
  obtain ⟨scopes, hscopes⟩ : ∃ scopes, (if (db.currentScope who).isNone then
      db.insertScope who version x else db) = { db with scopes } := by
    split
    · exact insertScope_eq who version
    · exact ⟨db.scopes, rfl⟩
  unfold capturePimAttempt at hcapture
  rw [hscopes] at hcapture
  simp only at hcapture
  split at hcapture
  · cases hcapture
    exact .rescoped scopes _ rfl
  split at hcapture
  · cases hcapture
    exact .rescoped scopes _ rfl
  split at hcapture
  · cases hcapture
    exact .rescoped scopes _ rfl
  split at hcapture
  · rename_i hstart
    cases hcapture
    exact start_effect h (c := scopeContext who connection _) home scopes hstart rfl
  · rename_i hstart
    cases hcapture
    exact start_effect h (c := scopeContext who connection _) home scopes hstart rfl

variable {ctx : PimContext Uuid}

theorem begin_effect (h : Sound db) (home : Home db.tenant ctx.toPimIdentity)
    (hbegin : beginPimAttempt ctx lifetimeMs connection x db = (db', result)) :
    Effect x db db' result := by
  unfold beginPimAttempt at hbegin
  split at hbegin
  · cases hbegin
    exact .rescoped db.scopes _ rfl
  split at hbegin
  · cases hbegin
    exact .rescoped db.scopes _ rfl
  split at hbegin
  · rename_i hstart
    cases hbegin
    exact start_effect h home db.scopes hstart rfl
  · rename_i hstart
    cases hbegin
    exact start_effect h home db.scopes hstart rfl

theorem rotate_effect (hrotate : rotatePimScope ctx version connection x db = some (db', result)) :
    Effect x db db' result := by
  unfold rotatePimScope at hrotate
  split at hrotate
  · cases hrotate
    exact .rescoped db.scopes _ rfl
  split at hrotate
  · cases hrotate
    exact .rescoped db.scopes _ rfl
  obtain ⟨next, _, hnext⟩ := map_eq_some_iff.mp hrotate
  cases hnext
  obtain ⟨scopes, hscopes⟩ := @insertScope_eq { db with
    scopes := db.scopes.map fun s => if s.id = ctx.scopeId ∧ s.isCurrent then
      { s with isCurrent := false, retiredAt := some x.first } else s } x ctx.toPimIdentity version
  rw [hscopes]
  exact .rescoped scopes _ rfl

variable {a : PimAttempt Uuid}

theorem immutableBinding_none (h : immutableBinding r a = none) : attemptFromRecord r = a := by
  unfold immutableBinding at h
  simp only at h
  split at h
  · cases h
  split at h
  · cases h
  split at h
  · cases h
  split at h
  · cases h
  split at h
  · cases h
  split at h
  · cases h
  rename_i htenant hplane hincarnation hscope hprojection htime
  simp only [not_or, not_not] at htenant hplane hincarnation hscope hprojection htime
  obtain ⟨⟨⟨tenant, revision, plane⟩, incarnation, scope, scopeIncarnation, version, endpoint,
    projection⟩, id, startedAt, expiresAt⟩ := a
  simp only at htenant hplane hincarnation hscope hprojection htime
  obtain ⟨rfl, rfl⟩ := hincarnation
  obtain ⟨rfl, rfl, rfl⟩ := hscope
  obtain ⟨rfl, rfl⟩ := hprojection
  obtain ⟨rfl, rfl, rfl⟩ := htime
  rw [← htenant, ← hplane]

/-- The scope that a context matches is its own. -/
theorem matchesScope_none {scope : Option PimScopeRecord} (h : matchesScope scope ctx = none) :
    ∃ s, scope = some s ∧ s.id = ctx.scopeId ∧
      s.scopeIncarnation = ctx.scopeIncarnation ∧ s.scopeVersion = ctx.scopeVersion ∧
      s.plane = ctx.plane := by
  unfold matchesScope at h
  split at h
  · cases h
  split at h
  · cases h
  split at h
  · cases h
  split at h
  · cases h
  split at h
  · cases h
  rename_i s hscope _ _ hplane
  simp only [not_or, not_not] at hscope hplane
  exact ⟨s, rfl, hscope.1, hscope.2.1, hscope.2.2, hplane⟩

variable {row : PimAttemptRecord}

/-- A locked attempt is a row, under its own scope and connection. -/
theorem lockAttempt_ok (h : lockAttempt a connection db = .ok row) : row ∈ db.attempts ∧
      attemptFromRecord row = a ∧ connection = row.connectionIncarnation ∧
      ∃ s, db.currentScope a.toPimIdentity = some s ∧ s.isCurrent = true ∧ s.plane = row.plane ∧
        s.id = row.scopeId ∧ s.scopeIncarnation = row.scopeIncarnation ∧
        s.scopeVersion = row.scopeVersion := by
  unfold lockAttempt at h
  split at h
  · cases h
  rename_i hconnection
  split at h
  · cases h
  rename_i hscope
  split at h
  · rename_i found hfound
    split at h
    · cases h
    rename_i hbinding
    obtain rfl : found = row := Except.ok.inj h
    obtain rfl := immutableBinding_none hbinding
    obtain ⟨s, hs, hid, hincarnation, hversion, hplane⟩ := matchesScope_none hscope
    have hcurrent := find?_some hs
    simp only [decide_eq_true_eq] at hcurrent
    have hmem : found ∈ db.attempts :=
      mem_of_mem_filter (hfound ▸ mem_singleton_self found)
    exact ⟨hmem, rfl, not_not.mp hconnection, s, hs, hcurrent.2.2, hplane, hid, hincarnation,
      hversion⟩
  · cases h

theorem owned_none (h : owned row a db = none) :
    row.terminalAt = none := by
  unfold owned at h
  split at h
  · cases h
  split at h
  · cases h
  rename_i hrunning
  simp only [not_or, Bool.not_eq_true, isSome_eq_false_iff,
    isNone_iff_eq_none] at hrunning
  exact hrunning.1

theorem fail_effect {payload : PimFailure}
    (hfail : recordPimTerminalFailure a payload connection x db = some (db', result)) :
    Effect x db db' result := by
  unfold recordPimTerminalFailure at hfail
  split at hfail
  · cases hfail
    exact .rescoped db.scopes _ rfl
  split at hfail
  · cases hfail
    exact .rescoped db.scopes _ rfl
  simp only at hfail
  split at hfail
  · cases hfail
    refine .ended _ db.scopes _ _ _ (fun r _ => ?_) rfl
    split
    · rename_i hreached
      simp only [Bool.and_eq_true, PimAttemptRecord.running,
        isNone_iff_eq_none] at hreached
      exact .failed payload x.first hreached.2
    · exact .same
  · cases hfail

/-- The current row of a plane is what was committed last in it. -/
theorem Sound.find_current (h : Sound db) (who : PimIdentity Uuid) (here : Home db.tenant who) :
    db.attempts.find? (fun r => r.ofPlane who && r.isCurrent) =
      (commitsOf who.plane db.commits).head?.map Commit.row := by
  cases hhead : (commitsOf who.plane db.commits).head? with
  | none =>
    rw [map_none, find?_eq_none]
    intro r hr hfound
    rw [ofPlane_eq (h.home r hr) here, Bool.and_eq_true, beq_iff_eq] at hfound
    obtain ⟨c, hc, _⟩ := h.current r hr hfound.2
    rw [hfound.1, hhead] at hc
    cases hc
  | some c =>
    have hlatest := h.latest who.plane c hhead
    obtain ⟨_, hplane, _, hcurrent⟩ := h.committed_of_latest hhead
    have hthere : (c.row.ofPlane who && c.row.isCurrent) = true := by
      rw [ofPlane_eq (h.home _ hlatest) here, hplane, hcurrent]
      simp
    have hsome : (db.attempts.find? fun r => r.ofPlane who && r.isCurrent).isSome :=
      List.find?_isSome.mpr ⟨c.row, hlatest, hthere⟩
    obtain ⟨r, hr⟩ := isSome_iff_exists.mp hsome
    have hfound := find?_some hr
    have hmem := mem_of_find?_eq_some hr
    rw [ofPlane_eq (h.home r hmem) here, Bool.and_eq_true, beq_iff_eq] at hfound
    obtain ⟨d, hd, hrow⟩ := h.current r hmem hfound.2
    rw [hfound.1, hhead] at hd
    cases hd
    rw [hr, ← hrow, map_some]

/-- What the statements of a publication make of the rows. -/
theorem Sound.publish_rows (h : Sound db) (hrow : row ∈ db.attempts) (here : Home db.tenant who)
    (hplane : who.plane = row.plane) (running : row.terminalAt = none)
    {reached : PimAttemptRecord → Bool}
    (hreached : ∀ r, reached r = true → r.id = row.id ∧ r.terminalAt = none)
    (hr : (clearCurrent who db.attempts).filter reached = [r])
    (commit : PimAttemptRecord → PimAttemptRecord) :
    r = row ∧ (clearCurrent who db.attempts).map (fun r => if reached r then commit r else r) =
      db.attempts.map (publishRow row (commit row)) := by
  have hclear : ∀ s ∈ db.attempts, (if s.ofPlane who && s.isCurrent then
      { s with isCurrent := false } else s) =
        if s.plane = row.plane then { s with isCurrent := false } else s := by
    intro s hs
    rw [ofPlane_eq (h.home s hs) here, hplane]
    by_cases hsame : s.plane = row.plane
    · cases hcurrent : s.isCurrent with
      | true => simp [hsame]
      | false =>
        have hself : { s with isCurrent := false } = s := by rw [← hcurrent]
        simp [hsame, hself]
    · simp [hsame]
  have hunset := ((h.shape row hrow).unset
    (by rw [(h.shape row hrow).running.mp running]; nofun)).2
  have hkeep : { row with isCurrent := false } = row := by rw [← hunset]
  have hmem : r ∈ (clearCurrent who db.attempts).filter reached :=
    hr ▸ mem_singleton_self r
  obtain ⟨hcleared, hfound⟩ := mem_filter.mp hmem
  obtain ⟨s, hs, hsr⟩ := mem_map.mp hcleared
  rw [hclear s hs] at hsr
  have hid : s.id = r.id := by
    rw [← hsr]
    split <;> rfl
  obtain rfl : s = row := h.unique hs hrow (hid.trans (hreached r hfound).1)
  rw [if_pos rfl, hkeep] at hsr
  subst hsr
  refine ⟨rfl, ?_⟩
  rw [clearCurrent, List.map_map]
  apply map_congr_left
  intro t ht
  rw [Function.comp_apply, hclear t ht, publishRow]
  by_cases heq : t.id = s.id
  · obtain rfl := h.unique ht hs heq
    rw [if_pos rfl, hkeep, if_pos hfound, if_pos rfl]
  · rw [if_neg heq, if_neg]
    intro htrue
    apply heq
    rw [← (hreached _ htrue).1]
    split <;> rfl

theorem publish_effect (h : Sound db) {payload : PreparedPimCollection}
    (home : Home db.tenant a.toPimIdentity)
    (authority : db.authority.map ManagedAuthority.configurationRevision =
      some a.configurationRevision)
    (connected : db.connection.bind Connection.incarnation = some connection)
    (hpublish : publishPimObservations a payload connection x db = some (db', result)) :
    Effect x db db' result := by
  unfold publishPimObservations at hpublish
  split at hpublish
  · cases hpublish
    exact .rescoped db.scopes _ rfl
  rename_i row hlock
  obtain ⟨hrow, rfl, hconnection, s, hs, hcurrent, hplane, hid, hincarnation, hversion⟩ :=
    lockAttempt_ok hlock
  split at hpublish
  · rename_i hcommitted
    split at hpublish
    · obtain ⟨receipt, hreceipt, hnext⟩ := map_eq_some_iff.mp hpublish
      cases hnext
      exact .replayed row receipt hrow hcommitted hreceipt
    · cases hpublish
      exact .rescoped db.scopes _ rfl
  split at hpublish
  · cases hpublish
    exact .rescoped db.scopes _ rfl
  rename_i howned
  have hrunning := owned_none howned
  split at hpublish
  · cases hpublish
    exact .rescoped db.scopes _ rfl
  simp only at hpublish
  split at hpublish
  · rename_i r hr
    obtain ⟨receipt, hreceipt, hnext⟩ := map_eq_some_iff.mp hpublish
    obtain ⟨rfl, hrows⟩ := h.publish_rows hrow home rfl hrunning (by
      intro t ht
      simp only [Bool.and_eq_true, decide_eq_true_eq, PimAttemptRecord.running,
        isNone_iff_eq_none] at ht
      exact ⟨ht.1.1, ht.1.2⟩) hr fun t => t.commit payload (unchangedAt (db.attempts.find?
        fun r => r.ofPlane (attemptFromRecord row).toPimIdentity && r.isCurrent)
          payload.contentDigest) x.second
    rw [hrows] at hnext
    cases hnext
    have hmem : r ∈ (clearCurrent (attemptFromRecord r).toPimIdentity db.attempts).filter _ :=
      hr ▸ mem_singleton_self r
    have hfound := (mem_filter.mp hmem).2
    simp only [Bool.and_eq_true, decide_eq_true_eq] at hfound
    refine .committed r payload ⟨_, _, _, _⟩ receipt _ _ hrow hrunning ?_ ?_ hreceipt
    · rw [h.find_current _ home]
      rfl
    · exact ⟨rfl, hfound.2, authority, connected.trans (congrArg some hconnection),
        ⟨s, hs, hcurrent, hplane, hid, hincarnation, hversion⟩, rfl, rfl,
        isSome_iff_exists.mpr ⟨receipt, hreceipt⟩⟩
  · cases hpublish
    exact .rescoped db.scopes _ rfl

/-- The work of a transaction has one of the effects, under what it has read. -/
theorem transact_effect (h : Sound db) {w : Work} {current : ManagedAuthority}
    (home : Home db.tenant w.identity)
    (authority : db.authority.map ManagedAuthority.configurationRevision =
      some w.identity.configurationRevision)
    (connected : db.connection.bind Connection.incarnation = some connection)
    (htransact : w.transact current connection x db = some (db', result)) :
    Effect x db db' result := by
  cases w with
  | capture who version lifetimeMs => exact capture_effect h home (Option.some.inj htransact)
  | begin ctx lifetimeMs => exact begin_effect h home (Option.some.inj htransact)
  | rotate ctx version => exact rotate_effect htransact
  | publish a payload => exact publish_effect h home authority connected htransact
  | fail a payload => exact fail_effect htransact

/-! ## What an effect leaves -/

theorem Effect.sound (heffect : Effect x db db' result) (h : Sound db)
    (drawn : x.attemptId ∈ db.drawn) (fresh : ∀ r ∈ db.attempts, r.id ≠ x.attemptId)
    (clock : db.clock = x.second) : Sound db' := by
  cases heffect with
  | rescoped scopes result quiet =>
    exact ⟨h.distinct, h.drawn, h.home, h.shape, h.single, h.logged, h.retained, h.current,
      h.latest, h.observed, h.witnessed, h.bound, h.ordered, h.elapsed, h.chained⟩
  | ended f scopes envelopes wireFailures result ends quiet =>
    exact h.ends ends scopes envelopes wireFailures
  | begun f scopes ctx lifetimeMs result ends home free quiet =>
    refine (h.ends ends scopes db.envelopes db.wireFailures).begins drawn ?_ home free
    intro r' hr'
    obtain ⟨r, hr, rfl⟩ := mem_map.mp hr'
    rw [((ends r hr).advances (h.shape r hr)).id]
    exact fresh r hr
  | replayed row receipt mem outcome saved => exact h
  | committed row payload c receipt place envelopes mem running commit bound saved =>
    have hat : c.at' = db.clock := by
      rw [clock, Commit.at', commit]
      rfl
    refine h.publishes mem running commit bound ?_ hat.le place envelopes
    intro d hd
    rw [hat]
    exact h.elapsed d hd

/-- Every row of the one table is in the other, as it was or a step further. -/
def Lasting (db db' : PimDb) : Prop := ∀ r ∈ db.attempts, ∃ r' ∈ db'.attempts, Advances r r'

theorem Lasting.refl (db : PimDb) : Lasting db db := fun r hr => ⟨r, hr, .refl r⟩

theorem Lasting.trans {db'' : PimDb} (h : Lasting db db') (h' : Lasting db' db'') :
    Lasting db db'' := by
  intro r hr
  obtain ⟨r', hr', hadvances⟩ := h r hr
  obtain ⟨r'', hr'', hadvances'⟩ := h' r' hr'
  exact ⟨r'', hr'', hadvances.trans hadvances'⟩

theorem Effect.lasting (heffect : Effect x db db' result) (h : Sound db) : Lasting db db' := by
  intro r hr
  cases heffect with
  | rescoped => exact ⟨r, hr, .refl r⟩
  | ended f scopes envelopes wireFailures result ends =>
    exact ⟨f r, mem_map_of_mem hr, (ends r hr).advances (h.shape r hr)⟩
  | begun f scopes ctx lifetimeMs result ends =>
    exact ⟨f r, mem_append_left _ (mem_map_of_mem hr),
      (ends r hr).advances (h.shape r hr)⟩
  | replayed => exact ⟨r, hr, .refl r⟩
  | committed row payload c receipt place envelopes mem running commit =>
    refine ⟨_, mem_map_of_mem hr, ?_⟩
    by_cases hid : r.id = row.id
    · obtain rfl := h.unique hr mem hid
      rw [publishRow_same, commit]
      exact ⟨rfl, rfl, rfl, rfl,
        fun hended => absurd ((h.shape r hr).running.mp running) hended⟩
    · have hsame := (publishRow_other c.row hid).1
      exact ⟨by rw [hsame], by rw [hsame], by rw [hsame], by rw [hsame], fun _ => hsame⟩

theorem Effect.commits (heffect : Effect x db db' result) :
    ∀ c ∈ db.commits, c ∈ db'.commits := by
  intro c hc
  cases heffect with
  | committed => exact mem_cons_of_mem _ hc
  | _ => exact hc

/-- Every receipt is that of a commit. -/
def Told (db : PimDb) (result : Result) : Prop :=
  ∀ receipt, result.receipt? = some receipt →
    ∃ c ∈ db.commits, receiptFromRecord c.row = some receipt

theorem Told.keeps (h : Told db result) (kept : ∀ c ∈ db.commits, c ∈ db'.commits) :
    Told db' result := by
  intro receipt hreceipt
  obtain ⟨c, hc, hsaved⟩ := h receipt hreceipt
  exact ⟨c, kept c hc, hsaved⟩

theorem told_quiet (quiet : result.receipt? = none) : Told db result := by
  intro receipt hreceipt
  rw [quiet] at hreceipt
  cases hreceipt

theorem Effect.told (heffect : Effect x db db' result) (h : Sound db) : Told db' result := by
  cases heffect with
  | rescoped scopes result quiet => exact told_quiet quiet
  | ended f scopes envelopes wireFailures result ends quiet => exact told_quiet quiet
  | begun f scopes ctx lifetimeMs result ends home free quiet => exact told_quiet quiet
  | replayed row receipt mem outcome saved =>
    intro other hother
    cases hother
    obtain ⟨c, hc, hrow⟩ := h.logged row mem outcome
    exact ⟨c, hc, hrow ▸ saved⟩
  | committed row payload c receipt place envelopes mem running commit bound saved =>
    intro other hother
    cases hother
    exact ⟨c, mem_cons_self, saved⟩

/-! ## Repeating a publication -/

/-- A publication of a committed attempt writes nothing. -/
theorem Sound.repeats (h : Sound db) (hrow : row ∈ db.attempts)
    (committed : row.outcome = some .committed) (hid : row.id = a.attemptId)
    (payload : PreparedPimCollection) (connection : Uuid) (x : Draw) :
    ∃ receipt, receiptFromRecord row = some receipt ∧
      publishPimObservations a payload connection x db =
        some (db, match lockAttempt a connection db with
          | .error reason => .rejected reason
          | .ok _ =>
            if row.contentDigest = some payload.contentDigest ∧
                row.observedRowCount = some payload.rows.length then .replayed receipt
            else .rejected .conflict) := by
  obtain ⟨c, hc, hsame⟩ := h.logged row hrow committed
  obtain ⟨receipt, hreceipt⟩ := isSome_iff_exists.mp (h.bound c hc).receipt
  have hsaved : receiptFromRecord row = some receipt := by
    rw [hsame] at hreceipt
    exact hreceipt
  refine ⟨receipt, hsaved, ?_⟩
  unfold publishPimObservations
  cases hlock : lockAttempt a connection db with
  | error reason => rfl
  | ok found =>
    obtain ⟨hfound, hattempt, _⟩ := lockAttempt_ok hlock
    have hfoundId : found.id = a.attemptId := by rw [← hattempt]; rfl
    obtain rfl := h.unique hfound hrow (hfoundId.trans hid.symm)
    simp only [committed, if_true, hsaved, map_some]
    split <;> rfl

end Work

/-! ## Sessions -/

/-- The shared advisory lock is held on the authority that was read. -/
def Authorized (db : PimDb) (held : List (Lock × Mode)) (current : ManagedAuthority)
    (w : Work) : Prop :=
  (.authority, .shared) ∈ held ∧ db.authority = some current ∧
    current.configurationRevision = w.identity.configurationRevision

/-- The tenant that was read is locked. -/
def Placed (db : PimDb) (held : List (Lock × Mode)) (w : Work) : Prop :=
  (.tenant, .exclusive) ∈ held ∧ Home db.tenant w.identity

/-- What a session may rely on in its phase. -/
def Knows (db : PimDb) (_ : Nat) (s : Session Lock Phase) : Prop :=
  match s.phase with
  | .locked _ => (.authority, .shared) ∈ s.held
  | .authorized _ current => (.authority, .shared) ∈ s.held ∧ db.authority = current
  | .tenant w current tenant => Authorized db s.held current w ∧
    (.tenant, .exclusive) ∈ s.held ∧ db.tenant = tenant
  | .ready w current connection => Authorized db s.held current w ∧ Placed db s.held w ∧
    (.connection, .exclusive) ∈ s.held ∧ db.connection = connection
  | .holding w => (w.lock, .exclusive) ∈ s.held
  | .finished result => Told db result
  | _ => True

/-- How a session commits under the locks it holds. -/
inductive Commits (db : PimDb) (held : List (Lock × Mode)) (x : Draw) : PimDb → Phase → Prop
  | rejected (reason : PimReason) : Commits db held x db (.finished (.rejected reason))
  | worked (w : Work) (current : ManagedAuthority) (connection : Uuid) (db' : PimDb)
      (result : Result) (admits : db.admits x = true)
      (transact : w.transact current connection x (db.advance x) = some (db', result))
      (effect : Effect x (db.advance x) db' result) : Commits db held x db' (.finished result)
  | wrote (w : Write) (locked : (w.lock, .exclusive) ∈ held) :
      Commits db held x (w.apply db) (.finished .written)

section Sessions

variable {env : Env} {db db' : PimDb} {i : Nat} {x : Draw} {held : List (Lock × Mode)}
  {phase next : Phase} {write : Nat → Draw → PimDb → Option (PimDb × Phase)}

theorem Sound.advance (h : Sound db) (hadmits : db.admits x = true) : Sound (db.advance x) ∧
    ∀ r ∈ db.attempts, r.id ≠ x.attemptId := by
  simp only [PimDb.admits, Bool.and_eq_true, List.all_eq_true, decide_eq_true_eq] at hadmits
  obtain ⟨⟨⟨_, hfresh⟩, hfirst⟩, hsecond⟩ := hadmits
  refine ⟨⟨h.distinct, fun r hr => mem_append_right _ (h.drawn r hr), h.home, h.shape,
    h.single, h.logged, h.retained, h.current, h.latest, h.observed, h.witnessed, h.bound,
    h.ordered, fun c hc => (h.elapsed c hc).trans (hfirst.trans hsecond), h.chained⟩, ?_⟩
  intro r hr heq
  have hunused := hfresh x.attemptId (by simp [Draw.ids])
  have hused := h.drawn r hr
  rw [heq] at hused
  simp [hused] at hunused

/-- Another writer changes no attempt. -/
theorem Sound.apply (h : Sound db) (w : Write) : Sound (w.apply db) := by
  cases w <;> exact ⟨h.distinct, h.drawn, h.home, h.shape, h.single, h.logged, h.retained,
    h.current, h.latest, h.observed, h.witnessed, h.bound, h.ordered, h.elapsed, h.chained⟩

theorem apply_commits (w : Write) : (w.apply db).commits = db.commits := by cases w <;> rfl

theorem apply_attempts (w : Write) : (w.apply db).attempts = db.attempts := by cases w <;> rfl

theorem Commits.sound (h : Commits db held x db' next) (sound : Sound db) :
    Sound db' ∧ Lasting db db' ∧ (∀ c ∈ db.commits, c ∈ db'.commits) ∧ Knows db' i ⟨next, []⟩ := by
  cases h with
  | rejected reason => exact ⟨sound, .refl db, fun _ hc => hc, told_quiet rfl⟩
  | worked w current connection done result admits transact effect =>
    obtain ⟨hadvanced, hfresh⟩ := sound.advance admits
    have hdrawn : x.attemptId ∈ (db.advance x).drawn :=
      mem_append_left _ (by simp [Draw.ids])
    exact ⟨effect.sound hadvanced hdrawn hfresh rfl, effect.lasting hadvanced, effect.commits,
      effect.told hadvanced⟩
  | wrote w locked =>
    refine ⟨sound.apply w, ?_, ?_, told_quiet rfl⟩
    · intro r hr
      exact ⟨r, (apply_attempts w).symm ▸ hr, .refl r⟩
    · intro c hc
      exact (apply_commits w).symm ▸ hc

/-- What a commit of another session leaves to a session that holds these locks. -/
structure Kept (db db' : PimDb) (held : List (Lock × Mode)) : Prop where
  authority : ∀ mode, (.authority, mode) ∈ held → db'.authority = db.authority
  tenant : ∀ mode, (.tenant, mode) ∈ held → db'.tenant = db.tenant
  connection : ∀ mode, (.connection, mode) ∈ held → db'.connection = db.connection
  commits : ∀ c ∈ db.commits, c ∈ db'.commits

variable {u : Session Lock Phase}

theorem Commits.kept (h : Commits db held x db' next) {t : Session Lock Phase} (apart : Apart t u)
    (locks : t.held = held) : Kept db db' u.held := by
  subst locks
  cases h with
  | rejected reason => exact ⟨fun _ _ => rfl, fun _ _ => rfl, fun _ _ => rfl, fun _ hc => hc⟩
  | worked w current connection done result admits transact effect =>
    obtain ⟨hauthority, htenant, hconnection⟩ : db'.authority = db.authority ∧
        db'.tenant = db.tenant ∧ db'.connection = db.connection := by
      cases effect <;> exact ⟨rfl, rfl, rfl⟩
    exact ⟨fun _ _ => hauthority, fun _ _ => htenant, fun _ _ => hconnection, effect.commits⟩
  | wrote w locked =>
    have hcommits : ∀ c ∈ db.commits, c ∈ (w.apply db).commits :=
      fun c hc => (apply_commits w).symm ▸ hc
    cases w with
    | authority current =>
      exact ⟨fun _ hu => (apart.exclusive locked hu).elim, fun _ _ => rfl, fun _ _ => rfl, hcommits⟩
    | tenant status microsoftTenantId =>
      exact ⟨fun _ _ => rfl, fun _ hu => (apart.exclusive locked hu).elim, fun _ _ => rfl, hcommits⟩
    | connection current =>
      exact ⟨fun _ _ => rfl, fun _ _ => rfl, fun _ hu => (apart.exclusive locked hu).elim, hcommits⟩

variable {current : ManagedAuthority}

theorem Kept.authorized {w : Work} (h : Kept db db' held)
    (authorized : Authorized db held current w) : Authorized db' held current w :=
  ⟨authorized.1, (h.authority _ authorized.1).trans authorized.2.1, authorized.2.2⟩

theorem Kept.knows (h : Kept db db' u.held) (knows : Knows db i u) :
    Knows db' i u := by
  obtain ⟨phase, held⟩ := u
  cases phase with
  | locked w => exact knows
  | authorized w current =>
    exact ⟨knows.1, (h.authority _ knows.1).trans knows.2⟩
  | tenant w current tenant =>
    exact ⟨h.authorized knows.1, knows.2.1, (h.tenant _ knows.2.1).trans knows.2.2⟩
  | ready w current connection =>
    obtain ⟨hauthorized, ⟨htenant, hhome⟩, hconnection, hread⟩ := knows
    refine ⟨h.authorized hauthorized, ⟨htenant, ?_⟩, hconnection,
      (h.connection _ hconnection).trans hread⟩
    rw [h.tenant _ htenant]
    exact hhome
  | holding w => exact knows
  | finished result => exact Told.keeps knows h.commits
  | _ => trivial

theorem Authorized.cons {w : Work} (h : Authorized db held current w) (lock : Lock × Mode) :
    Authorized db (lock :: held) current w := ⟨mem_cons_of_mem _ h.1, h.2⟩

theorem enters {α : Type} {x : Option α} {f : α → Option Phase}
    (h : ∀ a phase, f a = some phase → Knows db i ⟨phase, held⟩) :
    ∀ phase, x.bind f = some phase → Knows db i ⟨phase, held⟩ := by
  intro phase hphase
  obtain ⟨a, _, ha⟩ := bind_eq_some_iff.mp hphase
  exact h a phase ha

theorem enter_knows (call : Call) : Knows db i ⟨(call.enter env db).getD .failed, held⟩ := by
  cases henter : call.enter env db with
  | none => trivial
  | some phase =>
    rw [getD_some]
    cases call with
    | capturePimAttempt input =>
      refine enters (fun _ => enters fun _ => enters fun _ phase henter => ?_) phase henter
      cases henter
      split
      · exact told_quiet rfl
      · trivial
    | beginPimAttempt input attemptLifetimeMs =>
      refine enters (fun _ => enters fun _ phase henter => ?_) phase henter
      cases henter
      trivial
    | rotatePimScope input nextVersion =>
      refine enters (fun _ => enters fun _ phase henter => ?_) phase henter
      cases henter
      trivial
    | publishPimObservations input value limits =>
      refine enters (fun _ => enters fun _ phase henter => ?_) phase henter
      split at henter
      · cases henter
        exact told_quiet rfl
      · cases henter
        split
        · exact told_quiet rfl
        · trivial
    | recordPimTerminalFailure input value limits =>
      refine enters (fun _ => enters fun _ => enters fun _ phase henter => ?_) phase henter
      cases henter
      trivial
    | write w =>
      cases henter
      trivial

/-- Where the move of a session leads. -/
def Leads (db : PimDb) (i : Nat) (held : List (Lock × Mode)) : Move Lock PimDb Phase Draw → Prop
  | .acquire lock mode after => Knows db i ⟨after db, (lock, mode) :: held⟩
  | .observe after => Knows db i ⟨after db, held⟩
  | .commit write => ∀ x db' next, write i x db = some (db', next) → Commits db held x db' next
  | .rest => True

theorem reject_leads (reason : PimReason) : Leads db i held (reject reason) := by
  intro x db' next hwrite
  cases hwrite
  exact .rejected reason

theorem move_leads (env : Env) (knows : Knows db i ⟨phase, held⟩) (sound : Sound db) :
    Leads db i held (move env phase) := by
  cases phase with
  | arrived call => exact enter_knows (i := i) call
  | waiting w => exact mem_cons_self
  | locked w => exact ⟨knows, rfl⟩
  | authorized w current =>
    cases current with
    | none => exact reject_leads _
    | some a =>
      simp only [move]
      split
      · next hrevision =>
        exact ⟨⟨mem_cons_of_mem _ knows.1, knows.2, hrevision⟩, mem_cons_self, rfl⟩
      · exact reject_leads _
  | tenant w current tenant =>
    obtain ⟨hauthorized, hlocked, htenant⟩ := knows
    simp only [move]
    split
    · next hhome =>
      have hsame : w.identity.toDirectoryControlIdentity =
          db.tenant.toDirectoryControlIdentity := by rw [htenant, hhome.1]
      refine ⟨hauthorized.cons _, ⟨mem_cons_of_mem _ hlocked, ?_⟩, mem_cons_self, rfl⟩
      exact ⟨congrArg DirectoryRoles.DirectoryControlIdentity.customerTenantId hsame,
        congrArg DirectoryRoles.DirectoryControlIdentity.organizationId hsame⟩
    · exact reject_leads _
  | ready w current connection =>
    obtain ⟨⟨_, hauthority, hrevision⟩, ⟨_, hhome⟩, _, hconnection⟩ := knows
    simp only [move]
    split
    · exact reject_leads _
    · next incarnation hincarnation =>
      intro x db' next hwrite
      simp only at hwrite
      split at hwrite
      · rename_i hadmits
        obtain ⟨⟨done, result⟩, htransact, hnext⟩ := map_eq_some_iff.mp hwrite
        cases hnext
        obtain ⟨c, hc, hcincarnation⟩ := bind_eq_some_iff.mp hincarnation
        have hconnected : db.connection.bind Connection.incarnation = some incarnation := by
          rw [hconnection, (filter_eq_some_iff.mp hc).1, bind_some]
          exact hcincarnation
        have hrevised : db.authority.map ManagedAuthority.configurationRevision =
            some w.identity.configurationRevision := by
          rw [hauthority, map_some, hrevision]
        exact .worked w current incarnation done result hadmits htransact
          (transact_effect (sound.advance hadmits).1 hhome hrevised hconnected htransact)
      · cases hwrite
  | writing w => exact mem_cons_self
  | holding w =>
    intro x db' next hwrite
    cases hwrite
    exact .wrote w knows
  | finished result => trivial
  | failed => trivial

theorem commit_cases (hmove : move env phase = .commit write)
    (hwrite : write i x db = some (db', next)) (knows : Knows db i ⟨phase, held⟩)
    (sound : Sound db) : Commits db held x db' next := by
  have hleads := move_leads env knows sound
  rw [hmove] at hleads
  exact hleads x db' next hwrite

theorem discipline (env : Env) : Discipline (program env) 0 Sound Knows where
  start {db i p} _ _ hstarts := by
    cases p <;> trivial
  acquire {db i t lock mode next} hsound hknows hmove := by
    have hleads := move_leads env hknows hsound
    rwa [show move env t.phase = _ from hmove] at hleads
  observe {db i t next} hsound hknows hmove := by
    have hleads := move_leads env hknows hsound
    rwa [show move env t.phase = _ from hmove] at hleads
  commit {db i t write x db' p} hsound hknows hmove hwrite := by
    have hcommit := (commit_cases hmove hwrite hknows hsound).sound (i := i) hsound
    exact ⟨hcommit.1, hcommit.2.2.2⟩
  stable {db i t write x db' p j u} hsound hknows hmove hwrite _ hother hapart :=
    ((commit_cases hmove hwrite hknows hsound).kept hapart rfl).knows hother
  abort {db i t} _ hknows := by
    obtain ⟨phase, held⟩ := t
    cases phase with
    | finished result => exact hknows
    | _ => trivial

/-! ## Runs -/

variable {s s' : System}

theorem step_lasting {a : Action Phase Draw} (h : Holds 0 Sound Knows s)
    (hstep : step (program env) s a = some s') : Lasting s.db s'.db := by
  cases a with
  | start p =>
    simp only [step] at hstep
    split at hstep
    · cases hstep
      exact .refl s.db
    · cases hstep
  | advance i x =>
    obtain ⟨t, ht, hmove⟩ := bind_eq_some_iff.mp hstep
    split at hmove
    · split at hmove
      · cases hmove
        exact .refl s.db
      · cases hmove
    · cases hmove
      exact .refl s.db
    · rename_i write hwrite
      obtain ⟨⟨db', p⟩, hdb, rfl⟩ := map_eq_some_iff.mp hmove
      have hknows : Knows s.db i ⟨t.phase, t.held⟩ := h.known i t ht
      have hcommit := commit_cases hwrite hdb hknows h.store
      exact (hcommit.sound (i := i) h.store).2.1
    · cases hmove
  | abort i =>
    obtain ⟨t, ht, rfl⟩ := map_eq_some_iff.mp hstep
    exact .refl s.db

theorem run_lasting {as : List (Action Phase Draw)} (h : Holds 0 Sound Knows s)
    (hrun : Runs.run (step (program env)) s as = some s') : Lasting s.db s'.db :=
  (Runs.invariant (I := fun u => Holds 0 Sound Knows u ∧ Lasting s.db u.db)
    (fun _ _ _ hu hstep => ⟨step_holds (discipline env) hu.1 hstep,
      hu.2.trans (step_lasting hu.1 hstep)⟩) ⟨h, .refl s.db⟩ hrun).2

/-- No attempt was begun yet. -/
structure Initial (db : PimDb) : Prop where
  attempts : db.attempts = []
  observations : db.observations = []
  commits : db.commits = []

theorem Initial.sound (h : Initial db) : Sound db := by
  have hattempts : ∀ r, r ∉ db.attempts := by simp [h.attempts]
  have hcommits : ∀ c, c ∉ db.commits := by simp [h.commits]
  have hlog : ∀ plane, commitsOf plane db.commits = [] := by
    intro plane
    rw [h.commits]
    rfl
  refine ⟨?_, fun r hr => absurd hr (hattempts r), fun r hr => absurd hr (hattempts r),
    fun r hr => absurd hr (hattempts r), fun r hr => absurd hr (hattempts r),
    fun r hr => absurd hr (hattempts r), fun c hc => absurd hc (hcommits c),
    fun r hr => absurd hr (hattempts r), ?_, fun r hr => absurd hr (hattempts r), ?_,
    fun c hc => absurd hc (hcommits c), ?_, fun c hc => absurd hc (hcommits c), ?_⟩
  · rw [h.attempts]
    exact nodup_nil
  · intro plane c hc
    rw [hlog plane] at hc
    cases hc
  · intro o ho
    rw [h.observations] at ho
    cases ho
  · rw [h.commits]
    exact List.Pairwise.nil
  · intro plane
    rw [hlog plane]
    trivial

/-- The publication of a tenant is linear. -/
structure Linear (env : Env) (s : System) : Prop where
  inflight : ∀ r ∈ s.db.attempts, ∀ r' ∈ s.db.attempts, r.plane = r'.plane →
    r.terminalAt = none → r'.terminalAt = none → r = r'
  current : ∀ r ∈ s.db.attempts, ∀ r' ∈ s.db.attempts, r.plane = r'.plane →
    r.isCurrent = true → r'.isCurrent = true → r = r'
  latest : ∀ r ∈ s.db.attempts, (r.isCurrent = true ↔
    ∃ c rest, commitsOf r.plane s.db.commits = c :: rest ∧ c.row = r ∧
      r.outcome = some .committed ∧ ∀ d ∈ rest, d.at' ≤ c.at')
  logged : ∀ r ∈ s.db.attempts,
    (r.outcome = some .committed ↔ ∃ c ∈ s.db.commits, c.row = r.asCurrent)
  lasting : ∀ as s', Runs.run (step (program env)) s as = some s' →
    ∀ r ∈ s.db.attempts, r.outcome ≠ none →
      ∃ r' ∈ s'.db.attempts, r' = { r with isCurrent := r'.isCurrent }
  bound : ∀ c ∈ s.db.commits, c.Bound
  observed : ∀ r ∈ s.db.attempts, if r.outcome = some .committed then
      r.observedRowCount = some (s.db.observations.filter fun o => o.1 = r.id).length
    else s.db.observations.filter (fun o => o.1 = r.id) = []
  witnessed : ∀ o ∈ s.db.observations, ∃ r ∈ s.db.attempts, r.id = o.1 ∧
    r.outcome = some .committed
  repeated : ∀ row ∈ s.db.attempts, row.outcome = some .committed →
    ∀ a : PimAttempt Uuid, row.id = a.attemptId → ∀ payload connection x, s.db.admits x = true →
    ∃ receipt, receiptFromRecord row = some receipt ∧
      publishPimObservations a payload connection x (s.db.advance x) =
        some (s.db.advance x, match lockAttempt a connection s.db with
          | .error reason => .rejected reason
          | .ok _ =>
            if row.contentDigest = some payload.contentDigest ∧
                row.observedRowCount = some payload.rows.length then .replayed receipt
            else .rejected .conflict)
  told : ∀ (i : Nat) (t : Session Lock Phase) (result : Result) (receipt : PimReceipt),
    s.sessions[i]? = some t → t.phase = .finished result → result.receipt? = some receipt →
      ∃ c ∈ s.db.commits, receiptFromRecord c.row = some receipt

variable {r : PimAttemptRecord}

theorem Sound.latest_iff (h : Sound db) (hr : r ∈ db.attempts) :
    r.isCurrent = true ↔ ∃ c rest, commitsOf r.plane db.commits = c :: rest ∧ c.row = r ∧
      r.outcome = some .committed ∧ ∀ d ∈ rest, d.at' ≤ c.at' := by
  constructor
  · intro hcurrent
    obtain ⟨c, hc, hrow⟩ := h.current r hr hcurrent
    obtain ⟨rest, hrest⟩ := List.head?_eq_some_iff.mp hc
    refine ⟨c, rest, hrest, hrow, h.committed_of_current hr hcurrent, ?_⟩
    have hordered := h.ordered.filter (fun c => c.row.plane = r.plane)
    have hcons : (c :: rest).Pairwise fun c d => d.at' ≤ c.at' := hrest ▸ hordered
    exact (pairwise_cons.mp hcons).1
  · rintro ⟨c, rest, hlog, rfl, -, -⟩
    have hhead : c ∈ (commitsOf c.row.plane db.commits).head? := by rw [hlog]; rfl
    exact (h.committed_of_latest hhead).2.2.2

theorem Sound.current_unique (h : Sound db) {r' : PimAttemptRecord} (hr : r ∈ db.attempts)
    (hr' : r' ∈ db.attempts) (hplane : r.plane = r'.plane) (hcurrent : r.isCurrent = true)
    (hcurrent' : r'.isCurrent = true) : r = r' := by
  obtain ⟨c, hc, rfl⟩ := h.current r hr hcurrent
  obtain ⟨d, hd, rfl⟩ := h.current r' hr' hcurrent'
  rw [hplane] at hc
  rw [Option.mem_unique hc hd]

theorem Sound.observed_of (h : Sound db) (hr : r ∈ db.attempts) :
    if r.outcome = some .committed then
      r.observedRowCount = some (db.observations.filter fun o => o.1 = r.id).length
    else db.observations.filter (fun o => o.1 = r.id) = [] := by
  have hcount := h.observed r hr
  split
  · rename_i hcommitted
    obtain ⟨c, hc, hrow⟩ := h.logged r hr hcommitted
    have hreceipt := (h.bound c hc).receipt
    have hsame : receiptFromRecord c.row = receiptFromRecord r := by rw [hrow]; rfl
    cases hrows : r.observedRowCount with
    | none =>
      rw [hsame, receiptFromRecord, hrows] at hreceipt
      split at hreceipt
      · cases hr₁ : r.committedAt <;> cases hr₂ : r.contentChangedAt <;>
          cases hr₃ : r.contentDigest <;> simp [hr₁, hr₂, hr₃] at hreceipt
      · cases hreceipt
    | some n => rw [hcount, hrows, getD_some]
  · rename_i hcommitted
    rw [((h.shape r hr).unset hcommitted).1] at hcount
    exact length_eq_zero_iff.mp hcount

theorem Holds.linear (h : Holds 0 Sound Knows s) : Linear env s where
  inflight r hr r' hr' hplane hrunning hrunning' :=
    h.store.unique hr hr' (h.store.single r hr r' hr' hplane hrunning hrunning')
  current r hr r' hr' hplane hcurrent hcurrent' :=
    h.store.current_unique hr hr' hplane hcurrent hcurrent'
  latest r hr := h.store.latest_iff hr
  logged r hr := by
    refine ⟨h.store.logged r hr, ?_⟩
    rintro ⟨c, hc, hrow⟩
    have houtcome : c.row.outcome = r.outcome := by rw [hrow]; rfl
    exact houtcome ▸ (h.store.bound c hc).outcome
  lasting as s' hrun r hr hended := by
    obtain ⟨r', hr', hadvances⟩ := run_lasting h hrun r hr
    exact ⟨r', hr', hadvances.ended hended⟩
  bound := h.store.bound
  observed r hr := h.store.observed_of hr
  witnessed := h.store.witnessed
  repeated row hrow hcommitted a hid payload connection x hadmits :=
    (h.store.advance hadmits).1.repeats hrow hcommitted hid payload connection x
  told i t result receipt ht hphase hreceipt := by
    have hknown := h.known i t ht
    rw [Knows, hphase] at hknown
    exact hknown receipt hreceipt

end Sessions

/-- The current commit is the first of its run, or the first was made on a whole millisecond. -/
def Exact (c : Commit) (rest : List Commit) : Prop :=
  (∀ d ∈ rest.head?, d.digest ≠ c.digest) ∨ (runStart c rest).at' % 1000 = 0

theorem changedAt_iff {c : Commit} {rest : List Commit} (h : Chained (c :: rest)) :
    c.row.contentChangedAt = some (runStart c rest).at' ↔ Exact c rest := by
  rw [changedAt_runStart h, Option.some.injEq, Exact]
  cases rest with
  | nil => simp [runStart]
  | cons d rest =>
    by_cases hsame : d.digest = c.digest
    · simp only [head?_cons, mem_some_iff, forall_eq', ne_eq, hsame,
        not_true_eq_false, false_or]
      exact ofDate_toDate_eq _
    · simp [hsame, runStart]

/-- Publication is linear, and the column says when the content changed just when the first commit
of the run was made on a whole millisecond, if it is not the current one. -/
theorem publication_linear (env : Env) (db : PimDb) (init : Initial db)
    (actions : List (Action Phase Draw)) (s : System)
    (hrun : Runs.run (step (program env)) ⟨db, []⟩ actions = some s) :
    Linear env s ∧ ∀ plane c rest, commitsOf plane s.db.commits = c :: rest →
      (c.row.contentChangedAt = some (runStart c rest).at' ↔ Exact c rest) := by
  have hholds := run_holds (discipline env) (holds_initial init.sound) hrun
  refine ⟨Holds.linear hholds, ?_⟩
  intro plane c rest hlog
  have hchained := hholds.store.chained plane
  rw [hlog] at hchained
  exact changedAt_iff hchained

/-! ## A sample -/

namespace Sample

def env : Env where
  copyPreparedPim _ value _ := some value
  copyPimFailure value _ := some value

def numbered (n : UInt16) : Uuid :=
  let text := ((js "0b000000-0000-4000-8000-0000000000").concat (0x30 + n / 10)).concat
    (0x30 + n % 10)
  if h : isUuid text = true then ⟨text, h⟩
  else ⟨js "0b000000-0000-4000-8000-000000000000", by decide⟩

def db : PimDb where
  authority := some ⟨numbered 1, numbered 2, numbered 3, []⟩
  tenant := ⟨⟨numbered 4, numbered 5, numbered 6⟩, .active⟩
  connection := some ⟨some (numbered 7), .connected, .hawkviewManaged⟩
  scopes := []
  attempts := []
  envelopes := []
  observations := []
  wireFailures := []
  clock := 0
  drawn := []
  commits := []

def limits : PimLimits := ⟨1, 1, 1, 1, 1, 1, 1, 1, 1, 1, 1, 1⟩

def request : PimCaptureRequest where
  organizationId := (numbered 4).text
  customerTenantId := (numbered 5).text
  microsoftTenantId := (numbered 6).text
  plane := .active
  scopeVersion := js "v1"
  attemptLifetimeMs := 60000

/-- The attempt that is captured at the time, in the scope of the first capture. -/
def attempt (id : UInt16) (at' : Int) : PimAttempt JsString where
  organizationId := (numbered 4).text
  customerTenantId := (numbered 5).text
  microsoftTenantId := (numbered 6).text
  configurationRevision := (numbered 1).text
  plane := .active
  connectionIncarnation := (numbered 7).text
  scopeId := (numbered 8).text
  scopeIncarnation := (numbered 9).text
  scopeVersion := js "v1"
  endpointDescriptor := PIM_ENDPOINTS .active
  projectionIdentity := PIM_PROJECTION
  attemptId := (numbered id).text
  startedAt := at'
  expiresAt := at' + 60000

def collection : PreparedPimCollection where
  envelopes := []
  rows := [⟨0, none, .active, .null, .null, .null, none, none⟩]
  contentDigest := js "d"

/-- A draw at the time, in microseconds. -/
def draw (at' : Micros) (a b c : UInt16) : Draw := ⟨at', at', numbered a, numbered b, numbered c⟩

/-- A call with its six moves, of which the last one commits. -/
def performed (i : Nat) (call : Call) (x : Draw) : List (Action Phase Draw) :=
  .start (.arrived call) :: List.replicate 6 (.advance i x)

/-- Two attempts that publish one content, each half a millisecond after a whole one. -/
def actions : List (Action Phase Draw) :=
  performed 0 (.capturePimAttempt request) (draw 1000000 8 9 10) ++
    performed 1 (.publishPimObservations (attempt 10 1000) collection limits)
      (draw 2000500 11 12 13) ++
    performed 2 (.capturePimAttempt request) (draw 3000000 14 15 16) ++
    performed 3 (.publishPimObservations (attempt 16 3000) collection limits)
      (draw 4000500 17 18 19)

end Sample

open Sample in
theorem publication_linear_twice : ∃ s,
    Runs.run (step (program env)) ⟨db, []⟩ actions = some s ∧ s.db.commits.length = 2 ∧
      Linear env s := by
  have hrun : (Runs.run (step (program env)) ⟨db, []⟩ actions).map (·.db.commits.length) =
      some 2 := by decide +kernel
  obtain ⟨s, hs, hlength⟩ := map_eq_some_iff.mp hrun
  exact ⟨s, hs, hlength, (publication_linear env db ⟨rfl, rfl, rfl⟩ actions s hs).1⟩

/-- What the current commit of a plane says of when the content changed, and the truth. -/
def changes (plane : PimPlane) (s : System) : Option Micros × Option Micros :=
  match commitsOf plane s.db.commits with
  | [] => (none, none)
  | c :: rest => (c.row.contentChangedAt, some (runStart c rest).at')

open Sample in
/-- The second commit carries the time of the first one over without its microseconds. -/
theorem changed_at_truncated : ¬ ∀ (env : Env) (db : PimDb) (_ : Initial db)
    (actions : List (Action Phase Draw)) (s : System),
    Runs.run (step (program env)) ⟨db, []⟩ actions = some s →
    ∀ plane, (changes plane s).1 = (changes plane s).2 := by
  intro h
  have hrun : (Runs.run (step (program env)) ⟨db, []⟩ actions).map (changes .active) =
      some (some 2000000, some 2000500) := by decide +kernel
  obtain ⟨s, hs, hchanges⟩ := map_eq_some_iff.mp hrun
  have hequal := h env db ⟨rfl, rfl, rfl⟩ actions s hs .active
  rw [hchanges] at hequal
  cases hequal

end PimSchedule
