import HawkView.Tenants.PimScheduleStore

/-!
# What the attempts of a tenant keep

The log of the commits says what the rows are: the current attempt of a plane is
the one committed last, and every other committed row is as its commit left it.
-/

namespace PimSchedule

open List Option

open ManagedConnectorAuthority
open DirectoryRoles (Micros Tenant Connection)

/-! ## Commits -/

def Commit.at' (c : Commit) : Micros := c.row.committedAt.getD 0

def Commit.digest (c : Commit) : Option JsString := c.row.contentDigest

/-- The commits of a plane, the latest first. -/
def commitsOf (plane : PimPlane) (commits : List Commit) : List Commit :=
  commits.filter fun c => c.row.plane = plane

/-- The first commit of the run of commits with one digest that ends with `c`. -/
def runStart (c : Commit) : List Commit → Commit
  | [] => c
  | d :: rest => if d.digest = c.digest then runStart d rest else c

/-- A commit carries over when the content changed, or is when it changed. -/
def Chained : List Commit → Prop
  | [] => True
  | [c] => c.row.contentChangedAt = some c.at'
  | c :: d :: rest =>
    c.row.contentChangedAt = (if d.digest = c.digest then
      d.row.contentChangedAt.map fun t => ofDate (toDate t) else some c.at') ∧ Chained (d :: rest)

/-- The commit was made before the deadline, under what the attempt was begun with. -/
structure Commit.Bound (c : Commit) : Prop where
  committedAt : c.row.committedAt = some c.at'
  deadline : c.at' < c.row.expiresAt
  authority : c.authority = some c.row.configurationRevision
  connection : c.connection = some c.row.connectionIncarnation
  scope : ∃ s, c.scope = some s ∧ s.isCurrent = true ∧ s.plane = c.row.plane ∧
    s.id = c.row.scopeId ∧ s.scopeIncarnation = c.row.scopeIncarnation ∧
    s.scopeVersion = c.row.scopeVersion
  outcome : c.row.outcome = some .committed
  current : c.row.isCurrent = true
  receipt : (receiptFromRecord c.row).isSome

theorem ofDate_toDate (t : Micros) : ofDate (toDate (ofDate (toDate t))) = ofDate (toDate t) := by
  have hexact : toDate (ofDate (toDate t)) = toDate t := Int.mul_ediv_cancel _ (by decide)
  rw [hexact]

theorem ofDate_toDate_eq (t : Int) : ofDate (toDate t) = t ↔ t % 1000 = 0 := by
  show t / 1000 * 1000 = t ↔ t % 1000 = 0
  constructor <;> intro h <;> omega

/-- When the content changed is the time of the first commit of the run, to the millisecond unless
it is the commit itself. -/
theorem changedAt_runStart {c : Commit} {rest : List Commit} (h : Chained (c :: rest)) :
    c.row.contentChangedAt = some (match rest with
      | [] => c.at'
      | d :: _ => if d.digest = c.digest then ofDate (toDate (runStart c rest).at') else c.at') := by
  induction rest generalizing c with
  | nil => exact h
  | cons d rest ih =>
    obtain ⟨hchanged, htail⟩ := h
    simp only
    by_cases hsame : d.digest = c.digest
    · have hbefore := ih htail
      simp only [if_pos hsame, runStart] at hchanged ⊢
      rw [hchanged, hbefore, map_some]
      cases rest with
      | nil => rfl
      | cons e rest =>
        by_cases hearlier : e.digest = d.digest
        · simp only [if_pos hearlier, ofDate_toDate]
        · simp only [if_neg hearlier, runStart]
    · rw [if_neg hsame] at hchanged ⊢
      exact hchanged

/-! ## Rows -/

/-- The row is of the tenant. -/
def Home (tenant : Tenant) (who : PimIdentity Uuid) : Prop :=
  who.customerTenantId = tenant.customerTenantId ∧ who.organizationId = tenant.organizationId

/-- The columns of a running row, and those that tell the outcomes apart. -/
structure PimAttemptRecord.Shaped (r : PimAttemptRecord) : Prop where
  running : r.terminalAt = none ↔ r.outcome = none
  unset : r.outcome ≠ some .committed → r.observedRowCount = none ∧ r.isCurrent = false

/-- The row as its commit left it. -/
def PimAttemptRecord.asCurrent (r : PimAttemptRecord) : PimAttemptRecord :=
  { r with isCurrent := true }

/-- How a row may change: it keeps what it was begun with, and an ended one all but whether it is
current. -/
structure Advances (r r' : PimAttemptRecord) : Prop where
  context : r'.toPimContext = r.toPimContext
  id : r'.id = r.id
  startedAt : r'.startedAt = r.startedAt
  expiresAt : r'.expiresAt = r.expiresAt
  ended : r.outcome ≠ none → r' = { r with isCurrent := r'.isCurrent }

theorem Advances.refl (r : PimAttemptRecord) : Advances r r := ⟨rfl, rfl, rfl, rfl, fun _ => rfl⟩

theorem Advances.trans {r r' r'' : PimAttemptRecord} (h : Advances r r') (h' : Advances r' r'') :
    Advances r r'' where
  context := h'.context.trans h.context
  id := h'.id.trans h.id
  startedAt := h'.startedAt.trans h.startedAt
  expiresAt := h'.expiresAt.trans h.expiresAt
  ended hended := by
    have hfirst := h.ended hended
    have houtcome : r'.outcome = r.outcome := by rw [hfirst]
    have hsecond := h'.ended (houtcome ▸ hended)
    rw [hsecond, hfirst]

structure Sound (db : PimDb) : Prop where
  distinct : (db.attempts.map PimAttemptRecord.id).Nodup
  drawn : ∀ r ∈ db.attempts, r.id ∈ db.drawn
  home : ∀ r ∈ db.attempts, Home db.tenant r.toPimIdentity
  shape : ∀ r ∈ db.attempts, r.Shaped
  single : ∀ r ∈ db.attempts, ∀ s ∈ db.attempts, r.plane = s.plane → r.terminalAt = none →
    s.terminalAt = none → r.id = s.id
  logged : ∀ r ∈ db.attempts, r.outcome = some .committed →
    ∃ c ∈ db.commits, c.row = r.asCurrent
  retained : ∀ c ∈ db.commits, ∃ r ∈ db.attempts, c.row = r.asCurrent
  current : ∀ r ∈ db.attempts, r.isCurrent = true →
    ∃ c ∈ (commitsOf r.plane db.commits).head?, c.row = r
  latest : ∀ plane, ∀ c ∈ (commitsOf plane db.commits).head?, c.row ∈ db.attempts
  observed : ∀ r ∈ db.attempts,
    (db.observations.filter fun o => o.1 = r.id).length = r.observedRowCount.getD 0
  witnessed : ∀ o ∈ db.observations, ∃ r ∈ db.attempts, r.id = o.1 ∧ r.outcome = some .committed
  bound : ∀ c ∈ db.commits, c.Bound
  ordered : db.commits.Pairwise fun c d => d.at' ≤ c.at'
  elapsed : ∀ c ∈ db.commits, c.at' ≤ db.clock
  chained : ∀ plane, Chained (commitsOf plane db.commits)

/-! ## Attempts that end -/

/-- What a retirement or a failure does to a row. -/
inductive Ends (r : PimAttemptRecord) : PimAttemptRecord → Prop
  | same : Ends r r
  | abandoned (at' : Micros) (running : r.terminalAt = none) : Ends r (r.abandon at')
  | failed (payload : PimFailure) (at' : Micros) (running : r.terminalAt = none) :
      Ends r (r.fail payload at')

section Rows

variable {db : PimDb} {r r' s : PimAttemptRecord} {x : Draw}

section

variable (h : Ends r r')
include h

theorem Ends.advances (shape : r.Shaped) : Advances r r' := by
  cases h with
  | same => exact .refl r
  | abandoned at' running =>
    exact ⟨rfl, rfl, rfl, rfl, fun hended => absurd (shape.running.mp running) hended⟩
  | failed payload at' running =>
    exact ⟨rfl, rfl, rfl, rfl, fun hended => absurd (shape.running.mp running) hended⟩

theorem Ends.running (running : r'.terminalAt = none) : r' = r := by
  cases h with
  | same => rfl
  | abandoned at' => cases running
  | failed payload at' => cases running

theorem Ends.committed (committed : r'.outcome = some .committed) : r' = r := by
  cases h with
  | same => rfl
  | abandoned at' => cases committed
  | failed payload at' => cases committed

theorem Ends.fixed (shape : r.Shaped) (committed : r.outcome = some .committed) :
    r' = r := by
  have hended : r.terminalAt ≠ none := by
    intro hnone
    rw [shape.running.mp hnone] at committed
    cases committed
  cases h with
  | same => rfl
  | abandoned at' running => exact absurd running hended
  | failed payload at' running => exact absurd running hended

theorem Ends.isCurrent : r'.isCurrent = r.isCurrent := by cases h <;> rfl

theorem Ends.observed : r'.observedRowCount = r.observedRowCount := by
  cases h <;> rfl

theorem Ends.shape (shape : r.Shaped) : r'.Shaped := by
  cases h with
  | same => exact shape
  | abandoned at' running =>
    have hunset := shape.unset (by rw [shape.running.mp running]; nofun)
    exact ⟨⟨nofun, nofun⟩, fun _ => hunset⟩
  | failed payload at' running =>
    have hunset := shape.unset (by rw [shape.running.mp running]; nofun)
    exact ⟨⟨nofun, nofun⟩, fun _ => hunset⟩

end

theorem Sound.unique (h : Sound db) (hr : r ∈ db.attempts) (hs : s ∈ db.attempts)
    (hid : r.id = s.id) : r = s := inj_on_of_nodup_map h.distinct hr hs hid

theorem Sound.committed_of_current (h : Sound db) (hr : r ∈ db.attempts)
    (hcurrent : r.isCurrent = true) : r.outcome = some .committed := by
  by_contra hne
  rw [((h.shape r hr).unset hne).2] at hcurrent
  cases hcurrent

variable {c : Commit}

theorem Sound.committed_of_latest (h : Sound db) {plane : PimPlane}
    (hc : c ∈ (commitsOf plane db.commits).head?) :
    c ∈ db.commits ∧ c.row.plane = plane ∧ c.row.outcome = some .committed ∧
      c.row.isCurrent = true := by
  obtain ⟨hmem, hplane⟩ := mem_filter.mp (mem_of_mem_head? hc)
  have hbound := h.bound c hmem
  exact ⟨hmem, of_decide_eq_true hplane, hbound.outcome, hbound.current⟩

theorem Sound.ends (h : Sound db) {f : PimAttemptRecord → PimAttemptRecord}
    (hends : ∀ r ∈ db.attempts, Ends r (f r)) (scopes : List PimScopeRecord)
    (envelopes : List (Uuid × ParsedEnvelope)) (wireFailures : List (Uuid × WireFailure)) :
    Sound { db with attempts := db.attempts.map f, scopes, envelopes, wireFailures } := by
  have hadvances : ∀ r ∈ db.attempts, Advances r (f r) :=
    fun r hr => (hends r hr).advances (h.shape r hr)
  have hkept : ∀ r ∈ db.attempts, r.outcome = some .committed → r ∈ db.attempts.map f := by
    intro r hr hcommitted
    exact mem_map.mpr ⟨r, hr, (hends r hr).fixed (h.shape r hr) hcommitted⟩
  refine ⟨?_, ?_, ?_, ?_, ?_, ?_, ?_, ?_, ?_, ?_, ?_, h.bound, h.ordered, h.elapsed, h.chained⟩
  · have hids : (db.attempts.map f).map PimAttemptRecord.id =
        db.attempts.map PimAttemptRecord.id := by
      rw [List.map_map]
      exact map_congr_left fun r hr => (hadvances r hr).id
    exact hids ▸ h.distinct
  · intro r' hr'
    obtain ⟨r, hr, rfl⟩ := mem_map.mp hr'
    rw [(hadvances r hr).id]
    exact h.drawn r hr
  · intro r' hr'
    obtain ⟨r, hr, rfl⟩ := mem_map.mp hr'
    rw [(hadvances r hr).context]
    exact h.home r hr
  · intro r' hr'
    obtain ⟨r, hr, rfl⟩ := mem_map.mp hr'
    exact (hends r hr).shape (h.shape r hr)
  · intro r' hr' s' hs' hplane hrunning hrunning'
    obtain ⟨r, hr, rfl⟩ := mem_map.mp hr'
    obtain ⟨s, hs, rfl⟩ := mem_map.mp hs'
    have hfixed := (hends r hr).running hrunning
    have hfixed' := (hends s hs).running hrunning'
    rw [hfixed] at hplane hrunning ⊢
    rw [hfixed'] at hplane hrunning' ⊢
    exact h.single r hr s hs hplane hrunning hrunning'
  · intro r' hr' hcommitted
    obtain ⟨r, hr, rfl⟩ := mem_map.mp hr'
    have hfixed := (hends r hr).committed hcommitted
    rw [hfixed] at hcommitted ⊢
    exact h.logged r hr hcommitted
  · intro c hc
    obtain ⟨r, hr, hrow⟩ := h.retained c hc
    have hcommitted : r.outcome = some .committed := by
      have hsame : c.row.outcome = r.outcome := by rw [hrow]; rfl
      exact hsame ▸ (h.bound c hc).outcome
    exact ⟨r, hkept r hr hcommitted, hrow⟩
  · intro r' hr' hcurrent
    obtain ⟨r, hr, rfl⟩ := mem_map.mp hr'
    rw [(hends r hr).isCurrent] at hcurrent
    rw [(hends r hr).fixed (h.shape r hr) (h.committed_of_current hr hcurrent)]
    exact h.current r hr hcurrent
  · intro plane c hc
    exact hkept _ (h.latest plane c hc) (h.committed_of_latest hc).2.2.1
  · intro r' hr'
    obtain ⟨r, hr, rfl⟩ := mem_map.mp hr'
    rw [(hadvances r hr).id, (hends r hr).observed]
    exact h.observed r hr
  · intro o ho
    obtain ⟨r, hr, hid, hcommitted⟩ := h.witnessed o ho
    exact ⟨r, hkept r hr hcommitted, hid, hcommitted⟩

/-! ## An attempt that begins -/

theorem Sound.begins (h : Sound db) {ctx : PimContext Uuid} {lifetimeMs : Int}
    (drawn : x.attemptId ∈ db.drawn) (fresh : ∀ r ∈ db.attempts, r.id ≠ x.attemptId)
    (home : Home db.tenant ctx.toPimIdentity)
    (free : ∀ r ∈ db.attempts, r.plane = ctx.plane → r.terminalAt ≠ none) :
    Sound { db with attempts := db.attempts ++ [begunAttempt ctx lifetimeMs x] } := by
  have hcases : ∀ r ∈ db.attempts ++ [begunAttempt ctx lifetimeMs x],
      r ∈ db.attempts ∨ r = begunAttempt ctx lifetimeMs x := by
    intro r hr
    rcases mem_append.mp hr with hr | hr
    · exact .inl hr
    · exact .inr (mem_singleton.mp hr)
  refine ⟨?_, ?_, ?_, ?_, ?_, ?_, ?_, ?_, ?_, ?_, ?_, h.bound, h.ordered, h.elapsed, h.chained⟩
  · rw [map_append, nodup_append]
    refine ⟨h.distinct, nodup_singleton _, ?_⟩
    intro id hid id' hid'
    obtain ⟨r, hr, rfl⟩ := mem_map.mp hid
    rw [mem_singleton.mp hid']
    exact fresh r hr
  · intro r hr
    rcases hcases r hr with hr | rfl
    · exact h.drawn r hr
    · exact drawn
  · intro r hr
    rcases hcases r hr with hr | rfl
    · exact h.home r hr
    · exact home
  · intro r hr
    rcases hcases r hr with hr | rfl
    · exact h.shape r hr
    · exact ⟨⟨fun _ => rfl, fun _ => rfl⟩, fun _ => ⟨rfl, rfl⟩⟩
  · intro r hr s hs hplane hrunning hrunning'
    rcases hcases r hr with hr | rfl
    · rcases hcases s hs with hs | rfl
      · exact h.single r hr s hs hplane hrunning hrunning'
      · exact absurd hrunning (free r hr hplane)
    · rcases hcases s hs with hs | rfl
      · exact absurd hrunning' (free s hs hplane.symm)
      · rfl
  · intro r hr hcommitted
    rcases hcases r hr with hr | rfl
    · exact h.logged r hr hcommitted
    · cases hcommitted
  · intro c hc
    obtain ⟨r, hr, hrow⟩ := h.retained c hc
    exact ⟨r, mem_append_left _ hr, hrow⟩
  · intro r hr hcurrent
    rcases hcases r hr with hr | rfl
    · exact h.current r hr hcurrent
    · cases hcurrent
  · intro plane c hc
    exact mem_append_left _ (h.latest plane c hc)
  · intro r hr
    rcases hcases r hr with hr | rfl
    · exact h.observed r hr
    · have hnone : db.observations.filter (fun o => o.1 = x.attemptId) = [] := by
        rw [filter_eq_nil_iff]
        intro o ho hid
        obtain ⟨r, hr, hrid, _⟩ := h.witnessed o ho
        exact fresh r hr (hrid.trans (of_decide_eq_true hid))
      exact congrArg List.length hnone
  · intro o ho
    obtain ⟨r, hr, hid⟩ := h.witnessed o ho
    exact ⟨r, mem_append_left _ hr, hid⟩

/-! ## An attempt that commits -/

/-- The rows after a commit: the attempt is the current one of its plane. -/
def publishRow (row done r : PimAttemptRecord) : PimAttemptRecord :=
  if r.id = row.id then done
  else if r.plane = row.plane then { r with isCurrent := false } else r

theorem publishRow_same (row done : PimAttemptRecord) : publishRow row done row = done :=
  if_pos rfl

variable {row : PimAttemptRecord}

/-- A row of another attempt only stops to be the current one. -/
theorem publishRow_other (done : PimAttemptRecord) (hne : r.id ≠ row.id) :
    publishRow row done r = { r with isCurrent := (publishRow row done r).isCurrent } ∧
      ((publishRow row done r).isCurrent = true → r.plane ≠ row.plane ∧
        publishRow row done r = r) := by
  unfold publishRow
  rw [if_neg hne]
  split
  · exact ⟨rfl, nofun⟩
  · rename_i hplane
    exact ⟨rfl, fun _ => ⟨hplane, rfl⟩⟩

theorem chained_cons {rest : List Commit} (h : Chained rest)
    (changed : c.row.contentChangedAt = some
      ((unchangedAt (rest.head?.map Commit.row) (c.digest.getD [])).getD c.at'))
    (digest : c.digest.isSome) : Chained (c :: rest) := by
  obtain ⟨value, hvalue⟩ := isSome_iff_exists.mp digest
  rw [hvalue, getD_some] at changed
  cases rest with
  | nil => exact changed
  | cons d rest =>
    refine ⟨?_, h⟩
    have hsome := changedAt_runStart h
    have hprevious : unchangedAt (some d.row) value = if d.digest = some value then
        d.row.contentChangedAt.map fun t => ofDate (toDate t) else none := rfl
    rw [head?_cons, map_some, hprevious] at changed
    rw [changed, hvalue]
    split
    · rw [hsome, map_some, getD_some]
    · rfl

theorem commitsOf_cons (c : Commit) (commits : List Commit) (plane : PimPlane) :
    commitsOf plane (c :: commits) =
      if c.row.plane = plane then c :: commitsOf plane commits else commitsOf plane commits := by
  unfold commitsOf
  rw [filter_cons]
  simp only [decide_eq_true_eq]

theorem Sound.publishes (h : Sound db) (hrow : row ∈ db.attempts)
    (running : row.terminalAt = none) {payload : PreparedPimCollection}
    (commit : c.row = row.commit payload
      (unchangedAt ((commitsOf row.plane db.commits).head?.map Commit.row)
        payload.contentDigest) x.second)
    (bound : c.Bound) (later : ∀ d ∈ db.commits, d.at' ≤ c.at') (elapsed : c.at' ≤ db.clock)
    (place : ParsedObservationRow → ParsedObservationRow)
    (envelopes : List (Uuid × ParsedEnvelope)) :
    Sound { db with
      attempts := db.attempts.map (publishRow row c.row)
      observations := db.observations ++ payload.rows.map fun o => (row.id, place o)
      envelopes
      commits := c :: db.commits } := by
  have hid : ∀ r, (publishRow row c.row r).id = r.id := by
    intro r
    by_cases heq : r.id = row.id
    · rw [publishRow, if_pos heq, commit]
      exact heq.symm
    · rw [(publishRow_other c.row heq).1]
  have hplane : c.row.plane = row.plane := by rw [commit]; rfl
  have hhere : publishRow row c.row row = c.row := publishRow_same row c.row
  have hcases : ∀ r' ∈ db.attempts.map (publishRow row c.row), r' = c.row ∨
      ∃ r ∈ db.attempts, r.id ≠ row.id ∧ publishRow row c.row r = r' := by
    intro r' hr'
    obtain ⟨r, hr, rfl⟩ := mem_map.mp hr'
    by_cases heq : r.id = row.id
    · rw [h.unique hr hrow heq, hhere]
      exact .inl rfl
    · exact .inr ⟨r, hr, heq, rfl⟩
  have hmem : c.row ∈ db.attempts.map (publishRow row c.row) :=
    mem_map.mpr ⟨row, hrow, hhere⟩
  have hother : ∀ r ∈ db.attempts, r.outcome = some .committed → r.id ≠ row.id := by
    intro r hr hcommitted heq
    rw [h.unique hr hrow heq, (h.shape row hrow).running.mp running] at hcommitted
    cases hcommitted
  refine ⟨?_, ?_, ?_, ?_, ?_, ?_, ?_, ?_, ?_, ?_, ?_, ?_, ?_, ?_, ?_⟩
  · have hids : (db.attempts.map (publishRow row c.row)).map PimAttemptRecord.id =
        db.attempts.map PimAttemptRecord.id := by
      rw [List.map_map]
      exact map_congr_left fun r _ => hid r
    exact hids ▸ h.distinct
  · intro r' hr'
    obtain ⟨r, hr, rfl⟩ := mem_map.mp hr'
    rw [hid r]
    exact h.drawn r hr
  · intro r' hr'
    rcases hcases r' hr' with rfl | ⟨r, hr, hne, rfl⟩
    · rw [commit]
      exact h.home row hrow
    · rw [(publishRow_other c.row hne).1]
      exact h.home r hr
  · intro r' hr'
    rcases hcases r' hr' with rfl | ⟨r, hr, hne, rfl⟩
    · rw [commit]
      exact ⟨⟨nofun, nofun⟩, fun hcommitted => absurd rfl hcommitted⟩
    · obtain ⟨hsame, hcurrent⟩ := publishRow_other c.row hne
      have hshape := h.shape r hr
      rw [hsame]
      refine ⟨hshape.running, fun hcommitted => ⟨(hshape.unset hcommitted).1, ?_⟩⟩
      by_contra htrue
      rw [Bool.not_eq_false] at htrue
      have hfalse := (hshape.unset hcommitted).2
      rw [← (hcurrent htrue).2, htrue] at hfalse
      cases hfalse
  · intro r' hr' s' hs' hsame hrunning hrunning'
    have hended : c.row.terminalAt ≠ none := by rw [commit]; nofun
    rcases hcases r' hr' with rfl | ⟨r, hr, hne, rfl⟩
    · exact absurd hrunning hended
    rcases hcases s' hs' with rfl | ⟨s, hs, hne', rfl⟩
    · exact absurd hrunning' hended
    rw [(publishRow_other c.row hne).1] at hsame hrunning ⊢
    rw [(publishRow_other c.row hne').1] at hsame hrunning' ⊢
    exact h.single r hr s hs hsame hrunning hrunning'
  · intro r' hr' hcommitted
    rcases hcases r' hr' with rfl | ⟨r, hr, hne, rfl⟩
    · refine ⟨c, mem_cons_self, ?_⟩
      rw [commit]
      rfl
    · rw [(publishRow_other c.row hne).1] at hcommitted ⊢
      obtain ⟨d, hd, hsame⟩ := h.logged r hr hcommitted
      exact ⟨d, mem_cons_of_mem _ hd, hsame⟩
  · intro d hd
    rcases mem_cons.mp hd with rfl | hd
    · refine ⟨_, hmem, ?_⟩
      rw [commit]
      rfl
    · obtain ⟨r, hr, hsame⟩ := h.retained d hd
      have hcommitted : r.outcome = some .committed := by
        have houtcome : d.row.outcome = r.outcome := by rw [hsame]; rfl
        exact houtcome ▸ (h.bound d hd).outcome
      refine ⟨_, mem_map_of_mem hr, ?_⟩
      rw [(publishRow_other c.row (hother r hr hcommitted)).1]
      exact hsame
  · intro r' hr' hcurrent
    rcases hcases r' hr' with rfl | ⟨r, hr, hne, rfl⟩
    · rw [commitsOf_cons, if_pos rfl]
      exact ⟨c, rfl, rfl⟩
    · obtain ⟨hdiffers, hsame⟩ := (publishRow_other c.row hne).2 hcurrent
      rw [hsame] at hcurrent ⊢
      rw [commitsOf_cons, if_neg (hplane ▸ hdiffers.symm)]
      exact h.current r hr hcurrent
  · intro plane d hd
    rw [commitsOf_cons] at hd
    split at hd
    · cases hd
      exact hmem
    · rename_i hdiffers
      obtain ⟨_, hdplane, hcommitted, _⟩ := h.committed_of_latest hd
      have hlatest := h.latest plane d hd
      refine mem_map.mpr ⟨d.row, hlatest, ?_⟩
      rw [publishRow, if_neg (hother d.row hlatest hcommitted), if_neg]
      rw [hdplane, ← hplane]
      exact fun heq => hdiffers heq.symm
  · intro r' hr'
    rw [filter_append, length_append]
    rcases hcases r' hr' with rfl | ⟨r, hr, hne, rfl⟩
    · have hold := h.observed row hrow
      have hunset := (h.shape row hrow).unset
        (by rw [(h.shape row hrow).running.mp running]; nofun)
      rw [hunset.1] at hold
      have hrowid : c.row.id = row.id := by rw [commit]; rfl
      have hcount : c.row.observedRowCount = some payload.rows.length := by rw [commit]; rfl
      rw [hrowid, hold, hcount, filter_eq_self.mpr]
      · simp
      · intro o ho
        obtain ⟨_, _, rfl⟩ := mem_map.mp ho
        exact decide_eq_true rfl
    · have hnew : (payload.rows.map fun o => (row.id, place o)).filter
          (fun o => o.1 = (publishRow row c.row r).id) = [] := by
        rw [filter_eq_nil_iff]
        intro o ho heq
        obtain ⟨_, _, rfl⟩ := mem_map.mp ho
        rw [hid] at heq
        exact hne (of_decide_eq_true heq).symm
      rw [hnew, length_nil, Nat.add_zero, (publishRow_other c.row hne).1]
      exact h.observed r hr
  · intro o ho
    rcases mem_append.mp ho with ho | ho
    · obtain ⟨r, hr, hrid, hcommitted⟩ := h.witnessed o ho
      refine ⟨_, mem_map_of_mem hr, (hid r).trans hrid, ?_⟩
      rw [(publishRow_other c.row (hother r hr hcommitted)).1]
      exact hcommitted
    · obtain ⟨_, _, rfl⟩ := mem_map.mp ho
      refine ⟨c.row, hmem, ?_, bound.outcome⟩
      rw [commit]
      rfl
  · exact forall_mem_cons.mpr ⟨bound, h.bound⟩
  · exact pairwise_cons.mpr ⟨later, h.ordered⟩
  · exact forall_mem_cons.mpr ⟨elapsed, h.elapsed⟩
  · intro plane
    rw [commitsOf_cons]
    split
    · rename_i heq
      obtain rfl : row.plane = plane := hplane.symm.trans heq
      apply chained_cons (h.chained _)
      · have hat : c.at' = x.second := by rw [Commit.at', commit]; rfl
        have hdigest : c.digest = some payload.contentDigest := by rw [Commit.digest, commit]; rfl
        rw [hat, hdigest, commit]
        rfl
      · rw [Commit.digest, commit]
        rfl
    · exact h.chained plane

end Rows

end PimSchedule
