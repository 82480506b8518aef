import HawkView.Lib.SqlWhere
import HawkView.Tenants.ScheduledSyncSelection

/-!
# The candidates of the scheduler

The query that finds the tenants to select from, and which of the tenants that
are due it leaves out.
-/

namespace ScheduledCandidates

open ScheduledSync SqlWhere List

inductive CustomerTenantStatus
  | pending | active | suspended | disconnected
  deriving DecidableEq, Repr

inductive TenantConnectionStatus
  | pendingConsent | connected | error | revoked
  deriving DecidableEq, Repr

structure TenantConnection where
  status : TenantConnectionStatus
  exchangeReadOnlyEnabledAt : Option Int
  deriving DecidableEq

/-- A tenant with its connection and its sync states, of which a unique index keeps one for
each resource. -/
structure CustomerTenant where
  id : JsString
  status : CustomerTenantStatus
  connection : Option TenantConnection
  syncStates : List SyncState
  unique : (syncStates.map SyncState.resourceType).Nodup

def CustomerTenant.candidate (t : CustomerTenant) : ScheduledTenantCandidate where
  id := t.id
  syncStates := t.syncStates
  exchangeReadOnlyEnabledAt := t.connection.bind TenantConnection.exchangeReadOnlyEnabledAt

/-! ## The query -/

def resourceType (s : SyncState) : Option SyncResourceType := some s.resourceType

def status (s : SyncState) : Option SyncStateStatus := some s.status

def someState (c : Condition SyncState) : Condition CustomerTenant :=
  someRow CustomerTenant.syncStates c

def noState (c : Condition SyncState) : Condition CustomerTenant :=
  noRow CustomerTenant.syncStates c

def connection (c : Condition TenantConnection) : Condition CustomerTenant :=
  someRow (fun t => t.connection.toList) c

/-- The rows of a resource for which its daily collection is due. -/
def dailyState (resource : SyncResourceType) (now : Int) : Condition SyncState :=
  let cutoff := now - dailyInventoryRefreshMs
  allOf [
    equals resourceType resource,
    differs status .running,
    anyOf [isNull SyncState.lastAttemptAt, isLte SyncState.lastAttemptAt now],
    anyOf [isNull SyncState.lastSuccessfulAt, isLte SyncState.lastSuccessfulAt now],
    anyOf [
      allOf [differs status .failed, isLte SyncState.lastSuccessfulAt cutoff],
      allOf [
        anyOf [equals status .failed, isNull SyncState.lastSuccessfulAt],
        anyOf [isNull SyncState.lastAttemptAt, isLte SyncState.lastAttemptAt cutoff]]]]

def dailyResourceCandidate (resource : SyncResourceType) (now : Int) :
    Condition CustomerTenant :=
  anyOf [noState (equals resourceType resource), someState (dailyState resource now)]

def retryDue (now : Int) : Condition SyncState :=
  let dailyRetryBefore := now - dailyInventoryFailureRetryMs
  anyOf [isNull SyncState.lastAttemptAt, isLt SyncState.lastAttemptAt dailyRetryBefore]

def anchorState (resource : SyncResourceType) (now : Int) : Condition SyncState :=
  let dailyStaleBefore := now - dailyInventoryRefreshMs
  allOf [
    equals resourceType resource,
    differs status .running,
    anyOf [
      allOf [equals status .failed, retryDue now],
      allOf [isNull SyncState.lastSuccessfulAt, retryDue now],
      allOf [isLt SyncState.lastSuccessfulAt dailyStaleBefore, retryDue now]]]

def usersState (now : Int) : Condition SyncState :=
  let usersStaleBefore := now - userIncrementalRefreshMs
  allOf [
    equals resourceType .users,
    anyOf [
      isNull SyncState.lastSuccessfulAt,
      isLt SyncState.lastSuccessfulAt usersStaleBefore,
      equals status .failed]]

def hourlyState (now : Int) : Condition SyncState :=
  let hourlyStaleBefore := now - hourlyInventoryRefreshMs
  allOf [
    isIn resourceType hourlyInventoryResources,
    notIn status [.running, .failed],
    isLte SyncState.lastSuccessfulAt hourlyStaleBefore]

def abandonedState (now : Int) : Condition SyncState :=
  let hourlyStaleBefore := now - hourlyInventoryRefreshMs
  allOf [
    isIn resourceType hourlyInventoryResources,
    equals status .running,
    isNull SyncState.lastErrorCode,
    isNull SyncState.lastErrorMessage,
    isLte SyncState.lastAttemptAt hourlyStaleBefore,
    anyOf [isNull SyncState.lastSuccessfulAt, isLte SyncState.lastSuccessfulAt now]]

def earlyRetryState (now : Int) : Condition SyncState :=
  let hourlyRetryBefore := now - hourlyInventoryFirstRetryMs
  allOf [
    isIn resourceType originalSevenEarlyRetryResources,
    equals status .failed,
    notIn SyncState.lastErrorCode targetedRetryExcludedErrorCodes,
    isLte SyncState.lastAttemptAt hourlyRetryBefore]

def targetedRetryState (now : Int) : Condition SyncState :=
  let targetedRetryBefore := now - targetedTransientRetryBaseMs
  allOf [
    isIn resourceType targetedTransientRetryResources,
    equals status .failed,
    notIn SyncState.lastErrorCode targetedRetryExcludedErrorCodes,
    isLt SyncState.lastAttemptAt targetedRetryBefore]

def scheduledSyncTenantWhere (now : Int) : Condition CustomerTenant :=
  let activeLeaseAfter := now - tenantSyncLeaseMs
  allOf [
    equals (fun t => some t.status) .active,
    connection (equals (fun c => some c.status) .connected),
    noState (allOf [
      equals resourceType .users,
      equals status .running,
      isGt SyncState.lastAttemptAt activeLeaseAfter]),
    anyOf (
      dailyInventoryResourceList.map (fun resource => dailyResourceCandidate resource now) ++
      [allOf [
        connection (notNull TenantConnection.exchangeReadOnlyEnabledAt),
        dailyResourceCandidate .exchangeMailboxConfiguration now],
       noState (equals resourceType .users),
       someState (usersState now)] ++
      dailyInventoryAnchors.flatMap (fun resource =>
        [noState (equals resourceType resource), someState (anchorState resource now)]) ++
      [someState (hourlyState now),
       someState (abandonedState now),
       someState (earlyRetryState now),
       someState (targetedRetryState now)])]

/-! ## Rows -/

section States

variable {s : SyncState} {now : Int}

theorem isSome_unless {α : Type} {p : Prop} [Decidable p] {x : Option α} :
    (if p then none else x).isSome = true ↔ ¬ p ∧ x.isSome = true := by
  by_cases hp : p <;> simp [hp]

theorem elapsed_some {ms v : Int} : elapsed (some v) now ms = true ↔ v ≤ now - ms := by
  simp only [elapsed, Option.any_some, decide_eq_true_eq]
  omega

variable {resource : SyncResourceType}

/-- The daily branch of the query is the daily rule. -/
theorem selects_dailyState :
    Selects (dailyState resource now) s ↔
      s.resourceType = resource ∧ (dailyInventoryResourceDueAt (some s) now).isSome = true := by
  have hms : 0 ≤ dailyInventoryRefreshMs := by decide
  obtain ⟨type, status, attempt, success, code, message, failures⟩ := s
  cases status <;> cases attempt <;> cases success <;>
    simp [dailyState, resourceType, ScheduledCandidates.status, dailyInventoryResourceDueAt,
      validPastTime, isSome_unless]
  all_goals omega

/-- The two hourly branches of the query are the hourly rule. -/
theorem selects_hourly :
    Selects (hourlyState now) s ∨ Selects (abandonedState now) s ↔
      shouldRunHourlyInventoryRefresh s now = true := by
  have hms : 0 ≤ hourlyInventoryRefreshMs := by decide
  obtain ⟨type, status, attempt, success, code, message, failures⟩ := s
  by_cases htype : type ∈ hourlyInventoryResources
  · cases status <;> cases attempt <;> cases success <;> cases code <;> cases message <;>
      simp [hourlyState, abandonedState, resourceType, ScheduledCandidates.status,
        shouldRunHourlyInventoryRefresh, validPastTime, elapsed_some, htype]
    all_goals omega
  · simp [hourlyState, abandonedState, resourceType, shouldRunHourlyInventoryRefresh, htype]

/-- Users whose query branch is the rule. -/
def UsersOpen (s : SyncState) (now : Int) : Prop :=
  s.lastSuccessfulAt = none ∨ s.status = .failed ∨
    ∃ a, s.lastSuccessfulAt = some a ∧ userIncrementalRefreshMs < now - a

/-- An anchor without success, tried never or more than an hour ago. -/
def AnchorOpen (s : SyncState) (now : Int) : Prop :=
  s.status ≠ .running ∧ (s.status = .failed ∨ s.lastSuccessfulAt = none) ∧
    ∀ a, s.lastAttemptAt = some a → dailyInventoryFailureRetryMs < now - a

/-- A failure with a recorded code that the query admits. -/
def RetryOpen (s : SyncState) (now : Int) : Prop :=
  s.status = .failed ∧ (∃ code, s.lastErrorCode = some code ∧
    code ∉ targetedRetryExcludedErrorCodes) ∧
  ∃ a, s.lastAttemptAt = some a ∧
    (s.resourceType ∈ originalSevenEarlyRetryResources ∧ hourlyInventoryFirstRetryMs ≤ now - a ∨
     s.resourceType ∈ targetedTransientRetryResources ∧ targetedTransientRetryBaseMs < now - a)

theorem selects_usersState :
    Selects (usersState now) s ↔ s.resourceType = .users ∧ UsersOpen s now := by
  have hlt : ∀ a : Int,
      a < now - userIncrementalRefreshMs ↔ userIncrementalRefreshMs < now - a := by
    intro a
    omega
  simp [usersState, resourceType, status, UsersOpen, hlt, or_comm (a := s.status = .failed)]

theorem selects_retryDue :
    Selects (retryDue now) s ↔
      ∀ a, s.lastAttemptAt = some a → dailyInventoryFailureRetryMs < now - a := by
  cases h : s.lastAttemptAt with
  | none => simp [retryDue, h]
  | some a =>
    simp [retryDue, h]
    omega

theorem selects_anchorState :
    Selects (anchorState resource now) s ↔
      s.resourceType = resource ∧ s.status ≠ .running ∧
      (s.status = .failed ∨ s.lastSuccessfulAt = none ∨
        ∃ a, s.lastSuccessfulAt = some a ∧ dailyInventoryRefreshMs < now - a) ∧
      ∀ a, s.lastAttemptAt = some a → dailyInventoryFailureRetryMs < now - a := by
  have hlt : ∀ a : Int, a < now - dailyInventoryRefreshMs ↔ dailyInventoryRefreshMs < now - a := by
    intro a
    omega
  simp [anchorState, resourceType, status, selects_retryDue, or_and_right, hlt]

/-- An anchor whose success is a day old is due hourly. -/
theorem stale_hourly (htype : s.resourceType ∈ dailyInventoryAnchors)
    (hrunning : s.status ≠ .running) (hfailed : s.status ≠ .failed) {a : Int}
    (ha : s.lastSuccessfulAt = some a) (hstale : a ≤ now - dailyInventoryRefreshMs) :
    shouldRunHourlyInventoryRefresh s now = true := by
  have hhourly : s.resourceType ∈ hourlyInventoryResources := by
    revert htype
    cases s.resourceType <;> decide
  have hms : hourlyInventoryRefreshMs ≤ dailyInventoryRefreshMs := by decide
  have hold : a ≤ now - hourlyInventoryRefreshMs := by omega
  rw [← selects_hourly]
  left
  simp [hourlyState, resourceType, status, hhourly, hrunning, hfailed, ha, hold]

/-- Beyond the open anchors, the query finds only rows that are due hourly. -/
theorem anchorState_cases (hresource : resource ∈ dailyInventoryAnchors)
    (h : Selects (anchorState resource now) s) :
    s.resourceType = resource ∧
      (AnchorOpen s now ∨ shouldRunHourlyInventoryRefresh s now = true) := by
  obtain ⟨htype, hrunning, hdue, hretry⟩ := selects_anchorState.mp h
  refine ⟨htype, ?_⟩
  by_cases hopen : s.status = .failed ∨ s.lastSuccessfulAt = none
  · exact .inl ⟨hrunning, hopen, hretry⟩
  · right
    rw [not_or] at hopen
    obtain ⟨a, ha, hstale⟩ := (hdue.resolve_left hopen.1).resolve_left hopen.2
    exact stale_hourly (htype ▸ hresource) hrunning hopen.1 ha (by omega)

theorem anchorOpen_selects (htype : s.resourceType = resource) (h : AnchorOpen s now) :
    Selects (anchorState resource now) s := by
  obtain ⟨hrunning, hopen, hretry⟩ := h
  refine selects_anchorState.mpr ⟨htype, hrunning, ?_, hretry⟩
  obtain hfailed | hnone := hopen
  · exact .inl hfailed
  · exact .inr (.inl hnone)

theorem selects_retryState :
    Selects (earlyRetryState now) s ∨ Selects (targetedRetryState now) s ↔ RetryOpen s now := by
  have hle : ∀ a : Int, a ≤ now - hourlyInventoryFirstRetryMs ↔
      hourlyInventoryFirstRetryMs ≤ now - a := by
    intro a
    omega
  have hlt : ∀ a : Int, a < now - targetedTransientRetryBaseMs ↔
      targetedTransientRetryBaseMs < now - a := by
    intro a
    omega
  simp only [earlyRetryState, targetedRetryState, selects_allOf_cons, selects_allOf_nil,
    selects_isIn, selects_equals, selects_notIn, selects_isLte, selects_isLt, resourceType,
    status, Option.some.injEq, exists_eq_left', and_true, hle, hlt, RetryOpen]
  constructor
  · rintro (⟨htype, hfailed, hcode, a, ha, hage⟩ | ⟨htype, hfailed, hcode, a, ha, hage⟩)
    · exact ⟨hfailed, hcode, a, ha, .inl ⟨htype, hage⟩⟩
    · exact ⟨hfailed, hcode, a, ha, .inr ⟨htype, hage⟩⟩
  · rintro ⟨hfailed, hcode, a, ha, ⟨htype, hage⟩ | ⟨htype, hage⟩⟩
    · exact .inl ⟨htype, hfailed, hcode, a, ha, hage⟩
    · exact .inr ⟨htype, hfailed, hcode, a, ha, hage⟩

end States

/-! ## Tenants -/

section Tenants

variable {t : CustomerTenant} {now : Int}

variable {r : SyncResourceType}

theorem state?_eq_some {s : SyncState} :
    t.candidate.state? r = some s ↔ s ∈ t.syncStates ∧ s.resourceType = r := by
  have hunique : ((t.syncStates.map fun s => (s.resourceType, s)).map Prod.fst).Nodup := by
    rw [List.map_map]
    exact t.unique
  have hheld : ∀ s ∈ t.syncStates, t.candidate.state? s.resourceType = some s := by
    intro s hs
    exact JsMap.get?_ofList hunique (mem_map.mpr ⟨s, hs, rfl⟩)
  constructor
  · intro h
    by_cases hmem : ∃ s ∈ t.syncStates, s.resourceType = r
    · obtain ⟨s', hs', rfl⟩ := hmem
      rw [hheld s' hs'] at h
      cases h
      exact ⟨hs', rfl⟩
    · have hnone : t.candidate.state? r = none := by
        apply JsMap.get?_ofList_eq_none
        simp only [List.map_map, mem_map]
        exact hmem
      rw [hnone] at h
      cases h
  · rintro ⟨hs, rfl⟩
    exact hheld s hs

theorem state?_eq_none :
    t.candidate.state? r = none ↔ ∀ s ∈ t.syncStates, s.resourceType ≠ r := by
  rw [Option.eq_none_iff_forall_ne_some]
  constructor
  · intro h s hs htype
    exact h s (state?_eq_some.mpr ⟨hs, htype⟩)
  · intro h s hs
    obtain ⟨hmem, htype⟩ := state?_eq_some.mp hs
    exact h s hmem htype

theorem selects_noState :
    Selects (noState (equals resourceType r)) t ↔ t.candidate.state? r = none := by
  rw [state?_eq_none, noState, selects_noRow]
  simp only [selects_equals, resourceType, Option.some.injEq, ne_eq]

theorem selects_daily :
    Selects (dailyResourceCandidate r now) t ↔
      (dailyInventoryResourceDueAt (t.candidate.state? r) now).isSome = true := by
  simp only [dailyResourceCandidate, selects_anyOf_cons, selects_anyOf_nil, selects_noState,
    someState, selects_someRow, selects_dailyState, or_false]
  cases hs : t.candidate.state? r with
  | none => simp [dailyInventoryResourceDueAt]
  | some s =>
    obtain ⟨hmem, htype⟩ := state?_eq_some.mp hs
    constructor
    · rintro (h | ⟨s', hmem', htype', hdue⟩)
      · cases h
      · rw [state?_eq_some.mpr ⟨hmem', htype'⟩] at hs
        cases hs
        exact hdue
    · intro hdue
      exact .inr ⟨s, hmem, htype, hdue⟩

/-- An active, connected tenant that nobody is collecting from. -/
structure Admissible (t : CustomerTenant) (now : Int) : Prop where
  active : t.status = .active
  connected : ∃ c, t.connection = some c ∧ c.status = .connected
  unleased : ∀ s ∈ t.syncStates, s.resourceType = .users → s.status = .running →
    ∀ a, s.lastAttemptAt = some a → tenantSyncLeaseMs ≤ now - a

/-- What the query looks for, in terms of the rules. -/
def Elsewhere (t : CustomerTenant) (now : Int) : Prop :=
  (∃ r ∈ dailyInventoryResources t.candidate.exchangeEnabled,
    (dailyInventoryResourceDueAt (t.candidate.state? r) now).isSome = true) ∨
  (∃ s ∈ t.syncStates, shouldRunHourlyInventoryRefresh s now = true) ∨
  (∀ s, t.candidate.state? .users = some s → UsersOpen s now) ∨
  (∃ r ∈ dailyInventoryAnchors, ∀ s, t.candidate.state? r = some s → AnchorOpen s now) ∨
  ∃ s ∈ t.syncStates, RetryOpen s now

theorem selects_connection {c : Condition TenantConnection} :
    Selects (connection c) t ↔ ∃ each, t.connection = some each ∧ Selects c each := by
  simp [connection]

/-- A missing row, or one that a condition selects. -/
theorem missing_or_state {P : SyncState → Prop} :
    (t.candidate.state? r = none ∨ ∃ s ∈ t.syncStates, s.resourceType = r ∧ P s) ↔
      ∀ s, t.candidate.state? r = some s → P s := by
  constructor
  · rintro (hnone | ⟨s, hs, htype, hp⟩) s' hs'
    · rw [hnone] at hs'
      cases hs'
    · rw [state?_eq_some.mpr ⟨hs, htype⟩] at hs'
      cases hs'
      exact hp
  · intro h
    cases hs : t.candidate.state? r with
    | none => exact .inl rfl
    | some s =>
      obtain ⟨hmem, htype⟩ := state?_eq_some.mp hs
      exact .inr ⟨s, hmem, htype, h s hs⟩

theorem selects_daily_any :
    (∃ r ∈ dailyInventoryResourceList, Selects (dailyResourceCandidate r now) t) ∨
      Selects (allOf [connection (notNull TenantConnection.exchangeReadOnlyEnabledAt),
        dailyResourceCandidate .exchangeMailboxConfiguration now]) t ↔
    ∃ r ∈ dailyInventoryResources t.candidate.exchangeEnabled,
      (dailyInventoryResourceDueAt (t.candidate.state? r) now).isSome = true := by
  have henabled : Selects (connection (notNull TenantConnection.exchangeReadOnlyEnabledAt)) t ↔
      t.candidate.exchangeEnabled = true := by
    rw [selects_connection, ScheduledTenantCandidate.exchangeEnabled, CustomerTenant.candidate]
    cases t.connection <;> simp
  simp only [selects_allOf_cons, selects_allOf_nil, and_true, henabled, selects_daily,
    dailyInventoryResources]
  cases t.candidate.exchangeEnabled with
  | false => simp
  | true => simp [or_and_right, exists_or]

theorem selects_noLease (h : Admissible t now) :
    Selects (noState (allOf [equals resourceType .users, equals status .running,
      isGt SyncState.lastAttemptAt (now - tenantSyncLeaseMs)])) t := by
  rw [noState, selects_noRow]
  intro s hs hlease
  simp only [selects_allOf_cons, selects_allOf_nil, selects_equals, selects_isGt, resourceType,
    status, Option.some.injEq, and_true] at hlease
  obtain ⟨htype, hrunning, a, ha, hage⟩ := hlease
  have := h.unleased s hs htype hrunning a ha
  omega

theorem selects_where (h : Admissible t now) :
    Selects (scheduledSyncTenantWhere now) t ↔
      (∃ r ∈ dailyInventoryResources t.candidate.exchangeEnabled,
        (dailyInventoryResourceDueAt (t.candidate.state? r) now).isSome = true) ∨
      (∀ s, t.candidate.state? .users = some s → UsersOpen s now) ∨
      (∃ r ∈ dailyInventoryAnchors,
        t.candidate.state? r = none ∨ ∃ s ∈ t.syncStates, Selects (anchorState r now) s) ∨
      (∃ s ∈ t.syncStates, shouldRunHourlyInventoryRefresh s now = true) ∨
      ∃ s ∈ t.syncStates, RetryOpen s now := by
  obtain ⟨c, hc, hconnected⟩ := h.connected
  have hconnection : Selects (connection (equals (fun c => some c.status) .connected)) t := by
    rw [selects_connection]
    exact ⟨c, hc, by simp [hconnected]⟩
  have hactive : Selects (equals (fun t : CustomerTenant => some t.status) .active) t := by
    simp [h.active]
  have hhourly : (∃ s ∈ t.syncStates, shouldRunHourlyInventoryRefresh s now = true) ↔
      Selects (someState (hourlyState now)) t ∨ Selects (someState (abandonedState now)) t := by
    simp only [someState, selects_someRow, ← selects_hourly, and_or_left, exists_or]
  have hretry : (∃ s ∈ t.syncStates, RetryOpen s now) ↔
      Selects (someState (earlyRetryState now)) t ∨
        Selects (someState (targetedRetryState now)) t := by
    simp only [someState, selects_someRow, ← selects_retryState, and_or_left, exists_or]
  have husers : (∀ s, t.candidate.state? .users = some s → UsersOpen s now) ↔
      Selects (noState (equals resourceType .users)) t ∨
        Selects (someState (usersState now)) t := by
    simp only [someState, selects_someRow, selects_noState, selects_usersState,
      missing_or_state]
  rw [hhourly, hretry, husers, ← selects_daily_any]
  simp only [scheduledSyncTenantWhere, selects_allOf_cons, selects_allOf_nil, hactive, hconnection,
    selects_noLease h, selects_anyOf_append, selects_anyOf_map, selects_anyOf_flatMap,
    selects_anyOf_cons, selects_anyOf_nil, selects_noState, someState, selects_someRow, true_and,
    and_true, or_false, or_assoc]

/-- The query finds a tenant for the reasons of the rules, read a little narrower. -/
theorem selects_iff (h : Admissible t now) :
    Selects (scheduledSyncTenantWhere now) t ↔ Elsewhere t now := by
  rw [selects_where h, Elsewhere]
  constructor
  · rintro (hdaily | husers | ⟨r, hr, hanchor⟩ | hhourly | hretry)
    · exact .inl hdaily
    · exact .inr (.inr (.inl husers))
    · by_cases hstate : ∃ s ∈ t.syncStates, shouldRunHourlyInventoryRefresh s now = true
      · exact .inr (.inl hstate)
      · refine .inr (.inr (.inr (.inl ⟨r, hr, missing_or_state.mp ?_⟩)))
        refine hanchor.imp_right ?_
        rintro ⟨s, hs, hselects⟩
        obtain ⟨htype, hopen | hhourly⟩ := anchorState_cases hr hselects
        · exact ⟨s, hs, htype, hopen⟩
        · exact absurd ⟨s, hs, hhourly⟩ hstate
    · exact .inr (.inl hhourly)
    · exact .inr (.inr (.inr (.inr hretry)))
  · rintro (hdaily | hhourly | husers | ⟨r, hr, hanchor⟩ | hretry)
    · exact .inl hdaily
    · exact .inr (.inr (.inr (.inl hhourly)))
    · exact .inr (.inl husers)
    · refine .inr (.inr (.inl ⟨r, hr, (missing_or_state.mpr hanchor).imp_right ?_⟩))
      rintro ⟨s, hs, htype, hopen⟩
      exact ⟨s, hs, anchorOpen_selects htype hopen⟩
    · exact .inr (.inr (.inr (.inr hretry)))

/-! ## Where the rule and the query differ -/

/-- Users that were collected exactly one interval ago. -/
def UsersEdge (s : SyncState) (now : Int) : Prop :=
  s.status ≠ .failed ∧ s.lastSuccessfulAt = some (now - userIncrementalRefreshMs)

/-- An anchor without success that was tried exactly an hour ago. -/
def AnchorEdge (s : SyncState) (now : Int) : Prop :=
  s.status ≠ .running ∧ (s.status = .failed ∨ s.lastSuccessfulAt = none) ∧
    s.lastAttemptAt = some (now - dailyInventoryFailureRetryMs)

/-- A failure to retry of which no code was recorded. -/
def UncodedRetry (s : SyncState) (now : Int) : Prop :=
  s.resourceType ∈ originalSevenEarlyRetryResources ∧ s.lastErrorCode = none ∧
    shouldRunTargetedTransientRetry s now = true

def Edge (t : CustomerTenant) (now : Int) : Prop :=
  (∃ s ∈ t.syncStates, s.resourceType = .users ∧ UsersEdge s now) ∨
  (∃ s ∈ t.syncStates, s.resourceType ∈ dailyInventoryAnchors ∧ AnchorEdge s now) ∨
  ∃ s ∈ t.syncStates, UncodedRetry s now

/-- Due through the users, an anchor, a daily or an hourly resource, or the retry of one of the
original resources. -/
def foundThrough (c : ScheduledTenantCandidate) (now : Int) : Bool :=
  c.fullInventoryDue now || c.usersDue now || c.hourlyDue now ||
  c.syncStates.any fun s =>
    decide (s.resourceType ∈ originalSevenEarlyRetryResources) &&
      shouldRunTargetedTransientRetry s now

section Rules

variable {s : SyncState}

theorem userDue_some : userDue (some s) now = true ↔
    s.lastSuccessfulAt = none ∨ ∃ a, s.lastSuccessfulAt = some a ∧ a ≤ now ∧
      (s.status = .failed ∨ a ≤ now - userIncrementalRefreshMs) := by
  rw [userDue]
  cases h : s.lastSuccessfulAt with
  | none => simp
  | some a => simp [validPastTime, elapsed_some]

theorem anchorDue_some : anchorDue (some s) now = true ↔
    s.status ≠ .running ∧
    (s.status = .failed ∨ s.lastSuccessfulAt = none ∨
      ∃ a, s.lastSuccessfulAt = some a ∧ a ≤ now - dailyInventoryRefreshMs) ∧
    ∀ a, s.lastAttemptAt = some a → a ≤ now - dailyInventoryFailureRetryMs := by
  obtain ⟨type, status, attempt, success, code, message, failures⟩ := s
  cases status <;> cases attempt <;> cases success <;> simp [anchorDue, elapsed_some]

theorem retry_some : shouldRunTargetedTransientRetry s now = true ↔
    s.status = .failed ∧ s.resourceType ∈ targetedTransientRetryResources ∧
    retryableFailure s = true ∧ ∃ a, s.lastAttemptAt = some a ∧
      targetedTransientRetryDelayMs s.resourceType s.consecutiveFailures ≤ now - a := by
  rw [shouldRunTargetedTransientRetry]
  cases h : s.lastAttemptAt with
  | none => simp
  | some a =>
    by_cases hfailed : s.status = .failed <;>
      by_cases htype : s.resourceType ∈ targetedTransientRetryResources <;>
      cases hretry : retryableFailure s <;> simp [hfailed, htype]

theorem users_due (h : userDue (some s) now = true) : UsersOpen s now ∨ UsersEdge s now := by
  obtain hnone | ⟨a, ha, _, hdue⟩ := userDue_some.mp h
  · exact .inl (.inl hnone)
  · by_cases hfailed : s.status = .failed
    · exact .inl (.inr (.inl hfailed))
    · have hage := hdue.resolve_left hfailed
      by_cases hedge : a = now - userIncrementalRefreshMs
      · rw [hedge] at ha
        exact .inr ⟨hfailed, ha⟩
      · have hold : userIncrementalRefreshMs < now - a := by omega
        exact .inl (.inr (.inr ⟨a, ha, hold⟩))

theorem users_edge (h : UsersEdge s now) : userDue (some s) now = true := by
  have hms : 0 ≤ userIncrementalRefreshMs := by decide
  refine userDue_some.mpr (.inr ⟨_, h.2, ?_, .inr (Int.le_refl _)⟩)
  omega

theorem anchor_due (htype : s.resourceType ∈ dailyInventoryAnchors)
    (h : anchorDue (some s) now = true) :
    AnchorOpen s now ∨ AnchorEdge s now ∨ shouldRunHourlyInventoryRefresh s now = true := by
  obtain ⟨hrunning, hdue, hretry⟩ := anchorDue_some.mp h
  by_cases hopen : s.status = .failed ∨ s.lastSuccessfulAt = none
  · by_cases hedge : s.lastAttemptAt = some (now - dailyInventoryFailureRetryMs)
    · exact .inr (.inl ⟨hrunning, hopen, hedge⟩)
    · refine .inl ⟨hrunning, hopen, ?_⟩
      intro a ha
      have hne : a ≠ now - dailyInventoryFailureRetryMs := by
        rintro rfl
        exact hedge ha
      have := hretry a ha
      omega
  · right
    right
    rw [not_or] at hopen
    obtain ⟨a, ha, hstale⟩ := (hdue.resolve_left hopen.1).resolve_left hopen.2
    exact stale_hourly htype hrunning hopen.1 ha hstale

theorem anchor_edge (h : AnchorEdge s now) : anchorDue (some s) now = true := by
  obtain ⟨hrunning, hopen, hattempt⟩ := h
  refine anchorDue_some.mpr ⟨hrunning, ?_, ?_⟩
  · obtain hfailed | hnone := hopen
    · exact .inl hfailed
    · exact .inr (.inl hnone)
  · intro a ha
    rw [hattempt] at ha
    cases ha
    exact Int.le_refl _

variable {phrases : List JsString} {text : JsString}

theorem mentions_iff :
    mentions phrases text = true ↔
      ∃ phrase ∈ phrases, phrase <:+: JsString.lowerLatin text := by
  simp only [mentions, List.any_eq_true, JsString.startsWith, isPrefixOf_iff_prefix,
    mem_tails, infix_iff_prefix_suffix]
  constructor
  · rintro ⟨phrase, hphrase, rest, hsuffix, hprefix⟩
    exact ⟨phrase, hphrase, rest, hprefix, hsuffix⟩
  · rintro ⟨phrase, hphrase, rest, hprefix, hsuffix⟩
    exact ⟨phrase, hphrase, rest, hsuffix, hprefix⟩

theorem mentions_append (h : mentions phrases text = true) (more : JsString) :
    mentions phrases (text ++ more) = true := by
  obtain ⟨phrase, hphrase, hinfix⟩ := mentions_iff.mp h
  refine mentions_iff.mpr ⟨phrase, hphrase, ?_⟩
  rw [JsString.lowerLatin, map_append]
  exact hinfix.trans (infix_append' [] _ _)

/-- The query excludes only codes that the rule does not retry. -/
theorem not_excluded {code : JsString} (hcode : s.lastErrorCode = some code)
    (h : retryableFailure s = true) : code ∉ targetedRetryExcludedErrorCodes := by
  intro hmem
  rw [retryableFailure, hcode] at h
  have hauthorization : [js "401", js "403", js "MICROSOFT_AUTHENTICATION_REQUIRED",
      js "MICROSOFT_PERMISSION_REQUIRED"].any (fun c => some code == some c) = true →
      authorizationFailure s = true := by
    intro hany
    rw [authorizationFailure, hcode, hany, Bool.true_or]
  have hcapacity : some code == some (js "HAWKVIEW_CAPACITY_GUARD") ∨ capacityText code = true →
      boundedCapacityFailure s = true := by
    intro hor
    rw [boundedCapacityFailure, hcode, Bool.or_eq_true]
    exact hor.imp_right fun htext => mentions_append htext _
  simp only [targetedRetryExcludedErrorCodes, mem_cons, not_mem_nil, or_false] at hmem
  obtain rfl | rfl | rfl | rfl | rfl | rfl | rfl | rfl | rfl := hmem
  · simp [hauthorization (by decide)] at h
  · simp [hauthorization (by decide)] at h
  · simp [hcapacity (.inr (by decide))] at h
  · simp [hauthorization (by decide)] at h
  · revert h
    split_ifs <;> decide
  · simp [hauthorization (by decide)] at h
  · simp [hcapacity (.inl (by decide))] at h
  · revert h
    split_ifs <;> decide
  · simp only [beq_self_eq_true, Bool.or_true, if_true] at h
    cases h

/-- No retry of an original resource is due before the first delay. -/
theorem firstRetry_le {type : SyncResourceType} (h : type ∈ originalSevenEarlyRetryResources)
    (failures : Int) :
    hourlyInventoryFirstRetryMs ≤ targetedTransientRetryDelayMs type failures := by
  have hlight : type ∉ heavierRetryResources := by
    revert h
    cases type <;> decide
  have hfirst : hourlyInventoryFirstRetryMs = 900000 := by decide
  have hmax : targetedTransientRetryMaxMs = 21600000 := by decide
  have hbase : targetedTransientRetryBaseMs / 2 = 900000 := by decide
  have hpow : (0 : Int) < 2 ^ (max 1 (min 8 failures) - 1).toNat := Int.pow_pos (by omega)
  simp only [targetedTransientRetryDelayMs, if_neg hlight, hfirst, hmax, hbase]
  omega

end Rules

theorem fullInventoryDue_iff : t.candidate.fullInventoryDue now = true ↔
    (∃ r ∈ dailyInventoryResources t.candidate.exchangeEnabled,
      (dailyInventoryResourceDueAt (t.candidate.state? r) now).isSome = true) ∨
    ∃ r ∈ dailyInventoryAnchors, anchorDue (t.candidate.state? r) now = true := by
  simp only [ScheduledTenantCandidate.fullInventoryDue, requiresDailyInventoryRefresh,
    Bool.or_eq_true, List.any_eq_true]
  rfl

theorem foundThrough_iff : foundThrough t.candidate now = true ↔
    (∃ r ∈ dailyInventoryResources t.candidate.exchangeEnabled,
      (dailyInventoryResourceDueAt (t.candidate.state? r) now).isSome = true) ∨
    (∃ r ∈ dailyInventoryAnchors, anchorDue (t.candidate.state? r) now = true) ∨
    userDue (t.candidate.state? .users) now = true ∨
    (∃ s ∈ t.syncStates, shouldRunHourlyInventoryRefresh s now = true) ∨
    ∃ s ∈ t.syncStates, s.resourceType ∈ originalSevenEarlyRetryResources ∧
      shouldRunTargetedTransientRetry s now = true := by
  simp only [foundThrough, Bool.or_eq_true, fullInventoryDue_iff, or_assoc,
    ScheduledTenantCandidate.usersDue, ScheduledTenantCandidate.hourlyDue, List.any_eq_true,
    Bool.and_eq_true, decide_eq_true_eq]
  rfl

/-- A tenant that is due is due on an edge or also elsewhere. -/
theorem found_edge_or_elsewhere (h : foundThrough t.candidate now = true) :
    Edge t now ∨ Elsewhere t now := by
  obtain hdaily | ⟨r, hr, hanchor⟩ | husers | hhourly | ⟨s, hs, htype, hretry⟩ :=
    foundThrough_iff.mp h
  · exact .inr (.inl hdaily)
  · cases hstate : t.candidate.state? r with
    | none =>
      refine .inr (.inr (.inr (.inr (.inl ⟨r, hr, ?_⟩))))
      intro s hs
      rw [hstate] at hs
      cases hs
    | some s =>
      obtain ⟨hs, htype⟩ := state?_eq_some.mp hstate
      rw [hstate] at hanchor
      obtain hopen | hedge | hhourly := anchor_due (htype ▸ hr) hanchor
      · refine .inr (.inr (.inr (.inr (.inl ⟨r, hr, ?_⟩))))
        intro s' hs'
        rw [hstate] at hs'
        cases hs'
        exact hopen
      · exact .inl (.inr (.inl ⟨s, hs, htype ▸ hr, hedge⟩))
      · exact .inr (.inr (.inl ⟨s, hs, hhourly⟩))
  · cases hstate : t.candidate.state? .users with
    | none =>
      refine .inr (.inr (.inr (.inl ?_)))
      intro s hs
      rw [hstate] at hs
      cases hs
    | some s =>
      obtain ⟨hs, htype⟩ := state?_eq_some.mp hstate
      rw [hstate] at husers
      obtain hopen | hedge := users_due husers
      · refine .inr (.inr (.inr (.inl ?_)))
        intro s' hs'
        rw [hstate] at hs'
        cases hs'
        exact hopen
      · exact .inl (.inl ⟨s, hs, htype, hedge⟩)
  · exact .inr (.inr (.inl hhourly))
  · cases hcode : s.lastErrorCode with
    | none => exact .inl (.inr (.inr ⟨s, hs, htype, hcode, hretry⟩))
    | some code =>
      obtain ⟨hfailed, _, hretryable, a, ha, hdelay⟩ := retry_some.mp hretry
      have hfirst := firstRetry_le htype s.consecutiveFailures
      refine .inr (.inr (.inr (.inr (.inr ⟨s, hs, hfailed, ?_, a, ha, .inl ⟨htype, ?_⟩⟩))))
      · exact ⟨code, hcode, not_excluded hcode hretryable⟩
      · omega

/-- Every edge makes a tenant due. -/
theorem edge_found (h : Edge t now) : foundThrough t.candidate now = true := by
  rw [foundThrough_iff]
  obtain ⟨s, hs, htype, hedge⟩ | ⟨s, hs, hanchor, hedge⟩ | ⟨s, hs, htype, _, hretry⟩ := h
  · refine .inr (.inr (.inl ?_))
    rw [state?_eq_some.mpr ⟨hs, htype⟩]
    exact users_edge hedge
  · refine .inr (.inl ⟨s.resourceType, hanchor, ?_⟩)
    rw [state?_eq_some.mpr ⟨hs, rfl⟩]
    exact anchor_edge hedge
  · exact .inr (.inr (.inr (.inr ⟨s, hs, htype, hretry⟩)))

variable (localeCompare : JsString → JsString → Int)

/-- What the selection returns for one tenant. -/
theorem select_one (c : ScheduledTenantCandidate)
    (limit : Int) :
    selectScheduledTenantWork localeCompare [c] now limit = (c.work now).toList := by
  have hlimit : 1 ≤ (max 1 limit).toNat := by omega
  cases h : c.work now with
  | none => simp [selectScheduledTenantWork, h]
  | some work =>
    simp only [selectScheduledTenantWork, filterMap_cons, filterMap_nil, h,
      mergeSort_singleton, Option.toList_some]
    exact take_of_length_le hlimit

theorem foundThrough_selected (limit : Int)
    (h : foundThrough t.candidate now = true) :
    selectScheduledTenantWork localeCompare [t.candidate] now limit ≠ [] := by
  have hdue : (t.candidate.fullInventoryDue now || t.candidate.usersDue now ||
      t.candidate.targetedDue now || t.candidate.hourlyDue now) = true := by
    simp only [foundThrough, Bool.or_eq_true] at h ⊢
    obtain ((hfull | husers) | hhourly) | hretry := h
    · exact .inl (.inl (.inl hfull))
    · exact .inl (.inl (.inr husers))
    · exact .inr hhourly
    · left
      right
      simp only [List.any_eq_true, Bool.and_eq_true] at hretry
      obtain ⟨s, hs, _, hrun⟩ := hretry
      exact List.any_eq_true.mpr ⟨s, hs, hrun⟩
  rw [select_one, ScheduledTenantCandidate.work]
  simp only [hdue, if_true]
  exact cons_ne_nil _ _

/-- The query misses exactly the tenants that are due on an edge and nowhere else. -/
theorem candidacy_iff (localeCompare : JsString → JsString → Int) (t : CustomerTenant)
    (now limit : Int) (admissible : Admissible t now) :
    (selectScheduledTenantWork localeCompare [t.candidate] now limit ≠ [] ∧
        foundThrough t.candidate now = true →
      Selects (scheduledSyncTenantWhere now) t) ↔ (Edge t now → Elsewhere t now) := by
  rw [selects_iff admissible]
  constructor
  · intro hcandidate hedge
    have hfound := edge_found hedge
    exact hcandidate ⟨foundThrough_selected localeCompare limit hfound, hfound⟩
  · rintro hcondition ⟨_, hfound⟩
    obtain hedge | helsewhere := found_edge_or_elsewhere hfound
    · exact hcondition hedge
    · exact helsewhere

end Tenants

/-! ## Two tenants that are missed -/

def everyResource : List SyncResourceType := [
  .users, .licenses, .organizationConfiguration, .domains, .groups, .authRegistrations,
  .authMethodPolicies, .authenticationStrengths, .conditionalAccess, .namedLocations,
  .signIns, .auditLogs, .m365Audit, .devices, .directoryRoles, .servicePrincipals,
  .applications, .secureScores, .riskyUsers, .securityDefaults, .sharepointSites,
  .sharepointSettings, .sharepointUsage, .exchangeMailboxes, .exchangeMailboxSettings,
  .exchangeMailboxConfiguration, .exchangeMailboxUsage, .exchangeAcceptedDomains,
  .exchangeMailboxRules, .domainDnsHealth]

/-- Collected a minute ago. -/
def fresh (now : Int) (resource : SyncResourceType) : SyncState where
  resourceType := resource
  status := .succeeded
  lastAttemptAt := some (now - 60000)
  lastSuccessfulAt := some (now - 60000)
  lastErrorCode := none
  lastErrorMessage := none
  consecutiveFailures := 0

/-- A tenant of which all is fresh but one state. -/
def freshBut (now : Int) (state : SyncState) : CustomerTenant where
  id := js "tenant"
  status := .active
  connection := some ⟨.connected, none⟩
  syncStates := everyResource.map fun resource =>
    if resource = state.resourceType then { state with resourceType := resource }
    else fresh now resource
  unique := by
    rw [List.map_map]
    have hmap : (SyncState.resourceType ∘ fun resource =>
        if resource = state.resourceType then { state with resourceType := resource }
        else fresh now resource) = id := by
      funext resource
      simp only [Function.comp_apply, id_eq]
      split <;> rfl
    rw [hmap]
    decide

/-- Users collected exactly five minutes ago. -/
def usersOnTheBoundary : SyncState :=
  { fresh 900000000 .users with lastSuccessfulAt := some (900000000 - 5 * 60 * 1000) }

/-- A first failure twenty minutes ago, of which no code was recorded. -/
def failedWithoutCode : SyncState :=
  { fresh 900000000 .securityDefaults with
    status := .failed
    lastAttemptAt := some (900000000 - 20 * 60 * 1000)
    consecutiveFailures := 1 }

theorem freshBut_admissible {now : Int} {state : SyncState}
    (idle : ∀ s ∈ (freshBut now state).syncStates, s.status ≠ .running) :
    Admissible (freshBut now state) now := by
  refine ⟨rfl, ⟨_, rfl, rfl⟩, ?_⟩
  intro s hs _ hrunning
  exact absurd hrunning (idle s hs)

/-- A tenant that the evaluation selects and the query does not read. -/
def Missed (now : Int) (t : CustomerTenant) : Prop :=
  Admissible t now ∧ selectScheduledTenantWork (fun _ _ => 0) [t.candidate] now 1 ≠ [] ∧
    foundThrough t.candidate now = true ∧ ¬ Selects (scheduledSyncTenantWhere now) t

theorem due_tenants_missed :
    Missed 900000000 (freshBut 900000000 usersOnTheBoundary) ∧
      Missed 900000000 (freshBut 900000000 failedWithoutCode) := by
  have hidle : ∀ state ∈ [usersOnTheBoundary, failedWithoutCode],
      ∀ s ∈ (freshBut 900000000 state).syncStates, s.status ≠ .running := by
    decide +kernel
  have hfound : ∀ state ∈ [usersOnTheBoundary, failedWithoutCode],
      foundThrough (freshBut 900000000 state).candidate 900000000 = true := by
    decide +kernel
  have hunread : ∀ state ∈ [usersOnTheBoundary, failedWithoutCode],
      scheduledSyncTenantWhere 900000000 (freshBut 900000000 state) ≠ some true := by
    decide +kernel
  have hmissed : ∀ state ∈ [usersOnTheBoundary, failedWithoutCode],
      Missed 900000000 (freshBut 900000000 state) := by
    intro state hstate
    refine ⟨freshBut_admissible (hidle state hstate), ?_, hfound state hstate, hunread state hstate⟩
    exact foundThrough_selected _ _ (hfound state hstate)
  constructor
  · exact hmissed usersOnTheBoundary (by simp)
  · exact hmissed failedWithoutCode (by simp)

/-- Users collected a millisecond before the boundary. -/
def usersPastTheBoundary : SyncState :=
  { usersOnTheBoundary with lastSuccessfulAt := some (900000000 - 5 * 60 * 1000 - 1) }

theorem due_tenant_found :
    Selects (scheduledSyncTenantWhere 900000000) (freshBut 900000000 usersPastTheBoundary) := by
  have hidle : ∀ s ∈ (freshBut 900000000 usersPastTheBoundary).syncStates,
      s.status ≠ .running := by
    decide +kernel
  have hfound : foundThrough (freshBut 900000000 usersPastTheBoundary).candidate 900000000 =
      true := by
    decide +kernel
  have husers : ∀ s ∈ (freshBut 900000000 usersPastTheBoundary).syncStates,
      s.resourceType = .users → s = usersPastTheBoundary := by
    decide +kernel
  refine (candidacy_iff (fun _ _ => 0) _ 900000000 1 (freshBut_admissible hidle)).mpr ?_
    ⟨foundThrough_selected _ _ hfound, hfound⟩
  intro _
  refine .inr (.inr (.inl ?_))
  intro s hs
  obtain ⟨hmem, htype⟩ := state?_eq_some.mp hs
  rw [husers s hmem htype]
  exact .inr (.inr ⟨_, rfl, by decide⟩)

end ScheduledCandidates
