import HawkView.Lib.JsMap
import HawkView.Lib.JsString

/-!
# Which tenants the scheduler selects

A tenant is due through its users, its daily inventory, an hourly inventory or
the retry of a failed collector. Each rule reads the sync state of one resource
and the clock.
-/

namespace ScheduledSync

inductive SyncResourceType
  | users | licenses | organizationConfiguration | domains | groups | authRegistrations
  | authMethodPolicies | authenticationStrengths | conditionalAccess | namedLocations
  | signIns | auditLogs | m365Audit | devices | directoryRoles | servicePrincipals
  | applications | secureScores | riskyUsers | securityDefaults | sharepointSites
  | sharepointSettings | sharepointUsage | exchangeMailboxes | exchangeMailboxSettings
  | exchangeMailboxConfiguration | exchangeMailboxUsage | exchangeAcceptedDomains
  | exchangeMailboxRules | domainDnsHealth
  deriving DecidableEq, Repr

inductive SyncStateStatus
  | idle | running | succeeded | failed
  deriving DecidableEq, Repr

def dailyInventoryAnchors : List SyncResourceType := [.licenses, .domains]

def dailyInventoryRefreshMs : Int := 24 * 60 * 60 * 1000
def dailyInventoryFailureRetryMs : Int := 60 * 60 * 1000
def userIncrementalRefreshMs : Int := 5 * 60 * 1000
def hourlyInventoryRefreshMs : Int := 60 * 60 * 1000
def tenantSyncLeaseMs : Int := 15 * 60 * 1000

def targetedTransientRetryResources : List SyncResourceType := [
  .licenses, .organizationConfiguration, .domains, .groups, .authMethodPolicies,
  .conditionalAccess, .authenticationStrengths, .sharepointSites, .namedLocations, .devices,
  .directoryRoles, .riskyUsers, .servicePrincipals, .applications, .securityDefaults,
  .sharepointSettings]

def targetedTransientRetryBaseMs : Int := 30 * 60 * 1000
def targetedTransientRetryMaxMs : Int := 6 * 60 * 60 * 1000

def heavierRetryResources : List SyncResourceType :=
  [.groups, .devices, .servicePrincipals, .applications, .sharepointSites]

def originalSevenEarlyRetryResources : List SyncResourceType := [
  .organizationConfiguration, .authMethodPolicies, .securityDefaults, .sharepointSettings,
  .conditionalAccess, .authenticationStrengths, .namedLocations]

def hourlyInventoryResources : List SyncResourceType := [
  .organizationConfiguration, .authMethodPolicies, .securityDefaults, .sharepointSettings,
  .conditionalAccess, .authenticationStrengths, .namedLocations, .domainDnsHealth,
  .secureScores, .riskyUsers, .licenses, .domains]

def dailyInventoryResourceList : List SyncResourceType := [
  .groups, .authRegistrations, .devices, .servicePrincipals, .applications, .secureScores,
  .riskyUsers, .sharepointSites, .sharepointUsage, .exchangeMailboxes, .exchangeMailboxSettings,
  .exchangeMailboxUsage, .exchangeAcceptedDomains, .exchangeMailboxRules, .domainDnsHealth]

def dailyInventoryResources (exchangeReadOnlyEnabled : Bool) : List SyncResourceType :=
  if exchangeReadOnlyEnabled then
    dailyInventoryResourceList ++ [.exchangeMailboxConfiguration]
  else dailyInventoryResourceList

/-- A row of `sync_states`; a date is its `getTime()`. -/
structure SyncState where
  resourceType : SyncResourceType
  status : SyncStateStatus
  lastAttemptAt : Option Int
  lastSuccessfulAt : Option Int
  lastErrorCode : Option JsString
  lastErrorMessage : Option JsString
  consecutiveFailures : Int
  deriving DecidableEq

/-! ## Failures -/

def wordCharacter (c : UInt16) : Bool :=
  decide (0x30 ≤ c ∧ c ≤ 0x39) || decide (0x41 ≤ c ∧ c ≤ 0x5A) ||
  decide (0x61 ≤ c ∧ c ≤ 0x7A) || c == 0x5F

/-- Whether a text contains a word, `before` being the character in front of it. -/
def standsAlone (word : JsString) (before : Option UInt16) : JsString → Bool
  | [] => false
  | c :: text =>
    (JsString.startsWith (c :: text) word && !before.any wordCharacter &&
      !((c :: text).drop word.length).head?.any wordCharacter) ||
    standsAlone word (some c) text

/-- Whether a text contains one of some lower-case phrases, in any case. -/
def mentions (phrases : List JsString) (text : JsString) : Bool :=
  phrases.any fun phrase => (JsString.lowerLatin text).tails.any (JsString.startsWith · phrase)

/-- `/\b(?:401|403)\b|unauthorized|forbidden|permission|consent/i`. -/
def refusalText (text : JsString) : Bool :=
  standsAlone (js "401") none text || standsAlone (js "403") none text ||
  mentions [js "unauthorized", js "forbidden", js "permission", js "consent"] text

/-- `/bounded collection|record limit|page limit|response-size|wall-clock deadline|capacity/i`. -/
def capacityText (text : JsString) : Bool :=
  mentions [js "bounded collection", js "record limit", js "page limit", js "response-size",
    js "wall-clock deadline", js "capacity"] text

def authorizationFailure (state : SyncState) : Bool :=
  [js "401", js "403", js "MICROSOFT_AUTHENTICATION_REQUIRED",
    js "MICROSOFT_PERMISSION_REQUIRED"].any (fun code => state.lastErrorCode == some code) ||
  refusalText (state.lastErrorMessage.getD [])

def boundedCapacityFailure (state : SyncState) : Bool :=
  state.lastErrorCode == some (js "HAWKVIEW_CAPACITY_GUARD") ||
  capacityText (state.lastErrorCode.getD [] ++ 0x20 :: state.lastErrorMessage.getD [])

def retryableFailure (state : SyncState) : Bool :=
  if authorizationFailure state || boundedCapacityFailure state ||
      state.lastErrorCode == some (js "HAWKVIEW_INTERNAL_FAILURE") then false
  else
    match state.lastErrorCode with
    | none => true
    | some code =>
      if code.startsWith (js "MICROSOFT_") then
        [js "MICROSOFT_TRANSIENT", js "MICROSOFT_THROTTLED", js "MICROSOFT_NETWORK_TIMEOUT",
          js "MICROSOFT_DELTA_RESET_REQUIRED", js "MICROSOFT_PARTIAL_RESPONSE"].contains code
      else true

def targetedTransientRetryDelayMs (resourceType : SyncResourceType) (consecutiveFailures : Int) :
    Int :=
  let failures := max 1 (min 8 consecutiveFailures)
  let base :=
    if resourceType ∈ heavierRetryResources then targetedTransientRetryBaseMs
    else targetedTransientRetryBaseMs / 2
  min targetedTransientRetryMaxMs (base * 2 ^ (failures - 1).toNat)

def hourlyInventoryFirstRetryMs : Int :=
  targetedTransientRetryDelayMs .organizationConfiguration 1

def targetedRetryExcludedErrorCodes : List JsString := [
  js "401", js "403", js "sharepoint_sites-capacity", js "MICROSOFT_AUTHENTICATION_REQUIRED",
  js "MICROSOFT_RESOURCE_AUTHENTICATION_FAILED", js "MICROSOFT_PERMISSION_REQUIRED",
  js "HAWKVIEW_CAPACITY_GUARD", js "MICROSOFT_INVALID_RESPONSE", js "HAWKVIEW_INTERNAL_FAILURE"]

def shouldRunTargetedTransientRetry (state : SyncState) (now : Int) : Bool :=
  if state.status ≠ .failed then false
  else if state.resourceType ∉ targetedTransientRetryResources then false
  else if retryableFailure state = false then false
  else
    match state.lastAttemptAt with
    | none => false
    | some lastAttemptAt =>
      decide (targetedTransientRetryDelayMs state.resourceType state.consecutiveFailures ≤
        now - lastAttemptAt)

/-! ## Clocks -/

def validPastTime (value : Option Int) (now : Int) : Bool := value.any fun at₀ => decide (at₀ ≤ now)

/-- Whether so much time has passed since `value`. -/
def elapsed (value : Option Int) (now : Int) (ms : Int) : Bool :=
  value.any fun at₀ => decide (ms ≤ now - at₀)

def shouldRunHourlyInventoryRefresh (state : SyncState) (now : Int) : Bool :=
  if state.resourceType ∉ hourlyInventoryResources then false
  else
    match state.status with
    | .failed => false
    | .running =>
      if state.lastErrorCode.isSome || state.lastErrorMessage.isSome then false
      else if validPastTime state.lastAttemptAt now = false then false
      else if state.lastSuccessfulAt.isSome && !validPastTime state.lastSuccessfulAt now then false
      else elapsed state.lastAttemptAt now hourlyInventoryRefreshMs
    | .idle | .succeeded =>
      if validPastTime state.lastSuccessfulAt now = false then false
      else elapsed state.lastSuccessfulAt now hourlyInventoryRefreshMs

def earliestDue (values : List (Option Int)) (now : Int) : Int :=
  let valid := (values.filter fun value => validPastTime value now).filterMap id
  (valid.mergeSort.head?).getD 0

/-- The time since when the daily collection of a resource is due. -/
def dailyInventoryResourceDueAt (state : Option SyncState) (now : Int) : Option Int :=
  match state with
  | none => some 0
  | some state =>
    if state.status = .running then none
    else if state.lastAttemptAt.isSome && !validPastTime state.lastAttemptAt now then none
    else if state.lastSuccessfulAt.isSome && !validPastTime state.lastSuccessfulAt now then none
    else
      let clock :=
        if state.status = .failed ∨ state.lastSuccessfulAt = none then state.lastAttemptAt
        else state.lastSuccessfulAt
      match clock with
      | none => some 0
      | some clock => if dailyInventoryRefreshMs ≤ now - clock then some clock else none

/-! ## One tenant -/

/-- A candidate; `none` when it has no connection or the column is null. -/
structure ScheduledTenantCandidate where
  id : JsString
  syncStates : List SyncState
  exchangeReadOnlyEnabledAt : Option Int

structure ScheduledTenantWork where
  tenantId : JsString
  dueAt : Int
  fullInventoryDue : Bool
  deriving DecidableEq

def byResource (states : List SyncState) : JsMap SyncResourceType SyncState :=
  JsMap.ofList (states.map fun state => (state.resourceType, state))

/-- Whether a daily anchor calls for the full inventory. -/
def anchorDue (state : Option SyncState) (now : Int) : Bool :=
  match state with
  | none => true
  | some state =>
    let retryIsDue := state.lastAttemptAt.isNone ||
      elapsed state.lastAttemptAt now dailyInventoryFailureRetryMs
    match state.status with
    | .running => false
    | .failed => retryIsDue
    | .idle | .succeeded =>
      if state.lastSuccessfulAt.isNone then retryIsDue
      else elapsed state.lastSuccessfulAt now dailyInventoryRefreshMs && retryIsDue

def requiresDailyInventoryRefresh (states : List SyncState) (now : Int)
    (exchangeReadOnlyEnabled : Bool) : Bool :=
  ((dailyInventoryResources exchangeReadOnlyEnabled).any fun resource =>
    (dailyInventoryResourceDueAt ((byResource states).get? resource) now).isSome) ||
  dailyInventoryAnchors.any fun resource => anchorDue ((byResource states).get? resource) now

def userDue (users : Option SyncState) (now : Int) : Bool :=
  match users with
  | none => true
  | some users =>
    users.lastSuccessfulAt.isNone ||
    (validPastTime users.lastSuccessfulAt now &&
      (users.status == .failed || elapsed users.lastSuccessfulAt now userIncrementalRefreshMs))

namespace ScheduledTenantCandidate

variable (candidate : ScheduledTenantCandidate) (now : Int)

def exchangeEnabled : Bool := candidate.exchangeReadOnlyEnabledAt.isSome

def state? (resource : SyncResourceType) : Option SyncState :=
  (byResource candidate.syncStates).get? resource

def fullInventoryDue : Bool :=
  requiresDailyInventoryRefresh candidate.syncStates now candidate.exchangeEnabled

def usersDue : Bool := userDue (candidate.state? .users) now

def targetedDue : Bool :=
  candidate.syncStates.any fun state => shouldRunTargetedTransientRetry state now

def hourlyDue : Bool :=
  candidate.syncStates.any fun state => shouldRunHourlyInventoryRefresh state now

/-- Whether the clock of a state counts for the rank of its tenant. -/
def counts (state : SyncState) : Bool :=
  if state.resourceType ∈ dailyInventoryAnchors then
    candidate.fullInventoryDue now || shouldRunHourlyInventoryRefresh state now
  else if state.resourceType = .users then candidate.usersDue now
  else shouldRunTargetedTransientRetry state now || shouldRunHourlyInventoryRefresh state now

def work : Option ScheduledTenantWork :=
  let dailyDueDates := (dailyInventoryResources candidate.exchangeEnabled).filterMap
    fun resource => dailyInventoryResourceDueAt (candidate.state? resource) now
  if candidate.fullInventoryDue now || candidate.usersDue now || candidate.targetedDue now ||
      candidate.hourlyDue now then
    let dueStates := candidate.syncStates.filter fun state => candidate.counts now state
    let clocks := dueStates.map fun state =>
      if state.status = .failed ∨ state.status = .running then state.lastAttemptAt
      else state.lastSuccessfulAt
    some
      { tenantId := candidate.id
        fullInventoryDue := candidate.fullInventoryDue now
        dueAt := earliestDue (dailyDueDates.map some ++ clocks) now }
  else none

end ScheduledTenantCandidate

/-- `localeCompare` is that of the runtime. -/
def selectScheduledTenantWork (localeCompare : JsString → JsString → Int)
    (candidates : List ScheduledTenantCandidate) (now : Int) (limit : Int) :
    List ScheduledTenantWork :=
  let work := candidates.filterMap fun candidate => candidate.work now
  let sorted := work.mergeSort fun left right =>
    decide (left.dueAt < right.dueAt) ||
    (decide (left.dueAt = right.dueAt) && decide (localeCompare left.tenantId right.tenantId ≤ 0))
  sorted.take (max 1 limit).toNat

end ScheduledSync
