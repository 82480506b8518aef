import HawkView.IdentityRisk.SignalCandidate
import HawkView.Lib.JsonRewrite

/-!
# The context of an identity rule

What every rule asks before it looks at its events: the approved catalogs of a tenant, the
classes of accounts, the entries of the network that are active, and the gate that a candidate
has to pass.
-/

namespace IdentitySignal

open Json

/-! ## Catalogs -/

inductive CatalogType
  | privilegedRoleGroup | highImpactOperation | highImpactApplicationPermission | legacyClient
  | accountClass | networkContext
  deriving DecidableEq, Repr

def CatalogType.text : CatalogType → JsString
  | .privilegedRoleGroup => js "PRIVILEGED_ROLE_GROUP"
  | .highImpactOperation => js "HIGH_IMPACT_OPERATION"
  | .highImpactApplicationPermission => js "HIGH_IMPACT_APPLICATION_PERMISSION"
  | .legacyClient => js "LEGACY_CLIENT"
  | .accountClass => js "ACCOUNT_CLASS"
  | .networkContext => js "NETWORK_CONTEXT"

inductive AccountClass
  | human | privilegedHuman | service | shared | breakGlass | unknown
  deriving DecidableEq, Repr

def AccountClass.text : AccountClass → JsString
  | .human => js "HUMAN"
  | .privilegedHuman => js "PRIVILEGED_HUMAN"
  | .service => js "SERVICE"
  | .shared => js "SHARED"
  | .breakGlass => js "BREAK_GLASS"
  | .unknown => js "UNKNOWN"

inductive NetworkContextType
  | sharedEgress | sharedDevice | expectedAuthRetry | travelException | maintenance
  deriving DecidableEq, Repr

def NetworkContextType.text : NetworkContextType → JsString
  | .sharedEgress => js "SHARED_EGRESS"
  | .sharedDevice => js "SHARED_DEVICE"
  | .expectedAuthRetry => js "EXPECTED_AUTH_RETRY"
  | .travelException => js "TRAVEL_EXCEPTION"
  | .maintenance => js "MAINTENANCE"

structure NetworkContextEntry where
  id : JsString
  type : NetworkContextType
  startsAt : JsString
  expiresAt : JsString
  subjectId : Option JsString
  appId : Option JsString
  client : Option JsString
  deviceFingerprint : Option JsString
  sourceFingerprint : Option JsString
  deriving DecidableEq

inductive CatalogStatus
  | draft | approved
  deriving DecidableEq, Repr

def CatalogStatus.text : CatalogStatus → JsString
  | .draft => js "DRAFT"
  | .approved => js "APPROVED"

structure ApprovedCatalog where
  catalogType : CatalogType
  version : JsString
  digest : JsString
  status : CatalogStatus
  approverIds : List JsString
  effectiveAt : JsString
  expiresAt : Option JsString
  values : List JsString
  accountClasses : Option (List (JsString × AccountClass))
  contextEntries : Option (List NetworkContextEntry)
  deriving DecidableEq

def isTimestamp (s : JsString) : Bool := (parseTime s).isSome

def isLowerValue (s : JsString) : Bool := isCatalogValue s && JsString.lowerLatin s == s

def isCatalogVersion (s : JsString) : Bool :=
  isBoundedText 64 s && (s.head?.any fun c => isLower c || isDecimal c) &&
    s.all fun c => isLower c || isDecimal c || c ∈ [0x2E, 0x5F, 0x2F, 0x2D]

/-- `validContextEntry` of the runtime. -/
def NetworkContextEntry.wellFormed (entry : NetworkContextEntry) : Bool :=
  isOpaqueIdentityReference 256 entry.id && isTimestamp entry.startsAt &&
    isTimestamp entry.expiresAt && entry.subjectId.all (isOpaqueIdentityReference 256) &&
    entry.appId.all (isOpaqueIdentityReference 256) && entry.client.all isLowerValue &&
    entry.deviceFingerprint.all (isOpaqueIdentityReference 256) &&
    entry.sourceFingerprint.all (isOpaqueIdentityReference 256)

def isApprovedCatalogRuntime (catalog : ApprovedCatalog) : Bool :=
  isCatalogVersion catalog.version &&
    (catalog.digest.length == 64 && catalog.digest.all isHexadecimal) &&
    isTimestamp catalog.effectiveAt && catalog.expiresAt.all isTimestamp &&
    (decide (catalog.approverIds.length ≤ 16) &&
      catalog.approverIds.all (isOpaqueIdentityReference 128)) &&
    (decide (catalog.values.length ≤ 4096) && catalog.values.all isLowerValue) &&
    decide catalog.approverIds.Nodup &&
    (catalog.accountClasses.all fun classes => catalog.catalogType == .accountClass &&
      decide (classes.length ≤ 4096) &&
      classes.all fun e => isOpaqueIdentityReference 160 e.1) &&
    (catalog.contextEntries.all fun entries => catalog.catalogType == .networkContext &&
      decide (entries.length ≤ 1024) && entries.all NetworkContextEntry.wellFormed) &&
    (catalog.catalogType != .accountClass || catalog.accountClasses.isSome) &&
    (catalog.catalogType != .networkContext || catalog.contextEntries.isSome)

/-! ## The digest of a catalog -/

/-- A field that is left out when it is undefined. -/
def present (name : JsString) (value : Option Json) : List (JsString × Json) :=
  (value.map fun v => (name, v)).toList

def texts (values : List JsString) : Json := .array (values.map .string)

def NetworkContextEntry.json (entry : NetworkContextEntry) : Json :=
  .object ([(js "id", .string entry.id), (js "type", .string entry.type.text),
    (js "startsAt", .string entry.startsAt), (js "expiresAt", .string entry.expiresAt)] ++
    present (js "subjectId") (entry.subjectId.map .string) ++
    present (js "appId") (entry.appId.map .string) ++
    present (js "client") (entry.client.map .string) ++
    present (js "deviceFingerprint") (entry.deviceFingerprint.map .string) ++
    present (js "sourceFingerprint") (entry.sourceFingerprint.map .string))

/-- The catalog without its digest. -/
def ApprovedCatalog.unsigned (catalog : ApprovedCatalog) : Json :=
  .object ([(js "catalogType", .string catalog.catalogType.text),
    (js "version", .string catalog.version), (js "status", .string catalog.status.text),
    (js "approverIds", texts catalog.approverIds),
    (js "effectiveAt", .string catalog.effectiveAt)] ++
    present (js "expiresAt") (catalog.expiresAt.map .string) ++
    [(js "values", texts catalog.values)] ++
    present (js "accountClasses") (catalog.accountClasses.map fun classes =>
      .object (classes.map fun e => (e.1, .string e.2.text))) ++
    present (js "contextEntries") (catalog.contextEntries.map fun entries =>
      .array (entries.map NetworkContextEntry.json)))

def computeIdentitySignalCatalogDigest (sha256 : JsString → JsString) (catalog : ApprovedCatalog) :
    JsString :=
  sha256 (stringify (rewrite sortedEntries catalog.unsigned))

/-! ## The context -/

inductive Readiness
  | ready | notReady
  deriving DecidableEq, Repr

inductive Coverage
  | full | incomplete | unavailable
  deriving DecidableEq, Repr

structure EvaluationContext where
  evaluatedAt : JsString
  engineVersion : JsString
  catalogVersion : JsString
  readiness : Readiness
  capability : Coverage
  futureClockSkewToleranceMs : Option Nat
  featureFlags : Option (List (IdentitySignalRuleId × Bool))
  catalogs : Option (List ApprovedCatalog)

/-- `IDENTITY_RISK_ENGINE_VERSION`. -/
def riskEngineVersion : JsString := js "hawkview-identity-engine/1"

/-- `IDENTITY_SIGNAL_CATALOG_VERSION`. -/
def signalCatalogVersion : JsString := js "hawkview-identity-signals/v1"

/-- The texts that are not empty, each once and in order. -/
def sortedUnique (values : List JsString) : List JsString :=
  (JsSet.ofList (values.filter fun s => !s.isEmpty)).elements.insertionSort (· ≤ ·)

def truthy (s : Option JsString) : Bool := s.any fun s => !s.isEmpty

/-- `validContextEntry` of the evaluator. -/
def validContextEntry (entry : NetworkContextEntry) : Bool :=
  match parseTime entry.startsAt, parseTime entry.expiresAt with
  | some start, some stop =>
    !entry.id.isEmpty && decide (start < stop) &&
      match entry.type with
      | .sharedEgress => truthy entry.sourceFingerprint
      | .sharedDevice => truthy entry.deviceFingerprint
      | .expectedAuthRetry => truthy entry.subjectId
      | .travelException => truthy entry.subjectId && truthy entry.sourceFingerprint
      | .maintenance => truthy entry.subjectId
  | _, _ => false

def ApprovedCatalog.current (catalog : ApprovedCatalog) (now : Int) : Bool :=
  ((parseTime catalog.effectiveAt).any fun t => decide (t ≤ now)) &&
    catalog.expiresAt.all fun s => s.isEmpty || (parseTime s).any fun t => decide (now < t)

def ApprovedCatalog.approved (sha256 : JsString → JsString) (now : Int)
    (catalog : ApprovedCatalog) : Bool :=
  isApprovedCatalogRuntime catalog && catalog.status == .approved &&
    decide (2 ≤ (JsSet.ofList (catalog.approverIds.filter fun id => !id.isEmpty)).size) &&
    catalog.values == sortedUnique (catalog.values.map fun s =>
      JsString.lowerLatin (JsString.trim s)) &&
    decide ((catalog.contextEntries.getD []).map NetworkContextEntry.id).Nodup &&
    (catalog.contextEntries.getD []).all validContextEntry && catalog.current now &&
    computeIdentitySignalCatalogDigest sha256 catalog == JsString.lowerLatin catalog.digest

def catalogFor (sha256 : JsString → JsString) (context : EvaluationContext) (type : CatalogType) :
    Option ApprovedCatalog :=
  (parseTime context.evaluatedAt).bind fun now =>
    ((context.catalogs.getD []).find? fun catalog => catalog.catalogType = type).filter
      (ApprovedCatalog.approved sha256 now)

def accountClass (sha256 : JsString → JsString) (context : EvaluationContext)
    (subjectId : JsString) : AccountClass :=
  (((catalogFor sha256 context .accountClass).bind ApprovedCatalog.accountClasses).bind fun classes =>
    classes.lookup subjectId).getD .unknown

def NetworkContextEntry.active (entry : NetworkContextEntry) (now : Int) : Bool :=
  match parseTime entry.startsAt, parseTime entry.expiresAt with
  | some start, some stop => decide (start ≤ now ∧ now < stop)
  | _, _ => false

def contextEntries (sha256 : JsString → JsString) (context : EvaluationContext)
    (type : NetworkContextType) : List NetworkContextEntry :=
  match parseTime context.evaluatedAt with
  | none => []
  | some now =>
    ((((catalogFor sha256 context .networkContext).bind ApprovedCatalog.contextEntries).getD []).filter
      fun entry => entry.type = type && entry.active now).insertionSort fun a b => a.id ≤ b.id

/-- What an event shows of its origin. -/
structure ContextValues where
  subjectId : Option JsString
  appId : Option JsString
  client : Option JsString
  deviceFingerprint : Option JsString
  sourceFingerprint : Option JsString

/-- A field of an entry that is not given asks for nothing. -/
def asks (wanted value : Option JsString) : Bool := !truthy wanted || wanted == value

def exactContextMatch (entry : NetworkContextEntry) (values : ContextValues) : Bool :=
  asks entry.subjectId values.subjectId &&
    asks (entry.appId.map JsString.lowerLatin) (values.appId.map JsString.lowerLatin) &&
    asks (entry.client.map JsString.lowerLatin) (values.client.map JsString.lowerLatin) &&
    asks entry.deviceFingerprint values.deviceFingerprint &&
    asks entry.sourceFingerprint values.sourceFingerprint

def contextCoversEvents (entry : NetworkContextEntry) (events : List AuthEvent) : Bool :=
  match parseTime entry.startsAt, parseTime entry.expiresAt with
  | some start, some stop => events.all fun event =>
    (parseTime event.occurredAt).any fun t => decide (start ≤ t ∧ t < stop)
  | _, _ => false

end IdentitySignal
