import HawkView.Changes.SnapshotSpecs
import HawkView.Lib.IsoTime
import HawkView.Lib.JsonArrange

/-!
# Evidence of snapshot differences

Two payloads of one resource type are joined by the identifiers of their rows.
A row whose tracked fields differ is reported once, with its fields redacted and
under an id that a repeated comparison gives again.
-/

namespace ChangeEvidence

open Json

/-- A `Date` that holds a time. -/
abbrev Date := {t : Int // IsoTime.InDateRange t}

/-- A value from a JSON column. -/
abbrev Payload := {v : Json // WellFormed v}

/-! ## Readers -/

def object : Json → Entries
  | .object entries => entries
  | _ => []

def array : Json → List Json
  | .array items => items
  | _ => []

def text : Option Json → Option JsString
  | some (.string s) => if s.trim ≠ [] then some s.trim else none
  | _ => none

/-! ## Redaction -/

/-- `private.?key` and the like, where the dot stands for any unit but a line terminator. -/
def joins (first second s : JsString) : Bool :=
  s.includes (first ++ second) || s.tails.any fun rest =>
    first.isPrefixOf rest && match rest.drop first.length with
      | c :: rest => !([0x0A, 0x0D, 0x2028, 0x2029].contains c) && second.isPrefixOf rest
      | [] => false

/-- `sensitiveKey.test(key)`. -/
def sensitiveKey (key : JsString) : Bool :=
  let s := key.lowerLatin
  [js "password", js "secret", js "token", js "authorization", js "credential", js "assertion",
      js "certificate"].any s.includes ||
    joins (js "private") (js "key") s || joins (js "client") (js "secret") s

def REDACTED : Json := .string (js "[REDACTED]")

mutual

def redactSensitiveValues (key : JsString) (value : Json) : Json :=
  if sensitiveKey key then REDACTED
  else match value with
    | .array items => .array (redactItems items)
    | .object entries => .object (redactEntries entries)
    | v => v

def redactItems : List Json → List Json
  | [] => []
  | v :: rest => redactSensitiveValues [] v :: redactItems rest

def redactEntries : Entries → Entries
  | [] => []
  | (childKey, v) :: rest => (childKey, redactSensitiveValues childKey v) :: redactEntries rest

end

/-! ## Rows and their identifiers -/

/-- `/^[a-z0-9](?:[a-z0-9-]{0,61}[a-z0-9])?$/`. -/
def isLabel (label : JsString) : Bool :=
  let alnum (c : UInt16) : Bool := decide (0x61 ≤ c ∧ c ≤ 0x7A ∨ 0x30 ≤ c ∧ c ≤ 0x39)
  decide (label.length ≤ 63) && label.all (fun c => alnum c || c == 0x2D) &&
    label.head?.any alnum && label.getLast?.any alnum

/-- The canonical name of a domain; `domainToASCII` is the one of the platform. -/
def verifiedDomain (domainToASCII : JsString → JsString) : Option Json → Option JsString
  | some (.string s) =>
    if s ≠ [] ∧ s.length ≤ 253 ∧ s.all (fun c => decide (¬(c ≤ 0x20 ∨ c = 0x7F))) then
      let domain := (domainToASCII s).lowerLatin
      if domain.length ≤ 253 ∧ 0x2E ∈ domain ∧ (domain.splitOn 0x2E).all isLabel then some domain
      else none
    else none
  | _ => none

def snapshotObjects (value : Json) : List Entries :=
  ((array value).map object).filter fun item => !item.isEmpty

/-- `evidenceRows` on one row. -/
def evidenceRow (domainToASCII : JsString → JsString) (resourceType : JsString) (row : Entries) :
    Entries :=
  if resourceType ≠ js "DOMAINS" then row
  else match verifiedDomain domainToASCII (row.lookup (js "name")) with
    | some name => JsMap.put (js "name") (.string name) row
    | none => row

def evidenceRows (domainToASCII : JsString → JsString) (value : Json) (resourceType : JsString) :
    List Entries :=
  (snapshotObjects value).map (evidenceRow domainToASCII resourceType)

/-- The text of one identifying value. -/
def identifying : Option Json → Option JsString
  | some (.string s) => if s.trim ≠ [] then some s.trim else none
  | some (.number n) => some n.text
  | some (.bool b) => some (if b then js "true" else js "false")
  | _ => none

def identifierFor (row : Entries) (fields compoundFields : List JsString) : Option JsString :=
  if compoundFields ≠ [] then
    (compoundFields.mapM fun field => identifying (row.lookup field)).map
      (js "::").intercalate
  else fields.findSome? fun field => identifying (row.lookup field)

/-! ## Comparison -/

structure Environment where
  collation : Collation
  domainToASCII : JsString → JsString
  /-- The hexadecimal digest of a text. -/
  sha256 : JsString → JsString

def canonicalize (env : Environment) (resourceType fieldName : JsString) : Json → Json :=
  arrange env.collation (unorderedIn resourceType) (some fieldName)

def selectedState (env : Environment) (row : Entries) (fields : List JsString)
    (resourceType : JsString) : Entries :=
  fields.filterMap fun field =>
    (row.lookup field).map fun v => (field, canonicalize env resourceType field v)

def sameState (left right : Entries) : Bool :=
  stringify (.object left) == stringify (.object right)

structure SnapshotDifferenceEvidence where
  organizationId : JsString
  customerTenantId : JsString
  source : JsString
  sourceEventId : JsString
  eventDateTime : Date
  workload : JsString
  category : JsString
  severity : Severity
  operationName : JsString
  summary : JsString
  targetId : JsString
  targetDisplayName : JsString
  targetType : JsString
  result : JsString
  beforeState : Option Json
  afterState : Option Json
  changedFields : List JsString
  raw : Json
  ingestedAt : Date
  expiresAt : Date

structure SnapshotInput where
  tenantId : JsString
  organizationId : JsString
  resourceType : JsString
  previousPayload : Payload
  currentPayload : Payload
  observedAt : Date
  baselineObservedAt : Option Date
  expiresAt : Date

/-- `beforeComparable` and `afterComparable`. -/
def comparable (env : Environment) (spec : SnapshotDifferenceSpec) (resourceType : JsString)
    (row : Option Entries) : Option Entries :=
  row.map fun r => selectedState env r spec.trackedFields resourceType

def unchanged : Option Entries → Option Entries → Bool
  | some before, some after => sameState before after
  | _, _ => false

/-- `JSON.stringify(comparable?.[field])`. -/
def fieldText (state : Option Entries) (field : JsString) : Option JsString :=
  state.bind fun s => (s.lookup field).map stringify

/-- The tracked fields whose texts differ. -/
def changedFields (env : Environment) (spec : SnapshotDifferenceSpec) (resourceType : JsString)
    (before after : Option Entries) : List JsString :=
  spec.trackedFields.filter fun field =>
    fieldText (comparable env spec resourceType before) field !=
      fieldText (comparable env spec resourceType after) field

/-- What the digest of a difference is taken of. -/
def fingerprintText (resourceType identifier : JsString) (changed : List JsString)
    (baselineObservedAt : Option Date) : JsString :=
  stringify (.object
    [(js "resourceType", .string resourceType), (js "identifier", .string identifier),
      (js "changedFields", .array (changed.map .string)),
      (js "baselineObservedAt", match baselineObservedAt with
        | some t => .string (IsoTime.toISOString t.1)
        | none => .null)])

def sourceEventId (env : Environment) (resourceType identifier : JsString)
    (changed : List JsString) (baselineObservedAt : Option Date) : JsString :=
  let digest := (env.sha256 (fingerprintText resourceType identifier changed
    baselineObservedAt)).take 24
  (resourceType ++ js ":" ++ identifier ++ js ":" ++ digest).take 200

def differenceSummary : JsString :=
  js "HawkView detected a difference between successful Microsoft collections. " ++
    js "Microsoft did not provide a confirmed actor."

/-- `targetName`. -/
def targetName (afterRow : Option Entries) (identifier : JsString) : JsString :=
  let named (field : JsString) : Option JsString :=
    text (afterRow.bind fun r => r.lookup field)
  (((named (js "displayName")).or (named (js "name"))).or (named (js "webUrl"))).getD identifier

/-- The evidence of a difference in the given fields. -/
def evidenceOf (env : Environment) (spec : SnapshotDifferenceSpec) (input : SnapshotInput)
    (identifier : JsString) (beforeRow afterRow : Option Entries) (changed : List JsString) :
    SnapshotDifferenceEvidence :=
  let redacted (row : Option Entries) : Option Json :=
    (comparable env spec input.resourceType row).map fun state =>
      redactSensitiveValues [] (.object state)
  { organizationId := input.organizationId
    customerTenantId := input.tenantId
    source := js "SNAPSHOT_DIFFERENCE"
    sourceEventId := sourceEventId env input.resourceType identifier changed input.baselineObservedAt
    eventDateTime := input.observedAt
    workload := spec.workload
    category := spec.category
    severity := spec.severity
    operationName := spec.operationName
    summary := differenceSummary
    targetId := identifier
    targetDisplayName := targetName afterRow identifier
    targetType := input.resourceType
    result := js "detected"
    beforeState := redacted beforeRow
    afterState := redacted afterRow
    changedFields := changed
    raw := .object
      [(js "evidenceOrigin", .string (js "hawkview_snapshot_difference")),
        (js "microsoftSource", .string spec.microsoftSource),
        (js "resourceType", .string input.resourceType),
        (js "actorAvailability", .string (js "Microsoft did not provide a confirmed actor.")),
        (js "comparison", .string (js "successful_snapshot_to_successful_snapshot"))]
    ingestedAt := input.observedAt
    expiresAt := input.expiresAt }

/-- The evidence of one identifier. -/
def differenceOf (env : Environment) (spec : SnapshotDifferenceSpec) (input : SnapshotInput)
    (identifier : JsString) (beforeRow afterRow : Option Entries) :
    Option SnapshotDifferenceEvidence :=
  let changed := changedFields env spec input.resourceType beforeRow afterRow
  if unchanged (comparable env spec input.resourceType beforeRow)
      (comparable env spec input.resourceType afterRow) || changed.isEmpty then none
  else some (evidenceOf env spec input identifier beforeRow afterRow changed)

/-- The rows that have an identifier, each under it. -/
def byIdentifier (spec : SnapshotDifferenceSpec) (rows : List Entries) :
    List (JsString × Entries) :=
  rows.filterMap fun row =>
    (identifierFor row spec.identifierFields spec.compoundIdentifierFields).map (·, row)

def buildSnapshotDifferenceEvidence (env : Environment) (input : SnapshotInput) :
    List SnapshotDifferenceEvidence :=
  match SNAPSHOT_DIFFERENCE_SPECS.lookup input.resourceType, input.previousPayload.1 with
  | none, _ => []
  | _, .null => []
  | some spec, _ =>
    let rows (payload : Payload) :=
      evidenceRows env.domainToASCII payload.1 input.resourceType
    let previousById := JsMap.ofList (byIdentifier spec (rows input.previousPayload))
    let currentById := JsMap.ofList (byIdentifier spec (rows input.currentPayload))
    let identifiers := JsSet.ofList
      (previousById.entries.map Prod.fst ++ currentById.entries.map Prod.fst)
    identifiers.elements.filterMap fun identifier =>
      differenceOf env spec input identifier (previousById.get? identifier)
        (currentById.get? identifier)

end ChangeEvidence
