import HawkView.Changes.ChangeEvidence

/-!
# Evidence of directory audit records

A stored audit record is projected to one evidence row. The row keeps the record's
columns, the states of the modified properties, and a redacted copy of what
Microsoft sent, with an envelope for the facts that classify it.
-/

namespace ChangeEvidence

open Json

structure DirectoryAuditRecord where
  microsoftAuditId : JsString
  eventDateTime : Date
  activityDisplayName : JsString
  category : Option JsString
  operationType : Option JsString
  result : Option JsString
  resultReason : Option JsString
  correlationId : Option JsString
  loggedByService : Option JsString
  initiatedBy : Option Json
  targetResources : Option Json
  raw : Json
  ingestedAt : Date
  expiresAt : Date

/-! ## Readers -/

def objectOf (value : Option Json) : Entries := (value.map object).getD []

def arrayOf (value : Option Json) : List Json := (value.map array).getD []

/-- `text` on a column. -/
def textOf (column : Option JsString) : Option JsString := text (column.map .string)

/-- A text that may be null. -/
def nullable (s : Option JsString) : Json := (s.map Json.string).getD .null

/-- `JSON.parse`, as far as it does not throw. -/
abbrev Parse := JsString → Option Json

def parseValue (parse : Parse) : Option Json → Option Json
  | some (.string s) => (parse s).or (some (.string s))
  | v => v

/-! ## Targets -/

/-- A modified property as it is read. -/
structure ModifiedProperty where
  name : JsString
  oldValue : Option Json
  newValue : Option Json

def modifiedProperties (targetResources : Option Json) : List ModifiedProperty :=
  ((arrayOf targetResources).map object).flatMap fun target =>
    ((arrayOf (target.lookup (js "modifiedProperties"))).map object).map fun property =>
      { name := (text (property.lookup (js "displayName"))).getD (js "value")
        oldValue := property.lookup (js "oldValue")
        newValue := property.lookup (js "newValue") }

/-- The own properties of an object, `none` for one that is undefined. -/
abbrev State := JsMap JsString (Option Json)

def redactValue (key : JsString) (value : Option Json) : Option Json :=
  if sensitiveKey key then some REDACTED else value.map (redactSensitiveValues key)

/-- `state[name] = redactSensitiveValues(parseValue(value), name)`, where the name of the
prototype makes no property of its own. -/
def assign (parse : Parse) (value : ModifiedProperty → Option Json) (state : State)
    (property : ModifiedProperty) : State :=
  if property.name = js "__proto__" then state
  else state.set property.name (redactValue property.name (parseValue parse (value property)))

def stateOf (parse : Parse) (value : ModifiedProperty → Option Json)
    (properties : List ModifiedProperty) : Option State :=
  let state := properties.foldl (assign parse value) JsMap.empty
  if state.entries ≠ [] then some state else none

structure TargetState where
  targetId : Option JsString
  targetDisplayName : Option JsString
  targetType : Option JsString
  before : Option State
  after : Option State
  fields : Option (List JsString)

def targetState (parse : Parse) (targetResources : Option Json) : TargetState :=
  let primary := ((arrayOf targetResources).map object).head?.getD []
  let properties := modifiedProperties targetResources
  let names := properties.map (·.name)
  { targetId := text (primary.lookup (js "id"))
    targetDisplayName :=
      ((text (primary.lookup (js "userPrincipalName"))).or
        (text (primary.lookup (js "displayName")))).or (text (primary.lookup (js "id")))
    targetType := text (primary.lookup (js "type"))
    before := stateOf parse (·.oldValue) properties
    after := stateOf parse (·.newValue) properties
    fields := if names ≠ [] then some (JsSet.ofList names).elements else none }

structure Actor where
  id : Option JsString
  displayName : Option JsString
  principalName : Option JsString

def actor (initiatedBy : Option Json) : Actor :=
  let initiated := objectOf initiatedBy
  let user := objectOf (initiated.lookup (js "user"))
  let app := objectOf (initiated.lookup (js "app"))
  { id := ((text (user.lookup (js "id"))).or (text (app.lookup (js "servicePrincipalId")))).or
      (text (app.lookup (js "appId")))
    displayName :=
      ((text (user.lookup (js "displayName"))).or (text (app.lookup (js "displayName")))).or
        (text (app.lookup (js "servicePrincipalName")))
    principalName :=
      (text (user.lookup (js "userPrincipalName"))).or
        (text (app.lookup (js "servicePrincipalName"))) }

def initiatingIp (initiatedBy : Option Json) : Option JsString :=
  text ((objectOf ((objectOf initiatedBy).lookup (js "user"))).lookup (js "ipAddress"))

/-! ## The envelope -/

def DIRECTORY_AUDIT_METADATA_KEY : JsString := js "hawkviewDirectoryAuditMetadata"

structure DirectoryAuditMetadata where
  category : Option JsString
  operationType : Option JsString
  targetResourceTypes : Option (List (Option JsString))

def directoryAuditMetadata (record : DirectoryAuditRecord) : DirectoryAuditMetadata where
  category := textOf record.category
  operationType := textOf record.operationType
  targetResourceTypes := match record.targetResources with
    | some (.array targets) => some (targets.map fun target =>
        text ((object target).lookup (js "type")))
    | _ => none

/-- The envelope as it is stored. -/
def DirectoryAuditMetadata.json (metadata : DirectoryAuditMetadata) : Json :=
  .object
    [(js "version", .number (.ofInt 1)),
      (js "category", nullable metadata.category),
      (js "operationType", nullable metadata.operationType),
      (js "targetResourceTypes",
        (metadata.targetResourceTypes.map fun types => Json.array (types.map nullable)).getD .null)]

/-- `{ ...raw, [key]: metadata, evidenceOrigin, microsoftSource }`. -/
def stamped (metadata : Json) (raw : Entries) : Entries :=
  JsMap.put (js "microsoftSource") (.string (js "Microsoft Graph /auditLogs/directoryAudits"))
    (JsMap.put (js "evidenceOrigin") (.string (js "microsoft_audit_event"))
      (JsMap.put DIRECTORY_AUDIT_METADATA_KEY metadata raw))

/-! ## The row -/

structure AuditEvidence where
  organizationId : JsString
  customerTenantId : JsString
  source : JsString
  sourceEventId : JsString
  eventDateTime : Date
  workload : JsString
  category : JsString
  severity : Severity
  operationName : JsString
  summary : JsString
  actor : Actor
  targetId : Option JsString
  targetDisplayName : Option JsString
  targetType : Option JsString
  correlationId : Option JsString
  result : Option JsString
  ipAddress : Option JsString
  beforeState : Option State
  afterState : Option State
  changedFields : Option (List JsString)
  raw : Json
  ingestedAt : Date
  expiresAt : Date

/-- `legacyCategory` of an activity, its category, operation type and target types. -/
abbrev LegacyCategory :=
  JsString → Option JsString → Option JsString → List (Option JsString) → JsString × Severity

/-- What the rows of a call share. -/
structure Projection where
  tenantId : JsString
  organizationId : JsString
  parse : Parse
  legacyCategory : LegacyCategory

def summaryOf (record : DirectoryAuditRecord) : JsString :=
  let parts := [record.operationType, record.result, record.resultReason].filterMap fun part =>
    part.filter fun s => !s.isEmpty
  let joined := (js " · ").intercalate parts
  if joined ≠ [] then joined else js "Microsoft directory change"

/-- The row of one record. -/
def projectDirectoryAudit (p : Projection) (record : DirectoryAuditRecord) : AuditEvidence :=
  let target := targetState p.parse record.targetResources
  let metadata := directoryAuditMetadata record
  let kind := p.legacyCategory record.activityDisplayName metadata.category
    metadata.operationType [target.targetType]
  { organizationId := p.organizationId
    customerTenantId := p.tenantId
    source := js "DIRECTORY_AUDIT"
    sourceEventId := record.microsoftAuditId
    eventDateTime := record.eventDateTime
    workload := record.loggedByService.getD (js "Microsoft Entra ID")
    category := kind.1
    severity := kind.2
    operationName := record.activityDisplayName
    summary := summaryOf record
    actor := actor record.initiatedBy
    targetId := target.targetId
    targetDisplayName := target.targetDisplayName
    targetType := target.targetType
    correlationId := record.correlationId
    result := record.result
    ipAddress := initiatingIp record.initiatedBy
    beforeState := target.before
    afterState := target.after
    changedFields := target.fields
    raw := .object (stamped metadata.json (object (redactSensitiveValues [] record.raw)))
    ingestedAt := record.ingestedAt
    expiresAt := record.expiresAt }

def projectDirectoryAudits (p : Projection) (records : List DirectoryAuditRecord) :
    List AuditEvidence :=
  records.map (projectDirectoryAudit p)

end ChangeEvidence
