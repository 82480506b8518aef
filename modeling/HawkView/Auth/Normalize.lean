import HawkView.Auth.Evaluate

/-!
# Normalization of authentication records

A record becomes an event when its clocks, its tenant, its subject and its
application are bound by the context. What a record says of the outcome is read
without coercion, and what contradicts it makes the outcome unknown.
-/

namespace Auth

open Json IsoTime

/-! ## The context of a record -/

structure SubjectContext where
  resolvedSubjectRef : JsString
  sourceUserId : JsString
  principalClass : JsString
  sourceField : Option JsString
  conflictingIdentifiers : Option Bool
  matchedBy : Option JsString
  uniqueMatch : Option Bool

structure ApplicationContext where
  applicationRef : JsString
  sourceValue : JsString
  field : JsString
  qualified : Bool

structure ClientContext where
  qualification : JsString
  field : Option JsString

structure EventMfaContext extends AuthScope where
  source : JsString
  eventId : JsString
  fact : JsString
  evidenceRef : JsString

structure AuthNormalizationContext extends AuthScope where
  source : JsString
  ingestedAt : JsString
  subject : SubjectContext
  application : ApplicationContext
  clientSource : ClientContext
  eventMfa : Option EventMfaContext

/-- The event of a record; its code is any safe integer. -/
structure RecordEvent extends AuthScope where
  source : AuthSource
  eventId : JsString
  eventAt : JsString
  ingestedAt : JsString
  subjectRef : JsString
  applicationRef : JsString
  outcome : AuthOutcome
  errorCode : Option Int
  clientSource : ClientSource
  eventMfa : EventMfa

/-! ## Reading a field -/

def isObject (v : Option Shape) : Bool := v == some .object

/-- A text that `textValue` accepts. -/
def textAt : Option Shape → Option JsString
  | some (.string s) => if textValue s then some s else none
  | _ => none

def timeAtField : Option Shape → Option Int
  | some (.string s) => utcTime s
  | _ => none

def addressAt (p : Platform) : Option Shape → Option JsString
  | some (.string s) => canonicalAddress p s
  | _ => none

def isString (v : Option Shape) (s : JsString) : Bool := v == some (.string s)

def isNumber (v : Option Shape) (text : JsString) : Bool :=
  match v with
  | some (.number n) => n.text == text
  | _ => false

def emptyError : Option Shape → Bool
  | none => true
  | some .null => true
  | some (.string s) => [[], js "0", js "None"].contains s
  | _ => false

def guid (s : JsString) : Bool := isUuid s.lowerLatin

/-- `Number.isSafeInteger` on a number, with its value. -/
def safeInteger (n : NumberText) : Option Int :=
  let digits := if n.text.head? = some 0x2D then n.text.drop 1 else n.text
  (((readDigits digits.length digits).map Prod.fst).filter fun k =>
    decide (digits = JsString.decimal k ∧ k < 2 ^ 53)).map fun k =>
      if n.text.head? = some 0x2D then -(k : Int) else k

/-- `/^(0|[1-9]\d{0,8})$/`, with the value. -/
def canonicalDecimal (s : JsString) : Option Nat :=
  ((readDigits s.length s).map Prod.fst).filter fun k =>
    decide (s = JsString.decimal k ∧ k ≤ 999999999)

def classify (code : Int) : AuthOutcome :=
  if code = 50126 then .invalidCredential
  else if code = 0 then .success
  else if code = 50076 then .nonQualifying
  else .unknown

/-! ## The outcome -/

/-- A code that is a safe integer. -/
def codeAt : Option Shape → Option Int
  | some (.number n) => safeInteger n
  | _ => none

/-- What a sign-in says of its outcome. -/
def graphOutcome (record : Json) : AuthOutcome × Option Int :=
  match codeAt (shapeAt record [.key (js "status"), .key (js "errorCode")]) with
  | none => (.unknown, none)
  | some code =>
    let explained :=
      !emptyError (shapeAt record [.key (js "status"), .key (js "failureReason")])
    let outcome := if code = 0 ∧ explained then .unknown else classify code
    match seen record (js "isInteractive") with
    | none => (outcome, some code)
    | some (.bool true) => (outcome, some code)
    | some (.bool false) => (.nonQualifying, some code)
    | _ => (.unknown, some code)

/-- What the reader sees of an extended property. -/
structure Property where
  shape : Shape
  name : Option Shape
  value : Option Shape
  deriving DecidableEq

/-- `record.ExtendedProperties`, when it is an array. -/
def propertiesOf (record : Json) : Option (List Property) :=
  match child record (.key (js "ExtendedProperties")) with
  | some (.array items) =>
    some (items.map fun item => ⟨item.shape, seen item (js "Name"), seen item (js "Value")⟩)
  | _ => none

/-- The extended properties, `none` where they are malformed. -/
def stsProperties (record : Json) : Option (List Property) :=
  if seen record (js "ExtendedProperties") = none then some []
  else
    (propertiesOf record).filter fun properties =>
      decide (properties.length ≤ 100) &&
        properties.all fun q => q.shape == .object && (textAt q.name).isSome

/-- The value of a result code that all of the places agree on. -/
def agreedCode : List (Option Shape) → Option Nat
  | some (.string s) :: rest =>
    if rest.all fun code => code == some (.string s) then canonicalDecimal s else none
  | _ => none

def stsCodes (record : Json) (properties : List Property) : List (Option Shape) :=
  (if seen record (js "ErrorCode") = none then [] else [seen record (js "ErrorCode")]) ++
    ((properties.filter fun q => isString q.name (js "ErrorCode") ||
      isString q.name (js "ErrorNumber")).map Property.value)

def stsLogonErrors (record : Json) (properties : List Property) : List (Option Shape) :=
  seen record (js "LogonError") ::
    (properties.filter fun q => isString q.name (js "LogonError")).map Property.value

/-- The field is not there, or it is one of the texts. -/
def absentOr (v : Option Shape) (texts : List JsString) : Bool :=
  v == none || texts.any fun s => isString v s

def stsOutcome (record : Json) (properties : List Property) : AuthOutcome × Option Int :=
  match agreedCode (stsCodes record properties) with
  | none => (.unknown, none)
  | some code =>
    let logonErrors := stsLogonErrors record properties
    let login := seen record (js "LoginStatus")
    let outcome := classify code
    if outcome = .success ∧ !(isString (seen record (js "Operation")) (js "UserLoggedIn") &&
        logonErrors.all emptyError &&
        absentOr login [js "0", js "Success", js "Succeeded"] &&
        absentOr (seen record (js "ResultStatus")) [js "Success", js "Succeeded"]) then
      (.unknown, some code)
    else if outcome = .invalidCredential ∧
        !(isString (seen record (js "Operation")) (js "UserLoginFailed") &&
          (logonErrors.all fun e => emptyError e || isString e (js "InvalidUserNameOrPassword")) &&
          absentOr login [js "50126", js "Failure", js "Failed"]) then
      (.unknown, some code)
    else (outcome, some code)

def outcomeOf (source : AuthSource) (record : Json) :
    Except JsString (AuthOutcome × Option Int) :=
  match source with
  | .graphSignIns => .ok (graphOutcome record)
  | .m365AuditSts =>
    if !(isNumber (seen record (js "RecordType")) (js "15") &&
        (isString (seen record (js "Operation")) (js "UserLoginFailed") ||
          isString (seen record (js "Operation")) (js "UserLoggedIn"))) then
      .error (js "UNSUPPORTED_STS_OPERATION")
    else
      match stsProperties record with
      | none => .error (js "MALFORMED_STS_PROPERTIES")
      | some properties => .ok (stsOutcome record properties)

/-! ## The bindings -/

def eventIdOf (source : AuthSource) (record : Json) : Option JsString :=
  textAt (seen record (match source with
    | .graphSignIns => js "id"
    | .m365AuditSts => js "Id"))

def eventAtOf (source : AuthSource) (record : Json) : Option Int :=
  timeAtField (seen record (match source with
    | .graphSignIns => js "createdDateTime"
    | .m365AuditSts => js "CreationTime"))

def SubjectContext.fieldFor (c : SubjectContext) (source : AuthSource) : JsString :=
  c.sourceField.getD (match source with
    | .graphSignIns => js "userId"
    | .m365AuditSts => js "UserId")

/-- The subject of the context is a human, and the record names it. -/
def subjectBound (c : SubjectContext) (source : AuthSource) (record : Json) : Bool :=
  [js "HUMAN", js "PRIVILEGED_HUMAN"].contains c.principalClass &&
    textValue c.resolvedSubjectRef && textValue c.sourceUserId &&
    c.conflictingIdentifiers != some true &&
    (match source with
      | .graphSignIns => c.fieldFor source == js "userId" && guid c.sourceUserId
      | .m365AuditSts => c.fieldFor source == js "UserId" &&
        c.matchedBy == some (js "EXACT_NORMALIZED_UPN") && c.uniqueMatch == some true) &&
    isString (seen record (c.fieldFor source)) c.sourceUserId

def applicationBound (c : ApplicationContext) (source : AuthSource) (record : Json) : Bool :=
  c.qualified && textValue c.applicationRef && textValue c.sourceValue &&
    (match source with
      | .graphSignIns => c.field == js "appId"
      | .m365AuditSts => c.field == js "ApplicationId" || c.field == js "Application") &&
    (c.field == js "Application" || guid c.sourceValue) &&
    isString (seen record c.field) c.sourceValue

def ClientContext.fieldFor (c : ClientContext) (source : AuthSource) : JsString :=
  c.field.getD (match source with
    | .graphSignIns => js "ipAddress"
    | .m365AuditSts => js "ClientIP")

def clientOf (p : Platform) (c : ClientContext) (source : AuthSource) (record : Json) :
    Except JsString ClientSource :=
  match Qualification.ofText c.qualification with
  | none => .error (js "INVALID_CLIENT_QUALIFICATION")
  | some qualification =>
    let field := c.fieldFor source
    if !(match source with
        | .graphSignIns => field == js "ipAddress"
        | .m365AuditSts => field == js "ClientIP" || field == js "ActorIpAddress") then
      .error (js "INVALID_CLIENT_FIELD")
    else if qualification = .qualified then
      match addressAt p (seen record field) with
      | none => .ok ⟨.missing, none⟩
      | some address => .ok ⟨.qualified, some address⟩
    else .ok ⟨qualification, none⟩

def mfaOf (c : AuthNormalizationContext) (eventId : JsString) : EventMfa :=
  match c.eventMfa with
  | none => ⟨.notEvidenced, none⟩
  | some mfa =>
    if mfa.eventId = eventId ∧ mfa.source = c.source ∧ mfa.toAuthScope = c.toAuthScope ∧
        textValue mfa.evidenceRef then
      match MfaFact.ofText mfa.fact with
      | some .satisfied => ⟨.satisfied, some mfa.evidenceRef⟩
      | some .notSatisfied => ⟨.notSatisfied, some mfa.evidenceRef⟩
      | _ => ⟨.notEvidenced, none⟩
    else ⟨.notEvidenced, none⟩

/-- The event of a record, or the reason for which it is rejected. -/
def normalizeAuthenticationRecord (p : Platform) (record : Json) (c : AuthNormalizationContext) :
    Except JsString RecordEvent :=
  if !isObject (some record.shape) then .error (js "MALFORMED_RECORD")
  else if !([c.organizationId, c.customerTenantId, c.microsoftTenantId].all textValue) then
    .error (js "INVALID_SCOPE")
  else
    match AuthSource.ofText c.source with
    | none => .error (js "UNSUPPORTED_SOURCE")
    | some source =>
      match eventIdOf source record, eventAtOf source record, utcTime c.ingestedAt with
      | some eventId, some eventAt, some ingestedAt =>
        if ingestedAt < eventAt then .error (js "INGESTION_PRECEDES_EVENT")
        else if source = .m365AuditSts ∧
            !isString (seen record (js "OrganizationId")) c.microsoftTenantId then
          .error (js "TENANT_BINDING_MISMATCH")
        else if !subjectBound c.subject source record then .error (js "UNRESOLVED_HUMAN")
        else if source = .m365AuditSts ∧ !(isNumber (seen record (js "UserType")) (js "0") ||
            isNumber (seen record (js "UserType")) (js "2")) then
          .error (js "UNSUPPORTED_PRINCIPAL_TYPE")
        else if !applicationBound c.application source record then
          .error (js "INSUFFICIENT_APPLICATION_BINDING")
        else do
          let (outcome, errorCode) ← outcomeOf source record
          let clientSource ← clientOf p c.clientSource source record
          return {
            toAuthScope := c.toAuthScope
            source, eventId
            eventAt := toISOString eventAt
            ingestedAt := toISOString ingestedAt
            subjectRef := c.subject.resolvedSubjectRef
            applicationRef := c.application.applicationRef
            outcome, errorCode, clientSource
            eventMfa := mfaOf c eventId }
      | _, _, _ => .error (js "INVALID_ID_OR_CLOCK")

end Auth
