import HawkView.Lib.IsoTime
import HawkView.Lib.JsMap
import HawkView.Lib.Json

/-!
# Effective MFA enforcement

What the Conditional Access policies of a tenant make of the MFA of one subject.
Policies and authentication strengths are read as they were collected; what
decides them is read only from fresh evidence.
-/

namespace EffectiveMfa

/-- A property list of a collected record. -/
abbrev RecordLike := List (JsString × Json)

/-- Case mapping and collation. -/
structure Platform where
  toLowerCase : JsString → JsString
  toUpperCase : JsString → JsString
  localeCompare : JsString → JsString → Int

inductive EvidenceStatus
  | fresh | stale | missing | failed | permissionLimited
  deriving DecidableEq, Repr

def EvidenceStatus.text : EvidenceStatus → JsString
  | .fresh => js "FRESH"
  | .stale => js "STALE"
  | .missing => js "MISSING"
  | .failed => js "FAILED"
  | .permissionLimited => js "PERMISSION_LIMITED"

structure MfaEvidenceState where
  status : EvidenceStatus
  observedAt : Option JsString
  deriving DecidableEq, Repr

structure MfaEvidence where
  policies : MfaEvidenceState
  membership : MfaEvidenceState
  roles : MfaEvidenceState
  authenticationStrengths : MfaEvidenceState
  deriving DecidableEq, Repr

inductive UserType
  | member | guest | unknown
  deriving DecidableEq, Repr

structure EffectiveMfaSubject where
  id : JsString
  userType : UserType
  externalTenantId : Option JsString
  transitiveGroupIds : Option (List JsString)
  activeRoleTemplateIds : Option (List JsString)
  deriving DecidableEq, Repr

structure EffectiveMfaEvaluationInput where
  subject : EffectiveMfaSubject
  policies : Option Json
  authenticationStrengths : Option Json
  evidence : MfaEvidence
  now : Int

inductive PolicyState
  | enabled | reportOnly | disabled
  deriving DecidableEq, Repr

inductive Outcome
  | universal | conditional | notEnforced
  deriving DecidableEq, Repr

structure EffectiveMfaPolicyEvidence where
  id : JsString
  name : JsString
  state : PolicyState
  outcome : Outcome
  materialConditions : List JsString
  deriving DecidableEq, Repr

inductive EffectiveMfaEnforcementStatus
  | coveredByConditionalAccess | conditionallyCovered | reportOnly | notCovered | unknown
  deriving DecidableEq, Repr

structure EffectiveMfaEnforcementProjection where
  status : EffectiveMfaEnforcementStatus
  label : JsString
  policies : List EffectiveMfaPolicyEvidence
  reasonCodes : List JsString
  evaluatedAt : JsString
  evidenceObservedAt : Option JsString
  riskReductionAllowed : Bool
  deriving DecidableEq, Repr

/-! ## Reading collected values -/

def record : Option Json → Option RecordLike
  | some (.object entries) => some entries
  | _ => none

def prop (entries : RecordLike) (name : String) : Option Json := entries.lookup (js name)

/-- `[...new Set(values)]`. -/
def unique (values : List JsString) : List JsString := (JsSet.ofList values).elements

def strings : Option Json → List JsString
  | some (.array items) => unique (items.filterMap fun
    | .string s => if JsString.blank s then none else some (JsString.trim s)
    | _ => none)
  | _ => []

def text (value : Option Json) (fallback : JsString) (max : Nat) : JsString :=
  match value with
  | some (.string s) =>
    if JsString.blank s then fallback
    else (JsString.trim (s.map fun c => if c ≤ 0x1F ∨ c = 0x7F then 0x20 else c)).take max
  | _ => fallback

def evidenceReason (key : String) (evidence : MfaEvidenceState) : JsString :=
  js key ++ js "_" ++ evidence.status.text

def isFresh (evidence : MfaEvidenceState) : Bool := evidence.status = .fresh

/-- The words of a list, in lower case. -/
def selectorSet (p : Platform) (values : List JsString) : List JsString :=
  values.map p.toLowerCase

/-! ## Targeting -/

/-- Whether a selector of guests takes the subject, or cannot be decided. -/
inductive External
  | unknown
  | known (selected : Bool)
  deriving DecidableEq, Repr

def externalSelectorMatches (p : Platform) (raw : Option Json) (subject : EffectiveMfaSubject) :
    External :=
  match record raw with
  | none => .known false
  | some selector =>
    if subject.userType ≠ .guest then .known false
    else
      let types := p.toLowerCase (text (prop selector "guestOrExternalUserTypes") [] 500)
      if !types.isEmpty && !JsString.includes types (js "guest") &&
          !JsString.includes types (js "external") then .known false
      else
        let tenants := record (prop selector "externalTenants")
        let kind := p.toLowerCase (text (tenants.bind (prop · "membershipKind")) [] 40)
        if kind.isEmpty || kind == js "all" then .known true
        else
          let members := (strings (tenants.bind (prop · "members"))).map p.toLowerCase
          let tenantId := subject.externalTenantId.getD []
          if tenantId.isEmpty then .unknown
          else if kind == js "enumerated" then .known (members.contains (p.toLowerCase tenantId))
          else .unknown

inductive Target
  | unknown (reason : JsString)
  | excluded
  | matched
  | notTargeted
  deriving DecidableEq, Repr

/-- `record(record(policy.conditions)?.users) ?? {}`. -/
def usersOf (policy : RecordLike) : RecordLike :=
  (record ((record (prop policy "conditions")).bind (prop · "users"))).getD []

/-- One list of a policy's user conditions. -/
def selector (p : Platform) (policy : RecordLike) (name : String) : List JsString :=
  selectorSet p (strings (prop (usersOf policy) name))

/-- The policy asks for groups, and they are not known. -/
def membershipUnknown (p : Platform) (policy : RecordLike) (subject : EffectiveMfaSubject)
    (evidence : MfaEvidence) : Bool :=
  (!(selector p policy "includeGroups").isEmpty || !(selector p policy "excludeGroups").isEmpty) &&
    (!isFresh evidence.membership || subject.transitiveGroupIds.isNone)

/-- The policy asks for roles, and they are not known. -/
def rolesUnknown (p : Platform) (policy : RecordLike) (subject : EffectiveMfaSubject)
    (evidence : MfaEvidence) : Bool :=
  (!(selector p policy "includeRoles").isEmpty || !(selector p policy "excludeRoles").isEmpty) &&
    (!isFresh evidence.roles || subject.activeRoleTemplateIds.isNone)

/-- The subject, a group or a role of it is in a list, or its kind of guest is. -/
def selected (p : Platform) (policy : RecordLike) (subject : EffectiveMfaSubject)
    (users groups roles : String) (external : Bool) : Bool :=
  (selector p policy users).contains (p.toLowerCase subject.id) ||
    (selector p policy groups).any
      (selectorSet p (subject.transitiveGroupIds.getD [])).contains ||
    (selector p policy roles).any
      (selectorSet p (subject.activeRoleTemplateIds.getD [])).contains || external

def targetEvaluation (p : Platform) (policy : RecordLike) (subject : EffectiveMfaSubject)
    (evidence : MfaEvidence) : Target :=
  let users := usersOf policy
  if membershipUnknown p policy subject evidence then
    .unknown (evidenceReason "MEMBERSHIP" evidence.membership)
  else if rolesUnknown p policy subject evidence then
    .unknown (evidenceReason "ROLES" evidence.roles)
  else match externalSelectorMatches p (prop users "includeGuestsOrExternalUsers") subject,
      externalSelectorMatches p (prop users "excludeGuestsOrExternalUsers") subject with
    | .known externalInclude, .known externalExclude =>
      if selected p policy subject "excludeUsers" "excludeGroups" "excludeRoles"
          externalExclude then .excluded
      else if (selector p policy "includeUsers").contains (js "all") ||
          selected p policy subject "includeUsers" "includeGroups" "includeRoles"
            externalInclude then .matched
      else .notTargeted
    | _, _ => .unknown (js "EXTERNAL_TENANT_UNKNOWN")

/-! ## Grant controls -/

def BUILT_IN_MFA_STRENGTH_IDS : List JsString := [
  js "00000000-0000-0000-0000-000000000002",
  js "00000000-0000-0000-0000-000000000003",
  js "00000000-0000-0000-0000-000000000004"]

def SINGLE_METHOD_MFA_STRENGTHS : List JsString := [
  js "fido2",
  js "windowshelloforbusiness",
  js "x509certificatemultifactor"]

def authenticationStrengthGuaranteesMfa (p : Platform) (strength : RecordLike) : Bool :=
  let id := p.toLowerCase (text (prop strength "id") [] 256)
  let satisfied := p.toLowerCase (text (prop strength "requirementsSatisfied") [] 256)
  let declared := match prop strength "isMfa" with
    | some (.bool b) => b
    | _ => false
  let combinations := strings (prop strength "allowedCombinations")
  if BUILT_IN_MFA_STRENGTH_IDS.contains id then true
  else if declared || satisfied == js "mfa" then true
  else !combinations.isEmpty && combinations.all fun combination =>
    let methods := (((p.toLowerCase combination).splitOn 0x2C).map JsString.trim).filter
      fun item => !item.isEmpty
    decide (2 ≤ methods.length) ||
      (methods.length == 1 && methods.all SINGLE_METHOD_MFA_STRENGTHS.contains)

inductive Grant
  | unknown (reason : JsString)
  | notGuaranteed (reason : JsString)
  | guaranteed
  deriving DecidableEq, Repr

def grantsOf (policy : RecordLike) : RecordLike := (record (prop policy "grantControls")).getD []

def builtInsOf (p : Platform) (policy : RecordLike) : List JsString :=
  (strings (prop (grantsOf policy) "builtInControls")).map p.toLowerCase

def operatorOf (p : Platform) (policy : RecordLike) : JsString :=
  p.toUpperCase (text (prop (grantsOf policy) "operator") (js "OR") 10)

def strengthRefOf (policy : RecordLike) : Option RecordLike :=
  record (prop (grantsOf policy) "authenticationStrength")

/-- The collected strength that a reference names. -/
def resolve (p : Platform) (strengths : List RecordLike) (strengthRef : RecordLike) :
    Option RecordLike :=
  strengths.find? fun entry => p.toLowerCase (text (prop entry "id") [] 256) ==
    p.toLowerCase (text (prop strengthRef "id") [] 256)

/-- What is left to decide once the strength is read. -/
def grantOf (builtIns : List JsString) (operator : JsString) (strengthRef strengthMfa : Bool) :
    Grant :=
  if !(builtIns.contains (js "mfa") || strengthMfa) then .notGuaranteed (js "MFA_NOT_REQUIRED")
  else if operator == js "OR" && decide (1 < builtIns.length + if strengthRef then 1 else 0) then
    .notGuaranteed (js "GRANT_OR_ALTERNATIVE")
  else if operator != js "AND" && operator != js "OR" then .unknown (js "GRANT_OPERATOR_UNKNOWN")
  else .guaranteed

def grantEvaluation (p : Platform) (policy : RecordLike) (strengths : List RecordLike)
    (evidence : MfaEvidence) : Grant :=
  let builtIns := builtInsOf p policy
  let operator := operatorOf p policy
  match strengthRefOf policy with
  | none => grantOf builtIns operator false false
  | some strengthRef =>
    if !isFresh evidence.authenticationStrengths then
      .unknown (evidenceReason "AUTHENTICATION_STRENGTHS" evidence.authenticationStrengths)
    else match resolve p strengths strengthRef with
      | none => .unknown (js "AUTHENTICATION_STRENGTH_NOT_RESOLVED")
      | some strength =>
        if !authenticationStrengthGuaranteesMfa p strength then
          .unknown (js "AUTHENTICATION_STRENGTH_AMBIGUOUS")
        else grantOf builtIns operator true true

/-! ## Conditions -/

/-- `Boolean(value)`. -/
def truthy : Json → Bool
  | .null => false
  | .bool b => b
  | .number n => n.text != js "0"
  | .string s => !s.isEmpty
  | .array _ => true
  | .object _ => true

/-- Whether a property says something: `false`, an empty text and an empty list say nothing. -/
def saysSomething : Json → Bool
  | .null => false
  | .bool b => b
  | .number _ => true
  | .string s => !s.isEmpty
  | .array items => !items.isEmpty
  | .object _ => true

def hasValue : Option Json → Bool
  | none => false
  | some (.array items) => !items.isEmpty
  | some (.object entries) => entries.any fun e => saysSomething e.2
  | some v => truthy v

def conditionLabels : List (String × JsString) := [
  ("devices", js "device state"),
  ("signInRiskLevels", js "sign-in risk"),
  ("userRiskLevels", js "user risk"),
  ("servicePrincipalRiskLevels", js "service-principal risk"),
  ("authenticationFlows", js "authentication flow")]

/-- A list that names `all`. -/
def namesAll (p : Platform) (values : List JsString) : Bool :=
  values.any fun value => p.toLowerCase value == js "all"

/-- A condition with an include and an exclude list that leaves something out. -/
def restricted (p : Platform) (condition : Option RecordLike) (included excluded : String) :
    Bool :=
  condition.any fun entries =>
    !namesAll p (strings (prop entries included)) || !(strings (prop entries excluded)).isEmpty

def materialConditions (p : Platform) (policy : RecordLike) : List JsString :=
  let conditions := (record (prop policy "conditions")).getD []
  let applications := (record (prop conditions "applications")).getD []
  let clientAppTypes := strings (prop conditions "clientAppTypes")
  let push (condition : Bool) (label : JsString) : List JsString :=
    if condition then [label] else []
  unique (
    push (!namesAll p (strings (prop applications "includeApplications")))
      (js "application subset") ++
    push (!(strings (prop applications "excludeApplications")).isEmpty)
      (js "application exclusions") ++
    push (!(strings (prop applications "includeUserActions")).isEmpty) (js "user actions") ++
    push (!(strings (prop applications "includeAuthenticationContextClassReferences")).isEmpty)
      (js "authentication context") ++
    push (restricted p (record (prop conditions "platforms")) "includePlatforms"
      "excludePlatforms") (js "platform") ++
    push (restricted p (record (prop conditions "locations")) "includeLocations"
      "excludeLocations") (js "location") ++
    push (!clientAppTypes.isEmpty && !namesAll p clientAppTypes) (js "client app") ++
    conditionLabels.flatMap fun (key, label) => push (hasValue (prop conditions key)) label)

def policyState : Option Json → PolicyState
  | some (.string s) =>
    if s = js "enabled" then .enabled
    else if s = js "enabledForReportingButNotEnforced" then .reportOnly
    else .disabled
  | _ => .disabled

/-! ## One policy -/

/-- What one policy adds to the evaluation. -/
inductive Assessment
  | unknown (reason : JsString)
  | excluded (evidence : EffectiveMfaPolicyEvidence)
  | qualifies (evidence : EffectiveMfaPolicyEvidence)
  | nothing
  deriving DecidableEq, Repr

def evidenceOf (policy : RecordLike) (outcome : Outcome) (materialConditions : List JsString) :
    EffectiveMfaPolicyEvidence where
  id := text (prop policy "id") (js "Unknown policy ID") 128
  name := text (prop policy "displayName") (js "Unnamed policy") 256
  state := policyState (prop policy "state")
  outcome
  materialConditions

def outcomeOf (state : PolicyState) (conditions : List JsString) : Outcome :=
  if state = .disabled then .notEnforced
  else if conditions.isEmpty then .universal
  else .conditional

def assess (p : Platform) (subject : EffectiveMfaSubject) (evidence : MfaEvidence)
    (strengths : List RecordLike) (raw : Json) : Assessment :=
  match record raw with
  | none => .unknown (js "POLICY_SHAPE_UNKNOWN")
  | some policy =>
    match targetEvaluation p policy subject evidence with
    | .unknown reason => .unknown reason
    | .excluded =>
      if grantEvaluation p policy strengths evidence = .guaranteed then
        .excluded (evidenceOf policy .notEnforced [js "effective exclusion"])
      else .nothing
    | .notTargeted => .nothing
    | .matched =>
      match grantEvaluation p policy strengths evidence with
      | .unknown reason => .unknown reason
      | .notGuaranteed _ => .nothing
      | .guaranteed =>
        let conditions := materialConditions p policy
        .qualifies (evidenceOf policy
          (outcomeOf (policyState (prop policy "state")) conditions) conditions)

/-! ## The evaluation -/

structure Tally where
  qualifying : List EffectiveMfaPolicyEvidence
  unknownReasons : JsSet JsString
  nonCoverageReasons : JsSet JsString

def Tally.add (t : Tally) : Assessment → Tally
  | .unknown reason => { t with unknownReasons := t.unknownReasons.add reason }
  | .excluded evidence =>
    { t with
      qualifying := t.qualifying ++ [evidence]
      nonCoverageReasons := t.nonCoverageReasons.add (js "EFFECTIVE_EXCLUSION") }
  | .qualifies evidence => { t with qualifying := t.qualifying ++ [evidence] }
  | .nothing => t

def sorted (values : List JsString) : List JsString := values.insertionSort (· ≤ ·)

def join (separator : JsString) (values : List JsString) : JsString := separator.intercalate values

def inNameOrder (p : Platform) (policies : List EffectiveMfaPolicyEvidence) :
    List EffectiveMfaPolicyEvidence :=
  policies.insertionSort fun left right =>
    p.localeCompare (left.name ++ js ":" ++ left.id) (right.name ++ js ":" ++ right.id) ≤ 0

/-- The decision over the policies that count. -/
def project (qualifying : List EffectiveMfaPolicyEvidence) (unknownReasons nonCoverageReasons :
    JsSet JsString) (evaluatedAt : JsString) (evidenceObservedAt : Option JsString) :
    EffectiveMfaEnforcementProjection :=
  let universal := qualifying.filter fun e => e.state = .enabled ∧ e.outcome = .universal
  let conditional := qualifying.filter fun e => e.state = .enabled ∧ e.outcome = .conditional
  let reportOnly := qualifying.filter fun e => e.state = .reportOnly
  let named := join (js ", ")
  if !universal.isEmpty then {
    status := .coveredByConditionalAccess
    label := js "Covered by Conditional Access — " ++
      named (universal.map EffectiveMfaPolicyEvidence.name)
    policies := qualifying
    reasonCodes := sorted unknownReasons.elements
    evaluatedAt
    evidenceObservedAt
    riskReductionAllowed := true }
  else if unknownReasons.size > 0 then {
    status := .unknown
    label := js "MFA enforcement unknown"
    policies := qualifying
    reasonCodes := sorted unknownReasons.elements
    evaluatedAt
    evidenceObservedAt
    riskReductionAllowed := false }
  else if !conditional.isEmpty then {
    status := .conditionallyCovered
    label := js "Conditionally covered — " ++ join (js "; ") (conditional.map fun e =>
      e.name ++ js ": " ++ named e.materialConditions)
    policies := qualifying
    reasonCodes := [js "MATERIAL_CONDITIONS_PRESENT"]
    evaluatedAt
    evidenceObservedAt
    riskReductionAllowed := false }
  else if !reportOnly.isEmpty then {
    status := .reportOnly
    label := js "Would be covered (report-only) — " ++
      named (reportOnly.map EffectiveMfaPolicyEvidence.name) ++ js "; not enforced"
    policies := qualifying
    reasonCodes := [js "REPORT_ONLY_NOT_ENFORCED"]
    evaluatedAt
    evidenceObservedAt
    riskReductionAllowed := false }
  else {
    status := .notCovered
    label := js "Not covered"
    policies := qualifying
    reasonCodes := sorted (nonCoverageReasons.elements ++ [js "NO_UNIVERSAL_MFA_POLICY"])
    evaluatedAt
    evidenceObservedAt
    riskReductionAllowed := false }

def strengthsOf : Option Json → List RecordLike
  | some (.array items) => items.filterMap fun item => record item
  | _ => []

/-- The policies, when they are fresh and a list. -/
def usablePolicies (input : EffectiveMfaEvaluationInput) : Option (List Json) :=
  match input.policies with
  | some (.array items) => if isFresh input.evidence.policies then some items else none
  | _ => none

def assessOf (p : Platform) (input : EffectiveMfaEvaluationInput) : Json → Assessment :=
  assess p input.subject input.evidence (strengthsOf input.authenticationStrengths)

def tally (p : Platform) (input : EffectiveMfaEvaluationInput) (items : List Json) : Tally :=
  items.foldl (fun t raw => t.add (assessOf p input raw)) ⟨[], JsMap.empty, JsMap.empty⟩

def evaluateEffectiveMfaEnforcement (p : Platform) (input : EffectiveMfaEvaluationInput) :
    EffectiveMfaEnforcementProjection :=
  let evaluatedAt := IsoTime.toISOString input.now
  match usablePolicies input with
  | none => {
    status := .unknown
    label := js "MFA enforcement unknown"
    policies := []
    reasonCodes := [evidenceReason "POLICIES" input.evidence.policies]
    evaluatedAt
    evidenceObservedAt := input.evidence.policies.observedAt
    riskReductionAllowed := false }
  | some items =>
    let t := tally p input items
    project (inNameOrder p t.qualifying) t.unknownReasons t.nonCoverageReasons evaluatedAt
      input.evidence.policies.observedAt

end EffectiveMfa
