import HawkView.Lib.IsoTime
import HawkView.Lib.JsonText
import HawkView.Lib.JsMap
import HawkView.Lib.StableOrder

/-!
# The authentication contract

Events, findings and incidents of the authentication rules, and the checks on
texts that they share. What the platform computes stands as a parameter.
-/

namespace Auth

/-- `isIP`, the host name of a URL, and SHA-256 in hexadecimal. -/
structure Platform where
  isIP : JsString → Nat
  hostname : JsString → JsString
  sha256 : JsString → JsString

def maxAuthEvents : Nat := 10000

def maxAuthIncidents : Nat := 2000

def maxIncidentInputEvidence : Nat := 100000

inductive AuthRuleId
  | ruleA | ruleB
  deriving DecidableEq, Repr

def AuthRuleId.text : AuthRuleId → JsString
  | .ruleA => js "HV-ID-AUTH-010.v1"
  | .ruleB => js "HV-ID-AUTH-005.v2"

inductive AuthSource
  | graphSignIns | m365AuditSts
  deriving DecidableEq, Repr

def AuthSource.text : AuthSource → JsString
  | .graphSignIns => js "GRAPH_SIGN_INS"
  | .m365AuditSts => js "M365_AUDIT_STS"

def AuthSource.ofText (s : JsString) : Option AuthSource :=
  [AuthSource.graphSignIns, .m365AuditSts].find? fun source => source.text = s

inductive Qualification
  | qualified | missing | ambiguous | proxyOnly
  deriving DecidableEq, Repr

def Qualification.text : Qualification → JsString
  | .qualified => js "QUALIFIED"
  | .missing => js "MISSING"
  | .ambiguous => js "AMBIGUOUS"
  | .proxyOnly => js "PROXY_ONLY"

def Qualification.ofText (s : JsString) : Option Qualification :=
  [Qualification.qualified, .missing, .ambiguous, .proxyOnly].find? fun q => q.text = s

inductive AuthOutcome
  | invalidCredential | success | nonQualifying | unknown
  deriving DecidableEq, Repr

def AuthOutcome.text : AuthOutcome → JsString
  | .invalidCredential => js "INVALID_CREDENTIAL"
  | .success => js "SUCCESS"
  | .nonQualifying => js "NON_QUALIFYING"
  | .unknown => js "UNKNOWN"

def AuthOutcome.ofText (s : JsString) : Option AuthOutcome :=
  [AuthOutcome.invalidCredential, .success, .nonQualifying, .unknown].find? fun o => o.text = s

inductive MfaFact
  | satisfied | notSatisfied | notEvidenced
  deriving DecidableEq, Repr

def MfaFact.text : MfaFact → JsString
  | .satisfied => js "SATISFIED"
  | .notSatisfied => js "NOT_SATISFIED"
  | .notEvidenced => js "NOT_EVIDENCED"

def MfaFact.ofText (s : JsString) : Option MfaFact :=
  [MfaFact.satisfied, .notSatisfied, .notEvidenced].find? fun f => f.text = s

structure AuthScope where
  organizationId : JsString
  customerTenantId : JsString
  microsoftTenantId : JsString
  deriving DecidableEq, Repr

structure ClientSource where
  qualification : Qualification
  address : Option JsString
  deriving DecidableEq, Repr

structure EventMfa where
  fact : MfaFact
  evidenceRef : Option JsString
  deriving DecidableEq, Repr

inductive Priority
  | low | medium
  deriving DecidableEq, Repr

structure AuthFinding extends AuthScope where
  findingId : JsString
  ruleId : AuthRuleId
  source : AuthSource
  subjectRef : JsString
  applicationRef : JsString
  clientAddress : Option JsString
  priority : Priority
  firstSeen : JsString
  lastSeen : JsString
  evaluatedAt : JsString
  expiresAt : JsString
  evidenceEventIds : List JsString
  evidenceCount : Nat
  eventMfa : EventMfa
  caveats : List JsString
  deriving DecidableEq, Repr

/-! ## Texts -/

def control (c : UInt16) : Bool := decide (c ≤ 0x1F) || c == 0x7F

def textValue (s : JsString) : Bool :=
  !s.isEmpty && decide (s.length ≤ 512) && !s.head?.any JsString.whitespace &&
    !s.getLast?.any JsString.whitespace && !s.any control

def canonicalAddress (p : Platform) (value : JsString) : Option JsString :=
  if !textValue value || value.contains 0x25 then none
  else match p.isIP value with
    | 4 => some value
    | 6 => some (JsString.lowerLatin
        ((p.hostname (js "http://[" ++ value ++ js "]/")).drop 1).dropLast)
    | _ => none

/-- `Date.parse` of a text that `utcTime` accepts. -/
def dateParse (s : JsString) : Int := (IsoTime.utcTime s).getD 0

/-- `[...texts].sort(ordinal)`. -/
def sorted (texts : List JsString) : List JsString := texts.insertionSort (· ≤ ·)

/-- `digest(values)` of an array. -/
def digest (p : Platform) (values : List Json) : JsString := p.sha256 (Json.array values).stringify

def jsonOption : Option JsString → Json
  | none => .null
  | some s => .string s

def findingKey (finding : AuthFinding) : JsString :=
  (Json.array [.string finding.organizationId, .string finding.customerTenantId,
    .string finding.microsoftTenantId, .string finding.source.text, .string finding.ruleId.text,
    .string finding.subjectRef, .string finding.applicationRef,
    jsonOption finding.clientAddress]).stringify

theorem sorted_perm {l m : List JsString} (h : l.Perm m) : sorted l = sorted m :=
  StableOrder.insertionSort_perm h fun _ _ _ _ => List.le_antisymm

end Auth
