import HawkView.Auth.Contract

/-!
# The authentication rules

Events are admitted by their clocks, their fields and their scope; a version of
an event that differs from the one before it takes the event out. Two rules then
look for bursts of failures and for failures before a success.
-/

namespace Auth

open IsoTime

/-- What an event says, apart from when it came in. -/
structure EventFacts extends AuthScope where
  source : AuthSource
  eventId : JsString
  eventAt : JsString
  subjectRef : JsString
  applicationRef : JsString
  outcome : AuthOutcome
  errorCode : Option Nat
  clientSource : ClientSource
  eventMfa : EventMfa
  deriving DecidableEq, Repr

structure AuthNormalizedEvent extends EventFacts where
  ingestedAt : JsString
  deriving DecidableEq, Repr

/-- `events` and `readiness` are checked member by member, so they may be any value. -/
structure AuthEvaluationInput extends AuthScope where
  source : JsString
  asOf : JsString
  authorizedFrom : JsString
  events : List Json
  readiness : Json

inductive RuleStatus
  | matched | notMatched | notEvaluated
  deriving DecidableEq, Repr

structure AuthRuleEvaluation where
  ruleId : AuthRuleId
  status : RuleStatus
  reasonCodes : List JsString
  deriving DecidableEq, Repr

structure AuthEvaluationResult where
  evaluatedAt : JsString
  rules : List AuthRuleEvaluation
  findings : List AuthFinding
  admittedEventCount : Nat
  duplicateCount : Nat
  conflictingEventIds : List JsString
  deriving DecidableEq, Repr

/-! ## Reading a value -/

def member (v : Json) (name : String) : Option Json := Json.child v (.key (js name))

def textMember (v : Json) (name : String) : Option JsString :=
  match member v name with
  | some (.string s) => some s
  | _ => none

def isNull : Option Json → Bool
  | some .null => true
  | _ => false

def isTrue : Option Json → Bool
  | some (.bool b) => b
  | _ => false

def isFalse : Option Json → Bool
  | some (.bool b) => !b
  | _ => false

def isZero : Option Json → Bool
  | some (.number n) => n.text == js "0"
  | _ => false

/-- `undefined` or an empty array. -/
def noItems : Option Json → Bool
  | none => true
  | some (.array items) => items.isEmpty
  | _ => false

/-- A safe integer between 0 and 999999999. -/
def smallNumber (n : NumberText) : Option Nat :=
  ((readDigits n.text.length n.text).map Prod.fst).filter fun k =>
    decide (n.text = JsString.decimal k ∧ k ≤ 999999999)

def errorCodeOf (event : Json) : Option (Option Nat) :=
  match member event "errorCode" with
  | some .null => some none
  | some (.number n) => (smallNumber n).map some
  | _ => none

def clientSourceOf (p : Platform) (event : Json) : Option ClientSource := do
  let clientSource ← member event "clientSource"
  let qualification ← (textMember clientSource "qualification").bind Qualification.ofText
  if qualification = .qualified then
    let address ← (textMember clientSource "address").filter fun a => canonicalAddress p a = some a
    return ⟨qualification, some address⟩
  else if isNull (member clientSource "address") then return ⟨qualification, none⟩
  else none

def eventMfaOf (event : Json) : Option EventMfa := do
  let eventMfa ← member event "eventMfa"
  let fact ← (textMember eventMfa "fact").bind MfaFact.ofText
  if fact = .notEvidenced then
    if isNull (member eventMfa "evidenceRef") then return ⟨fact, none⟩ else none
  else
    let evidenceRef ← (textMember eventMfa "evidenceRef").filter textValue
    return ⟨fact, some evidenceRef⟩

/-- The event, when `validEvent` accepts it. -/
def validEvent (p : Platform) (event : Json) : Option AuthNormalizedEvent := do
  let eventId ← (textMember event "eventId").filter textValue
  let subjectRef ← (textMember event "subjectRef").filter textValue
  let applicationRef ← (textMember event "applicationRef").filter textValue
  let organizationId ← (textMember event "organizationId").filter textValue
  let customerTenantId ← (textMember event "customerTenantId").filter textValue
  let microsoftTenantId ← (textMember event "microsoftTenantId").filter textValue
  let eventAt ← (textMember event "eventAt").filter fun s => (utcTime s).isSome
  let ingestedAt ← (textMember event "ingestedAt").filter fun s => (utcTime s).isSome
  let source ← (textMember event "source").bind AuthSource.ofText
  let errorCode ← errorCodeOf event
  let outcome ← (textMember event "outcome").bind AuthOutcome.ofText
  let clientSource ← clientSourceOf p event
  let eventMfa ← eventMfaOf event
  if (outcome ≠ .invalidCredential ∨ errorCode = some 50126) ∧
      (outcome ≠ .success ∨ errorCode = some 0) then
    return { organizationId, customerTenantId, microsoftTenantId, source, eventId, eventAt,
             ingestedAt, subjectRef, applicationRef, outcome, errorCode, clientSource, eventMfa }
  else none

/-- The values that an event may not change in a second version. -/
def immutableFacts (event : EventFacts) : List Json :=
  [.string event.organizationId, .string event.customerTenantId,
    .string event.microsoftTenantId, .string event.source.text, .string event.eventId,
    .number (.ofInt (dateParse event.eventAt)), .string event.subjectRef,
    .string event.applicationRef, .string event.outcome.text,
    match event.errorCode with
    | none => .null
    | some code => .number (.ofInt code),
    .string event.clientSource.qualification.text, jsonOption event.clientSource.address,
    .string event.eventMfa.fact.text, jsonOption event.eventMfa.evidenceRef]

def immutableFingerprint (p : Platform) (event : EventFacts) : JsString :=
  digest p (immutableFacts event)

/-! ## Admission -/

def minute : Int := 60000

/-- What an evaluation has checked before it looks at events. -/
structure Context where
  scope : AuthScope
  source : AuthSource
  asOf : JsString
  now : Int
  authorized : Int
  readiness : Json

def Context.lowerBound (c : Context) : Int := max c.authorized (c.now - 24 * 60 * minute)

inductive Gate
  | skipped
  | refused (reason : JsString)
  | admitted (event : AuthNormalizedEvent)
  deriving DecidableEq

def gate (p : Platform) (c : Context) (event : Json) : Gate :=
  let eventTime := (textMember event "eventAt").bind utcTime
  let ingestionTime := (textMember event "ingestedAt").bind utcTime
  if eventTime.any fun t => decide (t < c.lowerBound) then .skipped
  else if (eventTime.any fun t => decide (t > c.now)) ||
      ingestionTime.any fun t => decide (t > c.now) then
    .refused (js "FUTURE_RECORD_EXCLUDED")
  else if eventTime.any fun t => ingestionTime.any fun i => decide (i < t) then
    .refused (js "INGESTION_PRECEDES_EVENT")
  else
    match validEvent p event with
    | none => .refused (js "MALFORMED_NORMALIZED_EVENT")
    | some event =>
      if c.scope ≠ event.toAuthScope ∨ event.source ≠ c.source then
        .refused (js "SOURCE_SCOPE_MISMATCH")
      else .admitted event

structure Group where
  fingerprint : JsString
  event : AuthNormalizedEvent
  conflict : Bool

structure Admission where
  reasons : JsSet JsString
  excludedRows : Nat
  groups : JsMap JsString Group
  duplicateCount : Nat

/-- The group of an event id after another version of the event. -/
def Group.meet (existing : Group) (fingerprint : JsString) (event : AuthNormalizedEvent) : Group :=
  if existing.fingerprint ≠ fingerprint then { existing with conflict := true }
  else if dateParse event.ingestedAt < dateParse existing.event.ingestedAt then
    { existing with event := event }
  else existing

def Admission.receive (p : Platform) (a : Admission) (event : AuthNormalizedEvent) : Admission :=
  let fingerprint := immutableFingerprint p event.toEventFacts
  match a.groups.get? event.eventId with
  | none => { a with groups := a.groups.set event.eventId ⟨fingerprint, event, false⟩ }
  | some existing =>
    { a with
      duplicateCount := a.duplicateCount + 1
      groups := a.groups.set event.eventId (existing.meet fingerprint event) }

def Admission.read (p : Platform) (c : Context) (a : Admission) (event : Json) : Admission :=
  match gate p c event with
  | .skipped => a
  | .refused reason =>
    { a with reasons := a.reasons.add reason, excludedRows := a.excludedRows + 1 }
  | .admitted event => a.receive p event

/-! ## Findings -/

def EventFacts.time (event : EventFacts) : Int := dateParse event.eventAt

/-- `eventOrder(a, b) <= 0`. -/
def eventOrder (a b : EventFacts) : Prop := a.time < b.time ∨ a.time = b.time ∧ a.eventId ≤ b.eventId

instance : DecidableRel eventOrder := fun a b =>
  inferInstanceAs (Decidable (a.time < b.time ∨ a.time = b.time ∧ a.eventId ≤ b.eventId))

def sortEvents (events : List EventFacts) : List EventFacts := events.insertionSort eventOrder

/-- The finding of a nonempty list of evidence. -/
def makeFinding (p : Platform) (c : Context) (ruleId : AuthRuleId) (caveats : List JsString)
    (evidence : List EventFacts) (expiresAt : Int) : Option AuthFinding := do
  let sortedEvidence := sortEvents evidence
  let first ← sortedEvidence.head?
  let last ← sortedEvidence.getLast?
  let finding : AuthFinding :=
    { toAuthScope := c.scope
      findingId := []
      ruleId
      source := c.source
      subjectRef := first.subjectRef
      applicationRef := first.applicationRef
      clientAddress := if ruleId = .ruleB then last.clientSource.address else none
      priority := if ruleId = .ruleA then .low else .medium
      firstSeen := first.eventAt
      lastSeen := last.eventAt
      evaluatedAt := c.asOf
      expiresAt := toISOString expiresAt
      evidenceEventIds := sortedEvidence.map EventFacts.eventId
      evidenceCount := sortedEvidence.length
      eventMfa := if ruleId = .ruleB then last.eventMfa else ⟨.notEvidenced, none⟩
      caveats := sorted (JsSet.ofList (js "PATTERN_NOT_COMPROMISE_PROOF" :: caveats)).elements }
  return { finding with
    findingId := js "auth-" ++ digest p [.string (findingKey finding), .string first.eventId] }

def timeAt (events : List EventFacts) (i : Nat) : Int :=
  (events[i]?.map EventFacts.time).getD 0

/-- `while (start < stop && time(start) < bound) start += 1`. -/
def advance (events : List EventFacts) (bound : Int) (stop start : Nat) : Nat :=
  start + (((events.take stop).drop start).takeWhile fun e => decide (e.time < bound)).length

/-- `while (end > start && time(end - 1) >= bound) end -= 1`. -/
def retreat (events : List EventFacts) (bound : Int) (start : Nat) : Nat :=
  events.length -
    ((events.drop start).reverse.takeWhile fun e => decide (e.time ≥ bound)).length

abbrev Emit := List EventFacts → Int → Option AuthFinding

structure EpisodeA where
  first : Nat
  last : Nat
  expiry : Int

structure StateA where
  start : Nat
  episode : Option EpisodeA
  findings : List AuthFinding

def StateA.flush (emit : Emit) (failures : List EventFacts) (s : StateA) : List AuthFinding :=
  match s.episode with
  | none => s.findings
  | some e =>
    s.findings ++ (emit ((failures.take (e.last + 1)).drop e.first) e.expiry).toList

def StateA.next (emit : Emit) (failures : List EventFacts) (s : StateA) (stop : Nat) : StateA :=
  let time := timeAt failures stop
  let start := advance failures (time - 15 * minute) (stop + 1) s.start
  if stop + 1 - start < 10 then { s with start }
  else
    let expiry := timeAt failures (stop - 9) + 15 * minute
    match s.episode with
    | some e =>
      if timeAt failures start ≤ e.expiry then
        { s with start, episode := some { e with last := stop, expiry } }
      else
        { start, episode := some ⟨start, stop, expiry⟩, findings := s.flush emit failures }
    | none => { start, episode := some ⟨start, stop, expiry⟩, findings := s.flush emit failures }

/-- Ten failures in fifteen minutes. -/
def ruleA (emit : Emit) (failures : List EventFacts) : List AuthFinding :=
  ((List.range failures.length).foldl (StateA.next emit failures) ⟨0, none, []⟩).flush emit failures

structure EpisodeB where
  evidence : JsMap JsString EventFacts
  expiry : Int
  admittedFailureEnd : Nat

structure StateB where
  failures : List EventFacts
  start : Nat
  episode : Option EpisodeB
  findings : List AuthFinding

def StateB.flush (emit : Emit) (s : StateB) : List AuthFinding :=
  match s.episode with
  | none => s.findings
  | some e => s.findings ++ (emit e.evidence.values e.expiry).toList

def addEvidence (evidence : JsMap JsString EventFacts) (events : List EventFacts) :
    JsMap JsString EventFacts :=
  events.foldl (fun m event => m.set event.eventId event) evidence

def StateB.next (emit : Emit) (s : StateB) (event : EventFacts) : StateB :=
  let time := event.time
  if event.outcome = .invalidCredential then { s with failures := s.failures ++ [event] }
  else
    let start := advance s.failures (time - 10 * minute) s.failures.length s.start
    let stop := retreat s.failures time start
    if stop - start ≥ 5 ∧ timeAt s.failures (stop - 1) ≥ time - 2 * minute then
      let opened : EpisodeB × List AuthFinding :=
        match s.episode with
        | some e =>
          if timeAt s.failures start > e.expiry then
            (⟨.empty, time + 10 * minute, start⟩, s.flush emit)
          else (e, s.findings)
        | none => (⟨.empty, time + 10 * minute, start⟩, s.flush emit)
      let fresh := (s.failures.take stop).drop (max start opened.1.admittedFailureEnd)
      { s with
        start
        episode := some
          { evidence := (addEvidence opened.1.evidence fresh).set event.eventId event
            expiry := time + 10 * minute
            admittedFailureEnd := stop }
        findings := opened.2 }
    else { s with start }

/-- Five failures in the ten minutes before a success. -/
def ruleB (emit : Emit) (values : List EventFacts) : List AuthFinding :=
  (values.foldl (StateB.next emit) ⟨[], 0, none, []⟩).flush emit

/-! ## The evaluation -/

def addIf (condition : Bool) (reason : JsString) (reasons : JsSet JsString) : JsSet JsString :=
  if condition then reasons.add reason else reasons

/-- `map.set(key, [...(map.get(key) ?? []), event])`. -/
def pushTo (m : JsMap JsString (List EventFacts)) (key : JsString) (event : EventFacts) :
    JsMap JsString (List EventFacts) := m.set key ((m.get? key).getD [] ++ [event])

def counted (event : EventFacts) : Bool :=
  decide (event.outcome = .invalidCredential ∨ event.outcome = .success)

def byUserApp (events : List EventFacts) : JsMap JsString (List EventFacts) :=
  (events.filter fun event => event.outcome = .invalidCredential).foldl (fun m event =>
    pushTo m (Json.array [.string event.subjectRef, .string event.applicationRef]).stringify event)
    .empty

def byUserAppClient (events : List EventFacts) : JsMap JsString (List EventFacts) :=
  (events.filter fun event => event.clientSource.qualification = .qualified && counted event).foldl
    (fun m event =>
      pushTo m (Json.array [.string event.subjectRef, .string event.applicationRef,
        jsonOption event.clientSource.address]).stringify event)
    .empty

/-- The events that no version disputes, in their order. -/
def Admission.events (a : Admission) : List EventFacts :=
  sortEvents ((a.groups.values.filter (!·.conflict)).map fun g => g.event.toEventFacts)

def Admission.conflicts (a : Admission) : List JsString :=
  sorted ((a.groups.entries.filter fun entry => entry.2.conflict).map Prod.fst)

def collectionCovered (readiness : Json) : Bool :=
  textMember readiness "state" == some (js "READY") &&
    isTrue (member readiness "paginationComplete") && isZero (member readiness "gapCount") &&
    isFalse (member readiness "capped") && noItems (member readiness "reasonCodes")

def ruleEvaluation (ruleId : AuthRuleId) (reasons : JsSet JsString)
    (findings : List AuthFinding) : AuthRuleEvaluation :=
  let reasonCodes := sorted reasons.elements
  { ruleId
    status :=
      if findings.any fun finding => finding.ruleId = ruleId then .matched
      else if reasonCodes.length ≠ 0 then .notEvaluated
      else .notMatched
    reasonCodes }

/-- What follows from the admitted events. -/
def conclude (p : Platform) (c : Context) (reasons : JsSet JsString) (excludedRows : Nat)
    (events : List EventFacts) (conflicts : List JsString) (duplicateCount : Nat) :
    AuthEvaluationResult :=
  let disputed := !conflicts.isEmpty
  let excludedRows := if disputed then excludedRows + conflicts.length else excludedRows
  let reasons := addIf (events.any fun event => event.outcome = .unknown) (js "UNKNOWN_OUTCOMES")
    (addIf (events.isEmpty && excludedRows == 0 && collectionCovered c.readiness)
      (js "NO_EVIDENCE_IN_WINDOW") (addIf disputed (js "CONFLICTING_DUPLICATES") reasons))
  let aReasons := addIf (decide (c.authorized > c.now - 15 * minute))
    (js "AUTHORIZED_WINDOW_INCOMPLETE") reasons
  let bReasons := addIf (events.any fun event =>
      counted event && event.clientSource.qualification ≠ .qualified) (js "INSUFFICIENT_FIELDS")
    (addIf (decide (c.authorized > c.now - 20 * minute)) (js "AUTHORIZED_WINDOW_INCOMPLETE")
      reasons)
  let findings :=
    (byUserApp events).values.flatMap (ruleA (makeFinding p c .ruleA aReasons.elements)) ++
    (byUserAppClient events).values.flatMap (ruleB (makeFinding p c .ruleB bReasons.elements))
  { evaluatedAt := c.asOf
    rules := [ruleEvaluation .ruleA aReasons findings, ruleEvaluation .ruleB bReasons findings]
    findings := findings.insertionSort fun a b => a.findingId ≤ b.findingId
    admittedEventCount := events.length
    duplicateCount
    conflictingEventIds := conflicts }

def readinessStates : List JsString :=
  [js "READY", js "PARTIAL", js "UNAVAILABLE", js "STALE"]

/-- The reasons before any event is looked at. -/
def readinessReasons (c : Context) (state : JsString) : JsSet JsString :=
  addIf (!noItems (member c.readiness "reasonCodes")) (js "SOURCE_REPORTED_GAP")
    (addIf (!isFalse (member c.readiness "capped")) (js "SOURCE_CAPPED")
      (addIf (!isZero (member c.readiness "gapCount")) (js "SOURCE_GAPS")
        (addIf (!isTrue (member c.readiness "paginationComplete")) (js "PAGINATION_INCOMPLETE")
          (addIf (state != js "READY") (js "SOURCE_" ++ state)
            (addIf (decide (c.authorized < c.lowerBound)) (js "LOOKBACK_CAPPED") .empty)))))

def blocked (input : AuthEvaluationInput) (reason : JsString) : AuthEvaluationResult :=
  { evaluatedAt := input.asOf
    rules := [⟨.ruleA, .notEvaluated, [reason]⟩, ⟨.ruleB, .notEvaluated, [reason]⟩]
    findings := []
    admittedEventCount := 0
    duplicateCount := 0
    conflictingEventIds := [] }

/-- The checks of the scope, the source and the clocks. -/
def contextOf (input : AuthEvaluationInput) : Option Context := do
  let now ← utcTime input.asOf
  let authorized ← utcTime input.authorizedFrom
  let source ← AuthSource.ofText input.source
  if authorized ≤ now ∧
      [input.organizationId, input.customerTenantId, input.microsoftTenantId].all textValue then
    return ⟨input.toAuthScope, source, input.asOf, now, authorized, input.readiness⟩
  else none

def admitAll (p : Platform) (c : Context) (state : JsString) (events : List Json) : Admission :=
  events.foldl (Admission.read p c) ⟨readinessReasons c state, 0, .empty, 0⟩

def evaluateAuthenticationRules (p : Platform) (input : AuthEvaluationInput) :
    AuthEvaluationResult :=
  match contextOf input with
  | none => blocked input (js "INVALID_EVALUATION_CONTEXT")
  | some c =>
    if input.events.length > maxAuthEvents then blocked input (js "INPUT_CAP_EXCEEDED")
    else
      match (textMember input.readiness "state").filter fun s => readinessStates.contains s with
      | none => blocked input (js "INVALID_READINESS")
      | some state =>
        let a := admitAll p c state input.events
        conclude p c a.reasons a.excludedRows a.events a.conflicts a.duplicateCount

end Auth
