import HawkView.Auth.Contract

/-!
# Merging incidents

A finding is merged with the incidents of its key that it overlaps in time. What
is disputed is kept apart from the evidence that counts.
-/

namespace Auth

open IsoTime

inductive Activity
  | active | historical | unknown
  deriving DecidableEq, Repr

structure AuthIncident extends AuthFinding where
  incidentId : JsString
  activity : Activity
  quarantinedEventIds : List JsString
  lastEvaluatedAt : JsString
  deriving DecidableEq, Repr

structure AuthIncidentContext extends AuthScope where
  asOf : JsString
  source : JsString
  conflictingEventIds : List JsString

inductive IncidentError
  | invalidIncidentContext | incidentInputCapExceeded | invalidConflictContext
  | invalidIncidentEvidence | incidentEvidenceInputCapExceeded | incidentScopeMismatch
  | invalidIncidentFacts | incidentReplayBoundary
  deriving DecidableEq, Repr

/-! ## What is accepted -/

/-- The number of evidence references, unless a list or their sum is too long. -/
def countEvidence (lists : List (List JsString × List JsString)) : Except IncidentError Nat :=
  lists.foldlM (fun inputEvidence (evidence, quarantined) =>
    if evidence.length > maxAuthEvents ∨ quarantined.length > maxAuthEvents then
      throw .invalidIncidentEvidence
    else if inputEvidence + evidence.length + quarantined.length > maxIncidentInputEvidence then
      throw .incidentEvidenceInputCapExceeded
    else pure (inputEvidence + evidence.length + quarantined.length)) 0

def factsValid (finding : AuthFinding) : Bool :=
  [finding.findingId, finding.subjectRef, finding.applicationRef].all textValue &&
    finding.evidenceEventIds.all textValue && decide finding.evidenceEventIds.Nodup &&
    finding.evidenceCount == finding.evidenceEventIds.length &&
    decide (finding.ruleId = .ruleA ∧ finding.priority = .low ∨
      finding.ruleId = .ruleB ∧ finding.priority = .medium) &&
    decide (finding.caveats.length ≤ 32) && finding.caveats.all textValue

def clocksValid (now : Int) (finding : AuthFinding) : Bool :=
  match utcTime finding.firstSeen, utcTime finding.lastSeen, utcTime finding.expiresAt,
    utcTime finding.evaluatedAt with
  | some first, some last, some expiry, some evaluated =>
    decide (first ≤ last ∧ last ≤ now ∧ evaluated ≤ now ∧ last ≤ expiry)
  | _, _, _, _ => false

def checkFinding (context : AuthIncidentContext) (now : Int) (finding : AuthFinding) :
    Except IncidentError Unit := do
  if finding.toAuthScope ≠ context.toAuthScope ∨ finding.source.text ≠ context.source then
    throw .incidentScopeMismatch
  if !factsValid finding then throw .invalidIncidentFacts
  if !clocksValid now finding then throw .incidentReplayBoundary

def checkIncident (now : Int) (incident : AuthIncident) : Except IncidentError Unit := do
  if !textValue incident.incidentId ||
      !(utcTime incident.lastEvaluatedAt).any fun t => decide (t ≤ now) then
    throw .incidentReplayBoundary
  if !incident.quarantinedEventIds.all textValue then throw .invalidIncidentFacts

/-- The evaluation time, when everything that comes in is accepted. -/
def accept (prior : List AuthIncident) (current : List AuthFinding)
    (context : AuthIncidentContext) : Except IncidentError Int := do
  let now ← match utcTime context.asOf with
    | some now => pure now
    | none => throw .invalidIncidentContext
  if !([context.organizationId, context.customerTenantId,
      context.microsoftTenantId].all textValue) ||
      (AuthSource.ofText context.source).isNone then
    throw .invalidIncidentContext
  if prior.length + current.length > maxAuthIncidents then throw .incidentInputCapExceeded
  if context.conflictingEventIds.length > maxAuthEvents ||
      !context.conflictingEventIds.all textValue then
    throw .invalidConflictContext
  let _ ← countEvidence (prior.map (fun i => (i.evidenceEventIds, i.quarantinedEventIds)) ++
    current.map fun f => (f.evidenceEventIds, []))
  (prior.map AuthIncident.toAuthFinding ++ current).forM (checkFinding context now)
  prior.forM (checkIncident now)
  return now

/-! ## Prior incidents -/

def conflictCaveats (disputed : JsSet JsString) : List JsString :=
  if disputed.size ≠ 0 then [js "CONFLICTING_DUPLICATES"] else []

/-- The disputed ids of a prior incident. -/
def disputedOf (conflicts : List JsString) (incident : AuthIncident) : JsSet JsString :=
  JsSet.ofList (incident.quarantinedEventIds ++
    incident.evidenceEventIds.filter fun id => conflicts.contains id)

def activityOf (now : Int) (expiresAt : JsString) (disputed : Bool) : Activity :=
  if dateParse expiresAt < now then .historical else if disputed then .unknown else .active

def refresh (conflicts : List JsString) (asOf : JsString) (now : Int) (incident : AuthIncident) :
    AuthIncident :=
  let quarantined := disputedOf conflicts incident
  let newlyAffected := incident.evidenceEventIds.any quarantined.has
  let evidence := incident.evidenceEventIds.filter fun id => !quarantined.has id
  { incident with
    activity := activityOf now incident.expiresAt (incident.activity = .unknown || newlyAffected)
    quarantinedEventIds := (sorted quarantined.elements).take maxAuthEvents
    evidenceEventIds := evidence
    evidenceCount := evidence.length
    caveats := sorted (JsSet.ofList (incident.caveats ++ conflictCaveats quarantined ++
      if quarantined.size > maxAuthEvents then [js "EVIDENCE_CAP_REACHED"] else [])).elements
    lastEvaluatedAt := asOf }

/-! ## One finding -/

def overlaps (finding : AuthFinding) (incident : AuthIncident) : Bool :=
  findingKey incident.toAuthFinding == findingKey finding &&
    decide (dateParse finding.firstSeen ≤ dateParse incident.expiresAt) &&
    decide (dateParse incident.firstSeen ≤ dateParse finding.expiresAt)

/-- `ordinal(a.x, b.x) || ordinal(a.y, b.y)` is not positive. -/
def textOrder {α : Type} (x y : α → JsString) (a b : α) : Prop := x a < x b ∨ x a = x b ∧ y a ≤ y b

instance {α : Type} (x y : α → JsString) : DecidableRel (textOrder x y) := fun a b =>
  inferInstanceAs (Decidable (x a < x b ∨ x a = x b ∧ y a ≤ y b))

def candidates (incidents : List AuthIncident) (finding : AuthFinding) : List AuthIncident :=
  (incidents.filter (overlaps finding)).insertionSort
    (textOrder (fun i => i.firstSeen) AuthIncident.incidentId)

def supported (candidates : List AuthIncident) : List AuthIncident :=
  candidates.filter fun incident => incident.activity = .active

/-- The disputed ids of the candidates and of the finding. -/
def disputedWith (conflicts : List JsString) (candidates : List AuthIncident)
    (finding : AuthFinding) : JsSet JsString :=
  JsSet.ofList (candidates.flatMap AuthIncident.quarantinedEventIds ++
    finding.evidenceEventIds.filter fun id => conflicts.contains id)

/-- The text that sorts first. -/
def earliest (text : JsString) (texts : List JsString) : JsString :=
  (sorted (text :: texts)).headD text

/-- The text that sorts last. -/
def latest (text : JsString) (texts : List JsString) : JsString :=
  (sorted (text :: texts)).getLastD text

/-- The incident of a finding and the incidents it overlaps. -/
def combine (p : Platform) (conflicts : List JsString) (asOf : JsString) (now : Int)
    (incidents : List AuthIncident) (finding : AuthFinding) : AuthIncident :=
  let candidates := candidates incidents finding
  let retained := candidates.head?
  let supported := supported candidates
  let quarantined := disputedWith conflicts candidates finding
  let witnessInvalid := finding.evidenceEventIds.any quarantined.has
  let evidence := sorted ((JsSet.ofList (supported.flatMap (fun i => i.evidenceEventIds) ++
    finding.evidenceEventIds)).elements.filter fun id => !quarantined.has id)
  let expiresAt := latest finding.expiresAt (supported.map fun i => i.expiresAt)
  let newest := ((supported.map AuthIncident.toAuthFinding ++ [finding]).insertionSort
    (textOrder AuthFinding.lastSeen AuthFinding.evaluatedAt)).getLastD finding
  { finding with
    findingId := (retained.map fun i => i.findingId).getD finding.findingId
    incidentId := (retained.map AuthIncident.incidentId).getD
      (js "incident-" ++ digest p [.string (findingKey finding), .string finding.findingId])
    firstSeen := earliest finding.firstSeen (supported.map fun i => i.firstSeen)
    lastSeen := latest finding.lastSeen (supported.map fun i => i.lastSeen)
    expiresAt
    evaluatedAt := asOf
    lastEvaluatedAt := asOf
    activity := activityOf now expiresAt witnessInvalid
    quarantinedEventIds := (sorted quarantined.elements).take maxAuthEvents
    evidenceEventIds := evidence.take maxAuthEvents
    evidenceCount := min evidence.length maxAuthEvents
    eventMfa := newest.eventMfa
    caveats := sorted (JsSet.ofList (finding.caveats ++ candidates.flatMap (fun i => i.caveats) ++
      conflictCaveats quarantined ++
      if evidence.length > maxAuthEvents ∨ quarantined.size > maxAuthEvents then
        [js "EVIDENCE_CAP_REACHED"] else [])).elements }

def mergeFinding (p : Platform) (conflicts : List JsString) (asOf : JsString) (now : Int)
    (incidents : List AuthIncident) (finding : AuthFinding) : List AuthIncident :=
  incidents.filter (fun incident => !overlaps finding incident) ++
    [combine p conflicts asOf now incidents finding]

def arrivalOrder (current : List AuthFinding) : List AuthFinding :=
  current.insertionSort (textOrder AuthFinding.firstSeen AuthFinding.findingId)

def mergeAuthenticationIncidents (p : Platform) (prior : List AuthIncident)
    (current : List AuthFinding) (context : AuthIncidentContext) :
    Except IncidentError (List AuthIncident) :=
  (accept prior current context).map fun now =>
    let conflicts := context.conflictingEventIds
    let incidents := prior.map (refresh conflicts context.asOf now)
    ((arrivalOrder current).foldl (mergeFinding p conflicts context.asOf now)
      incidents).insertionSort fun a b => a.incidentId ≤ b.incidentId

end Auth
