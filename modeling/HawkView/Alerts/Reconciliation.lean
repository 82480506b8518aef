import HawkView.Alerts.AlertEpisode
import HawkView.Alerts.AlertKeys
import HawkView.Lib.JsMap
import Mathlib.Data.List.DropRight

/-!
# The reconciliation report

What the notifications of the old system become: the incident that each row
joins, the episode within it, and the counts the report holds against each
other.
-/

namespace Reconciliation

open AlertEpisode AlertKeys FindingPipeline IncidentKey

/-! ## Key shapes -/

inductive KeyShape
  | directoryAudit | tenantSync | tenantConnection | tenantInitialSync | tenantOnboarding
  | recovery | unrecognised
  deriving DecidableEq, Repr

structure ParsedKey where
  shape : KeyShape
  tenantIdInKey : Option JsString
  eventIdInKey : Option JsString
  recoveryOf : Option JsString
  resourceType : Option JsString
  auditCategory : Option JsString
  deriving DecidableEq, Repr

def unparsed (shape : KeyShape) : ParsedKey := ⟨shape, none, none, none, none, none⟩

/-- What `.` stands for in a pattern. -/
def inLine (c : UInt16) : Bool := !([0x0A, 0x0D, 0x2028, 0x2029].contains c)

def digit (c : UInt16) : Bool := decide (0x30 ≤ c ∧ c ≤ 0x39)

def letter (c : UInt16) : Bool := decide (0x41 ≤ c ∧ c ≤ 0x5A) || decide (0x61 ≤ c ∧ c ≤ 0x7A)

/-- `(.+)$` after the text `start`. -/
def lineAfter (start key : JsString) : Option JsString :=
  (start.isPrefixOf? key).filter fun rest => !rest.isEmpty && rest.all inLine

/-- `/^(.*):recovered:(\d+)$/`. -/
def recovered (key : JsString) : Option JsString :=
  if key.rtakeWhile digit = [] then none
  else ((js ":recovered:").isSuffixOf? (key.rdropWhile digit)).filter fun inner => inner.all inLine

/-- `/^([A-Za-z][A-Za-z ]*)_/`. -/
def categoryOf (eventId : JsString) : Option JsString :=
  let name := eventId.takeWhile fun c => letter c || c == 0x20
  if name.head?.any letter && eventId[name.length]? == some 0x5F then some name else none

/-- `/^tenant:([^:]+)/`, and the rest. -/
def tenantOf (key : JsString) : Option (JsString × JsString) :=
  ((js "tenant:").isPrefixOf? key).bind fun rest =>
    let tenantId := rest.takeWhile (· != 0x3A)
    if tenantId = [] then none else some (tenantId, rest.drop tenantId.length)

def parseDedupeKey (dedupeKey : JsString) : ParsedKey :=
  match recovered dedupeKey with
  | some inner => { unparsed .recovery with recoveryOf := some inner }
  | none =>
    match lineAfter (js "security:directory-audit:") dedupeKey with
    | some eventId =>
      { unparsed .directoryAudit with
        eventIdInKey := some eventId
        auditCategory := categoryOf eventId }
    | none =>
      match tenantOf dedupeKey with
      | none => unparsed .unrecognised
      | some (tenantId, rest) =>
        match lineAfter (js ":sync:") rest with
        | some resourceType =>
          { unparsed .tenantSync with
            tenantIdInKey := some tenantId
            resourceType := some resourceType }
        | none =>
          if rest = js ":connection" then
            { unparsed .tenantConnection with tenantIdInKey := some tenantId }
          else if rest = js ":initial-sync" then
            { unparsed .tenantInitialSync with tenantIdInKey := some tenantId }
          else if rest = js ":onboarding-authorized" then
            { unparsed .tenantOnboarding with tenantIdInKey := some tenantId }
          else unparsed .unrecognised

inductive ResourceTypeLookup
  | named (resourceType : JsString)
  | none
  | exhausted (hops : Nat)
  deriving DecidableEq, Repr

def maxRecoveryHops : Nat := 8

/-- The walk with so many hops left. -/
def lookupFrom : Nat → JsString → ResourceTypeLookup
  | 0, _ => .exhausted maxRecoveryHops
  | hops + 1, key =>
    let parsed := parseDedupeKey key
    if parsed.shape ≠ .recovery then
      match parsed.resourceType with
      | .none => .none
      | .some resourceType => .named resourceType
    else
      match parsed.recoveryOf with
      | .none => .none
      | .some inner => lookupFrom hops inner

def resourceTypeLookup (dedupeKey : JsString) : ResourceTypeLookup :=
  lookupFrom maxRecoveryHops dedupeKey

def resourceTypeFor (dedupeKey : JsString) : Option JsString :=
  match resourceTypeLookup dedupeKey with
  | .named resourceType => some resourceType
  | .none | .exhausted _ => none

/-! ## What the catalogue says of a shape -/

/-- `declaration.covers` in the catalogue. -/
def covers : AlertTypeId → List KeyShape
  | .tenantDisconnected => [.tenantConnection]
  | .collectorFailing => [.tenantSync, .tenantInitialSync]
  | .recovered => [.recovery]
  | .suspectedCredentialAttack | .privilegedDirectoryChange | .routineDirectoryChange
  | .consentExpiring => []

def typeForShape (shape : KeyShape) : Option AlertTypeId :=
  alertCatalog.foldl (fun found type =>
    if shape ∈ covers type.id then some type.id else found) none

inductive EpisodeGrouping
  | quietTimeout (windowHours : Nat)
  | observed (episodeIntervalHours : Nat)
  deriving DecidableEq, Repr

def episodeGrouping : AlertTypeId → EpisodeGrouping
  | .suspectedCredentialAttack => .quietTimeout 24
  | .privilegedDirectoryChange | .routineDirectoryChange | .tenantDisconnected
  | .collectorFailing | .consentExpiring | .recovered => .observed 24

def hourMs : Nat := 60 * 60 * 1000

def quietIntervalMsOf : EpisodeGrouping → Nat
  | .observed hours => hours * hourMs
  | .quietTimeout windowHours => windowHours * hourMs

def declarationFor (id : AlertTypeId) : Option AlertTypeDeclaration :=
  alertCatalog.find? fun entry => entry.id = id

/-! ## Rows and the incidents they join -/

structure Audit where
  initiatedBy : Option JsString
  targetResources : List JsString
  deriving DecidableEq, Repr

structure ExistingAlertRow where
  id : JsString
  organizationId : JsString
  customerTenantId : Option JsString
  dedupeKey : JsString
  occurrenceCount : Nat
  occurredAt : Option Int
  audit : Option Audit
  deriving DecidableEq, Repr

def subjectFor (row : ExistingAlertRow) : SubjectRole → ResolvedSubject
  | .actor =>
    match (row.audit.bind Audit.initiatedBy).filter (!·.isEmpty) with
    | some initiatedBy => .resolved initiatedBy
    | none =>
      .unresolved (if row.audit = none then js "no audit record joined"
        else js "initiatedBy absent")
  | .target =>
    match row.audit.bind (·.targetResources.head?) with
    | some first => .resolved first
    | none =>
      .unresolved (if row.audit = none then js "no audit record joined"
        else js "no target resources")
  | .account => .unresolved (js "this row predates account-subject findings")
  | .tenant =>
    match row.customerTenantId with
    | some customerTenantId => .resolved customerTenantId
    | none => .unresolved (js "notification has no customer tenant")
  | .collector =>
    match resourceTypeFor row.dedupeKey with
    | some resource => .resolved resource
    | none =>
      .unresolved (js "the key names no resource type, and nor does anything it recovers")

def groupingFor (row : ExistingAlertRow) (declaration : AlertTypeDeclaration)
    (role : SubjectRole) : Grouping :=
  incidentGrouping ⟨declaration.id.text, role⟩ ⟨row.organizationId, row.customerTenantId.getD []⟩
    (subjectFor row role)

structure MappingEntry where
  notificationId : JsString
  dedupeKey : JsString
  occurrenceCount : Nat
  shape : KeyShape
  alertTypeId : Option AlertTypeId
  incidentKey : Option JsString
  because : JsString
  deriving DecidableEq, Repr

/-! ## The pass over the rows -/

/-- `if (grouping.groups) keys.add(grouping.key)`. -/
def addKey (keys : JsSet JsString) : Grouping → JsSet JsString
  | .groups key => keys.add key
  | .alone _ _ => keys

/-- A count in a plain object. A name that every object inherits starts from the text of the
inherited member. -/
inductive CategoryCount
  | number (n : Nat)
  | text (s : JsString)
  deriving DecidableEq, Repr

def CategoryCount.next : CategoryCount → CategoryCount
  | .number n => .number (n + 1)
  | .text s => .text (s ++ js "1")

/-- `{}[category] ?? 0`. -/
def CategoryCount.before (category : JsString) : CategoryCount :=
  let source := fun name => CategoryCount.text (js "function " ++ name ++
    js "() \x7b [native code] \x7d")
  if category = js "constructor" then source (js "Object")
  else if category ∈ [js "hasOwnProperty", js "isPrototypeOf", js "propertyIsEnumerable",
      js "toLocaleString", js "toString", js "valueOf"] then source category
  else .number 0

/-- What is counted of every row. -/
structure RowCounts where
  byShape : KeyShape → Nat
  unrecognised : JsSet JsString
  auditCategories : JsMap JsString CategoryCount
  rowsWithTime : Nat
  rowsWithoutTimeByRow : Nat
  occurrences : Nat

def RowCounts.start : RowCounts := ⟨fun _ => 0, .empty, .empty, 0, 0, 0⟩

def RowCounts.read (counts : RowCounts) (row : ExistingAlertRow) : RowCounts :=
  let parsed := parseDedupeKey row.dedupeKey
  { byShape := Function.update counts.byShape parsed.shape (counts.byShape parsed.shape + 1)
    unrecognised :=
      if parsed.shape = .unrecognised then counts.unrecognised.add row.dedupeKey
      else counts.unrecognised
    auditCategories :=
      match parsed.auditCategory with
      | none => counts.auditCategories
      | some category =>
        counts.auditCategories.set category
          ((counts.auditCategories.get? category).getD (.before category)).next
    rowsWithTime := if row.occurredAt.isSome then counts.rowsWithTime + 1 else counts.rowsWithTime
    rowsWithoutTimeByRow :=
      if row.occurredAt.isSome then counts.rowsWithoutTimeByRow
      else counts.rowsWithoutTimeByRow + 1
    occurrences := counts.occurrences + row.occurrenceCount }

structure BucketEntry where
  id : JsString
  «at» : Option Int
  deriving DecidableEq, Repr

/-- The rows of an incident. -/
structure Bucket where
  times : List Int
  missing : Nat
  events : Nat
  auditOnly : Bool
  entries : List BucketEntry
  standingAlone : Bool
  deriving DecidableEq, Repr

def Bucket.start (standingAlone : Bool) : Bucket := ⟨[], 0, 0, true, [], standingAlone⟩

def Bucket.push (bucket : Bucket) (row : ExistingAlertRow) : Bucket :=
  { bucket with
    events := bucket.events + row.occurrenceCount
    entries := bucket.entries ++ [⟨row.id, row.occurredAt⟩]
    times := bucket.times ++ row.occurredAt.toList
    missing := if row.occurredAt.isSome then bucket.missing else bucket.missing + 1
    auditOnly := bucket.auditOnly && (parseDedupeKey row.dedupeKey).shape = .directoryAudit }

/-- The bound: every row under the type it has or, without one, under the nominated type. -/
structure Bound where
  boundKeys : JsSet JsString
  boundTargetKeys : JsSet JsString
  auditBoundKeys : JsSet JsString
  auditBoundTargetKeys : JsSet JsString
  standingAlone : Nat
  standingAloneByShape : JsMap KeyShape Nat
  rowsByIncident : JsMap JsString Bucket

def Bound.start : Bound := ⟨.empty, .empty, .empty, .empty, 0, .empty, .empty⟩

def declarationOf (row : ExistingAlertRow) : Option AlertTypeDeclaration :=
  (typeForShape (parseDedupeKey row.dedupeKey).shape).bind declarationFor

def nominated : Option AlertTypeDeclaration := declarationFor .routineDirectoryChange

def ungroupedKey (row : ExistingAlertRow) : JsString := js "ungrouped:" ++ row.id

def episodeKey (row : ExistingAlertRow) : Grouping → JsString
  | .groups key => key
  | .alone _ _ => ungroupedKey row

def Grouping.isAlone : Grouping → Bool
  | .groups _ => false
  | .alone _ _ => true

def Bound.readAs (bound : Bound) (row : ExistingAlertRow) (forBound : AlertTypeDeclaration) :
    Bound :=
  let shape := (parseDedupeKey row.dedupeKey).shape
  let boundGrouping := groupingFor row forBound (declaredSubject forBound.id)
  let boundTarget := groupingFor row forBound .target
  let key := episodeKey row boundGrouping
  let bucket := (bound.rowsByIncident.get? key).getD (.start (Grouping.isAlone boundGrouping))
  { boundKeys := addKey bound.boundKeys boundGrouping
    boundTargetKeys := addKey bound.boundTargetKeys boundTarget
    auditBoundKeys :=
      if shape = .directoryAudit then addKey bound.auditBoundKeys boundGrouping
      else bound.auditBoundKeys
    auditBoundTargetKeys :=
      if shape = .directoryAudit then addKey bound.auditBoundTargetKeys boundTarget
      else bound.auditBoundTargetKeys
    standingAlone :=
      if Grouping.isAlone boundGrouping then bound.standingAlone + 1 else bound.standingAlone
    standingAloneByShape :=
      if Grouping.isAlone boundGrouping then
        bound.standingAloneByShape.set shape ((bound.standingAloneByShape.get? shape).getD 0 + 1)
      else bound.standingAloneByShape
    rowsByIncident := bound.rowsByIncident.set key (bucket.push row) }

def Bound.read (bound : Bound) (row : ExistingAlertRow) : Bound :=
  match declarationOf row <|> nominated with
  | some forBound => bound.readAs row forBound
  | none => bound

/-- The mapping, and what is counted beside it. -/
structure Mapped where
  mapping : List MappingEntry
  declaredKeys : JsSet JsString
  targetKeys : JsSet JsString
  unattributed : Nat
  declaredResolved : Nat
  withDeterminedType : Nat
  needingClassification : Nat

def Mapped.start : Mapped := ⟨[], .empty, .empty, 0, 0, 0, 0⟩

def Mapped.read (mapped : Mapped) (row : ExistingAlertRow) : Mapped :=
  let shape := (parseDedupeKey row.dedupeKey).shape
  let entry : MappingEntry :=
    { notificationId := row.id
      dedupeKey := row.dedupeKey
      occurrenceCount := row.occurrenceCount
      shape := shape
      alertTypeId := typeForShape shape
      incidentKey := none
      because := [] }
  match declarationOf row with
  | none =>
    { mapped with
      needingClassification := mapped.needingClassification + 1
      mapping := mapped.mapping ++ [{ entry with
        because :=
          if shape = .unrecognised then
            js "This key shape is not one the current system is known to produce, so it is " ++
            js "reported rather than mapped. Unlisted is not harmless."
          else
            js "The key shape does not determine the alert type on its own — the underlying " ++
            js "change has to be classified first. Assigning a default here would file real " ++
            js "privileged changes as routine." }] }
  | some declaration =>
    let role := declaredSubject declaration.id
    let targetGrouping := groupingFor row declaration .target
    let typed := { entry with alertTypeId := some declaration.id }
    match groupingFor row declaration role with
    | .groups key =>
      { mapped with
        withDeterminedType := mapped.withDeterminedType + 1
        declaredKeys := mapped.declaredKeys.add key
        declaredResolved := mapped.declaredResolved + 1
        targetKeys := addKey mapped.targetKeys targetGrouping
        mapping := mapped.mapping ++ [{ typed with
          incidentKey := some key
          because := js "Groups as " ++ declaration.id.text ++ js " on its declared " ++
            role.toLowerCase ++ js "." }] }
    | .alone because _ =>
      { mapped with
        withDeterminedType := mapped.withDeterminedType + 1
        unattributed := mapped.unattributed + 1
        targetKeys := addKey mapped.targetKeys targetGrouping
        mapping := mapped.mapping ++ [{ typed with because := because }] }

/-! ## The pass over the incidents -/

structure Tally where
  episodesCounted : Nat
  episodesCountedAudit : Nat
  episodesAttributed : Nat
  episodesStandingAlone : Nat
  episodesAttributedAudit : Nat
  episodesStandingAloneAudit : Nat
  unrecoverable : Nat
  unrecoverableAttributed : Nat
  unrecoverableStandingAlone : Nat
  episodeByRow : JsMap JsString (Option Nat)
  ordinalDisagreements : List JsString

def Tally.start : Tally := ⟨0, 0, 0, 0, 0, 0, 0, 0, 0, .empty, []⟩

/-- The ordinal of the span that holds the instant. -/
def ordinalIn (spans : List EpisodeSpan) (at₀ : Option Int) : Option Nat :=
  (at₀.bind fun t => spans.findIdx? fun span =>
    decide (span.firstEventAt ≤ t) && decide (t ≤ span.lastEventAt)).map (· + 1)

/-- `for (const entry of bucket.entries) episodeByRow.set(entry.id, ordinal(entry))`. -/
def number (ordinal : BucketEntry → Option Nat) (entries : List BucketEntry)
    (episodeByRow : JsMap JsString (Option Nat)) : JsMap JsString (Option Nat) :=
  entries.foldl (fun m entry => m.set entry.id (ordinal entry)) episodeByRow

/-- The lines after the episodes of a bucket are known. -/
def Tally.gain (tally : Tally) (bucket : Bucket) (gained : Nat) : Tally :=
  let audit := if bucket.auditOnly then gained else 0
  let tally :=
    { tally with
      episodesCounted := tally.episodesCounted + gained
      episodesCountedAudit := tally.episodesCountedAudit + audit }
  if bucket.standingAlone then
    { tally with
      episodesStandingAlone := tally.episodesStandingAlone + gained
      episodesStandingAloneAudit := tally.episodesStandingAloneAudit + audit }
  else
    { tally with
      episodesAttributed := tally.episodesAttributed + gained
      episodesAttributedAudit := tally.episodesAttributedAudit + audit }

def Tally.read (quietMs : Nat) (tally : Tally) (bucket : Bucket) : Tally :=
  if bucket.events = 1 then
    { tally with
      episodeByRow := number (fun _ => some 1) bucket.entries tally.episodeByRow }.gain bucket 1
  else if bucket.missing > 0 then
    { tally with
      episodeByRow := number (fun _ => none) bucket.entries tally.episodeByRow
      unrecoverable := tally.unrecoverable + 1
      unrecoverableStandingAlone :=
        if bucket.standingAlone then tally.unrecoverableStandingAlone + 1
        else tally.unrecoverableStandingAlone
      unrecoverableAttributed :=
        if bucket.standingAlone then tally.unrecoverableAttributed
        else tally.unrecoverableAttributed + 1 }
  else
    let spans := episodesOf bucket.times quietMs
    let gained := spans.length
    let episodeByRow :=
      number (fun entry => ordinalIn spans entry.at) bucket.entries tally.episodeByRow
    let distinct :=
      (bucket.entries.filterMap fun entry => (episodeByRow.get? entry.id).join).dedup.length
    { tally with
      episodeByRow := episodeByRow
      ordinalDisagreements :=
        if distinct ≠ gained then
          tally.ordinalDisagreements ++
            [js "an incident counted " ++ JsString.decimal gained ++
              js " episodes but numbered its rows into " ++ JsString.decimal distinct]
        else tally.ordinalDisagreements }.gain bucket gained

/-! ## The report -/

def atMost (narrower wider : Nat) (narrowerLabel widerLabel : JsString) : List JsString :=
  if narrower ≤ wider then []
  else
    [narrowerLabel ++ js " is " ++ JsString.decimal narrower ++ js ", which exceeds " ++
      widerLabel ++ js " at " ++ JsString.decimal wider ++
      js " — the narrower set cannot be larger than the one it is drawn from"]

def adds (parts : List (JsString × Nat)) (whole : Nat) (wholeLabel : JsString) :
    List JsString :=
  let sum := (parts.map Prod.snd).sum
  if sum = whole then []
  else
    let shown := (js " + ").intercalate
      (parts.map fun part => JsString.decimal part.2 ++ js " " ++ part.1)
    [shown ++ js " = " ++ JsString.decimal sum ++ js ", but " ++ wholeLabel ++ js " is " ++
      JsString.decimal whole]

structure Incidents where
  declared : Nat
  ifKeyedOnTarget : Nat
  assumingSingleType : Nat
  assumingSingleTypeKeyedOnTarget : Nat
  assumingSingleTypeDirectoryAuditOnly : Nat
  assumingSingleTypeDirectoryAuditOnlyKeyedOnTarget : Nat
  declaredSubjectUnresolvedAmongTypedRows : Nat
  declaredSubjectResolvedAmongTypedRows : Nat
  withDeterminedType : Nat
  needingClassification : Nat

structure Episodes where
  counted : Nat
  fromAttributedRows : Nat
  fromStandingAloneRows : Nat
  fromAttributedRowsDirectoryAuditOnly : Nat
  fromStandingAloneRowsDirectoryAuditOnly : Nat
  standingAloneRowsWithUnrecoverableEpisodes : Nat
  attributedIncidentsWithUnrecoverableEpisodes : Nat
  countedDirectoryAuditOnly : Nat
  incidentsWithUnrecoverableEpisodes : Nat
  rowsWithoutEventTime : Nat
  rowsWithEventTime : Nat
  rowsStandingAloneBecauseSubjectUnresolved : Nat
  standingAloneByShape : JsMap KeyShape Nat
  quietIntervalHours : Nat

/-- The checks of the report on itself. -/
structure Invariants where
  rowsMissingFromMapping : List JsString
  duplicatedNotificationIds : List JsString
  occurrenceCountsAddUp : List JsString
  eventTimeCountsAddUp : List JsString
  episodeCountsAddUp : List JsString
  episodeOrdinalsAgreeWithCounts : List JsString
  cardinalityOrderingHolds : List JsString
  rowCountsAddUp : List JsString
  deriving DecidableEq, Repr

structure ReconciliationReport where
  total : Nat
  byShape : KeyShape → Nat
  unrecognisedExamples : List JsString
  auditCategories : JsMap JsString CategoryCount
  occurrencesRepresented : Nat
  incidents : Incidents
  episodes : Episodes
  episodeByRow : JsMap JsString (Option Nat)
  mapping : List MappingEntry
  invariants : Invariants

def sortTexts (texts : List JsString) : List JsString := texts.insertionSort (· ≤ ·)

/-- The ids that were seen before, and those seen again. -/
def duplicates (rows : List ExistingAlertRow) : JsSet JsString × JsSet JsString :=
  rows.foldl (fun (seen, duplicated) row =>
    (seen.add row.id,
      if seen.has row.id then duplicated.add row.id else duplicated))
    (.empty, .empty)

def quietMs : Nat := (nominated.map fun d => quietIntervalMsOf (episodeGrouping d.id)).getD
  (24 * 60 * 60 * 1000)

def reconcile (rows : List ExistingAlertRow) : ReconciliationReport :=
  let counts := rows.foldl RowCounts.read .start
  let bound := rows.foldl Bound.read .start
  let mapped := rows.foldl Mapped.read .start
  let tally := bound.rowsByIncident.values.foldl (Tally.read quietMs) .start
  let mappedIds := mapped.mapping.map MappingEntry.notificationId
  { total := rows.length
    byShape := counts.byShape
    unrecognisedExamples := sortTexts counts.unrecognised.elements
    auditCategories := counts.auditCategories
    occurrencesRepresented := counts.occurrences
    incidents :=
      { declared := mapped.declaredKeys.size
        ifKeyedOnTarget := mapped.targetKeys.size
        assumingSingleType := bound.boundKeys.size
        assumingSingleTypeKeyedOnTarget := bound.boundTargetKeys.size
        assumingSingleTypeDirectoryAuditOnly := bound.auditBoundKeys.size
        assumingSingleTypeDirectoryAuditOnlyKeyedOnTarget := bound.auditBoundTargetKeys.size
        declaredSubjectUnresolvedAmongTypedRows := mapped.unattributed
        declaredSubjectResolvedAmongTypedRows := mapped.declaredResolved
        withDeterminedType := mapped.withDeterminedType
        needingClassification := mapped.needingClassification }
    episodes :=
      { counted := tally.episodesCounted
        fromAttributedRows := tally.episodesAttributed
        fromStandingAloneRows := tally.episodesStandingAlone
        fromAttributedRowsDirectoryAuditOnly := tally.episodesAttributedAudit
        fromStandingAloneRowsDirectoryAuditOnly := tally.episodesStandingAloneAudit
        standingAloneRowsWithUnrecoverableEpisodes := tally.unrecoverableStandingAlone
        attributedIncidentsWithUnrecoverableEpisodes := tally.unrecoverableAttributed
        countedDirectoryAuditOnly := tally.episodesCountedAudit
        incidentsWithUnrecoverableEpisodes := tally.unrecoverable
        rowsWithoutEventTime := counts.rowsWithoutTimeByRow
        rowsWithEventTime := counts.rowsWithTime
        rowsStandingAloneBecauseSubjectUnresolved := bound.standingAlone
        standingAloneByShape := bound.standingAloneByShape
        quietIntervalHours := quietMs / (60 * 60 * 1000) }
    episodeByRow := tally.episodeByRow
    mapping := mapped.mapping
    invariants :=
      { rowsMissingFromMapping :=
          sortTexts ((rows.map ExistingAlertRow.id).filter (!mappedIds.contains ·))
        duplicatedNotificationIds := sortTexts (duplicates rows).2.elements
        occurrenceCountsAddUp :=
          adds [(js "in the mapping", (mapped.mapping.map MappingEntry.occurrenceCount).sum)]
            counts.occurrences (js "the reported occurrencesRepresented") ++
          adds [(js "in the input", (rows.map ExistingAlertRow.occurrenceCount).sum)]
            counts.occurrences (js "the reported occurrencesRepresented")
        eventTimeCountsAddUp :=
          adds [(js "with a time", counts.rowsWithTime),
            (js "without", counts.rowsWithoutTimeByRow)] rows.length (js "rows read")
        episodeCountsAddUp :=
          adds [(js "from attributed rows", tally.episodesAttributed),
            (js "from standing-alone rows", tally.episodesStandingAlone)]
            tally.episodesCounted (js "episodes.counted") ++
          adds [(js "from attributed directory rows", tally.episodesAttributedAudit),
            (js "from standing-alone directory rows", tally.episodesStandingAloneAudit)]
            tally.episodesCountedAudit (js "episodes.countedDirectoryAuditOnly") ++
          adds [(js "standing-alone rows counted as an episode", tally.episodesStandingAlone),
            (js "unplaceable", tally.unrecoverableStandingAlone)]
            bound.standingAlone (js "rowsStandingAloneBecauseSubjectUnresolved") ++
          adds [(js "attributed", tally.unrecoverableAttributed),
            (js "standing-alone", tally.unrecoverableStandingAlone)]
            tally.unrecoverable (js "incidentsWithUnrecoverableEpisodes")
        episodeOrdinalsAgreeWithCounts := tally.ordinalDisagreements
        cardinalityOrderingHolds :=
          atMost bound.auditBoundKeys.size bound.boundKeys.size
            (js "assumingSingleTypeDirectoryAuditOnly") (js "assumingSingleType") ++
          atMost bound.auditBoundTargetKeys.size bound.boundTargetKeys.size
            (js "assumingSingleTypeDirectoryAuditOnlyKeyedOnTarget")
            (js "assumingSingleTypeKeyedOnTarget")
        rowCountsAddUp :=
          adds [(js "with a determined type", mapped.withDeterminedType),
            (js "needing classification", mapped.needingClassification)]
            rows.length (js "rows read") ++
          adds [(js "declared subject resolved", mapped.declaredResolved),
            (js "unresolved", mapped.unattributed)]
            mapped.withDeterminedType (js "rows with a determined type") } }

end Reconciliation
