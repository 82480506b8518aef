import HawkView.Alerts.IncidentKey
import HawkView.Lib.JsMap
import HawkView.Lib.KeyedPatch
import Mathlib.Data.List.Sort

/-!
# The incident key mapping

A saved mapping decides for each notification whether it gets an incident key.
The apply writes all of the keys or none and leaves a receipt; the revert reads
the receipt and puts back what is still as the apply left it. Both replace the
incident key and the episode of a row and nothing else.
-/

namespace ApplyMapping

open IncidentKey

/-! ## Rows -/

structure WatchedFields where
  occurrenceCount : Nat
  resolvedAt : Option JsString
  lastOccurredAt : JsString
  deriving DecidableEq, Repr

structure StoredRow extends WatchedFields where
  id : JsString
  organizationId : JsString
  dedupeKey : JsString
  incidentKey : Option JsString
  episode : Option Nat
  deriving DecidableEq, Repr

abbrev StoredSnapshot := List StoredRow

/-- The two columns of the migration. -/
structure Keying where
  incidentKey : Option JsString
  episode : Option Nat
  deriving DecidableEq, Repr

def StoredRow.withKeying (p : Keying) (row : StoredRow) : StoredRow :=
  { row with incidentKey := p.incidentKey, episode := p.episode }

def keying : KeyedPart StoredRow JsString Keying where
  key := StoredRow.id
  part row := ⟨row.incidentKey, row.episode⟩
  place := StoredRow.withKeying
  key_place _ _ := rfl
  part_place _ _ := rfl
  place_place _ _ _ := rfl
  place_part _ := rfl

/-- What the dry run saw of a row. -/
def digestOf (row : StoredRow) : JsString :=
  joinUnambiguously [js "apply-digest/v1", row.dedupeKey, JsString.decimal row.occurrenceCount]

/-! ## The mapping -/

inductive ExclusionKind
  | typeUndetermined | subjectUnresolved | shapeCannotNameSubject | recoveryChainTooDeep
  deriving DecidableEq, Repr

/-- A key that is written. -/
structure Written where
  incidentKey : JsString
  episode : Option Nat
  deriving DecidableEq, Repr

def Written.keying (next : Written) : Keying := ⟨some next.incidentKey, next.episode⟩

structure MappingEntry where
  notificationId : JsString
  incidentKey : JsString
  episode : Option Nat
  observed : JsString
  deriving DecidableEq, Repr

structure Excluded where
  notificationId : JsString
  because : ExclusionKind
  deriving DecidableEq, Repr

inductive MappingDecision
  | write (entry : MappingEntry)
  | exclude (entry : Excluded)
  deriving DecidableEq, Repr

def MappingDecision.notificationId : MappingDecision → JsString
  | .write entry => entry.notificationId
  | .exclude entry => entry.notificationId

abbrev Mapping := List MappingDecision

inductive Difference
  | rowChanged (notificationId observed now : JsString)
  | rowMissing (notificationId : JsString)
  | rowUnexpected (notificationId : JsString)
  | alreadyKeyedDifferently (notificationId held wanted : JsString)
  | excludedButKeyed (notificationId held : JsString)
  | mappedTwice (notificationId : JsString)
  deriving DecidableEq, Repr

def Difference.notificationId : Difference → JsString
  | .rowChanged id _ _ | .rowMissing id | .rowUnexpected id | .alreadyKeyedDifferently id _ _
  | .excludedButKeyed id _ | .mappedTwice id => id

structure Write where
  notificationId : JsString
  previous : Keying
  next : Written
  observed : JsString
  expectedDedupeKey : JsString
  expectedOccurrenceCount : Nat
  deriving DecidableEq, Repr

structure ValidatedRun where
  writes : List Write
  alreadyApplied : List JsString
  excluded : List Excluded
  deriving DecidableEq, Repr

inductive ApplyDecision
  | proceed (run : ValidatedRun)
  | refuse (differences : List Difference)
  deriving DecidableEq, Repr

/-! ## Validation of the apply -/

def byId (store : StoredSnapshot) : JsMap JsString StoredRow :=
  JsMap.ofList (store.map fun row => (row.id, row))

/-- `${incidentKey ?? 'null'}/${episode ?? 'null'}`. -/
def keyText (incidentKey : Option JsString) (episode : Option Nat) : JsString :=
  incidentKey.getD (js "null") ++ js "/" ++ (episode.map JsString.decimal).getD (js "null")

/-- The list to which an entry of the mapping adds. -/
inductive Verdict
  | differs (difference : Difference)
  | leaves (entry : Excluded)
  | applied (notificationId : JsString)
  | writes (write : Write)
  deriving DecidableEq, Repr

def writeOf (row : StoredRow) (entry : MappingEntry) : Write where
  notificationId := row.id
  previous := ⟨row.incidentKey, row.episode⟩
  next := ⟨entry.incidentKey, entry.episode⟩
  observed := entry.observed
  expectedDedupeKey := row.dedupeKey
  expectedOccurrenceCount := row.occurrenceCount

/-- The body of the loop, for an entry of an id that was not seen before. -/
def judge (rows : JsMap JsString StoredRow) : MappingDecision → Verdict
  | .exclude entry =>
    match rows.get? entry.notificationId with
    | none => .leaves entry
    | some held =>
      match held.incidentKey with
      | none => .leaves entry
      | some key =>
        .differs (.excludedButKeyed entry.notificationId (keyText (some key) held.episode))
  | .write entry =>
    match rows.get? entry.notificationId with
    | none => .differs (.rowMissing entry.notificationId)
    | some row =>
      if digestOf row ≠ entry.observed then
        .differs (.rowChanged row.id entry.observed (digestOf row))
      else
        match row.incidentKey with
        | some key =>
          if key = entry.incidentKey ∧ row.episode = entry.episode then .applied row.id
          else .differs (.alreadyKeyedDifferently row.id (keyText (some key) row.episode)
            (keyText (some entry.incidentKey) entry.episode))
        | none => .writes (writeOf row entry)

structure Loop where
  seen : List JsString := []
  differences : List Difference := []
  writes : List Write := []
  alreadyApplied : List JsString := []
  excluded : List Excluded := []

def Loop.push (s : Loop) : Verdict → Loop
  | .differs d => { s with differences := s.differences ++ [d] }
  | .leaves e => { s with excluded := s.excluded ++ [e] }
  | .applied id => { s with alreadyApplied := s.alreadyApplied ++ [id] }
  | .writes w => { s with writes := s.writes ++ [w] }

def examine (rows : JsMap JsString StoredRow) (s : Loop) (entry : MappingDecision) : Loop :=
  if entry.notificationId ∈ s.seen then
    { s with differences := s.differences ++ [.mappedTwice entry.notificationId] }
  else { s with seen := entry.notificationId :: s.seen }.push (judge rows entry)

/-- `localeCompare` is that of the runtime. -/
def sorted (localeCompare : JsString → JsString → Int) (differences : List Difference) :
    List Difference :=
  differences.insertionSort fun left right =>
    localeCompare left.notificationId right.notificationId ≤ 0

def validateApply (localeCompare : JsString → JsString → Int) (store : StoredSnapshot)
    (mapping : Mapping) : ApplyDecision :=
  let decided := mapping.map MappingDecision.notificationId
  let s := mapping.foldl (examine (byId store)) {}
  let unexpected := (store.filter fun row => row.id ∉ decided).map fun row =>
    Difference.rowUnexpected row.id
  let differences := s.differences ++ unexpected
  if 0 < differences.length then .refuse (sorted localeCompare differences)
  else .proceed ⟨s.writes, s.alreadyApplied, s.excluded⟩

/-! ## The apply -/

structure Change where
  notificationId : JsString
  previous : Keying
  written : Written
  observed : JsString
  deriving DecidableEq, Repr

structure ApplyReceipt where
  runId : JsString
  appliedAt : JsString
  changed : List Change
  untouched : List JsString
  deriving DecidableEq, Repr

structure Applied where
  after : StoredSnapshot
  receipt : ApplyReceipt
  deriving DecidableEq, Repr

def applyValidated (store : StoredSnapshot) (run : ValidatedRun) (runId appliedAt : JsString) :
    Applied :=
  let writes := JsMap.ofList (run.writes.map fun write => (write.notificationId, write))
  { after := store.map fun row =>
      match writes.get? row.id with
      | none => row
      | some write => row.withKeying write.next.keying
    receipt := {
      runId
      appliedAt
      changed := run.writes.map fun write =>
        ⟨write.notificationId, write.previous, write.next, write.observed⟩
      untouched := run.alreadyApplied.insertionSort (· ≤ ·) } }

/-! ## The revert -/

structure RevertDecision where
  rows : List JsString
  refused : List Difference
  deriving DecidableEq, Repr

structure RevertReceipt where
  runId : JsString
  revertedAt : JsString
  reverted : List JsString
  refused : List Difference
  deriving DecidableEq, Repr

structure Reverted where
  after : StoredSnapshot
  receipt : RevertReceipt
  deriving DecidableEq, Repr

/-- The id of a row that is still as written, or how it differs. -/
def recheck (rows : JsMap JsString StoredRow) (entry : Change) : Difference ⊕ JsString :=
  match rows.get? entry.notificationId with
  | none => .inl (.rowMissing entry.notificationId)
  | some row =>
    if row.incidentKey ≠ some entry.written.incidentKey ∨ row.episode ≠ entry.written.episode then
      .inl (.alreadyKeyedDifferently row.id (keyText row.incidentKey row.episode)
        (keyText (some entry.written.incidentKey) entry.written.episode))
    else .inr row.id

def validateRevert (localeCompare : JsString → JsString → Int) (store : StoredSnapshot)
    (receipt : ApplyReceipt) : RevertDecision :=
  let checks := receipt.changed.map (recheck (byId store))
  { rows := checks.filterMap Sum.getRight?
    refused := sorted localeCompare (checks.filterMap Sum.getLeft?) }

def revertValidated (store : StoredSnapshot) (receipt : ApplyReceipt) (decision : RevertDecision)
    (revertedAt : JsString) : Reverted :=
  let restore := JsMap.ofList (receipt.changed.map fun entry =>
    (entry.notificationId, entry.previous))
  { after := store.map fun row =>
      if row.id ∉ decision.rows then row
      else
        match restore.get? row.id with
        | none => row
        | some previous => row.withKeying previous
    receipt := {
      runId := receipt.runId
      revertedAt
      reverted := decision.rows.insertionSort (· ≤ ·)
      refused := decision.refused } }

/-! ## The fields that a notifier watches -/

def watchedOf (row : StoredRow) : JsString :=
  joinUnambiguously [row.id, JsString.decimal row.occurrenceCount,
    row.resolvedAt.getD (js "(not set)"), row.lastOccurredAt]

def watchedFieldsDisturbedBetween (before after : StoredSnapshot) : List JsString :=
  let seen := byId after
  (before.filter fun row => (seen.get? row.id).any fun now => watchedOf row ≠ watchedOf now).map
    fun row => row.id ++ js ": a field a notifier watches was modified"

end ApplyMapping
