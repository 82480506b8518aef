import HawkView.Lib.JsMap
import HawkView.Lib.JsNumber
import HawkView.Lib.JsonText
import HawkView.Lib.Peel

/-!
# Planning the work on sources

Which sources of which tenants are worth collecting now. A source waits until
every source that it depends on, directly or not, has been verified.
-/

namespace SourceWorkPlanner

structure CompleteSourceCheck where
  checkedAt : JsNumber
  generation : JsString
  scope : JsString
  deriving DecidableEq

/-- `partly` is the outcome `partial`. -/
inductive AttemptOutcome
  | complete | failed | partly | skipped | running
  deriving DecidableEq, Repr

structure SourceAttempt where
  startedAt : JsNumber
  outcome : AttemptOutcome
  deriving DecidableEq

structure SourceDependency where
  source : JsString
  scope : JsString
  requiredGeneration : JsString
  maxAgeMs : JsNumber
  deriving DecidableEq

structure SourceWorkInput where
  tenantId : JsString
  source : JsString
  scope : JsString
  lastComplete : Option CompleteSourceCheck
  lastAttempt : Option SourceAttempt
  retryNotBefore : Option JsNumber
  deadline : JsNumber
  maxAgeMs : JsNumber
  estimatedCost : JsNumber
  dependencies : List SourceDependency
  deriving DecidableEq

inductive WorkReason
  | invalidInput | duplicateSource | missingDependency | dependencyInvalid
  | dependencyUnverified | dependencyStale | dependencyScopeMismatch
  | dependencyGenerationMismatch | dependencyCycle | noCompleteCheck | deadlineDue
  | failed | partly | skipped | fresh | running | retryNotBefore | budget
  deriving DecidableEq, Repr

inductive Disposition
  | selected | deferred | blocked
  deriving DecidableEq, Repr

structure WorkDecision where
  inputIndex : Nat
  tenantId : JsString
  source : JsString
  disposition : Disposition
  reasons : List WorkReason
  dueAt : Option JsNumber
  deriving DecidableEq

structure SourceWorkPlan where
  selected : List WorkDecision
  decisions : List WorkDecision
  estimatedCost : JsNumber
  deriving DecidableEq

structure Budget where
  maxItems : JsNumber
  maxEstimatedCost : JsNumber

/-! ## Validation -/

def text (value : JsString) : Bool := !value.blank

def time (value : JsNumber) : Bool := value.isSafeInteger && value.nonnegative

def positive (value : JsNumber) : Bool := time value && (JsNumber.ofNat 0).lt value

def key (tenant source : JsString) : JsString :=
  Json.stringify (.array [.string tenant, .string source])

def validCheck (work : SourceWorkInput) (now : JsNumber) (check : CompleteSourceCheck) : Bool :=
  time check.checkedAt && !now.lt check.checkedAt && text check.generation &&
  check.scope == work.scope && (check.checkedAt.add work.maxAgeMs).isSafeInteger

def validAttempt (work : SourceWorkInput) (now : JsNumber) (attempt : SourceAttempt) : Bool :=
  time attempt.startedAt && !now.lt attempt.startedAt &&
  if attempt.outcome = .complete then
    work.lastComplete.any fun check => !check.checkedAt.lt attempt.startedAt
  else work.lastComplete.all fun check => !attempt.startedAt.lt check.checkedAt

/-- The loop over the dependencies, `seen` being the sources of those before. -/
def validDependencies (source : JsString) : List JsString → List SourceDependency → Bool
  | _, [] => true
  | seen, dependency :: dependencies =>
    text dependency.source && dependency.source != source && text dependency.scope &&
    text dependency.requiredGeneration && positive dependency.maxAgeMs &&
    !seen.contains dependency.source &&
    validDependencies source (dependency.source :: seen) dependencies

def valid (work : SourceWorkInput) (now : JsNumber) : Bool :=
  text work.tenantId && text work.source && text work.scope && time work.deadline &&
  positive work.maxAgeMs && positive work.estimatedCost && work.retryNotBefore.all time &&
  work.lastComplete.all (validCheck work now) && work.lastAttempt.all (validAttempt work now) &&
  validDependencies work.source [] work.dependencies

def verified (work : SourceWorkInput) : Bool :=
  work.lastComplete.isSome && work.lastAttempt.all fun attempt => attempt.outcome == .complete

/-! ## The dependency graph -/

section Graph

variable (work : List SourceWorkInput) (now : JsNumber)

def fileKey (byKey : JsMap JsString (List Nat)) (entry : SourceWorkInput × Nat) :
    JsMap JsString (List Nat) :=
  let id := key entry.1.tenantId entry.1.source
  byKey.set id ((byKey.get? id).getD [] ++ [entry.2])

def byKey : JsMap JsString (List Nat) := work.zipIdx.foldl fileKey .empty

def stale (dependency : SourceDependency) (prerequisite : SourceWorkInput)
    (check : CompleteSourceCheck) : Bool :=
  (dependency.maxAgeMs.min prerequisite.maxAgeMs).le (now.sub check.checkedAt)

/-- What is wrong with a prerequisite that is there and valid. -/
def prerequisiteIssues (dependency : SourceDependency) (prerequisite : SourceWorkInput) :
    List WorkReason :=
  if verified prerequisite = false then [.dependencyUnverified]
  else
    match prerequisite.lastComplete with
    | none => []
    | some check =>
      (if check.scope ≠ dependency.scope then [.dependencyScopeMismatch] else []) ++
      (if check.generation ≠ dependency.requiredGeneration then
        [.dependencyGenerationMismatch] else []) ++
      if stale now dependency prerequisite check then [.dependencyStale] else []

/-- The place of a dependency, when the graph has it, and what is wrong with it. -/
def link (item : SourceWorkInput) (dependency : SourceDependency) :
    Option Nat × List WorkReason :=
  match (byKey work).get? (key item.tenantId dependency.source) with
  | none => (none, [.missingDependency])
  | some indexes =>
    match indexes with
    | [index] =>
      match work[index]? with
      | some prerequisite =>
        if valid prerequisite now then
          (some index, prerequisiteIssues now dependency prerequisite)
        else (none, [.dependencyInvalid])
      | none => (none, [.dependencyInvalid])
    | _ => (none, [.dependencyInvalid])

/-- The links of an input; none of an invalid one. -/
def links (index : Nat) : List (Option Nat × List WorkReason) :=
  match work[index]? with
  | some item => if valid item now then item.dependencies.map (link work now item) else []
  | none => []

theorem link_known {item : SourceWorkInput} {dependency : SourceDependency} {index : Nat}
    (h : (link work now item dependency).1 = some index) : index < work.length := by
  rw [link] at h
  split at h
  · cases h
  · split at h
    · split at h
      · next hget =>
        split_ifs at h
        cases h
        exact (List.getElem?_eq_some_iff.mp hget).1
      · cases h
    · cases h

def graph : Peel.Graph Nat where
  vertices := List.range work.length
  nodup := List.nodup_range
  prerequisites index := (links work now index).filterMap Prod.fst
  closed := by
    intro index _ prerequisite hmem
    obtain ⟨each, heach, hfst⟩ := List.mem_filterMap.mp hmem
    rw [links] at heach
    split at heach
    · split_ifs at heach
      · obtain ⟨dependency, _, rfl⟩ := List.mem_map.mp heach
        exact List.mem_range.mpr (link_known work now hfst)
      · cases heach
    · cases heach

def directIssues (index : Nat) : List WorkReason := (links work now index).flatMap Prod.snd

/-- The state when the cursor has passed the last input that is ready. -/
def resolved : Peel.State Nat WorkReason :=
  Peel.run (graph work now) .dependencyUnverified work.length
    (Peel.initial (graph work now) (directIssues work now))

def dependencyIssues (index : Nat) : List WorkReason :=
  (resolved work now).marks index ++
  if 0 < (resolved work now).remaining index then [.dependencyCycle] else []

/-! ## Decisions -/

/-- Why an input would be collected. -/
def dueReasons (item : SourceWorkInput) (dueAt : JsNumber) : List WorkReason :=
  (if item.lastComplete.isNone then [.noCompleteCheck] else []) ++
  (match item.lastAttempt.map SourceAttempt.outcome with
    | some .failed => [.failed]
    | some .partly => [.partly]
    | some .skipped => [.skipped]
    | some .complete | some .running | none => []) ++
  if dueAt.le now then [.deadlineDue] else []

def dueAt (item : SourceWorkInput) : JsNumber :=
  match item.lastComplete with
  | none => item.deadline
  | some check => item.deadline.min (check.checkedAt.add item.maxAgeMs)

/-- The decision on one input, and whether the budget has to decide. -/
def decideOn (item : SourceWorkInput) (index : Nat) : WorkDecision × Bool :=
  let blocked : WorkDecision := ⟨index, item.tenantId, item.source, .blocked, [], none⟩
  if valid item now = false then ({ blocked with reasons := [.invalidInput] }, false)
  else if ((byKey work).get? (key item.tenantId item.source)).any (·.length != 1) then
    ({ blocked with reasons := [.duplicateSource] }, false)
  else
    let due := dueAt item
    let blocked := { blocked with dueAt := some due }
    if item.lastAttempt.any (fun attempt => attempt.outcome == .running) then
      ({ blocked with disposition := .deferred, reasons := [.running] }, false)
    else
      let reasons := dueReasons now item due
      let blockers := dependencyIssues work now index
      if blockers ≠ [] then ({ blocked with reasons := reasons ++ blockers.eraseDups }, false)
      else if reasons = [] then
        ({ blocked with disposition := .deferred, reasons := [.fresh] }, false)
      else if item.retryNotBefore.any now.lt then
        ({ blocked with disposition := .deferred, reasons := reasons ++ [.retryNotBefore] }, false)
      else ({ blocked with disposition := .deferred, reasons := reasons }, true)

def sortsBefore (a b : WorkDecision) : Bool :=
  let dueA := a.dueAt.getD .nan
  let dueB := b.dueAt.getD .nan
  dueA.lt dueB || (dueA == dueB &&
    (decide (a.tenantId < b.tenantId) ||
      (decide (a.tenantId = b.tenantId) && decide (a.source ≤ b.source))))

/-- The loop over the eligible decisions, after some have been selected at some cost. -/
def spend (budget : Budget) : Nat → JsNumber → List WorkDecision → List WorkDecision × JsNumber
  | _, estimatedCost, [] => ([], estimatedCost)
  | selected, estimatedCost, decision :: eligible =>
    let cost := (work[decision.inputIndex]?.map SourceWorkInput.estimatedCost).getD .nan
    if budget.maxItems.le (.ofNat selected) ∨
        (budget.maxEstimatedCost.sub estimatedCost).lt cost then
      let rest := spend budget selected estimatedCost eligible
      ({ decision with reasons := decision.reasons ++ [.budget] } :: rest.1, rest.2)
    else
      let rest := spend budget (selected + 1) (estimatedCost.add cost) eligible
      ({ decision with disposition := .selected } :: rest.1, rest.2)

/-- `none` when the time or a budget is no time. -/
def planSourceWork (budget : Budget) : Option SourceWorkPlan :=
  if time now = false ∨ time budget.maxItems = false ∨ time budget.maxEstimatedCost = false then
    none
  else
    let decided := work.zipIdx.map fun entry => decideOn work now entry.1 entry.2
    let eligible := ((decided.filter Prod.snd).map Prod.fst).insertionSort
      fun a b => sortsBefore a b = true
    let (judged, estimatedCost) := spend work budget 0 (.ofNat 0) eligible
    some
      { selected := judged.filter fun decision => decision.disposition == .selected
        decisions := decided.map fun entry =>
          (judged.find? fun decision => decision.inputIndex == entry.1.inputIndex).getD entry.1
        estimatedCost := estimatedCost }

end Graph

end SourceWorkPlanner
