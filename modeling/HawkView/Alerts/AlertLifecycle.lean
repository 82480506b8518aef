import HawkView.Lib.JsString
import HawkView.Lib.Runs

/-!
# The lifecycle of an incident

Who owns it, what is seen of it and whether its question is closed are three
axes. Observations move the second, persons the first and the third, and evidence
that recurs is decided by all three and by the signals already told.
-/

namespace AlertLifecycle

open List

/-! ## The three axes -/

inductive Ownership
  | unacknowledged | acknowledged
  deriving DecidableEq

inductive ObservedCondition
  | active | cleared | unknown
  deriving DecidableEq

inductive Investigation
  | opened | resolved | none
  deriving DecidableEq

structure Lifecycle where
  ownership : Ownership
  condition : ObservedCondition
  investigation : Investigation
  deriving DecidableEq

/-- `OPENED`. -/
def opened : Lifecycle := ⟨.unacknowledged, .active, .opened⟩

/-- `RECORDED`. -/
def recorded : Lifecycle := ⟨.unacknowledged, .active, .none⟩

/-! ## The declaration of a type -/

inductive InvestigationCloses
  | automaticallyWhenConditionClears | onlyByAPerson
  deriving DecidableEq

inductive AlertCategory
  | operational | security
  deriving DecidableEq

/-- A record opens no investigation, and that of a security type is closed by a person. -/
inductive AlertTypeDeclaration
  | record (category : AlertCategory)
  | operational (investigationCloses : InvestigationCloses)
  | security
  deriving DecidableEq

def opensInvestigation : AlertTypeDeclaration → Bool
  | .record _ => false
  | .operational _ => true
  | .security => true

def mayAutoClose : AlertTypeDeclaration → Bool
  | .record _ => false
  | .operational investigationCloses =>
    decide (investigationCloses = .automaticallyWhenConditionClears)
  | .security => false

/-! ## What the system sees and what persons do -/

inductive Availability
  | neverCollected | unreadableNow
  deriving DecidableEq

inductive EvidenceDisposition
  | read
  | unread (availability : Availability) (because : JsString)
  deriving DecidableEq

structure Observation where
  evidence : EvidenceDisposition
  conditionCleared : Bool
  mayAutoCloseInvestigation : Bool

def applyObservation (current : Lifecycle) (observation : Observation) : Lifecycle :=
  match observation.evidence with
  | .unread _ _ => { current with condition := .unknown }
  | .read =>
    if observation.conditionCleared = false then { current with condition := .active }
    else
      let cleared := { current with condition := .cleared }
      if cleared.investigation = .none then cleared
      else if observation.mayAutoCloseInvestigation then { cleared with investigation := .resolved }
      else cleared

def acknowledge (current : Lifecycle) : Lifecycle := { current with ownership := .acknowledged }

def resolveInvestigation (current : Lifecycle) : Lifecycle :=
  { current with investigation := .resolved }

def openInvestigation (current : Lifecycle) : Lifecycle :=
  if current.investigation = .none then
    { current with investigation := .opened, ownership := .unacknowledged }
  else current

/-! ## Recurrence -/

inductive EscalationSignal
  | successFollowedFailures | subjectHoldsPrivilegedRole | corroboratedBySecondSource
  | spreadToAdditionalSubjects | persistedBeyondExpectedWindow
  deriving DecidableEq

/-- All but `updateQuietly` and `escalate` notify. -/
inductive RecurrenceOutcome
  | updateQuietly
  | escalate (notify : Bool) (signal : EscalationSignal)
  | reactivateCondition (signal : Option EscalationSignal)
  | resumedAfterGap (signal : Option EscalationSignal)
  | escalateIntoInvestigation (signal : EscalationSignal) (startsAs : Lifecycle)
  | openLinkedEpisode (startsAs : Lifecycle)
  deriving DecidableEq

structure RecurrenceInput where
  lifecycle : Lifecycle
  crosses : Option EscalationSignal
  alreadyEscalated : List EscalationSignal
  opensInvestigationByDefault : Bool

def decideRecurrence (input : RecurrenceInput) : RecurrenceOutcome :=
  match input.lifecycle.investigation, input.crosses with
  | .resolved, _ =>
    .openLinkedEpisode (if input.opensInvestigationByDefault then opened else recorded)
  | .none, none => .updateQuietly
  | .none, some crosses => .escalateIntoInvestigation crosses (openInvestigation input.lifecycle)
  | .opened, crosses =>
    match input.lifecycle.condition, crosses with
    | .cleared, _ => .reactivateCondition crosses
    | .unknown, _ => .resumedAfterGap crosses
    | .active, some crosses => .escalate (!input.alreadyEscalated.contains crosses) crosses
    | .active, none => .updateQuietly

/-- The signal that an outcome gives the right to notify of. -/
def RecurrenceOutcome.told : RecurrenceOutcome → Option EscalationSignal
  | .updateQuietly => none
  | .escalate notify signal => if notify then some signal else none
  | .reactivateCondition signal => signal
  | .resumedAfterGap signal => signal
  | .escalateIntoInvestigation signal _ => some signal
  | .openLinkedEpisode _ => none

/-! ## Steps -/

/-- An incident in its current episode, with the signals told of in it. -/
structure Incident where
  lifecycle : Lifecycle
  episode : Nat
  alreadyEscalated : List EscalationSignal

/-- What the caller of `decideRecurrence` does with what was decided. -/
def Incident.follow (s : Incident) (outcome : RecurrenceOutcome) : Incident :=
  let told := s.alreadyEscalated ++ outcome.told.toList
  match outcome with
  | .updateQuietly => s
  | .escalate _ _ => { s with alreadyEscalated := told }
  | .reactivateCondition _ =>
    { s with lifecycle := { s.lifecycle with condition := .active }, alreadyEscalated := told }
  | .resumedAfterGap _ =>
    { s with lifecycle := { s.lifecycle with condition := .active }, alreadyEscalated := told }
  | .escalateIntoInvestigation _ startsAs =>
    { s with lifecycle := startsAs, alreadyEscalated := told }
  | .openLinkedEpisode startsAs => ⟨startsAs, s.episode + 1, []⟩

inductive Step
  | applyObservation (evidence : EvidenceDisposition) (conditionCleared : Bool)
  | acknowledge
  | resolveInvestigation
  | decideRecurrence (crosses : Option EscalationSignal)
  deriving DecidableEq

variable (d : AlertTypeDeclaration)

/-- What is decided in a state of an incident. -/
def decided (s : Incident) (crosses : Option EscalationSignal) : RecurrenceOutcome :=
  decideRecurrence ⟨s.lifecycle, crosses, s.alreadyEscalated, opensInvestigation d⟩

def step (s : Incident) : Step → Incident
  | .applyObservation evidence conditionCleared =>
    { s with
      lifecycle := applyObservation s.lifecycle ⟨evidence, conditionCleared, mayAutoClose d⟩ }
  | .acknowledge => { s with lifecycle := acknowledge s.lifecycle }
  | .resolveInvestigation => { s with lifecycle := resolveInvestigation s.lifecycle }
  | .decideRecurrence crosses => s.follow (decided d s crosses)

/-- The signal that a step gives the right to notify of. -/
def told (s : Incident) : Step → Option EscalationSignal
  | .decideRecurrence crosses => (decided d s crosses).told
  | .applyObservation _ _ => none
  | .acknowledge => none
  | .resolveInvestigation => none

/-- The incident that began with `start`, after the steps. -/
def after (start : Lifecycle) (steps : List Step) : Incident :=
  steps.foldl (step d) ⟨start, 0, []⟩

variable {d} {s t u : Incident} {a b : Step}

/-! ## One step -/

/-- `t` is `s` after more evidence of the same episode. -/
structure Recurred (s t : Incident) (told : Option EscalationSignal) : Prop where
  episode : t.episode = s.episode
  unresolved : s.lifecycle.investigation ≠ .resolved ∧ t.lifecycle.investigation ≠ .resolved
  memory : t.alreadyEscalated = s.alreadyEscalated ++ told.toList
  investigated : t.lifecycle.investigation = .none →
    s.lifecycle.investigation = .none ∧ told = none
  news : ∀ signal, told = some signal → s.lifecycle.investigation = .none ∨
    s.lifecycle.condition ≠ .active ∨ signal ∉ s.alreadyEscalated

/-- Evidence after a resolution begins an episode, and other evidence stays in its own. -/
theorem decided_cases (s : Incident) (crosses : Option EscalationSignal) :
    (s.lifecycle.investigation = .resolved ∧ (decided d s crosses).told = none ∧
      ∃ start, (start = opened ∨ start = recorded) ∧
        s.follow (decided d s crosses) = ⟨start, s.episode + 1, []⟩) ∨
      Recurred s (s.follow (decided d s crosses)) (decided d s crosses).told := by
  obtain ⟨⟨ownership, condition, investigation⟩, episode, memory⟩ := s
  cases investigation with
  | resolved =>
    refine .inl ⟨rfl, rfl, _, ?_, rfl⟩
    cases opensInvestigation d with
    | true => exact .inl rfl
    | false => exact .inr rfl
  | none =>
    right
    cases crosses with
    | none => exact ⟨rfl, by simp [Incident.follow, decided, decideRecurrence],
        (append_nil memory).symm, fun _ => ⟨rfl, rfl⟩, nofun⟩
    | some signal => exact ⟨rfl, by simp [Incident.follow, decided, decideRecurrence,
        openInvestigation], rfl, nofun, fun _ _ => .inl rfl⟩
  | opened =>
    right
    cases condition with
    | cleared => exact ⟨rfl, ⟨nofun, nofun⟩, rfl, nofun, fun _ _ => .inr (.inl nofun)⟩
    | unknown => exact ⟨rfl, ⟨nofun, nofun⟩, rfl, nofun, fun _ _ => .inr (.inl nofun)⟩
    | active =>
      cases crosses with
      | none => exact ⟨rfl, ⟨nofun, nofun⟩, (append_nil memory).symm, nofun, nofun⟩
      | some signal =>
        refine ⟨rfl, ⟨nofun, nofun⟩, rfl, nofun, fun other htold => .inr (.inr ?_)⟩
        simp only [decided, decideRecurrence, RecurrenceOutcome.told] at htold
        split_ifs at htold with hnew
        cases htold
        simpa using hnew

theorem observed_cases (current : Lifecycle) (observation : Observation) :
    (applyObservation current observation).investigation = current.investigation ∨
      current.investigation ≠ .none ∧ observation.mayAutoCloseInvestigation = true ∧
        (applyObservation current observation).investigation = .resolved := by
  simp only [applyObservation]
  split
  · exact .inl rfl
  · split_ifs with hcleared hnone hmay
    · exact .inl rfl
    · exact .inl rfl
    · exact .inr ⟨hnone, hmay, rfl⟩
    · exact .inl rfl

/-- An investigation is resolved by a person, or by a type that closes its own. -/
theorem resolved_by (h : (step d s a).lifecycle.investigation = .resolved) :
    a = .resolveInvestigation ∨ mayAutoClose d = true ∨
      s.lifecycle.investigation = .resolved ∧ (step d s a).episode = s.episode := by
  cases a with
  | applyObservation evidence conditionCleared =>
    rcases observed_cases s.lifecycle ⟨evidence, conditionCleared, mayAutoClose d⟩ with
      hsame | ⟨-, hmay, -⟩
    · exact .inr (.inr ⟨hsame.symm.trans h, rfl⟩)
    · exact .inr (.inl hmay)
  | acknowledge => exact .inr (.inr ⟨h, rfl⟩)
  | resolveInvestigation => exact .inl rfl
  | decideRecurrence crosses =>
    rcases decided_cases (d := d) s crosses with ⟨-, -, start, hstart, heq⟩ | hrecurred
    · simp only [step, heq] at h
      rcases hstart with rfl | rfl <;> cases h
    · exact absurd h hrecurred.unresolved.2

/-- `t` comes after `s`: in a later episode, or in the same one with all that was told. -/
def Follows (s t : Incident) : Prop :=
  s.episode ≤ t.episode ∧ (t.episode = s.episode →
    (s.lifecycle.investigation = .resolved → t.lifecycle.investigation = .resolved) ∧
      s.alreadyEscalated ⊆ t.alreadyEscalated)

theorem Follows.refl (s : Incident) : Follows s s := ⟨le_rfl, fun _ => ⟨id, fun _ => id⟩⟩

theorem Follows.trans (h : Follows s t) (h' : Follows t u) : Follows s u := by
  refine ⟨h.1.trans h'.1, fun same => ?_⟩
  have hle := h.1
  have hle' := h'.1
  obtain ⟨hresolved, hmemory⟩ := h.2 (by omega)
  obtain ⟨hresolved', hmemory'⟩ := h'.2 (by omega)
  exact ⟨hresolved' ∘ hresolved, List.Subset.trans hmemory hmemory'⟩

theorem step_follows (s : Incident) (a : Step) : Follows s (step d s a) := by
  cases a with
  | applyObservation evidence conditionCleared =>
    refine ⟨le_rfl, fun _ => ⟨fun hresolved => ?_, fun _ => id⟩⟩
    rcases observed_cases s.lifecycle ⟨evidence, conditionCleared, mayAutoClose d⟩ with
      hsame | ⟨-, -, hnow⟩
    · exact hsame.trans hresolved
    · exact hnow
  | acknowledge => exact ⟨le_rfl, fun _ => ⟨id, fun _ => id⟩⟩
  | resolveInvestigation => exact ⟨le_rfl, fun _ => ⟨fun _ => rfl, fun _ => id⟩⟩
  | decideRecurrence crosses =>
    rcases decided_cases (d := d) s crosses with ⟨-, -, start, -, heq⟩ | hrecurred
    · simp only [Follows, step, heq]
      exact ⟨Nat.le_succ _, fun same => absurd same (Nat.succ_ne_self _)⟩
    · refine ⟨hrecurred.episode.ge, fun _ => ⟨fun h => absurd h hrecurred.unresolved.1, ?_⟩⟩
      simp only [step, hrecurred.memory]
      exact subset_append_left _ _

/-- What was told of is told of an investigation. -/
def Told (s : Incident) : Prop :=
  s.lifecycle.investigation = .none → s.alreadyEscalated = []

theorem step_told (h : Told s) (a : Step) : Told (step d s a) := by
  intro hnone
  cases a with
  | applyObservation evidence conditionCleared =>
    rcases observed_cases s.lifecycle ⟨evidence, conditionCleared, mayAutoClose d⟩ with
      hsame | ⟨-, -, hnow⟩
    · exact h (hsame.symm.trans hnone)
    · exact absurd (hnow.symm.trans hnone) nofun
  | acknowledge => exact h hnone
  | resolveInvestigation => cases hnone
  | decideRecurrence crosses =>
    rcases decided_cases (d := d) s crosses with ⟨-, -, start, -, heq⟩ | hrecurred
    · simp only [step, heq]
    · obtain ⟨hbefore, hnothing⟩ := hrecurred.investigated hnone
      simp only [step, hrecurred.memory, hnothing, h hbefore]
      rfl

variable {signal : EscalationSignal}

/-- A signal that was told of in the episode is told of again only of a condition that went. -/
theorem told_again (h : Told s) (again : told d s a = some signal)
    (mem : signal ∈ s.alreadyEscalated) : s.lifecycle.condition ≠ .active := by
  cases a with
  | applyObservation evidence conditionCleared => cases again
  | acknowledge => cases again
  | resolveInvestigation => cases again
  | decideRecurrence crosses =>
    rcases decided_cases (d := d) s crosses with ⟨-, hnothing, -⟩ | hrecurred
    · exact absurd (hnothing.symm.trans again) nofun
    · rcases hrecurred.news signal again with hnone | hcondition | hnew
      · rw [h hnone] at mem
        cases mem
      · exact hcondition
      · exact absurd mem hnew

theorem told_kept (granted : told d s a = some signal) :
    signal ∈ (step d s a).alreadyEscalated := by
  cases a with
  | applyObservation evidence conditionCleared => cases granted
  | acknowledge => cases granted
  | resolveInvestigation => cases granted
  | decideRecurrence crosses =>
    rcases decided_cases (d := d) s crosses with ⟨-, hnothing, -⟩ | hrecurred
    · exact absurd (hnothing.symm.trans granted) nofun
    · have htold : (decided d s crosses).told = some signal := granted
      simp [step, hrecurred.memory, htold]

/-! ## Runs -/

variable {start : Lifecycle} {before between steps : List Step}

theorem after_append (before rest : List Step) :
    after d start (before ++ rest) = rest.foldl (step d) (after d start before) :=
  foldl_append

theorem after_told (start : Lifecycle) (steps : List Step) : Told (after d start steps) :=
  Runs.foldl_carries (P := fun _ s => Told s) (fun _ => rfl) (fun _ a _ h => step_told h a) steps

theorem foldl_follows (s : Incident) (steps : List Step) :
    Follows s (steps.foldl (step d) s) :=
  Runs.foldl_carries (P := fun _ t => Follows s t) (.refl s)
    (fun _ a t h => h.trans (step_follows t a)) steps

/-- A person resolved the investigation in this episode. -/
def ResolvedByPerson (d : AlertTypeDeclaration) (start : Lifecycle) (steps : List Step) : Prop :=
  ∃ before rest, steps = before ++ .resolveInvestigation :: rest ∧
    (after d start before).episode = (after d start steps).episode

theorem resolvedByPerson (hmay : mayAutoClose d = false)
    (hstart : start.investigation ≠ .resolved)
    (h : (after d start steps).lifecycle.investigation = .resolved) :
    ResolvedByPerson d start steps := by
  induction steps using reverseRecOn with
  | nil => exact absurd h hstart
  | append_singleton steps a ih =>
    rw [after_append, foldl_cons, foldl_nil] at h
    rcases resolved_by h with rfl | hauto | ⟨hbefore, same⟩
    · exact ⟨steps, [], rfl, by rw [after_append]; rfl⟩
    · exact absurd (hmay.symm.trans hauto) nofun
    · obtain ⟨before, rest, rfl, hepisode⟩ := ih hbefore
      refine ⟨before, rest ++ [a], by simp, hepisode.trans ?_⟩
      rw [after_append _ [a]]
      exact same.symm

theorem told_while_active (granted : told d (after d start before) a = some signal)
    (again : told d (after d start (before ++ a :: between)) b = some signal)
    (same : (after d start (before ++ a :: between)).episode = (after d start before).episode) :
    (after d start (before ++ a :: between)).lifecycle.condition ≠ .active := by
  have htold := after_told (d := d) start (before ++ a :: between)
  refine told_again htold again ?_
  rw [after_append, foldl_cons] at same ⊢
  have hfollows := foldl_follows (d := d) (step d (after d start before) a) between
  have hstep := (step_follows (d := d) (after d start before) a).1
  have hle := hfollows.1
  exact (hfollows.2 (by omega)).2 (told_kept granted)

/-- An incident's lifecycle, over every sequence of steps from a new record. -/
theorem lifecycle_safe (d : AlertTypeDeclaration) (start : Lifecycle)
    (new : start = opened ∨ start = recorded) (steps : List Step) :
    (mayAutoClose d = false → (after d start steps).lifecycle.investigation = .resolved →
      ResolvedByPerson d start steps) ∧
    (∀ availability because conditionCleared,
      after d start (steps ++ [.applyObservation (.unread availability because) conditionCleared]) =
        { after d start steps with lifecycle :=
          { (after d start steps).lifecycle with condition := .unknown } }) ∧
    (∀ rest, (after d start steps).lifecycle.investigation = .resolved →
      (after d start (steps ++ rest)).episode = (after d start steps).episode →
        (after d start (steps ++ rest)).lifecycle.investigation = .resolved) ∧
    ∀ a between b signal, told d (after d start steps) a = some signal →
      told d (after d start (steps ++ a :: between)) b = some signal →
        (after d start (steps ++ a :: between)).episode = (after d start steps).episode →
          (after d start (steps ++ a :: between)).lifecycle.condition ≠ .active := by
  refine ⟨fun hmay => resolvedByPerson hmay ?_, ?_, ?_, ?_⟩
  · rcases new with rfl | rfl <;> decide
  · intro availability because conditionCleared
    rw [after_append]
    rfl
  · intro rest hresolved same
    rw [after_append] at same ⊢
    exact ((foldl_follows _ rest).2 same).1 hresolved
  · exact fun a between b signal granted again same => told_while_active granted again same

/-- A resolution is a person's, and a signal is told of again after a gap. -/
theorem lifecycle_safe_gap :
    let crossed := Step.decideRecurrence (some .successFollowedFailures)
    let gap := Step.applyObservation (.unread .unreadableNow []) true
    ResolvedByPerson .security opened [.resolveInvestigation] ∧
      told .security (after .security opened [crossed, gap]) crossed =
        some .successFollowedFailures ∧
      (after .security opened [crossed, gap]).lifecycle.condition ≠ .active := by
  intro crossed gap
  refine ⟨(lifecycle_safe .security opened (.inl rfl) [.resolveInvestigation]).1 rfl rfl, rfl, ?_⟩
  exact (lifecycle_safe .security opened (.inl rfl) []).2.2.2 crossed [gap] crossed
    .successFollowedFailures rfl rfl rfl

end AlertLifecycle
