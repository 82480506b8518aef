import HawkView.Evaluation.Evaluate
import Mathlib.Data.Set.Card

/-!
# Exact counts are earned

A count is exact only over evidence that was read in full and that every
detector answered for. What one detector finds does not depend on the others.
-/

namespace EarnedCount

open EvaluationContract Evaluate List

/-- The directory users that findings are about. -/
def users (findings : List Finding) : Set JsString :=
  {user | ∃ finding ∈ findings, ∃ correlation, finding.subject = .directoryUser user correlation}

variable {f : Finding}

theorem userRef_eq_some {user : JsString} :
    userRef f = some user ↔ ∃ correlation, f.subject = .directoryUser user correlation := by
  rw [userRef]
  cases f.subject with
  | directoryUser ref correlation => simp
  | mailbox ref binding => simp

theorem users_eq (fs : List Finding) : users fs = {user | user ∈ fs.filterMap userRef} := by
  ext user
  simp only [users, Set.mem_ofPred_eq, mem_filterMap, userRef_eq_some]

theorem distinctUsers_eq (fs : List Finding) : distinctUsers fs = (users fs).ncard := by
  have hset : users fs = ↑(fs.filterMap userRef).toFinset := by
    rw [users_eq, coe_toFinset]
  rw [hset, Set.ncard_coe_finset, card_toFinset]
  rfl

/-- A finding on a mailbox that nobody could match to a person. -/
def Unattributed (f : Finding) : Prop := ∃ ref, f.subject = .mailbox ref .unresolved

theorem unattributed_iff : unattributed f = true ↔ Unattributed f := by
  rw [unattributed, Unattributed]
  cases f.subject with
  | directoryUser ref correlation => simp
  | mailbox ref binding => simp

theorem unattributedFindings_eq_zero {fs : List Finding} :
    unattributedFindings fs = 0 ↔ ∀ f ∈ fs, ¬ Unattributed f := by
  simp only [unattributedFindings, length_eq_zero_iff, filter_eq_nil_iff,
    unattributed_iff]

theorem total_eq_zero {counts : Counts} : total counts = 0 ↔ ∀ entry ∈ counts, entry.2 = 0 := by
  simp only [total, List.sum_eq_zero_iff_forall_eq_nat, mem_map, forall_exists_index, and_imp,
    forall_apply_eq_imp_iff₂]

/-! ## The claim -/

/-- What a permitted claim over evidence that was read rests on. -/
structure Grounds (coverage : Coverage) (reports : List DetectorReport) (findings : List Finding) :
    Prop where
  interpreted : (∀ entry ∈ coverage.unknown, entry.2 = 0) ∧
    ∀ entry ∈ coverage.unprocessable, entry.2 = 0
  declared : coverage.collectionScope ≠ .undeclared
  applied : coverage.applies ≠ 0
  ran : ∃ report ∈ reports, answeredItsQuestion report = true
  noneFailed : ∀ report ∈ reports, isFailed report = false
  attributed : ∀ finding ∈ findings, ¬ Unattributed finding

variable {coverage : Coverage} {fits ran resolved examined : Bool}

theorem isPermitted_read :
    (zeroClaim (.read coverage fits ran resolved examined)).isPermitted = true ↔
      withheldReasons coverage fits ran resolved examined = [] := by
  rw [zeroClaim]
  cases withheldReasons coverage fits ran resolved examined with
  | nil => simp [ZeroClaim.isPermitted]
  | cons first rest => simp [ZeroClaim.isPermitted]

theorem one_unless {α : Type} {p : Prop} [Decidable p] {a : α} :
    (if p then [] else [a]) = [] ↔ p := by
  by_cases hp : p <;> simp [hp]

theorem withheldReasons_eq_nil :
    withheldReasons coverage fits ran resolved examined = [] ↔
      fits = true ∧ ran = true ∧ resolved = true ∧ examined = true ∧
      coverage.collectionScope ≠ .undeclared ∧ uninterpreted coverage = 0 ∧
      coverage.applies ≠ 0 := by
  have hlast : (if 0 < uninterpreted coverage then [WithheldReason.uninterpretedEvents]
      else if coverage.applies = 0 then [.nothingApplicable] else []) = [] ↔
      uninterpreted coverage = 0 ∧ coverage.applies ≠ 0 := by
    by_cases hpos : 0 < uninterpreted coverage
    · simp [hpos, Nat.pos_iff_ne_zero.mp hpos]
    · have hzero : uninterpreted coverage = 0 := by omega
      simp [hzero]
  have hscope : (if coverage.collectionScope = .undeclared then
      [WithheldReason.collectionScopeUndeclared] else []) = [] ↔
      coverage.collectionScope ≠ .undeclared := by
    by_cases h : coverage.collectionScope = .undeclared <;> simp [h]
  simp only [withheldReasons, append_eq_nil_iff, one_unless, hlast, hscope, and_assoc]

theorem not_failed {report : DetectorReport} :
    answeredOrDeclined report = true ↔ isFailed report = false := by
  cases report <;> simp [answeredOrDeclined, isFailed]

theorem isPermitted_iff {reports : List DetectorReport} {findings : List Finding} :
    (zeroClaim (.read coverage fits (reports.all answeredOrDeclined)
      (unattributedFindings findings == 0) (reports.any answeredItsQuestion))).isPermitted = true ↔
    fits = true ∧ Grounds coverage reports findings := by
  rw [isPermitted_read, withheldReasons_eq_nil]
  simp only [List.all_eq_true, not_failed, List.any_eq_true, beq_iff_eq,
    unattributedFindings_eq_zero, uninterpreted, Nat.add_eq_zero_iff, total_eq_zero]
  constructor
  · rintro ⟨hfits, hfailed, hattributed, hran, hdeclared, hinterpreted, happlied⟩
    exact ⟨hfits, hinterpreted, hdeclared, happlied, hran, hfailed, hattributed⟩
  · rintro ⟨hfits, hinterpreted, hdeclared, happlied, hran, hfailed, hattributed⟩
    exact ⟨hfits, hfailed, hattributed, hran, hdeclared, hinterpreted, happlied⟩

/-! ## The count -/

variable {value : Nat} {permitted : Bool} {scope scope' : CountScope}

theorem countOf_exact {n : Nat} :
    countOf n permitted scope = .exact value scope' ↔
      permitted = true ∧ n = value ∧ scope = scope' := by
  rw [countOf]
  cases permitted with
  | true => simp
  | false =>
    simp only [Bool.false_eq_true, if_false, false_and, iff_false]
    split <;> simp

theorem countOf_atLeast {n : Nat} (h : countOf n permitted scope = .atLeast value scope') :
    0 < value := by
  rw [countOf] at h
  split_ifs at h with _ hpos
  cases h
  exact hpos

/-! ## The loop -/

section Loop

variable {Event Key : Type} [LT Key] [DecidableLT Key]

theorem loop_spec (events : List Event) (fits : Bool) (s : Progress)
    (detectors : List (Detector Event)) :
    detectors.foldl (fun s detector => s.visit events fits detector) s =
      { findings := s.findings ++ detectors.flatMap fun d => (examine events fits d).1
        reports := s.reports ++ detectors.map fun d => (examine events fits d).2 } := by
  induction detectors generalizing s with
  | nil => simp
  | cons d ds ih =>
    rw [foldl_cons, ih]
    simp [Progress.visit]

/-- What is found by detectors that run together. -/
def found (events : List Event) (fits : Bool) (detectors : List (Detector Event)) :
    List Finding :=
  detectors.flatMap fun d => (examine events fits d).1

def reported (events : List Event) (fits : Bool) (detectors : List (Detector Event)) :
    List DetectorReport :=
  detectors.map fun d => (examine events fits d).2

theorem evaluate_read (applies : List Event) (coverage : Coverage) (timeOf : Event → Key)
    (ds : List (Detector Event)) (budget : Budget) :
    let fits := withinBudget applies budget
    let events := applicable applies timeOf budget
    let a := evaluate (.read applies coverage timeOf) ds budget
    a.findings.items = found events fits ds ∧ a.detectors = reported events fits ds ∧
      a.claim = zeroClaim (.read coverage fits (a.detectors.all answeredOrDeclined)
        (unattributedFindings a.findings.items == 0) (a.detectors.any answeredItsQuestion)) ∧
      a.count = countOf (distinctUsers a.findings.items) a.claim.isPermitted
        (scopeOf a.detectors coverage) := by
  simp only [evaluate, loop_spec, nil_append]
  exact ⟨rfl, rfl, rfl, rfl⟩

variable {events : List Event} {fits : Bool} {d : Detector Event} {id : JsString}
  {assessed : JsNumber} {declined : Declined} {matched : Nat}

/-- A report of a detector that ran accounts for every event. -/
theorem examine_accounts (h : (examine events fits d).2 = .ran id assessed declined matched) :
    assessed.add (declinedTotal declined) = .ofNat events.length ∧ assessed.IsCount ∧
      ∀ entry ∈ declined, entry.2.IsCount := by
  rw [examine] at h
  split_ifs at h
  split at h
  · cases h
  · split_ifs at h
  · simp only at h
    split_ifs at h with haccounts
    cases h
    simp only [accountsForItself, Bool.and_eq_true, decide_eq_true_eq, List.all_eq_true,
      ← JsNumber.isCount_iff] at haccounts
    exact ⟨haccounts.2, haccounts.1.1.1, haccounts.1.1.2⟩

/-- A detector that throws finds nothing. -/
theorem examine_throws (h : d.run events = none) : (examine events fits d).1 = [] := by
  rw [examine, h]
  split_ifs <;> rfl

/-! ## One run -/

variable (evidence : Evidence Event Key) (ds : List (Detector Event)) (budget : Budget)

/-- The findings of a run. -/
def items : List Finding := (evaluate evidence ds budget).findings.items

/-- The events that the detectors of a run are handed. -/
def handed : List Event :=
  match evidence with
  | .read applies _ timeOf => applicable applies timeOf budget
  | .neverCollected => []
  | .unreadableNow => []

/-- Coverage counts as applying exactly the events that the evidence carries. -/
def CountsItsEvents : Prop :=
  match evidence with
  | .read applies coverage _ => coverage.applies = applies.length
  | .neverCollected => True
  | .unreadableNow => True

/-- The evidence was read, and fits into the budget. -/
def ReadInFull : Prop :=
  match evidence with
  | .read applies _ _ => withinBudget applies budget = true
  | .neverCollected => False
  | .unreadableNow => False

theorem items_alone : items evidence ds budget = ds.flatMap fun d => items evidence [d] budget := by
  cases evidence with
  | neverCollected => simp [items, evaluate, unreadAssessment]
  | unreadableNow => simp [items, evaluate, unreadAssessment]
  | read applies coverage timeOf =>
    simp only [items, (evaluate_read applies coverage timeOf _ budget).1, found,
      flatMap_cons, flatMap_nil, append_nil]

variable {t : Detector Event}

theorem items_throws (throws : ∀ events, t.run events = none) :
    items evidence [t] budget = [] := by
  cases evidence with
  | neverCollected => rfl
  | unreadableNow => rfl
  | read applies coverage timeOf =>
    simp only [items, (evaluate_read applies coverage timeOf _ budget).1, found,
      flatMap_cons, flatMap_nil, append_nil, examine_throws (throws _)]

theorem unread_notAvailable (state : EvidenceState) (because : Unread) (value : Nat)
    (scope : CountScope) : (unreadAssessment state because).count ≠ .exact value scope ∧
      (unreadAssessment state because).count ≠ .atLeast value scope := by
  constructor <;> exact Count.noConfusion

variable {value : Nat} {scope : CountScope}

theorem exact_read (h : (evaluate evidence ds budget).count = .exact value scope) :
    ReadInFull evidence budget ∧
    Grounds (evaluate evidence ds budget).coverage (evaluate evidence ds budget).detectors
      (items evidence ds budget) ∧ value = (users (items evidence ds budget)).ncard := by
  cases evidence with
  | neverCollected => exact absurd h (unread_notAvailable _ _ _ _).1
  | unreadableNow => exact absurd h (unread_notAvailable _ _ _ _).1
  | read applies coverage timeOf =>
    obtain ⟨_, _, hclaim, hcount⟩ := evaluate_read applies coverage timeOf ds budget
    rw [hcount, countOf_exact, hclaim, isPermitted_iff] at h
    obtain ⟨⟨hfits, hgrounds⟩, hvalue, _⟩ := h
    refine ⟨hfits, hgrounds, ?_⟩
    rw [← hvalue, distinctUsers_eq]
    rfl

theorem handed_nonempty (counts : CountsItsEvents evidence) (full : ReadInFull evidence budget)
    (applied : (evaluate evidence ds budget).coverage.applies ≠ 0) :
    handed evidence budget ≠ [] := by
  cases evidence with
  | neverCollected => cases full
  | unreadableNow => cases full
  | read applies coverage timeOf =>
    have hfull : withinBudget applies budget = true := full
    have hcounts : coverage.applies = applies.length := counts
    simp only [handed, applicable, hfull, if_true]
    intro hnil
    rw [hnil] at hcounts
    exact applied hcounts

theorem ran_accounts
    (h : .ran id assessed declined matched ∈ (evaluate evidence ds budget).detectors) :
    assessed.add (declinedTotal declined) = .ofNat (handed evidence budget).length := by
  cases evidence with
  | neverCollected => cases h
  | unreadableNow => cases h
  | read applies coverage timeOf =>
    rw [(evaluate_read applies coverage timeOf ds budget).2.1, reported, mem_map] at h
    obtain ⟨d, _, hreport⟩ := h
    exact (examine_accounts hreport).1

theorem atLeast_pos (h : (evaluate evidence ds budget).count = .atLeast value scope) :
    0 < value := by
  cases evidence with
  | neverCollected => exact absurd h (unread_notAvailable _ _ _ _).2
  | unreadableNow => exact absurd h (unread_notAvailable _ _ _ _).2
  | read applies coverage timeOf =>
    rw [(evaluate_read applies coverage timeOf ds budget).2.2.2] at h
    exact countOf_atLeast h

/-- What an exact count is earned by. -/
structure Earned (value : Nat) : Prop where
  readInFull : ReadInFull evidence budget
  grounds : Grounds (evaluate evidence ds budget).coverage
    (evaluate evidence ds budget).detectors (items evidence ds budget)
  handed : handed evidence budget ≠ []
  users : value = (users (items evidence ds budget)).ncard

/-- What the count of a run says, and what its detectors owe each other. -/
structure Honest : Prop where
  exact : ∀ value scope, (evaluate evidence ds budget).count = .exact value scope →
    Earned evidence ds budget value
  atLeast : ∀ value scope, (evaluate evidence ds budget).count = .atLeast value scope → 0 < value
  accounted : ∀ id assessed declined matched,
    .ran id assessed declined matched ∈ (evaluate evidence ds budget).detectors →
    assessed.add (declinedTotal declined) = .ofNat (EarnedCount.handed evidence budget).length
  alone : items evidence ds budget = ds.flatMap fun d => items evidence [d] budget
  isolated : ∀ before d after t, ds = before ++ d :: after → (∀ events, t.run events = none) →
    items evidence (before ++ t :: after) budget =
      before.flatMap (fun d => items evidence [d] budget) ++
      after.flatMap fun d => items evidence [d] budget

theorem evaluate_honest (counts : CountsItsEvents evidence) : Honest evidence ds budget where
  exact value scope h := by
    obtain ⟨hfull, hgrounds, hvalue⟩ := exact_read evidence ds budget h
    exact ⟨hfull, hgrounds, handed_nonempty evidence ds budget counts hfull hgrounds.applied,
      hvalue⟩
  atLeast _ _ h := atLeast_pos evidence ds budget h
  accounted _ _ _ _ h := ran_accounts evidence ds budget h
  alone := items_alone evidence ds budget
  isolated _ _ _ _ _ throws := by
    rw [items_alone, flatMap_append, flatMap_cons, items_throws evidence budget throws, nil_append]

end Loop

/-- Two events of one user, each of its kind. -/
def twoSignIns : Evidence Nat Nat :=
  .read [1, 2]
    { collectionScope := .declared (js "interactive")
      applies := 2
      doesNotApply := [(js "background", 5)]
      notYetCited := []
      unknown := []
      unprocessable := [] }
    id

def lockouts : Detector Nat where
  id := js "lockouts"
  monotonic := true
  run events := some (.ran (.ofNat 1) [(js "other kind", .ofNat (events.length - 1))]
    [{ detectorId := js "lockouts"
       subject := .directoryUser (js "u1") (.unavailable (js "no licence"))
       firstSignal := ⟨js "locked", .ofNat 1, none, none⟩
       restSignals := [] }])

theorem evaluate_honest_sample : Honest twoSignIns [lockouts] ⟨.ofNat 10⟩ ∧
    (evaluate twoSignIns [lockouts] ⟨.ofNat 10⟩).count =
      .exact 1 ⟨[js "interactive"], [⟨.doesNotApply, js "background", 5⟩], [js "lockouts"], []⟩ :=
  ⟨evaluate_honest _ _ _ rfl, by decide +kernel⟩

end EarnedCount
