import HawkView.Evaluation.Compose
import HawkView.Normalization.Normalize

/-!
# Whether a feed can supply a rule

A rule names the outcomes that it reads. On a feed that cannot produce one of
them it does not run, and says so.
-/

namespace FeedCapability

open List

open EvaluationContract
open Normalization (EventOutcome NormalizationSource)

def outcomeText : EventOutcome → JsString
  | .passwordRejected => js "PASSWORD_REJECTED"
  | .passwordAcceptedCompleted => js "PASSWORD_ACCEPTED_COMPLETED"
  | .passwordAcceptedChallengeIssued => js "PASSWORD_ACCEPTED_CHALLENGE_ISSUED"
  | .passwordAcceptedChallengeNotPassed => js "PASSWORD_ACCEPTED_CHALLENGE_NOT_PASSED"
  | .passwordAcceptedRegistrationRequired => js "PASSWORD_ACCEPTED_REGISTRATION_REQUIRED"
  | .blockedByControl => js "BLOCKED_BY_CONTROL"
  | .lockedOutAfterRepeatedFailures => js "LOCKED_OUT_AFTER_REPEATED_FAILURES"
  | .disabledAccountAttempt => js "DISABLED_ACCOUNT_ATTEMPT"
  | .credentialConfirmedValid => js "CREDENTIAL_CONFIRMED_VALID"

structure Capability where
  feed : JsString
  reachable : List EventOutcome

/-- A detector, and the outcomes that its pattern needs to be able to occur. -/
structure FeedBoundDetector (Event : Type) where
  detector : Detector Event
  requires : List EventOutcome

variable {Event : Type}

def unreachableRequirements (bound : FeedBoundDetector Event) (capability : Capability) :
    List EventOutcome :=
  bound.requires.filter fun outcome => !capability.reachable.contains outcome

/-- The outcomes in the order of their texts, separated by commas. -/
def listed (missing : List EventOutcome) : JsString :=
  List.intercalate (js ", ") ((missing.map outcomeText).mergeSort fun a b => decide (a ≤ b))

def inertReason (capability : Capability) (missing : List EventOutcome) : JsString :=
  js "This check reads outcomes the " ++ capability.feed ++ js " feed cannot produce " ++
    js "(" ++ listed missing ++ js "), so it could never report a finding here."

/-- A rule that its feed cannot support is replaced by one that says so. -/
def bindToFeed (bound : FeedBoundDetector Event) (capability : Capability) : Detector Event :=
  let missing := unreachableRequirements bound capability
  if missing.isEmpty then bound.detector
  else
    { id := bound.detector.id
      monotonic := bound.detector.monotonic
      run := fun _ => some (.inapplicable (inertReason capability missing)) }

/-! ## The capabilities of the feeds -/

def allOutcomes : List EventOutcome :=
  [.passwordRejected, .passwordAcceptedCompleted, .blockedByControl,
    .lockedOutAfterRepeatedFailures, .passwordAcceptedChallengeNotPassed,
    .passwordAcceptedChallengeIssued, .passwordAcceptedRegistrationRequired,
    .disabledAccountAttempt, .credentialConfirmedValid]

inductive OutcomeReachability
  | mappedAndObserved | mappedNotObserved | unreachable
  deriving DecidableEq

/-- `FEED_CAPABILITIES`. -/
def reachability : NormalizationSource → EventOutcome → OutcomeReachability
  | .graphSignIns, .passwordAcceptedChallengeIssued => .mappedNotObserved
  | .graphSignIns, .passwordAcceptedRegistrationRequired => .mappedNotObserved
  | .graphSignIns, .disabledAccountAttempt => .mappedNotObserved
  | .graphSignIns, .credentialConfirmedValid => .mappedNotObserved
  | .graphSignIns, _ => .mappedAndObserved
  | .m365AuditSts, .passwordAcceptedChallengeNotPassed => .unreachable
  | .m365AuditSts, .blockedByControl => .unreachable
  | .m365AuditSts, .disabledAccountAttempt => .unreachable
  | .m365AuditSts, .credentialConfirmedValid => .unreachable
  | .m365AuditSts, _ => .mappedAndObserved

def reachableOutcomes (source : NormalizationSource) : List EventOutcome :=
  allOutcomes.filter fun outcome => reachability source outcome != .unreachable

def sourceText : NormalizationSource → JsString
  | .graphSignIns => js "GRAPH_SIGN_INS"
  | .m365AuditSts => js "M365_AUDIT_STS"

def capabilityOf (source : NormalizationSource) : Capability :=
  ⟨sourceText source, reachableOutcomes source⟩

/-- Every outcome is reachable on the sign-in feed. -/
theorem graph_missing (bound : FeedBoundDetector Event) :
    unreachableRequirements bound (capabilityOf .graphSignIns) = [] := by
  rw [unreachableRequirements, filter_eq_nil_iff]
  intro outcome _
  have hreachable : (reachableOutcomes .graphSignIns).contains outcome = true := by
    cases outcome <;> decide
  simp only [capabilityOf, hreachable, Bool.not_true, Bool.false_eq_true, not_false_eq_true]

/-! ## How long the reason is -/

theorem length_intercalate_le {α : Type} (sep : List α) (xs : List (List α)) :
    (sep.intercalate xs).length ≤ (xs.map fun x => x.length + sep.length).sum := by
  induction xs with
  | nil => simp
  | cons x rest ih =>
    cases rest with
    | nil => simp [intercalate]
    | cons y rest =>
      simp only [intercalate, intersperse_cons_cons, flatten_cons,
        length_append, map_cons, sum_cons] at ih ⊢
      omega

/-- What an outcome takes up in the reason. -/
def width (outcome : EventOutcome) : Nat := (outcomeText outcome).length + 2

theorem listed_length (missing : List EventOutcome) :
    (listed missing).length ≤ (missing.map width).sum := by
  have hperm := (missing.map outcomeText).mergeSort_perm fun a b => decide (a ≤ b)
  have hsum := (hperm.map fun s => s.length + (js ", ").length).sum_eq
  have hlength := length_intercalate_le (js ", ")
    ((missing.map outcomeText).mergeSort fun a b => decide (a ≤ b))
  rw [hsum, List.map_map] at hlength
  exact hlength

/-- What the audit feed cannot produce. -/
def auditGaps : List EventOutcome :=
  [.passwordAcceptedChallengeNotPassed, .blockedByControl, .disabledAccountAttempt,
    .credentialConfirmedValid]

/-- The three that are too long to be named together. -/
def longOutcomes : List EventOutcome :=
  [.credentialConfirmedValid, .disabledAccountAttempt, .passwordAcceptedChallengeNotPassed]

variable {bound : FeedBoundDetector Event}

theorem audit_missing {outcome : EventOutcome} :
    outcome ∈ unreachableRequirements bound (capabilityOf .m365AuditSts) ↔
      outcome ∈ bound.requires ∧ outcome ∈ auditGaps := by
  have hgap : (!(reachableOutcomes .m365AuditSts).contains outcome) = true ↔
      outcome ∈ auditGaps := by
    cases outcome <;> decide
  simp only [unreachableRequirements, mem_filter, capabilityOf, hgap]

/-- Gaps of the audit feed that do not hold all of the long ones. -/
theorem gaps_width {missing : List EventOutcome} (unique : missing.Nodup)
    (gaps : ∀ outcome ∈ missing, outcome ∈ auditGaps)
    (short : ∃ outcome ∈ longOutcomes, outcome ∉ missing) : (missing.map width).sum ≤ 90 := by
  have hperm : missing.Perm (auditGaps.filter fun outcome => decide (outcome ∈ missing)) := by
    refine (perm_ext_iff_of_nodup unique (List.Nodup.filter _ (by decide))).mpr ?_
    intro outcome
    simp only [mem_filter, decide_eq_true_eq]
    exact ⟨fun h => ⟨gaps outcome h, h⟩, fun h => h.2⟩
  have hchoice : ∀ a b c d : Bool, (a && c && d) = false →
      ((if a then 40 else 0) + (if b then 20 else 0) + (if c then 26 else 0) +
        if d then 28 else 0) ≤ 90 := by
    decide
  have hsome : (decide (EventOutcome.passwordAcceptedChallengeNotPassed ∈ missing) &&
      decide (EventOutcome.disabledAccountAttempt ∈ missing) &&
      decide (EventOutcome.credentialConfirmedValid ∈ missing)) = false := by
    obtain ⟨outcome, hlong, hout⟩ := short
    simp only [longOutcomes, mem_cons, not_mem_nil, or_false] at hlong
    rcases hlong with rfl | rfl | rfl <;> simp [hout]
  have hbound := hchoice _ (decide (EventOutcome.blockedByControl ∈ missing)) _ _ hsome
  rw [(hperm.map width).sum_eq]
  refine le_trans (le_of_eq ?_) hbound
  simp only [auditGaps, filter_cons, filter_nil]
  split_ifs <;> simp_all [width, outcomeText] <;> decide

/-- The reason of a rule that a feed cannot support is at most 200 units long, unless the feed is
the audit feed and the rule reads all three of the long outcomes. -/
theorem inertReason_short {source : NormalizationSource} (unique : bound.requires.Nodup)
    (short : source = .graphSignIns ∨ ∃ outcome ∈ longOutcomes, outcome ∉ bound.requires)
    (missing : unreachableRequirements bound (capabilityOf source) ≠ []) :
    (inertReason (capabilityOf source)
      (unreachableRequirements bound (capabilityOf source))).length ≤ 200 := by
  cases source with
  | graphSignIns =>
    have hnone : unreachableRequirements bound (capabilityOf .graphSignIns) = [] :=
      graph_missing bound
    exact absurd hnone missing
  | m365AuditSts =>
    have hshort : ∃ outcome ∈ longOutcomes,
        outcome ∉ unreachableRequirements bound (capabilityOf .m365AuditSts) := by
      obtain ⟨outcome, hlong, hout⟩ := short.resolve_left nofun
      exact ⟨outcome, hlong, fun hmem => hout (audit_missing.mp hmem).1⟩
    have hwidth : ((unreachableRequirements bound (capabilityOf .m365AuditSts)).map width).sum ≤
        90 := gaps_width (unique.filter _) (fun outcome h => (audit_missing.mp h).2) hshort
    generalize unreachableRequirements bound (capabilityOf .m365AuditSts) = gaps at hwidth ⊢
    have hlisted := listed_length gaps
    have hstart : (js "This check reads outcomes the " ++ sourceText .m365AuditSts ++
        js " feed cannot produce " ++ js "(").length = 66 := by decide
    have hend : (js "), so it could never report a finding here.").length = 43 := by decide
    simp only [inertReason, capabilityOf, length_append] at hstart ⊢
    omega

end FeedCapability
