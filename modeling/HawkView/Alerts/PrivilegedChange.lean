import HawkView.Alerts.FindingPipeline

/-!
# Conditional access changes

The comparison of two states of a conditional access policy. The case folding
of control names is a parameter. The rules for other directory changes are not
here.
-/

namespace PrivilegedChange

open FindingPipeline (Severity)
open JsString

inductive ChangeRule
  | stateUnavailable | policyDisabled | policyStoppedEnforcing | policyStoppedReporting
  | policyStateUnrecognised | policyStateUnavailable | listPartiallyUnreadable
  | userExcluded | groupExcluded | roleExcluded
  | grantWeakened | grantOperatorUnknown | grantOperatorAbsent | grantControlsAbsent
  | grantDenialControl | sessionControlChanged | unmodelledDimension | noModelledWeakening
  deriving DecidableEq, Repr

inductive ChangeClassification
  | urgent | routine | unclassified
  deriving DecidableEq, Repr

structure ClassifiedChange where
  classification : ChangeClassification
  rule : ChangeRule
  because : JsString
  severity : Severity
  unknown : Option JsString
  deriving DecidableEq, Repr

/-- The values that could be read, and the number of entries that could not. -/
structure ReadList where
  values : List JsString
  unreadable : Nat
  deriving DecidableEq, Repr

inductive PolicyState
  | on | reportOnly | off | unrecognised | unavailable
  deriving DecidableEq, Repr

inductive GrantOperator
  | or | and | absent | unrecognised
  deriving DecidableEq, Repr

def GrantOperator.text : GrantOperator → JsString
  | .or => js "OR"
  | .and => js "AND"
  | .absent => js "ABSENT"
  | .unrecognised => js "UNRECOGNISED"

structure ConditionalAccessState where
  state : PolicyState
  grantOperator : GrantOperator
  grantControls : ReadList
  excludedUsers : ReadList
  excludedGroups : ReadList
  excludedRoles : ReadList
  sessionControls : List JsString
  unmodelledFingerprint : JsString
  deriving DecidableEq, Repr

def URGENT_SEVERITY : Severity := .actNow

def REVIEW_SEVERITY : Severity := .actToday

def ROUTINE_SEVERITY : Severity := .recordOnly

def urgent (rule : ChangeRule) (because : JsString) : ClassifiedChange :=
  ⟨.urgent, rule, because, URGENT_SEVERITY, none⟩

def routine (rule : ChangeRule) (because : JsString) : ClassifiedChange :=
  ⟨.routine, rule, because, ROUTINE_SEVERITY, none⟩

def unclassified (rule : ChangeRule) (because unknown : JsString) : ClassifiedChange :=
  ⟨.unclassified, rule, because, REVIEW_SEVERITY, some unknown⟩

/-- `parts.join(', ')`. -/
def commas (parts : List JsString) : JsString := (js ", ").intercalate parts

/-! ## Grant controls -/

inductive GrantVerdict
  | weaker (reasons : List JsString)
  | undetermined (rule : ChangeRule) (because unknown : JsString)
  | notWeaker (compared : JsString)
  deriving DecidableEq, Repr

def DENIAL_CONTROLS : List JsString := [js "block"]

section Classifier

variable (toLowerCase : JsString → JsString)

/-- The controls on one side, for case-insensitive membership tests. -/
def lowercased (controls : List JsString) : List JsString := controls.map toLowerCase

/-- The controls of one list that another does not have. -/
def lacking (controls others : List JsString) : List JsString :=
  controls.filter fun control => toLowerCase control ∉ lowercased toLowerCase others

def removedControls (before after : ConditionalAccessState) : List JsString :=
  lacking toLowerCase before.grantControls.values after.grantControls.values

def addedControls (before after : ConditionalAccessState) : List JsString :=
  lacking toLowerCase after.grantControls.values before.grantControls.values

def unreadableOperatorCouldHideAChange (before after : ConditionalAccessState) : Bool :=
  (before.grantOperator == .unrecognised || after.grantOperator == .unrecognised)
    && (!before.grantControls.values.isEmpty || !after.grantControls.values.isEmpty)

def undirectable (operator : GrantOperator) (controls : List JsString) : Bool :=
  !controls.isEmpty && operator != .and && operator != .or

/-- Controls that deny access, among those that moved. -/
def denials (before after : ConditionalAccessState) : List JsString :=
  (removedControls toLowerCase before after ++ addedControls toLowerCase before after).filter
    fun control => toLowerCase control ∈ DENIAL_CONTROLS

def controlsUnchanged (before after : ConditionalAccessState) : Bool :=
  (removedControls toLowerCase before after).isEmpty
    && (addedControls toLowerCase before after).isEmpty

/-- On a single control the operators are equivalent. -/
def operatorFlipIsVacuous (before after : ConditionalAccessState) : Bool :=
  controlsUnchanged toLowerCase before after && after.grantControls.values.length == 1

def weakerReasons (before after : ConditionalAccessState) : List JsString :=
  let removed := removedControls toLowerCase before after
  let added := addedControls toLowerCase before after
  (if before.grantOperator = .and ∧ after.grantOperator = .or ∧
      ¬ operatorFlipIsVacuous toLowerCase before after then
    [js "Grant controls that were all required are now alternatives (" ++
      commas after.grantControls.values ++ js "), so any " ++
      js "one of them alone satisfies the policy where previously every one was needed."]
    else []) ++
  (if ¬ removed.isEmpty ∧ before.grantOperator = .and then
    [js "A required grant control was removed (" ++ commas removed ++
      js ") from a policy whose controls are " ++
      js "combined with AND, so a requirement is gone."]
    else []) ++
  (if ¬ added.isEmpty ∧ after.grantOperator = .or then
    [js "A grant control was added (" ++ commas added ++
      js ") to a policy whose controls are combined with OR, " ++
      js "so it is one more way to satisfy the policy without the others."]
    else [])

/-- What moved, in words. -/
def moved (before after : ConditionalAccessState) : List JsString :=
  let removed := removedControls toLowerCase before after
  let added := addedControls toLowerCase before after
  (if ¬ removed.isEmpty then [js "removed " ++ commas removed] else []) ++
  (if ¬ added.isEmpty then [js "added " ++ commas added] else []) ++
  (if before.grantOperator ≠ after.grantOperator then
    [js "operator " ++ before.grantOperator.text ++ js " to " ++ after.grantOperator.text]
    else [])

/-- `none` when the grant dimension did not move. -/
def grantChangeVerdict (before after : ConditionalAccessState) : Option GrantVerdict :=
  let beforeControls := before.grantControls.values
  let afterControls := after.grantControls.values
  let removed := removedControls toLowerCase before after
  let added := addedControls toLowerCase before after
  let operatorChanged := before.grantOperator ≠ after.grantOperator
  if ¬ operatorChanged ∧ ¬ unreadableOperatorCouldHideAChange before after ∧
      removed.isEmpty ∧ added.isEmpty then none
  else if undirectable before.grantOperator beforeControls ∨
      undirectable after.grantOperator afterControls then
    if before.grantOperator = .unrecognised ∨ after.grantOperator = .unrecognised then
      some (.undetermined .grantOperatorUnknown
        (js "A grant-control operator could not be read, so whether a requirement or an " ++
          js "alternative moved cannot be determined. Change detected; impact unknown.")
        (js "grant-operator-unknown"))
    else
      some (.undetermined .grantOperatorAbsent
        (js "A policy states grant controls but no operator combining them, so whether they " ++
          js "are all required or any one suffices is not stated and a change to them cannot be " ++
          js "directed. Change detected; impact unknown.")
        (js "grant-operator-absent"))
  else if beforeControls.isEmpty ∨ afterControls.isEmpty then
    some (.undetermined .grantControlsAbsent
      (js "Grant controls changed and one side has none at all, where the AND and OR operators " ++
        js "mean opposite things. Change detected; impact unknown.")
      (js "grant-controls-absent"))
  else if ¬ (denials toLowerCase before after).isEmpty then
    some (.undetermined .grantDenialControl
      (js "A control that denies access rather than granting it moved (" ++
        commas (denials toLowerCase before after) ++
        js "). It is not an alternative way to satisfy the policy, so the operator semantics " ++
          js "do not describe its direction. Change detected; impact unknown.")
      (js "grant-denial-control"))
  else if ¬ (weakerReasons toLowerCase before after).isEmpty then
    some (.weaker (weakerReasons toLowerCase before after))
  else if operatorFlipIsVacuous toLowerCase before after then
    some (.notWeaker
      (js "The grant operator changed from AND to OR over a single control (" ++
        commas afterControls ++
        js "), where the two are the same requirement: all of one control is any of one control."))
  else if ¬ removed.isEmpty ∧ before.grantOperator = .or then
    some (.notWeaker
      (js "A grant control was removed (" ++ commas removed ++
        js ") from a policy whose controls are combined with OR. That removes an ALTERNATIVE " ++
          js "way to satisfy the policy rather than a requirement, so it does not weaken it."))
  else
    some (.notWeaker
      (js "The grant controls and the operator combining them were compared in both directions (" ++
        (js "; ").intercalate (moved toLowerCase before after) ++
        js ") and no change makes the policy easier to satisfy."))

/-! ## The policy -/

/-- The lists with entries that could not be read, by name. -/
def incomplete (before after : ConditionalAccessState) : List JsString :=
  ([(js "grant controls", before.grantControls, after.grantControls),
    (js "excluded users", before.excludedUsers, after.excludedUsers),
    (js "excluded groups", before.excludedGroups, after.excludedGroups),
    (js "excluded roles", before.excludedRoles, after.excludedRoles)].filter
      fun (_, left, right) => decide (0 < left.unreadable) || decide (0 < right.unreadable)).map
    Prod.fst

/-- The entries of a list that are new in it. -/
def addedEntries (before after : ReadList) : List JsString :=
  after.values.filter fun entry => entry ∉ before.values

def sessionControlsChanged (before after : ConditionalAccessState) : Bool :=
  before.sessionControls.length != after.sessionControls.length ||
    before.sessionControls.any (fun control => control ∉ after.sessionControls) ||
    after.sessionControls.any (fun control => control ∉ before.sessionControls)

/-- The sentence about the grant controls when they did not weaken the policy. -/
def comparedText : Option GrantVerdict → JsString
  | some (.notWeaker compared) => compared
  | _ => js "The grant controls and their combination operator are unchanged."

/-- The comparison below the rules that read the grant controls. -/
def classifyUnmodelled (before after : ConditionalAccessState) (grant : Option GrantVerdict) :
    ClassifiedChange :=
  if before.state = .unavailable ∨ after.state = .unavailable then
    unclassified .policyStateUnavailable
      (js "A conditional access policy was compared without its state field, so whether it is " ++
        js "enforcing was not read rather than not understood. This is a gap in what was " ++
        js "collected, not a finding about the policy. Change detected; impact unknown.")
      (js "policy-state-absent")
  else if before.state = .unrecognised ∨ after.state = .unrecognised then
    unclassified .policyStateUnrecognised
      (js "A conditional access policy reported a state this comparison does not recognise, so " ++
        js "whether it is enforcing cannot be determined — and two states we cannot read are " ++
        js "not thereby the same state. Change detected; impact unknown.")
      (js "policy-state")
  else if sessionControlsChanged before after then
    unclassified .sessionControlChanged
      (js "A session control changed. Sign-in frequency and persistent browser sessions are " ++
        js "where a session is extended from an hour to weeks, and their direction depends on " ++
        js "values this comparison does not capture. Change detected; impact unknown.")
      (js "session-controls")
  else if before.unmodelledFingerprint ≠ after.unmodelledFingerprint then
    unclassified .unmodelledDimension
      (js "The policy changed in a dimension this comparison does not model. Change detected; " ++
        js "impact unknown.")
      (js "unmodelled-dimension")
  else
    routine .noModelledWeakening
      (comparedText grant ++ js " Session controls are unchanged, and the digest of every " ++
        js "dimension this comparison does not model is identical.")

def classifyConditionalAccessChange :
    Option ConditionalAccessState → Option ConditionalAccessState → ClassifiedChange
  | some before, some after =>
    if ¬ (incomplete before after).isEmpty then
      unclassified .listPartiallyUnreadable
        (js "A policy list contained entries this comparison could not read (" ++
          commas (incomplete before after) ++ js ")" ++
          (if before.grantOperator = .unrecognised ∨ after.grantOperator = .unrecognised then
            js ", and the operator combining the grant controls could not be read either — so " ++
              js "neither what the policy requires nor how those requirements combine is a " ++
              js "complete account. "
          else
            js ", so it is not a complete account of what the policy contains and no comparison " ++
              js "over it can be trusted. ") ++
          js "Change detected; impact unknown.")
        (js "policy-list")
    else if before.state = .on ∧ after.state = .off then
      urgent .policyDisabled
        (js "A conditional access policy was disabled. Its protection stops applying " ++
          js "immediately, and it no longer evaluates or logs.")
    else if before.state = .on ∧ after.state = .reportOnly then
      urgent .policyStoppedEnforcing
        (js "A conditional access policy was switched to report-only. It still evaluates and " ++
          js "still logs, and it no longer enforces — so access it previously blocked is now " ++
          js "allowed.")
    else if before.state = .reportOnly ∧ after.state = .off then
      routine .policyStoppedReporting
        (js "A report-only conditional access policy was disabled. No session's access changes " ++
          js "— report-only was not enforcing either — but the policy stops evaluating, so the " ++
          js "log of what it would have done ends here.")
    else
      let addedRoles := addedEntries before.excludedRoles after.excludedRoles
      let addedGroups := addedEntries before.excludedGroups after.excludedGroups
      let addedUsers := addedEntries before.excludedUsers after.excludedUsers
      if 0 < addedRoles.length then
        urgent .roleExcluded
          (js "A directory role was excluded from a conditional access policy (" ++
            decimal addedRoles.length ++ js "), so the policy no longer applies to anybody " ++
            js "holding that role. Who that covers changes as role assignments change, with no " ++
            js "further edit to the policy.")
      else if 0 < addedGroups.length then
        urgent .groupExcluded
          (js "A group was excluded from a conditional access policy (" ++
            decimal addedGroups.length ++ js "), so the policy no longer applies to its " ++
            js "members. The number of accounts that covers is not visible from the policy itself.")
      else if 0 < addedUsers.length then
        urgent .userExcluded
          (js "An account was excluded from a conditional access policy (" ++
            decimal addedUsers.length ++ js "), so the policy no longer applies to it.")
      else
        match grantChangeVerdict toLowerCase before after with
        | some (.weaker reasons) => urgent .grantWeakened ((js " ").intercalate reasons)
        | some (.undetermined rule because unknown) => unclassified rule because unknown
        | grant => classifyUnmodelled before after grant
  | _, _ =>
    unclassified .stateUnavailable
      (js "A conditional access policy changed and usable before/after values were not " ++
        js "available. Change detected; impact unknown.")
      (js "conditional-access-state-missing")

end Classifier

end PrivilegedChange
