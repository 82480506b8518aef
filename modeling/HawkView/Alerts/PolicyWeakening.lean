import HawkView.Alerts.PrivilegedChange
import HawkView.Lib.Requirement
import Mathlib.Data.Fintype.EquivFin

/-!
# What a routine verdict says about sign-ins

A sign-in is let through by a policy that does not enforce, that does not cover
it, or whose grant controls it satisfies. The included scope is read off the
unmodelled part of the policy, in any way whatever.
-/

namespace PolicyWeakening

open PrivilegedChange Requirement List

variable {toLowerCase : JsString → JsString} {before after : ConditionalAccessState}

/-! ## Sign-ins -/

/-- `satisfied` holds the satisfied controls by their folded names. -/
structure SignIn where
  user : JsString
  groups : Set JsString
  roles : Set JsString
  app : JsString
  satisfied : Set JsString

/-- How the parts of a policy are read that the comparison gives no meaning to. -/
structure Reading where
  included : JsString → SignIn → Prop
  denies : SignIn → Prop
  unstated : GrantOperator → Set JsString → Set JsString → Prop

def Reading.Satisfies (reading : Reading) (operator : GrantOperator)
    (controls held : Set JsString) : Prop :=
  match operator with
  | .and => Combine.all.Meets controls held
  | .or => Combine.any.Meets controls held
  | .absent => reading.unstated .absent controls held
  | .unrecognised => reading.unstated .unrecognised controls held

/-- The grant controls of a policy, by their folded names. -/
def controlSet (toLowerCase : JsString → JsString) (policy : ConditionalAccessState) :
    Set JsString :=
  {control | control ∈ lowercased toLowerCase policy.grantControls.values}

def Excluded (policy : ConditionalAccessState) (signIn : SignIn) : Prop :=
  signIn.user ∈ policy.excludedUsers.values ∨
    (∃ group ∈ signIn.groups, group ∈ policy.excludedGroups.values) ∨
    ∃ role ∈ signIn.roles, role ∈ policy.excludedRoles.values

/-- A denial among the controls that turns the sign-in away. -/
def Denied (toLowerCase : JsString → JsString) (reading : Reading)
    (policy : ConditionalAccessState) (signIn : SignIn) : Prop :=
  (∃ control ∈ controlSet toLowerCase policy, control ∈ DENIAL_CONTROLS) ∧ reading.denies signIn

def LetsThrough (toLowerCase : JsString → JsString) (reading : Reading)
    (policy : ConditionalAccessState) (signIn : SignIn) : Prop :=
  policy.state = .on → reading.included policy.unmodelledFingerprint signIn →
    ¬ Excluded policy signIn →
      ¬ Denied toLowerCase reading policy signIn ∧
        reading.Satisfies policy.grantOperator (controlSet toLowerCase policy) signIn.satisfied

/-- The verdict that no modelled weakening happened lets nobody new through. -/
def Sound (toLowerCase : JsString → JsString) (before after : ConditionalAccessState) : Prop :=
  let change := classifyConditionalAccessChange toLowerCase (some before) (some after)
  change.classification = .routine → change.rule = .noModelledWeakening →
    ∀ (reading : Reading) (signIn : SignIn),
      LetsThrough toLowerCase reading after signIn → LetsThrough toLowerCase reading before signIn

/-! ## The verdict on the grant controls -/

/-- The grant verdicts under which the comparison goes on. -/
def Calm : Option GrantVerdict → Prop
  | none => True
  | some (.notWeaker _) => True
  | some (.weaker _) => False
  | some (.undetermined _ _ _) => False

structure Unmoved (toLowerCase : JsString → JsString)
    (before after : ConditionalAccessState) : Prop where
  operator : before.grantOperator = after.grantOperator
  readable : unreadableOperatorCouldHideAChange before after = false
  removed : removedControls toLowerCase before after = []
  added : addedControls toLowerCase before after = []

/-- Both sides combine some controls with a stated operator, and no rule fires. -/
structure Directed (toLowerCase : JsString → JsString)
    (before after : ConditionalAccessState) : Prop where
  statedBefore : undirectable before.grantOperator before.grantControls.values = false
  statedAfter : undirectable after.grantOperator after.grantControls.values = false
  someBefore : before.grantControls.values ≠ []
  someAfter : after.grantControls.values ≠ []
  denials : denials toLowerCase before after = []
  reasons : weakerReasons toLowerCase before after = []

theorem calm_iff : Calm (grantChangeVerdict toLowerCase before after) ↔
    Unmoved toLowerCase before after ∨ Directed toLowerCase before after := by
  constructor
  · intro h
    simp only [grantChangeVerdict] at h
    split_ifs at h with hstill hdirect _ hempty hdenials hreasons
    · simp only [ne_eq, not_not, Bool.not_eq_true, List.isEmpty_iff] at hstill
      exact .inl ⟨hstill.1, hstill.2.1, hstill.2.2.1, hstill.2.2.2⟩
    all_goals first
      | exact h.elim
      | simp only [not_or, Bool.not_eq_true, List.isEmpty_iff]
          at hdirect hempty hdenials hreasons
        exact .inr ⟨hdirect.1, hdirect.2, hempty.1, hempty.2, hdenials, hreasons⟩
  · rintro (h | h)
    · simp [grantChangeVerdict, h.operator, h.readable, h.removed, h.added, Calm]
    · simp only [grantChangeVerdict, h.statedBefore, h.statedAfter, h.denials, h.reasons,
        List.isEmpty_iff, h.someBefore, h.someAfter]
      split_ifs <;> trivial

variable {controls : List JsString}

theorem lacking_eq_nil {others : List JsString} :
    lacking toLowerCase controls others = [] ↔
      ∀ control ∈ lowercased toLowerCase controls, control ∈ lowercased toLowerCase others := by
  simp [lacking, lowercased]

theorem removed_eq_nil : removedControls toLowerCase before after = [] ↔
    controlSet toLowerCase before ⊆ controlSet toLowerCase after :=
  lacking_eq_nil

theorem added_eq_nil : addedControls toLowerCase before after = [] ↔
    controlSet toLowerCase after ⊆ controlSet toLowerCase before :=
  lacking_eq_nil

theorem reasons_eq_nil : weakerReasons toLowerCase before after = [] ↔
    (before.grantOperator = .and → after.grantOperator = .or →
      operatorFlipIsVacuous toLowerCase before after) ∧
    (before.grantOperator = .and → removedControls toLowerCase before after = []) ∧
    (after.grantOperator = .or → addedControls toLowerCase before after = []) := by
  simp only [weakerReasons, append_eq_nil_iff, List.isEmpty_iff, ite_eq_right_iff,
    cons_ne_nil, imp_false]
  tauto

/-- A stated operator over some controls is one of the two. -/
theorem stated_operator {operator : GrantOperator}
    (stated : undirectable operator controls = false) (nonempty : controls ≠ []) :
    operator = .and ∨ operator = .or := by
  cases operator with
  | and => exact .inl rfl
  | or => exact .inr rfl
  | absent => simp [undirectable, nonempty] at stated
  | unrecognised => simp [undirectable, nonempty] at stated

theorem denials_eq_nil : denials toLowerCase before after = [] ↔
    ∀ control ∈ DENIAL_CONTROLS,
      (control ∈ controlSet toLowerCase before ↔ control ∈ controlSet toLowerCase after) := by
  simp only [denials, removedControls, addedControls, lacking, controlSet, Set.mem_ofPred_eq,
    filter_eq_nil_iff, mem_append, mem_filter, decide_eq_true_eq]
  constructor
  · intro h control hdenial
    constructor
    · intro hmem
      obtain ⟨name, hname, rfl⟩ := mem_map.mp hmem
      by_contra hgone
      exact h name (.inl ⟨hname, hgone⟩) hdenial
    · intro hmem
      obtain ⟨name, hname, rfl⟩ := mem_map.mp hmem
      by_contra hnew
      exact h name (.inr ⟨hname, hnew⟩) hdenial
  · rintro h name (⟨hname, hgone⟩ | ⟨hname, hnew⟩) hdenial
    · exact hgone ((h _ hdenial).mp (mem_map_of_mem hname))
    · exact hnew ((h _ hdenial).mpr (mem_map_of_mem hname))

theorem Unmoved.same_controls (h : Unmoved toLowerCase before after) :
    controlSet toLowerCase before = controlSet toLowerCase after :=
  Set.Subset.antisymm (removed_eq_nil.mp h.removed) (added_eq_nil.mp h.added)

/-- One control on both sides is the same requirement under either operator. -/
theorem vacuous_flip (h : operatorFlipIsVacuous toLowerCase before after = true) :
    Implies .any (controlSet toLowerCase after) .all (controlSet toLowerCase before) := by
  simp only [operatorFlipIsVacuous, controlsUnchanged, Bool.and_eq_true, List.isEmpty_iff,
    beq_iff_eq] at h
  obtain ⟨⟨hremoved, _⟩, hone⟩ := h
  obtain ⟨name, hname⟩ := List.length_eq_one_iff.mp hone
  have hsub := removed_eq_nil.mp hremoved
  have hsingle : ∀ control ∈ controlSet toLowerCase after, control = toLowerCase name := by
    intro control hcontrol
    simpa [controlSet, lowercased, hname] using hcontrol
  apply any_implies_all.mpr
  intro x hx y hy
  rw [hsingle x hx, hsingle y (hsub hy)]

/-- From OR to AND over controls of which none is on both sides. -/
structure Crossed (toLowerCase : JsString → JsString)
    (before after : ConditionalAccessState) : Prop where
  operatorBefore : before.grantOperator = .or
  operatorAfter : after.grantOperator = .and
  apart : ∀ control ∈ lowercased toLowerCase before.grantControls.values,
    control ∉ lowercased toLowerCase after.grantControls.values

variable {held : Set JsString}

theorem directed_satisfies (h : Directed toLowerCase before after)
    (hcrossed : ¬ Crossed toLowerCase before after) (reading : Reading)
    (hheld : reading.Satisfies after.grantOperator (controlSet toLowerCase after) held) :
    reading.Satisfies before.grantOperator (controlSet toLowerCase before) held := by
  obtain ⟨hflip, hremoved, hadded⟩ := reasons_eq_nil.mp h.reasons
  rcases stated_operator h.statedBefore h.someBefore with hbefore | hbefore <;>
    rcases stated_operator h.statedAfter h.someAfter with hafter | hafter <;>
    rw [hafter] at hheld <;> rw [hbefore]
  · exact all_implies_all.mpr (removed_eq_nil.mp (hremoved hbefore)) held hheld
  · exact vacuous_flip (hflip hbefore hafter) held hheld
  · apply all_implies_any.mpr _ held hheld
    by_contra hempty
    refine hcrossed ⟨hbefore, hafter, fun control hmem hmem' => hempty ⟨control, hmem, hmem'⟩⟩
  · exact any_implies_any.mpr (added_eq_nil.mp (hadded hafter)) held hheld

/-- Under a calm verdict the grant controls after imply those before, save when crossed. -/
theorem calm_satisfies (h : Calm (grantChangeVerdict toLowerCase before after))
    (hcrossed : ¬ Crossed toLowerCase before after) (reading : Reading)
    (hheld : reading.Satisfies after.grantOperator (controlSet toLowerCase after) held) :
    reading.Satisfies before.grantOperator (controlSet toLowerCase before) held := by
  rcases calm_iff.mp h with h | h
  · rwa [h.operator, h.same_controls]
  · exact directed_satisfies h hcrossed reading hheld

theorem calm_denied (h : Calm (grantChangeVerdict toLowerCase before after)) (reading : Reading)
    (signIn : SignIn) :
    Denied toLowerCase reading before signIn ↔ Denied toLowerCase reading after signIn := by
  rcases calm_iff.mp h with h | h
  · rw [Denied, Denied, h.same_controls]
  · have hsame := denials_eq_nil.mp h.denials
    constructor
    · rintro ⟨⟨control, hmem, hdenial⟩, hdenies⟩
      exact ⟨⟨control, (hsame control hdenial).mp hmem, hdenial⟩, hdenies⟩
    · rintro ⟨⟨control, hmem, hdenial⟩, hdenies⟩
      exact ⟨⟨control, (hsame control hdenial).mpr hmem, hdenial⟩, hdenies⟩

/-! ## The verdict on the policy -/

/-- Both states are known and the second keeps what the first did. -/
def keepsState : PolicyState → PolicyState → Bool
  | .on, .on | .reportOnly, .on | .reportOnly, .reportOnly => true
  | .off, .on | .off, .reportOnly | .off, .off => true
  | _, _ => false

theorem keepsState_iff {first second : PolicyState} : keepsState first second = true ↔
    ¬ (first = .on ∧ second = .off) ∧ ¬ (first = .on ∧ second = .reportOnly) ∧
    ¬ (first = .reportOnly ∧ second = .off) ∧
    ¬ (first = .unavailable ∨ second = .unavailable) ∧
    ¬ (first = .unrecognised ∨ second = .unrecognised) := by
  cases first <;> cases second <;> decide

/-- Nothing moved outside the state and the grant controls, save exclusions taken away. -/
structure Quiet (before after : ConditionalAccessState) : Prop where
  readable : incomplete before after = []
  roles : ∀ role ∈ after.excludedRoles.values, role ∈ before.excludedRoles.values
  groups : ∀ group ∈ after.excludedGroups.values, group ∈ before.excludedGroups.values
  users : ∀ user ∈ after.excludedUsers.values, user ∈ before.excludedUsers.values
  session : sessionControlsChanged before after = false
  unmodelled : before.unmodelledFingerprint = after.unmodelledFingerprint

theorem addedEntries_length (before after : ReadList) :
    ¬ 0 < (addedEntries before after).length ↔ ∀ entry ∈ after.values, entry ∈ before.values := by
  simp [addedEntries, length_pos_iff]

theorem unmodelled_routine (grant : Option GrantVerdict) :
    (classifyUnmodelled before after grant).classification = .routine ↔
      ¬ (before.state = .unavailable ∨ after.state = .unavailable) ∧
      ¬ (before.state = .unrecognised ∨ after.state = .unrecognised) ∧
      sessionControlsChanged before after = false ∧
      before.unmodelledFingerprint = after.unmodelledFingerprint := by
  rw [← Bool.not_eq_true]
  simp only [classifyUnmodelled]
  split_ifs with habsent hunknown hsession hprint
  · simp [unclassified, habsent]
  · simp [unclassified, hunknown]
  · simp [unclassified, hsession]
  · simp [unclassified, hprint]
  · exact ⟨fun _ => ⟨habsent, hunknown, hsession, not_not.mp hprint⟩, fun _ => rfl⟩

/-- A policy that is quiet and kept is judged by what is not modelled. -/
theorem quiet_routine (h : Quiet before after)
    (hstate : keepsState before.state after.state = true)
    (hcalm : Calm (grantChangeVerdict toLowerCase before after)) :
    classifyConditionalAccessChange toLowerCase (some before) (some after) =
      classifyUnmodelled before after (grantChangeVerdict toLowerCase before after) := by
  obtain ⟨hoff, hreport, hsilent, _⟩ := keepsState_iff.mp hstate
  have hroles := (addedEntries_length _ _).mpr h.roles
  have hgroups := (addedEntries_length _ _).mpr h.groups
  have husers := (addedEntries_length _ _).mpr h.users
  simp only [classifyConditionalAccessChange, h.readable, isEmpty_nil, not_true_eq_false,
    hoff, hreport, hsilent, hroles, hgroups, husers, if_false]
  cases hgrant : grantChangeVerdict toLowerCase before after with
  | none => rfl
  | some verdict =>
    rw [hgrant] at hcalm
    cases verdict with
    | weaker reasons => exact hcalm.elim
    | undetermined rule because unknown => exact hcalm.elim
    | notWeaker compared => rfl

theorem routine_quiet
    (hroutine : (classifyConditionalAccessChange toLowerCase (some before)
      (some after)).classification = .routine)
    (hrule : (classifyConditionalAccessChange toLowerCase (some before)
      (some after)).rule = .noModelledWeakening) :
    Quiet before after ∧ keepsState before.state after.state = true ∧
      Calm (grantChangeVerdict toLowerCase before after) := by
  simp only [classifyConditionalAccessChange] at hroutine hrule
  split_ifs at hroutine hrule with hread hoff hreport hsilent hroles hgroups husers
  all_goals try cases hroutine
  all_goals try cases hrule
  have hgrant : Calm (grantChangeVerdict toLowerCase before after) ∧
      (classifyUnmodelled before after
        (grantChangeVerdict toLowerCase before after)).classification = .routine := by
    revert hroutine
    cases grantChangeVerdict toLowerCase before after with
    | none => exact fun h => ⟨trivial, h⟩
    | some verdict =>
      cases verdict with
      | weaker reasons => exact fun h => nomatch h
      | undetermined rule because unknown => exact fun h => nomatch h
      | notWeaker compared => exact fun h => ⟨trivial, h⟩
  obtain ⟨habsent, hunknown, hsession, hprint⟩ := (unmodelled_routine _).mp hgrant.2
  exact ⟨⟨List.isEmpty_iff.mp hread, (addedEntries_length _ _).mp hroles,
    (addedEntries_length _ _).mp hgroups, (addedEntries_length _ _).mp husers, hsession, hprint⟩,
    keepsState_iff.mpr ⟨hoff, hreport, hsilent, habsent, hunknown⟩, hgrant.1⟩

/-- When the verdict is that no modelled weakening happened. -/
theorem no_weakening_iff :
    ((classifyConditionalAccessChange toLowerCase (some before) (some after)).classification
        = .routine ∧
      (classifyConditionalAccessChange toLowerCase (some before) (some after)).rule
        = .noModelledWeakening) ↔
    Quiet before after ∧ keepsState before.state after.state = true ∧
      Calm (grantChangeVerdict toLowerCase before after) := by
  constructor
  · rintro ⟨hroutine, hrule⟩
    exact routine_quiet hroutine hrule
  · rintro ⟨hquiet, hstate, hcalm⟩
    obtain ⟨_, _, _, habsent, hunknown⟩ := keepsState_iff.mp hstate
    have hroutine := (unmodelled_routine (grantChangeVerdict toLowerCase before after)).mpr
      ⟨habsent, hunknown, hquiet.session, hquiet.unmodelled⟩
    rw [quiet_routine hquiet hstate hcalm]
    refine ⟨hroutine, ?_⟩
    simp only [classifyUnmodelled] at hroutine ⊢
    split_ifs at hroutine ⊢ <;> first | rfl | cases hroutine

/-! ## Soundness -/

/-- An enforced policy whose grant controls go from alternatives to requirements
that share none of them, with nothing else to stop the comparison. -/
structure Replaced (toLowerCase : JsString → JsString)
    (before after : ConditionalAccessState) : Prop where
  quiet : Quiet before after
  onBefore : before.state = .on
  onAfter : after.state = .on
  someBefore : before.grantControls.values ≠ []
  someAfter : after.grantControls.values ≠ []
  crossed : Crossed toLowerCase before after
  noDenial : ∀ control ∈ DENIAL_CONTROLS,
    control ∉ lowercased toLowerCase before.grantControls.values ∧
      control ∉ lowercased toLowerCase after.grantControls.values

theorem Replaced.calm (h : Replaced toLowerCase before after) :
    Calm (grantChangeVerdict toLowerCase before after) := by
  apply calm_iff.mpr
  right
  refine ⟨?_, ?_, h.someBefore, h.someAfter, ?_, ?_⟩
  · simp [undirectable, h.crossed.operatorBefore]
  · simp [undirectable, h.crossed.operatorAfter]
  · apply denials_eq_nil.mpr
    intro control hdenial
    obtain ⟨hbefore, hafter⟩ := h.noDenial control hdenial
    exact ⟨fun hmem => (hbefore hmem).elim, fun hmem => (hafter hmem).elim⟩
  · apply reasons_eq_nil.mpr
    simp [h.crossed.operatorBefore, h.crossed.operatorAfter]

theorem excluded_before (h : Quiet before after) {signIn : SignIn}
    (hexcluded : Excluded after signIn) : Excluded before signIn := by
  rcases hexcluded with huser | ⟨group, hgroup, hmem⟩ | ⟨role, hrole, hmem⟩
  · exact .inl (h.users _ huser)
  · exact .inr (.inl ⟨group, hgroup, h.groups _ hmem⟩)
  · exact .inr (.inr ⟨role, hrole, h.roles _ hmem⟩)

theorem state_on (h : keepsState before.state after.state = true) (hon : before.state = .on) :
    after.state = .on := by
  revert h
  rw [hon]
  cases after.state <;> decide

/-- Some user is on none of the exclude lists. -/
theorem unlisted_user (users : List JsString) : ∃ user, user ∉ users := by
  obtain ⟨user, huser⟩ := Infinite.exists_notMem_finset users.toFinset
  exact ⟨user, fun hmem => huser (mem_toFinset.mpr hmem)⟩

/-- Whoever satisfies exactly the controls required afterwards. -/
theorem replaced_unsound (h : Replaced toLowerCase before after) :
    ¬ Sound toLowerCase before after := by
  intro hsound
  have hstate : keepsState before.state after.state = true := by
    rw [h.onBefore, h.onAfter]
    rfl
  obtain ⟨hroutine, hrule⟩ := no_weakening_iff.mpr ⟨h.quiet, hstate, h.calm⟩
  obtain ⟨user, huser⟩ := unlisted_user before.excludedUsers.values
  let reading : Reading := ⟨fun _ _ => True, fun _ => False, fun _ _ _ => False⟩
  let signIn : SignIn := ⟨user, ∅, ∅, [], controlSet toLowerCase after⟩
  have hafter : LetsThrough toLowerCase reading after signIn := by
    intro _ _ _
    refine ⟨fun hdenied => hdenied.2, ?_⟩
    rw [h.crossed.operatorAfter]
    exact fun control hmem => hmem
  have hcovered : ¬ Excluded before signIn := by
    rintro (hlisted | ⟨group, hgroup, _⟩ | ⟨role, hrole, _⟩)
    · exact huser hlisted
    · exact hgroup
    · exact hrole
  obtain ⟨_, hmeets⟩ := hsound hroutine hrule reading signIn hafter h.onBefore trivial hcovered
  rw [h.crossed.operatorBefore] at hmeets
  obtain ⟨control, hbefore, hheld⟩ := hmeets
  exact h.crossed.apart control hbefore hheld

theorem sound_of_not_replaced (h : ¬ Replaced toLowerCase before after) :
    Sound toLowerCase before after := by
  intro hroutine hrule reading signIn hafter hon hincluded hcovered
  obtain ⟨hquiet, hstate, hcalm⟩ := no_weakening_iff.mp ⟨hroutine, hrule⟩
  have hstill := state_on hstate hon
  obtain ⟨hdenied, hmeets⟩ := hafter hstill (hquiet.unmodelled ▸ hincluded)
    (fun hexcluded => hcovered (excluded_before hquiet hexcluded))
  refine ⟨fun hbefore => hdenied ((calm_denied hcalm reading signIn).mp hbefore), ?_⟩
  by_cases hcrossed : Crossed toLowerCase before after
  · rcases calm_iff.mp hcalm with hunmoved | hdirected
    · have hoperator := hunmoved.operator
      rw [hcrossed.operatorBefore, hcrossed.operatorAfter] at hoperator
      cases hoperator
    · refine absurd ⟨hquiet, hon, hstill, hdirected.someBefore, hdirected.someAfter, hcrossed,
        fun control hdenial => ?_⟩ h
      have hsame := denials_eq_nil.mp hdirected.denials control hdenial
      constructor
      · intro hmem
        exact hcrossed.apart control hmem (hsame.mp hmem)
      · intro hmem
        exact hcrossed.apart control (hsame.mpr hmem) hmem
  · exact calm_satisfies hcalm hcrossed reading hmeets

/-- The verdict is sound except when an enforced policy's alternatives are
replaced by requirements that share none of them. -/
theorem sound_iff (toLowerCase : JsString → JsString) (before after : ConditionalAccessState) :
    Sound toLowerCase before after ↔ ¬ Replaced toLowerCase before after := by
  constructor
  · intro hsound hreplaced
    exact replaced_unsound hreplaced hsound
  · exact sound_of_not_replaced

/-- An enforced policy over one control. -/
def sampleState (operator : GrantOperator) (control : JsString) : ConditionalAccessState where
  state := .on
  grantOperator := operator
  grantControls := ⟨[control], 0⟩
  excludedUsers := ⟨[], 0⟩
  excludedGroups := ⟨[], 0⟩
  excludedRoles := ⟨[], 0⟩
  sessionControls := []
  unmodelledFingerprint := js "{}"

/-- Multi-factor authentication gives way to a compliant device, as a record. -/
theorem verdict_not_sound : ¬ ∀ before after, Sound JsString.lowerLatin before after := by
  intro hsound
  refine replaced_unsound ?_ (hsound (sampleState .or (js "mfa"))
    (sampleState .and (js "compliantDevice")))
  refine ⟨⟨?_, ?_, ?_, ?_, ?_, rfl⟩, rfl, rfl, ?_, ?_, ⟨rfl, rfl, ?_⟩, ?_⟩ <;> decide

/-! ## A weakening beside something unreadable -/

/-- An exclusion is new in a list that is readable on both sides. -/
def AddsExclusion (before after : ConditionalAccessState) : Prop :=
  ∃ lists ∈ [(before.excludedUsers, after.excludedUsers),
      (before.excludedGroups, after.excludedGroups), (before.excludedRoles, after.excludedRoles)],
    lists.1.unreadable = 0 ∧ lists.2.unreadable = 0 ∧
      ∃ entry ∈ lists.2.values, entry ∉ lists.1.values

def StopsEnforcing (before after : ConditionalAccessState) : Prop :=
  before.state = .on ∧ (after.state = .off ∨ after.state = .reportOnly)

/-- A proven weakening is urgent. -/
def Pages (toLowerCase : JsString → JsString) (before after : ConditionalAccessState) : Prop :=
  AddsExclusion before after ∨ StopsEnforcing before after →
    (classifyConditionalAccessChange toLowerCase (some before) (some after)).classification =
      .urgent

theorem added_of_addsExclusion (h : AddsExclusion before after) :
    0 < (addedEntries before.excludedRoles after.excludedRoles).length ∨
      0 < (addedEntries before.excludedGroups after.excludedGroups).length ∨
      0 < (addedEntries before.excludedUsers after.excludedUsers).length := by
  obtain ⟨lists, hlists, -, -, entry, hentry, hnew⟩ := h
  have hadded : 0 < (addedEntries lists.1 lists.2).length := by
    by_contra hnone
    exact hnew ((addedEntries_length _ _).mp hnone entry hentry)
  simp only [mem_cons, not_mem_nil, or_false] at hlists
  rcases hlists with rfl | rfl | rfl
  · exact .inr (.inr hadded)
  · exact .inr (.inl hadded)
  · exact .inl hadded

/-- What comes before the rules on the state and the exclusions. -/
theorem weakening_urgent_iff (h : AddsExclusion before after ∨ StopsEnforcing before after) :
    (classifyConditionalAccessChange toLowerCase (some before) (some after)).classification =
        .urgent ↔
      incomplete before after = [] ∧ ¬(before.state = .reportOnly ∧ after.state = .off) := by
  rw [← List.isEmpty_iff]
  by_cases hread : (incomplete before after).isEmpty = true
  · simp only [classifyConditionalAccessChange, hread, not_true_eq_false, if_false, true_and]
    split_ifs with hoff hreport hsilent hroles hgroups husers
    · simp [urgent, hoff.1]
    · simp [urgent, hreport.1]
    · simp [routine, hsilent]
    · exact ⟨fun _ => hsilent, fun _ => rfl⟩
    · exact ⟨fun _ => hsilent, fun _ => rfl⟩
    · exact ⟨fun _ => hsilent, fun _ => rfl⟩
    · exfalso
      rcases h with hadds | ⟨hon, hstops⟩
      · rcases added_of_addsExclusion hadds with hadded | hadded | hadded
        · exact hroles hadded
        · exact hgroups hadded
        · exact husers hadded
      · rcases hstops with hafter | hafter
        · exact hoff ⟨hon, hafter⟩
        · exact hreport ⟨hon, hafter⟩
  · rw [classifyConditionalAccessChange, if_pos hread]
    constructor
    · intro hurgent
      cases hurgent
    · exact fun hall => absurd hall.1 hread

/-- A proven weakening is urgent where every list is readable and the policy does not go from
reporting to off. -/
theorem pages_iff (toLowerCase : JsString → JsString) (before after : ConditionalAccessState) :
    Pages toLowerCase before after ↔
      (AddsExclusion before after ∨ StopsEnforcing before after →
        incomplete before after = [] ∧ ¬(before.state = .reportOnly ∧ after.state = .off)) := by
  constructor
  · exact fun h hweakens => (weakening_urgent_iff hweakens).mp (h hweakens)
  · exact fun h hweakens => (weakening_urgent_iff hweakens).mpr (h hweakens)

/-- A policy is disabled, and a user entry of it could not be read. -/
theorem unreadable_list_hides : ¬ ∀ before after, Pages JsString.lowerLatin before after := by
  intro hpages
  have hurgent := hpages (sampleState .or (js "mfa"))
    { sampleState .or (js "mfa") with state := .off, excludedUsers := ⟨[], 1⟩ }
    (.inr ⟨rfl, .inl rfl⟩)
  exact absurd hurgent (by decide)

end PolicyWeakening
