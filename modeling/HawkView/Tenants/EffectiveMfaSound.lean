import HawkView.Lib.Requirement
import HawkView.Lib.Runs
import HawkView.Tenants.EffectiveMfa

/-!
# What an MFA status promises

A status that speaks of cover names a policy of the right state that takes the
subject in, does not take it out, and cannot be met without MFA. A policy that
only reports is counted even where it takes the subject out.
-/

namespace EffectiveMfa

open Requirement List

variable (p : Platform)

/-! ## What a policy says -/

/-- A guest selector takes the subject. -/
def SelectsGuest (raw : Option Json) (subject : EffectiveMfaSubject) : Prop :=
  externalSelectorMatches p raw subject = .known true

def Listed (policy : RecordLike) (name : String) (ids : List JsString) : Prop :=
  ∃ id ∈ selector p policy name, id ∈ ids

/-- The groups and roles of the subject are known where the policy asks for them. -/
structure Decided (policy : RecordLike) (subject : EffectiveMfaSubject) (evidence : MfaEvidence) :
    Prop where
  membership : selector p policy "includeGroups" ≠ [] ∨ selector p policy "excludeGroups" ≠ [] →
    evidence.membership.status = .fresh ∧ subject.transitiveGroupIds.isSome
  roles : selector p policy "includeRoles" ≠ [] ∨ selector p policy "excludeRoles" ≠ [] →
    evidence.roles.status = .fresh ∧ subject.activeRoleTemplateIds.isSome

/-- A policy's conditions take a subject in or out: by itself, a group, a role or as a guest. -/
def Selects (policy : RecordLike) (subject : EffectiveMfaSubject)
    (users groups roles guests : String) : Prop :=
  Listed p policy users [p.toLowerCase subject.id] ∨
  Listed p policy groups (selectorSet p (subject.transitiveGroupIds.getD [])) ∨
  Listed p policy roles (selectorSet p (subject.activeRoleTemplateIds.getD [])) ∨
  SelectsGuest p (prop (usersOf policy) guests) subject

def Targets (policy : RecordLike) (subject : EffectiveMfaSubject) : Prop :=
  Listed p policy "includeUsers" [js "all"] ∨
  Selects p policy subject "includeUsers" "includeGroups" "includeRoles"
    "includeGuestsOrExternalUsers"

def Excludes (policy : RecordLike) (subject : EffectiveMfaSubject) : Prop :=
  Selects p policy subject "excludeUsers" "excludeGroups" "excludeRoles"
    "excludeGuestsOrExternalUsers"

/-- A control that a sign-in can be asked for. A strength that was not found is `none`. -/
inductive Control
  | builtIn (name : JsString)
  | strength (collected : Option RecordLike)

def Control.IsMfa : Control → Prop
  | .builtIn name => name = js "mfa"
  | .strength none => False
  | .strength (some collected) => authenticationStrengthGuaranteesMfa p collected = true

def controls (policy : RecordLike) (strengths : List RecordLike) : Set Control :=
  {c | (∃ name ∈ builtInsOf p policy, c = .builtIn name) ∨
    ∃ ref, strengthRefOf policy = some ref ∧ c = .strength (resolve p strengths ref)}

def combineOf (operator : JsString) : Option Combine :=
  if operator = js "AND" then some .all else if operator = js "OR" then some .any else none

/-- The policy asks for something, and whatever meets it is MFA. -/
def RequiresMfa (policy : RecordLike) (strengths : List RecordLike) : Prop :=
  (controls p policy strengths).Nonempty ∧ ∃ combine,
    combineOf (operatorOf p policy) = some combine ∧
    Implies combine (controls p policy strengths) .any {c | c.IsMfa p}

/-- A policy that would cover the subject, in its state. -/
structure Covers (input : EffectiveMfaEvaluationInput) (state : PolicyState) (policy : RecordLike) :
    Prop where
  mem : ∃ items, input.policies = some (.array items) ∧ .object policy ∈ items
  state : policyState (prop policy "state") = state
  decided : Decided p policy input.subject input.evidence
  targets : Targets p policy input.subject
  notExcluded : ¬ Excludes p policy input.subject
  requiresMfa : RequiresMfa p policy (strengthsOf input.authenticationStrengths)

/-! ## What the code reads -/

variable {p}

variable {name : String}

theorem contains_iff_listed {policy : RecordLike} {id : JsString} :
    (selector p policy name).contains id = true ↔ Listed p policy name [id] := by
  simp only [Listed, contains_iff_mem, mem_singleton, exists_eq_right]

theorem any_iff_listed {policy : RecordLike} {ids : List JsString} :
    (selector p policy name).any ids.contains = true ↔ Listed p policy name ids := by
  simp only [Listed, List.any_eq_true, contains_iff_mem]

variable {policy : RecordLike} {subject : EffectiveMfaSubject} {evidence : MfaEvidence}

theorem unasked_iff {included excluded : List JsString} {state : MfaEvidenceState}
    {ids : Option (List JsString)} :
    ((!included.isEmpty || !excluded.isEmpty) && (!isFresh state || ids.isNone)) = false ↔
      (included ≠ [] ∨ excluded ≠ [] → state.status = .fresh ∧ ids.isSome) := by
  cases included <;> cases excluded <;> cases ids <;> simp [isFresh]

theorem decided_iff : Decided p policy subject evidence ↔
    membershipUnknown p policy subject evidence = false ∧
      rolesUnknown p policy subject evidence = false := by
  rw [membershipUnknown, rolesUnknown, unasked_iff, unasked_iff]
  exact ⟨fun h => ⟨h.membership, h.roles⟩, fun h => ⟨h.1, h.2⟩⟩

theorem selected_iff {users groups roles guests : String} {external : Bool}
    (h : externalSelectorMatches p (prop (usersOf policy) guests) subject = .known external) :
    selected p policy subject users groups roles external = true ↔
      Selects p policy subject users groups roles guests := by
  unfold selected Selects SelectsGuest
  rw [h]
  simp only [Bool.or_eq_true, contains_iff_listed, any_iff_listed, External.known.injEq]
  tauto

variable (policy subject evidence) in
/-- What a policy takes the subject for, when it is decided. -/
theorem target_spec (known : ∀ reason, targetEvaluation p policy subject evidence ≠
      .unknown reason) :
    Decided p policy subject evidence ∧
      (targetEvaluation p policy subject evidence = .excluded ↔ Excludes p policy subject) ∧
      (targetEvaluation p policy subject evidence = .matched ↔
        Targets p policy subject ∧ ¬ Excludes p policy subject) := by
  unfold targetEvaluation at known ⊢
  simp only at known ⊢
  split at known
  · exact absurd rfl (known _)
  rename_i hmembership
  split at known
  · exact absurd rfl (known _)
  rename_i hroles
  rw [if_neg hmembership, if_neg hroles]
  refine ⟨decided_iff.mpr ⟨Bool.eq_false_iff.mpr hmembership, Bool.eq_false_iff.mpr hroles⟩, ?_⟩
  split at known
  · rename_i externalInclude externalExclude hinclude hexclude
    have hexcluded : selected p policy subject "excludeUsers" "excludeGroups" "excludeRoles"
        externalExclude = true ↔ Excludes p policy subject := selected_iff hexclude
    have hincluded : ((selector p policy "includeUsers").contains (js "all") ||
        selected p policy subject "includeUsers" "includeGroups" "includeRoles"
          externalInclude) = true ↔ Targets p policy subject := by
      rw [Bool.or_eq_true, contains_iff_listed, selected_iff hinclude]
      rfl
    by_cases hexcludes : Excludes p policy subject
    · rw [if_pos (hexcluded.mpr hexcludes)]
      simp [hexcludes]
    · rw [if_neg (mt hexcluded.mp hexcludes)]
      by_cases htargets : Targets p policy subject
      · rw [if_pos (hincluded.mpr htargets)]
        simp [hexcludes, htargets]
      · rw [if_neg (mt hincluded.mp htargets)]
        simp [hexcludes, htargets]
  · exact absurd rfl (known _)

/-! ## Grant controls -/

theorem grantOf_guaranteed {builtIns : List JsString} {operator : JsString}
    {strengthRef strengthMfa : Bool}
    (h : grantOf builtIns operator strengthRef strengthMfa = .guaranteed) :
    (js "mfa" ∈ builtIns ∨ strengthMfa = true) ∧
      (operator = js "AND" ∨
        operator = js "OR" ∧ builtIns.length + (if strengthRef then 1 else 0) ≤ 1) := by
  unfold grantOf at h
  generalize (if strengthRef = true then 1 else 0) = references at h ⊢
  split at h
  · cases h
  rename_i hmfa
  split at h
  · cases h
  rename_i halternative
  split at h
  · cases h
  rename_i hoperator
  simp only [Bool.not_eq_true', Bool.not_eq_false, Bool.or_eq_true, contains_iff_mem] at hmfa
  simp only [Bool.and_eq_true, beq_iff_eq, decide_eq_true_eq, not_and, Nat.not_lt] at halternative
  simp only [Bool.and_eq_true, bne_iff_ne, ne_eq, not_and_or, not_not] at hoperator
  refine ⟨hmfa, ?_⟩
  rcases hoperator with hand | hor
  · exact .inl hand
  · exact .inr ⟨hor, halternative hor⟩

variable {strengths : List RecordLike}

/-- One control that is MFA is enough in a conjunction, and where it stands alone. -/
theorem requiresMfa_of_control {c : Control} (mem : c ∈ controls p policy strengths)
    (isMfa : c.IsMfa p)
    (operator : operatorOf p policy = js "AND" ∨ operatorOf p policy = js "OR" ∧
      ∀ d ∈ controls p policy strengths, d = c) :
    RequiresMfa p policy strengths := by
  refine ⟨⟨c, mem⟩, ?_⟩
  rcases operator with hand | ⟨hor, halone⟩
  · refine ⟨.all, by rw [combineOf, if_pos hand], ?_⟩
    rw [all_implies_any]
    exact ⟨c, isMfa, mem⟩
  · refine ⟨.any, ?_, ?_⟩
    · rw [combineOf, if_neg (by rw [hor]; decide), if_pos hor]
    · rw [any_implies_any]
      intro d hd
      rw [halone d hd]
      exact isMfa

theorem grant_sound (h : grantEvaluation p policy strengths evidence = .guaranteed) :
    RequiresMfa p policy strengths := by
  unfold grantEvaluation at h
  simp only at h
  cases href : strengthRefOf policy with
  | none =>
    rw [href] at h
    obtain ⟨hmfa, hoperator⟩ := grantOf_guaranteed h
    have hmem : js "mfa" ∈ builtInsOf p policy := by
      rcases hmfa with hmem | hfalse
      · exact hmem
      · cases hfalse
    apply requiresMfa_of_control (c := .builtIn (js "mfa")) (.inl ⟨_, hmem, rfl⟩) rfl
    refine hoperator.imp id fun ⟨hor, hlength⟩ => ⟨hor, ?_⟩
    rintro d (⟨name, hname, rfl⟩ | ⟨ref, hsome, _⟩)
    · obtain ⟨other, hother⟩ : ∃ other, builtInsOf p policy = [other] := by
        have hpos := length_pos_of_mem hmem
        simp only [Bool.false_eq_true, if_false] at hlength
        exact List.length_eq_one_iff.mp (by omega)
      rw [hother, mem_singleton] at hname hmem
      rw [hname, hmem]
    · rw [href] at hsome
      cases hsome
  | some ref =>
    rw [href] at h
    simp only at h
    split at h
    · cases h
    cases hresolve : resolve p strengths ref with
    | none =>
      rw [hresolve] at h
      cases h
    | some strength =>
      rw [hresolve] at h
      simp only at h
      split at h
      · cases h
      rename_i hguarantees
      obtain ⟨_, hoperator⟩ := grantOf_guaranteed h
      have hmem : Control.strength (some strength) ∈ controls p policy strengths :=
        .inr ⟨ref, href, by rw [hresolve]⟩
      apply requiresMfa_of_control hmem (by simpa [Control.IsMfa] using hguarantees)
      refine hoperator.imp id fun ⟨hor, hlength⟩ => ⟨hor, ?_⟩
      rintro d (⟨name, hname, _⟩ | ⟨other, hsome, rfl⟩)
      · have hpos := length_pos_of_mem hname
        simp only [if_true] at hlength
        omega
      · rw [href, Option.some.injEq] at hsome
        rw [← hsome, hresolve]

/-! ## One policy -/

variable {input : EffectiveMfaEvaluationInput} {raw : Json}

/-- The policy of this input takes the subject in, and its grant is MFA. -/
def AppliesMfa (p : Platform) (input : EffectiveMfaEvaluationInput) (target : Target)
    (policy : RecordLike) : Prop :=
  targetEvaluation p policy input.subject input.evidence = target ∧
    grantEvaluation p policy (strengthsOf input.authenticationStrengths) input.evidence =
      .guaranteed

/-- What was collected for a policy does not say what it does for the subject. -/
def Undecided (p : Platform) (input : EffectiveMfaEvaluationInput) (raw : Json) : Prop :=
  ∀ policy, raw = .object policy →
    (∃ reason, targetEvaluation p policy input.subject input.evidence = .unknown reason) ∨
    targetEvaluation p policy input.subject input.evidence = .matched ∧
      ∃ reason, grantEvaluation p policy (strengthsOf input.authenticationStrengths)
        input.evidence = .unknown reason

theorem assess_unknown_iff :
    (∃ reason, assessOf p input raw = .unknown reason) ↔ Undecided p input raw := by
  unfold assessOf assess Undecided
  cases raw with
  | object policy =>
    simp only [record, Json.object.injEq, forall_eq']
    cases targetEvaluation p policy input.subject input.evidence with
    | unknown reason => simp
    | excluded =>
      simp only
      split <;> simp
    | matched =>
      cases grantEvaluation p policy (strengthsOf input.authenticationStrengths) input.evidence <;>
        simp
    | notTargeted => simp
  | _ => simp [record]

variable {e : EffectiveMfaPolicyEvidence}

theorem assess_excluded_iff :
    assessOf p input raw = .excluded e ↔ ∃ policy, raw = .object policy ∧
      AppliesMfa p input .excluded policy ∧
      e = evidenceOf policy .notEnforced [js "effective exclusion"] := by
  unfold assessOf assess AppliesMfa
  cases raw with
  | object policy =>
    simp only [record, Json.object.injEq, exists_eq_left']
    cases targetEvaluation p policy input.subject input.evidence with
    | unknown reason => simp
    | excluded =>
      simp only
      split
      · rename_i hgrant
        simp [hgrant, eq_comm]
      · rename_i hgrant
        simp [hgrant]
    | matched =>
      cases grantEvaluation p policy (strengthsOf input.authenticationStrengths) input.evidence <;>
        simp
    | notTargeted => simp
  | _ => simp [record]

theorem assess_qualifies_iff :
    assessOf p input raw = .qualifies e ↔ ∃ policy, raw = .object policy ∧
      AppliesMfa p input .matched policy ∧
      e = evidenceOf policy (outcomeOf (policyState (prop policy "state"))
        (materialConditions p policy)) (materialConditions p policy) := by
  unfold assessOf assess AppliesMfa
  cases raw with
  | object policy =>
    simp only [record, Json.object.injEq, exists_eq_left']
    cases targetEvaluation p policy input.subject input.evidence with
    | unknown reason => simp
    | excluded =>
      simp only
      split <;> simp
    | matched =>
      cases grantEvaluation p policy (strengthsOf input.authenticationStrengths) input.evidence <;>
        simp [eq_comm]
    | notTargeted => simp
  | _ => simp [record]

variable {items : List Json}

/-- A policy that applies covers the subject in its state. -/
theorem AppliesMfa.covers (h : AppliesMfa p input .matched policy)
    (usable : usablePolicies input = some items) (mem : .object policy ∈ items) :
    Covers p input (policyState (prop policy "state")) policy := by
  obtain ⟨htarget, hgrant⟩ := h
  obtain ⟨hdecided, _, hmatched⟩ := target_spec policy input.subject input.evidence
    (p := p) (by simp [htarget])
  obtain ⟨htargets, hexcludes⟩ := hmatched.mp htarget
  exact {
    mem := by
      unfold usablePolicies at usable
      split at usable
      · rename_i collected hpolicies
        split at usable
        · cases usable
          exact ⟨_, hpolicies, mem⟩
        · cases usable
      · cases usable
    state := rfl
    decided := hdecided
    targets := htargets
    notExcluded := hexcludes
    requiresMfa := grant_sound hgrant }

/-! ## All policies -/

theorem add_spec (t : Tally) (a : Assessment) (e : EffectiveMfaPolicyEvidence) :
    (e ∈ (t.add a).qualifying ↔ e ∈ t.qualifying ∨ a = .excluded e ∨ a = .qualifies e) ∧
      (0 < (t.add a).unknownReasons.size ↔
        0 < t.unknownReasons.size ∨ ∃ reason, a = .unknown reason) := by
  cases a with
  | unknown reason =>
    have hmem : reason ∈ (t.unknownReasons.add reason).elements := JsSet.mem_add.mpr (.inl rfl)
    have hpos := length_pos_of_mem hmem
    rw [JsSet.length_elements] at hpos
    simp [Tally.add, hpos]
  | excluded f => simp [Tally.add, eq_comm]
  | qualifies f => simp [Tally.add, eq_comm]
  | nothing => simp [Tally.add]

theorem mem_tally :
    e ∈ (tally p input items).qualifying ↔
      ∃ raw ∈ items, assessOf p input raw = .excluded e ∨ assessOf p input raw = .qualifies e := by
  apply Runs.foldl_carries (P := fun as (t : Tally) => e ∈ t.qualifying ↔
    ∃ raw ∈ as, assessOf p input raw = .excluded e ∨ assessOf p input raw = .qualifies e)
  · simp
  · intro as raw t ih
    rw [(add_spec t _ e).1, ih]
    simp [or_and_right, exists_or]

theorem tally_unknown :
    0 < (tally p input items).unknownReasons.size ↔ ∃ raw ∈ items, Undecided p input raw := by
  apply Runs.foldl_carries (P := fun as (t : Tally) => 0 < t.unknownReasons.size ↔
    ∃ raw ∈ as, Undecided p input raw)
  · simp [JsSet.size, JsMap.empty]
  · intro as raw t ih
    rw [(add_spec t _ (evidenceOf [] .universal [])).2, ih, assess_unknown_iff]
    simp [or_and_right, exists_or]

theorem mem_inNameOrder {policies : List EffectiveMfaPolicyEvidence} :
    e ∈ inNameOrder p policies ↔ e ∈ policies :=
  (perm_insertionSort _ policies).mem_iff

section Status

variable {qualifying : List EffectiveMfaPolicyEvidence} {unknownReasons nonCoverageReasons :
  JsSet JsString} {evaluatedAt : JsString} {observedAt : Option JsString}

/-- What each status says of the entries that count. -/
theorem project_status :
    ((project qualifying unknownReasons nonCoverageReasons evaluatedAt observedAt).status =
        .coveredByConditionalAccess ↔
      ∃ e ∈ qualifying, e.state = .enabled ∧ e.outcome = .universal) ∧
    ((project qualifying unknownReasons nonCoverageReasons evaluatedAt observedAt).status =
        .conditionallyCovered →
      ∃ e ∈ qualifying, e.state = .enabled ∧ e.outcome = .conditional) ∧
    ((project qualifying unknownReasons nonCoverageReasons evaluatedAt observedAt).status =
        .reportOnly ↔
      (∀ e ∈ qualifying, e.state = .enabled → e.outcome = .notEnforced) ∧
        unknownReasons.size = 0 ∧ ∃ e ∈ qualifying, e.state = .reportOnly) := by
  have houtcome : ∀ e : EffectiveMfaPolicyEvidence, e.outcome = .notEnforced ↔
      e.outcome ≠ .universal ∧ e.outcome ≠ .conditional := by
    intro e
    cases e.outcome <;> simp
  have hnone : ∀ q : EffectiveMfaPolicyEvidence → Bool, ¬ (!(qualifying.filter q).isEmpty) = true ↔
      ∀ e ∈ qualifying, q e = false := by
    intro q
    simp [filter_eq_nil_iff]
  have hsome : ∀ q : EffectiveMfaPolicyEvidence → Bool, (!(qualifying.filter q).isEmpty) = true ↔
      ∃ e ∈ qualifying, q e = true := by
    intro q
    simp [filter_eq_nil_iff]
  unfold project
  simp only
  split
  · rename_i huniversal
    rw [hsome] at huniversal
    obtain ⟨e, he, hq⟩ := huniversal
    rw [decide_eq_true_eq] at hq
    refine ⟨⟨fun _ => ⟨e, he, hq⟩, fun _ => rfl⟩, by simp, by simp, ?_⟩
    rintro ⟨hall, _⟩
    have := hall e he hq.1
    rw [hq.2] at this
    cases this
  rename_i huniversal
  rw [hnone] at huniversal
  have hno : ¬ ∃ e ∈ qualifying, e.state = .enabled ∧ e.outcome = .universal := by
    rintro ⟨e, he, hq⟩
    exact absurd hq (of_decide_eq_false (huniversal e he))
  split
  · rename_i hunknown
    refine ⟨by simp [hno], by simp, by simp, ?_⟩
    rintro ⟨_, hsize, _⟩
    omega
  rename_i hunknown
  split
  · rename_i hconditional
    rw [hsome] at hconditional
    obtain ⟨e, he, hq⟩ := hconditional
    rw [decide_eq_true_eq] at hq
    refine ⟨by simp [hno], fun _ => ⟨e, he, hq⟩, by simp, ?_⟩
    rintro ⟨hall, _⟩
    have := hall e he hq.1
    rw [hq.2] at this
    cases this
  rename_i hconditional
  rw [hnone] at hconditional
  have hall : ∀ e ∈ qualifying, e.state = .enabled → e.outcome = .notEnforced := by
    intro e he henabled
    have h1 := of_decide_eq_false (huniversal e he)
    have h2 := of_decide_eq_false (hconditional e he)
    rw [houtcome]
    exact ⟨fun h => h1 ⟨henabled, h⟩, fun h => h2 ⟨henabled, h⟩⟩
  split
  · rename_i hreport
    rw [hsome] at hreport
    obtain ⟨e, he, hq⟩ := hreport
    refine ⟨by simp [hno], by simp, ?_⟩
    exact ⟨fun _ => ⟨hall, by omega, e, he, of_decide_eq_true hq⟩, fun _ => rfl⟩
  · rename_i hreport
    rw [hnone] at hreport
    refine ⟨by simp [hno], by simp, by simp, ?_⟩
    rintro ⟨_, _, e, he, hstate⟩
    exact absurd hstate (of_decide_eq_false (hreport e he))

end Status

/-! ## The promise -/

/-- Each status that speaks of cover has a policy that bears it out. -/
structure Sound (p : Platform) (input : EffectiveMfaEvaluationInput) : Prop where
  covered : (evaluateEffectiveMfaEnforcement p input).status = .coveredByConditionalAccess →
    ∃ policy, Covers p input .enabled policy ∧ materialConditions p policy = []
  conditional : (evaluateEffectiveMfaEnforcement p input).status = .conditionallyCovered →
    ∃ policy, Covers p input .enabled policy
  reportOnly : (evaluateEffectiveMfaEnforcement p input).status = .reportOnly →
    ∃ policy, Covers p input .reportOnly policy
  allExclude : (∀ items policy, input.policies = some (.array items) → .object policy ∈ items →
      policyState (prop policy "state") = .reportOnly → Excludes p policy input.subject) →
    (evaluateEffectiveMfaEnforcement p input).status ≠ .reportOnly

/-- All is decided, no enabled policy applies, and a report-only policy that requires MFA takes
the subject out. -/
structure OnlyReports (p : Platform) (input : EffectiveMfaEvaluationInput) (items : List Json) :
    Prop where
  usable : usablePolicies input = some items
  decided : ∀ raw ∈ items, ¬ Undecided p input raw
  noneEnabled : ∀ policy, .object policy ∈ items → policyState (prop policy "state") = .enabled →
    ¬ AppliesMfa p input .matched policy
  excluding : ∃ policy, .object policy ∈ items ∧
    policyState (prop policy "state") = .reportOnly ∧ AppliesMfa p input .excluded policy

theorem enforced_of_applies {policy : RecordLike} (mem : .object policy ∈ items)
    (enabled : policyState (prop policy "state") = .enabled)
    (applies : AppliesMfa p input .matched policy) :
    ∃ e ∈ inNameOrder p (tally p input items).qualifying,
      e.state = .enabled ∧ e.outcome ≠ .notEnforced := by
  refine ⟨_, mem_inNameOrder.mpr (mem_tally.mpr ⟨_, mem, .inr (assess_qualifies_iff.mpr
    ⟨policy, rfl, applies, rfl⟩)⟩), enabled, ?_⟩
  simp only [evidenceOf, enabled, outcomeOf, reduceCtorEq, if_false]
  split <;> simp

section Evaluate

variable {items : List Json} (usable : usablePolicies input = some items)
include usable

theorem status_eq : (evaluateEffectiveMfaEnforcement p input).status =
    (project (inNameOrder p (tally p input items).qualifying) (tally p input items).unknownReasons
      (tally p input items).nonCoverageReasons (IsoTime.toISOString input.now)
      input.evidence.policies.observedAt).status := by
  unfold evaluateEffectiveMfaEnforcement
  rw [usable]

/-- An entry that is enforced comes from a policy that applies. -/
theorem covers_of_enforced {e : EffectiveMfaPolicyEvidence}
    (mem : e ∈ inNameOrder p (tally p input items).qualifying)
    (enforced : e.outcome ≠ .notEnforced) :
    ∃ policy, Covers p input e.state policy ∧ e.outcome = outcomeOf e.state e.materialConditions ∧
      e.materialConditions = materialConditions p policy := by
  obtain ⟨raw, hraw, hexcluded | hqualifies⟩ := mem_tally.mp (mem_inNameOrder.mp mem)
  · obtain ⟨policy, _, _, rfl⟩ := assess_excluded_iff.mp hexcluded
    exact absurd rfl enforced
  · obtain ⟨policy, rfl, happlies, rfl⟩ := assess_qualifies_iff.mp hqualifies
    exact ⟨policy, happlies.covers usable hraw, rfl, rfl⟩

/-- When only reports are left that take the subject out, the status is still `reportOnly`. -/
theorem reportOnly_of_onlyReports (h : OnlyReports p input items) :
    (evaluateEffectiveMfaEnforcement p input).status = .reportOnly := by
  rw [status_eq usable, project_status.2.2]
  refine ⟨?_, ?_, ?_⟩
  · intro e he henabled
    obtain ⟨raw, hraw, hexcluded | hqualifies⟩ := mem_tally.mp (mem_inNameOrder.mp he)
    · obtain ⟨policy, _, _, rfl⟩ := assess_excluded_iff.mp hexcluded
      rfl
    · obtain ⟨policy, rfl, happlies, rfl⟩ := assess_qualifies_iff.mp hqualifies
      exact absurd happlies (h.noneEnabled policy hraw henabled)
  · have hunknown := mt tally_unknown.mp (not_exists.mpr fun raw => not_and.mpr (h.decided raw))
    omega
  · obtain ⟨policy, hmem, hstate, happlies⟩ := h.excluding
    exact ⟨_, mem_inNameOrder.mpr (mem_tally.mpr ⟨_, hmem, .inl (assess_excluded_iff.mpr
      ⟨policy, rfl, happlies, rfl⟩)⟩), hstate⟩

/-- A report is about a policy that applies, unless only reports are left. -/
theorem covers_of_reportOnly
    (h : (evaluateEffectiveMfaEnforcement p input).status = .reportOnly) :
    (∃ policy, Covers p input .reportOnly policy) ∨ OnlyReports p input items := by
  rw [status_eq usable, project_status.2.2] at h
  obtain ⟨hnone, hsize, e, he, hstate⟩ := h
  obtain ⟨raw, hraw, hexcluded | hqualifies⟩ := mem_tally.mp (mem_inNameOrder.mp he)
  · obtain ⟨policy, rfl, happlies, rfl⟩ := assess_excluded_iff.mp hexcluded
    right
    refine ⟨usable, ?_, ?_, policy, hraw, hstate, happlies⟩
    · intro raw hraw hundecided
      have := tally_unknown.mpr ⟨raw, hraw, hundecided⟩
      omega
    · intro other hother henabled hother_applies
      obtain ⟨f, hf, hfstate, hfoutcome⟩ :=
        enforced_of_applies hother henabled hother_applies
      exact hfoutcome (hnone f hf hfstate)
  · obtain ⟨policy, rfl, happlies, rfl⟩ := assess_qualifies_iff.mp hqualifies
    left
    have hcovers := happlies.covers usable hraw
    rw [show policyState (prop policy "state") = .reportOnly from hstate] at hcovers
    exact ⟨policy, hcovers⟩

end Evaluate

theorem unusable_status (h : usablePolicies input = none) :
    (evaluateEffectiveMfaEnforcement p input).status = .unknown := by
  unfold evaluateEffectiveMfaEnforcement
  rw [h]

/-- The statuses are sound unless only a policy that takes the subject out reports. -/
theorem evaluateEffectiveMfaEnforcement_sound_iff (p : Platform)
    (input : EffectiveMfaEvaluationInput) :
    Sound p input ↔
      ∀ items, OnlyReports p input items → ∃ policy, Covers p input .reportOnly policy := by
  constructor
  · intro h items honly
    exact h.reportOnly (reportOnly_of_onlyReports honly.usable honly)
  intro h
  cases hitems : usablePolicies input with
  | none =>
    have hstatus := unusable_status (p := p) hitems
    constructor <;> simp [hstatus]
  | some items =>
    have hreport : (evaluateEffectiveMfaEnforcement p input).status = .reportOnly →
        ∃ policy, Covers p input .reportOnly policy := by
      intro hstatus
      rcases covers_of_reportOnly hitems hstatus with hcovers | honly
      · exact hcovers
      · exact h items honly
    refine ⟨?_, ?_, hreport, ?_⟩
    · intro hstatus
      rw [status_eq hitems, project_status.1] at hstatus
      obtain ⟨e, he, henabled, houtcome⟩ := hstatus
      obtain ⟨policy, hcovers, houtcomeOf, hconditions⟩ :=
        covers_of_enforced hitems he (by simp [houtcome])
      rw [henabled] at hcovers houtcomeOf
      refine ⟨policy, hcovers, ?_⟩
      rw [houtcome, outcomeOf, if_neg (by decide)] at houtcomeOf
      split at houtcomeOf
      · rename_i hempty
        rw [← hconditions]
        exact List.isEmpty_iff.mp hempty
      · cases houtcomeOf
    · intro hstatus
      rw [status_eq hitems] at hstatus
      obtain ⟨e, he, henabled, houtcome⟩ := project_status.2.1 hstatus
      obtain ⟨policy, hcovers, _⟩ := covers_of_enforced hitems he (by simp [houtcome])
      rw [henabled] at hcovers
      exact ⟨policy, hcovers⟩
    · intro hall hstatus
      obtain ⟨policy, hcovers⟩ := hreport hstatus
      obtain ⟨collected, hcollected, hmem⟩ := hcovers.mem
      exact hcovers.notExcluded (hall collected policy hcollected hmem hcovers.state)

section Sample

/-- A report-only policy that asks all users but one for MFA. -/
def reportPolicy : Json := .object [
  (js "state", .string (js "enabledForReportingButNotEnforced")),
  (js "conditions", .object [(js "users", .object [
    (js "includeUsers", .array [.string (js "All")]),
    (js "excludeUsers", .array [.string (js "user-1")])])]),
  (js "grantControls", .object [
    (js "operator", .string (js "OR")),
    (js "builtInControls", .array [.string (js "mfa")])])]

def excludedSubject : EffectiveMfaEvaluationInput where
  subject := ⟨js "user-1", .member, none, some [], some []⟩
  policies := some (.array [reportPolicy])
  authenticationStrengths := some (.array [])
  evidence := ⟨⟨.fresh, none⟩, ⟨.fresh, none⟩, ⟨.fresh, none⟩, ⟨.fresh, none⟩⟩
  now := 1787745900000

def latinPlatform : Platform := ⟨JsString.lowerLatin, JsString.upperLatin, fun _ _ => 0⟩

/-- The subject that the only report-only policy takes out is reported as one it would cover. -/
theorem excluded_subject_reported : ¬ Sound latinPlatform excludedSubject := by
  intro h
  have hstatus : (evaluateEffectiveMfaEnforcement latinPlatform excludedSubject).status =
      .reportOnly := by decide +kernel
  refine h.allExclude ?_ hstatus
  intro items policy hitems hmem _
  cases hitems
  rw [mem_singleton] at hmem
  cases hmem
  exact .inl (contains_iff_listed.mp (by decide +kernel))

end Sample

end EffectiveMfa
