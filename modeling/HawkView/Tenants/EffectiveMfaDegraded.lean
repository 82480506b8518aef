import HawkView.Tenants.EffectiveMfaSound

/-!
# Losing evidence

Where evidence is lost, a policy is read as before or not at all. The status then
stays or becomes unknown, unless the only report was of a policy that takes the
subject out: such a policy is left out, not counted as undecided.
-/

namespace EffectiveMfa

open List

variable {p : Platform} {before after : EffectiveMfaEvaluationInput}

/-! ## Degraded copies -/

/-- Of each piece of evidence, the copy has what was there or none that is fresh. -/
structure Degrades (before after : EffectiveMfaEvaluationInput) : Prop where
  id : after.subject.id = before.subject.id
  userType : after.subject.userType = before.subject.userType
  externalTenantId : after.subject.externalTenantId = before.subject.externalTenantId
  policies : (after.policies = before.policies ∧
      after.evidence.policies = before.evidence.policies) ∨
    after.evidence.policies.status ≠ .fresh ∨ after.policies = none
  membership : (after.subject.transitiveGroupIds = before.subject.transitiveGroupIds ∧
      after.evidence.membership = before.evidence.membership) ∨
    after.evidence.membership.status ≠ .fresh ∨ after.subject.transitiveGroupIds = none
  roles : (after.subject.activeRoleTemplateIds = before.subject.activeRoleTemplateIds ∧
      after.evidence.roles = before.evidence.roles) ∨
    after.evidence.roles.status ≠ .fresh ∨ after.subject.activeRoleTemplateIds = none
  strengths : (after.authenticationStrengths = before.authenticationStrengths ∧
      after.evidence.authenticationStrengths = before.evidence.authenticationStrengths) ∨
    after.evidence.authenticationStrengths.status ≠ .fresh ∨ after.authenticationStrengths = none

/-- What the policy does not ask for does not matter. -/
theorem unasked_degraded {included excluded : List JsString} {state state' : MfaEvidenceState}
    {ids ids' : Option (List JsString)}
    (piece : ids' = ids ∧ state' = state ∨ state'.status ≠ .fresh ∨ ids' = none)
    (decided : ((!included.isEmpty || !excluded.isEmpty) &&
      (!isFresh state' || ids'.isNone)) = false) :
    ((!included.isEmpty || !excluded.isEmpty) && (!isFresh state || ids.isNone)) = false ∧
    ∀ list ∈ [included, excluded], list.any (selectorSet p (ids'.getD [])).contains =
      list.any (selectorSet p (ids.getD [])).contains := by
  rcases piece with ⟨rfl, rfl⟩ | hlost
  · exact ⟨decided, fun _ _ => rfl⟩
  rw [unasked_iff] at decided ⊢
  have hunasked : ∀ list ∈ [included, excluded], list = [] := by
    intro list hlist
    by_contra hasked
    obtain ⟨hfresh, hsome⟩ := decided (by
      simp only [mem_cons, not_mem_nil, or_false] at hlist
      rcases hlist with rfl | rfl
      · exact .inl hasked
      · exact .inr hasked)
    rcases hlost with hstale | hnone
    · exact hstale hfresh
    · rw [hnone] at hsome
      cases hsome
  constructor
  · rintro (hasked | hasked)
    · exact absurd (hunasked included (by simp)) hasked
    · exact absurd (hunasked excluded (by simp)) hasked
  · intro list hlist
    rw [hunasked list hlist, any_nil, any_nil]

section Policy

variable {policy : RecordLike} (degrades : Degrades before after)
include degrades

theorem external_degraded (raw : Option Json) :
    externalSelectorMatches p raw after.subject = externalSelectorMatches p raw before.subject := by
  unfold externalSelectorMatches
  rw [degrades.userType, degrades.externalTenantId]

/-- The targeting of a policy is as before, or it is unknown. -/
theorem target_degraded :
    targetEvaluation p policy after.subject after.evidence =
        targetEvaluation p policy before.subject before.evidence ∨
      ∃ reason, targetEvaluation p policy after.subject after.evidence = .unknown reason := by
  cases hmembership : membershipUnknown p policy after.subject after.evidence with
  | true =>
    right
    rw [targetEvaluation, if_pos hmembership]
    exact ⟨_, rfl⟩
  | false =>
    cases hroles : rolesUnknown p policy after.subject after.evidence with
    | true =>
      right
      rw [targetEvaluation, if_neg (by simp [hmembership]), if_pos hroles]
      exact ⟨_, rfl⟩
    | false =>
      left
      rw [membershipUnknown] at hmembership
      rw [rolesUnknown] at hroles
      obtain ⟨hmembership', hgroups⟩ := unasked_degraded (p := p) degrades.membership hmembership
      obtain ⟨hroles', hlists⟩ := unasked_degraded (p := p) degrades.roles hroles
      simp only [targetEvaluation, selected, membershipUnknown, rolesUnknown, hmembership,
        hmembership', hroles, hroles', external_degraded degrades, degrades.id,
        hgroups _ mem_cons_self, hgroups _ (mem_cons_of_mem _ mem_cons_self),
        hlists _ mem_cons_self, hlists _ (mem_cons_of_mem _ mem_cons_self),
        Bool.false_eq_true, if_false]
      rfl

/-- The grant of a policy is as before, or it is unknown. -/
theorem grant_degraded :
    grantEvaluation p policy (strengthsOf after.authenticationStrengths) after.evidence =
        grantEvaluation p policy (strengthsOf before.authenticationStrengths) before.evidence ∨
      ∃ reason, grantEvaluation p policy (strengthsOf after.authenticationStrengths)
        after.evidence = .unknown reason := by
  unfold grantEvaluation
  cases strengthRefOf policy with
  | none => exact .inl rfl
  | some ref =>
    simp only
    rcases degrades.strengths with ⟨hsame, hstate⟩ | hlost
    · rw [hsame, hstate]
      exact .inl rfl
    · right
      cases hfresh : isFresh after.evidence.authenticationStrengths with
      | false => exact ⟨_, if_pos (by simp)⟩
      | true =>
        rcases hlost with hstale | hnone
        · exact absurd (of_decide_eq_true hfresh) hstale
        · rw [if_neg (by simp), hnone]
          exact ⟨_, rfl⟩

end Policy

/-! ## What is left of the policies -/

section Policies

variable {raw : Json} {items : List Json} (degrades : Degrades before after)
include degrades

variable {policy : RecordLike}

theorem applies_degraded {target : Target} (known : ∀ reason, target ≠ .unknown reason)
    (h : AppliesMfa p after target policy) :
    AppliesMfa p before target policy := by
  obtain ⟨htarget, hgrant⟩ := h
  constructor
  · rcases @target_degraded p _ _ policy degrades with hsame | ⟨reason, hunknown⟩
    · rw [← hsame, htarget]
    · exact absurd (htarget.symm.trans hunknown) (known reason)
  · rcases @grant_degraded p _ _ policy degrades with hsame | ⟨reason, hunknown⟩
    · rw [← hsame, hgrant]
    · rw [hgrant] at hunknown
      cases hunknown

/-- A decided policy applies as before where it is not one that takes the subject out. -/
theorem applies_decided (decided : ¬Undecided p after (.object policy)) :
    AppliesMfa p after .matched policy ↔ AppliesMfa p before .matched policy := by
  refine ⟨applies_degraded degrades (by simp), fun ⟨htarget, hgrant⟩ => ?_⟩
  have htarget' : targetEvaluation p policy after.subject after.evidence = .matched := by
    rcases @target_degraded p _ _ policy degrades with hsame | hunknown
    · rw [hsame, htarget]
    · refine absurd (fun policy' h => ?_) decided
      cases h
      exact .inl hunknown
  refine ⟨htarget', ?_⟩
  rcases @grant_degraded p _ _ policy degrades with hsame | hunknown
  · rw [hsame, hgrant]
  · refine absurd (fun policy' h => ?_) decided
    cases h
    exact .inr ⟨htarget', hunknown⟩

theorem undecided_degraded (h : Undecided p before raw) : Undecided p after raw := by
  intro policy hraw
  rcases @target_degraded p _ _ policy degrades with htarget | hunknown
  · rw [htarget]
    rcases h policy hraw with hunknown | ⟨hmatched, reason, hgrant⟩
    · exact .inl hunknown
    · right
      refine ⟨hmatched, ?_⟩
      rcases @grant_degraded p _ _ policy degrades with hsame | hunknown
      · exact ⟨reason, hsame.trans hgrant⟩
      · exact hunknown
  · exact .inl hunknown

theorem usable_degraded (h : usablePolicies after = some items) :
    usablePolicies before = some items := by
  rcases degrades.policies with ⟨hpolicies, hstate⟩ | hstale | hnone
  · unfold usablePolicies at h ⊢
    rwa [hpolicies, hstate] at h
  · have hfresh : isFresh after.evidence.policies = false := decide_eq_false hstale
    unfold usablePolicies at h
    rw [hfresh] at h
    split at h <;> cases h
  · unfold usablePolicies at h
    rw [hnone] at h
    cases h

end Policies

/-! ## The decision -/

section Project

variable {qualifying : List EffectiveMfaPolicyEvidence} {unknownReasons nonCoverageReasons :
  JsSet JsString} {evaluatedAt : JsString} {observedAt : Option JsString}

/-- The entries that make each status. -/
theorem project_decides :
    (project qualifying unknownReasons nonCoverageReasons evaluatedAt observedAt).status =
      if ∃ e ∈ qualifying, e.state = .enabled ∧ e.outcome = .universal then
        .coveredByConditionalAccess
      else if 0 < unknownReasons.size then .unknown
      else if ∃ e ∈ qualifying, e.state = .enabled ∧ e.outcome = .conditional then
        .conditionallyCovered
      else if ∃ e ∈ qualifying, e.state = .reportOnly then .reportOnly
      else .notCovered := by
  have hsome : ∀ q : EffectiveMfaPolicyEvidence → Prop, [DecidablePred q] →
      ((!(qualifying.filter fun e => decide (q e)).isEmpty) = true ↔ ∃ e ∈ qualifying, q e) := by
    intro q _
    simp [filter_eq_nil_iff]
  unfold project
  simp only [hsome, gt_iff_lt]
  split_ifs <;> rfl

end Project

theorem allows_iff (p : Platform) (input : EffectiveMfaEvaluationInput) :
    (evaluateEffectiveMfaEnforcement p input).riskReductionAllowed = true ↔
      (evaluateEffectiveMfaEnforcement p input).status = .coveredByConditionalAccess := by
  unfold evaluateEffectiveMfaEnforcement
  cases usablePolicies input with
  | none => simp
  | some items =>
    unfold project
    simp only
    split_ifs <;> simp

/-- Some policy with guaranteed MFA applies in this state, with these conditions. -/
def SomeApplies (p : Platform) (input : EffectiveMfaEvaluationInput) (items : List Json)
    (state : PolicyState) (universal : Prop) : Prop :=
  ∃ policy, .object policy ∈ items ∧ policyState (prop policy "state") = state ∧
    (materialConditions p policy = [] ↔ universal) ∧ AppliesMfa p input .matched policy

/-- Some policy that only reports has guaranteed MFA and this effect on the subject. -/
def SomeReports (p : Platform) (input : EffectiveMfaEvaluationInput) (items : List Json)
    (target : Target) : Prop :=
  ∃ policy, .object policy ∈ items ∧ policyState (prop policy "state") = .reportOnly ∧
    AppliesMfa p input target policy

section Status

variable {input : EffectiveMfaEvaluationInput} {items : List Json}

theorem enforced_iff {outcome : Outcome} (enforced : outcome ≠ .notEnforced) :
    (∃ e ∈ inNameOrder p (tally p input items).qualifying, e.state = .enabled ∧
        e.outcome = outcome) ↔ SomeApplies p input items .enabled (outcome = .universal) := by
  constructor
  · rintro ⟨e, he, hstate, houtcome⟩
    obtain ⟨raw, hraw, hexcluded | hqualifies⟩ := mem_tally.mp (mem_inNameOrder.mp he)
    · obtain ⟨policy, -, -, rfl⟩ := assess_excluded_iff.mp hexcluded
      exact absurd houtcome.symm enforced
    · obtain ⟨policy, rfl, happlies, rfl⟩ := assess_qualifies_iff.mp hqualifies
      refine ⟨policy, hraw, hstate, ?_, happlies⟩
      simp only [evidenceOf] at hstate houtcome
      rw [← houtcome, hstate, outcomeOf, if_neg (by decide)]
      cases materialConditions p policy <;> simp
  · rintro ⟨policy, hmem, hstate, huniversal, happlies⟩
    refine ⟨_, mem_inNameOrder.mpr (mem_tally.mpr ⟨_, hmem, .inr (assess_qualifies_iff.mpr
      ⟨policy, rfl, happlies, rfl⟩)⟩), hstate, ?_⟩
    simp only [evidenceOf, hstate, outcomeOf, reduceCtorEq, if_false, List.isEmpty_iff, huniversal]
    cases outcome with
    | universal => simp
    | conditional => simp
    | notEnforced => exact absurd rfl enforced

theorem reports_iff :
    (∃ e ∈ inNameOrder p (tally p input items).qualifying, e.state = .reportOnly) ↔
      SomeReports p input items .matched ∨ SomeReports p input items .excluded := by
  constructor
  · rintro ⟨e, he, hstate⟩
    obtain ⟨raw, hraw, hexcluded | hqualifies⟩ := mem_tally.mp (mem_inNameOrder.mp he)
    · obtain ⟨policy, rfl, happlies, rfl⟩ := assess_excluded_iff.mp hexcluded
      exact .inr ⟨policy, hraw, hstate, happlies⟩
    · obtain ⟨policy, rfl, happlies, rfl⟩ := assess_qualifies_iff.mp hqualifies
      exact .inl ⟨policy, hraw, hstate, happlies⟩
  · rintro (⟨policy, hmem, hstate, happlies⟩ | ⟨policy, hmem, hstate, happlies⟩)
    · exact ⟨_, mem_inNameOrder.mpr (mem_tally.mpr ⟨_, hmem, .inr (assess_qualifies_iff.mpr
        ⟨policy, rfl, happlies, rfl⟩)⟩), hstate⟩
    · exact ⟨_, mem_inNameOrder.mpr (mem_tally.mpr ⟨_, hmem, .inl (assess_excluded_iff.mpr
        ⟨policy, rfl, happlies, rfl⟩)⟩), hstate⟩

open Classical in
theorem status_decides (usable : usablePolicies input = some items) :
    (evaluateEffectiveMfaEnforcement p input).status =
      if SomeApplies p input items .enabled True then .coveredByConditionalAccess
      else if ∃ raw ∈ items, Undecided p input raw then .unknown
      else if SomeApplies p input items .enabled False then .conditionallyCovered
      else if SomeReports p input items .matched ∨ SomeReports p input items .excluded then
        .reportOnly
      else .notCovered := by
  have huniversal := @enforced_iff p input items .universal (by simp)
  have hconditional := @enforced_iff p input items .conditional (by simp)
  simp only [reduceCtorEq] at huniversal hconditional
  rw [status_eq usable, project_decides]
  simp only [huniversal, hconditional, tally_unknown, reports_iff]

end Status

/-! ## The law -/

/-- The status stays or becomes unknown, and no reduction of risk is newly allowed. -/
def NoBetter (before after : EffectiveMfaEnforcementProjection) : Prop :=
  (after.status = before.status ∨ after.status = .unknown) ∧
    (after.riskReductionAllowed = true → before.riskReductionAllowed = true)

/-- The only report is of policies that take the subject out, and none of them is left. -/
structure LosesReport (p : Platform) (before after : EffectiveMfaEvaluationInput)
    (items : List Json) : Prop where
  usable : usablePolicies after = some items
  decided : ∀ raw ∈ items, ¬Undecided p after raw
  noneEnabled : ∀ universal, ¬SomeApplies p before items .enabled universal
  noneReports : ¬SomeReports p before items .matched
  excluding : SomeReports p before items .excluded
  lost : ¬SomeReports p after items .excluded

/-- A degraded copy has the status or none, unless it loses a report of policies that take the
subject out. -/
theorem evaluateEffectiveMfaEnforcement_degraded_iff (p : Platform)
    (degrades : Degrades before after) :
    NoBetter (evaluateEffectiveMfaEnforcement p before)
        (evaluateEffectiveMfaEnforcement p after) ↔
      ∀ items, ¬LosesReport p before after items := by
  cases hafter : usablePolicies after with
  | none =>
    have hstatus := unusable_status (p := p) hafter
    constructor
    · intro _ items hloses
      cases hafter.symm.trans hloses.usable
    · intro _
      refine ⟨.inr hstatus, fun hallows => ?_⟩
      rw [allows_iff, hstatus] at hallows
      cases hallows
  | some items =>
    have hbefore := usable_degraded degrades hafter
    have huniversal : SomeApplies p after items .enabled True →
        SomeApplies p before items .enabled True := by
      rintro ⟨policy, hmem, hstate, hconditions, happlies⟩
      exact ⟨policy, hmem, hstate, hconditions, applies_degraded degrades (by simp) happlies⟩
    rw [NoBetter, allows_iff, allows_iff, status_decides hafter, status_decides hbefore]
    by_cases hundecided : ∃ raw ∈ items, Undecided p after raw
    · constructor
      · intro _ others hloses
        obtain ⟨raw, hraw, hunknown⟩ := hundecided
        rw [Option.some.inj (hafter.symm.trans hloses.usable)] at hraw
        exact absurd hunknown (hloses.decided raw hraw)
      · intro _
        by_cases hcovered : SomeApplies p after items .enabled True
        · simp [hcovered, huniversal hcovered]
        · simp [hcovered, hundecided]
    · have hdecided : ∀ raw ∈ items, ¬Undecided p after raw := fun raw hraw h =>
        hundecided ⟨raw, hraw, h⟩
      have hundecided' : ¬∃ raw ∈ items, Undecided p before raw := fun ⟨raw, hraw, h⟩ =>
        hdecided raw hraw (undecided_degraded degrades h)
      have hsame : ∀ policy, .object policy ∈ items →
          (AppliesMfa p after .matched policy ↔ AppliesMfa p before .matched policy) :=
        fun policy hmem => applies_decided degrades (hdecided _ hmem)
      have happlies : ∀ universal, SomeApplies p after items .enabled universal ↔
          SomeApplies p before items .enabled universal := by
        intro universal
        constructor <;> rintro ⟨policy, hmem, hstate, hconditions, h⟩
        · exact ⟨policy, hmem, hstate, hconditions, (hsame policy hmem).mp h⟩
        · exact ⟨policy, hmem, hstate, hconditions, (hsame policy hmem).mpr h⟩
      have hmatched : SomeReports p after items .matched ↔
          SomeReports p before items .matched := by
        constructor <;> rintro ⟨policy, hmem, hstate, h⟩
        · exact ⟨policy, hmem, hstate, (hsame policy hmem).mp h⟩
        · exact ⟨policy, hmem, hstate, (hsame policy hmem).mpr h⟩
      have hexcluded : SomeReports p after items .excluded →
          SomeReports p before items .excluded := by
        rintro ⟨policy, hmem, hstate, h⟩
        exact ⟨policy, hmem, hstate, applies_degraded degrades (by simp) h⟩
      rw [propext (happlies True), propext (happlies False), propext hmatched, if_neg hundecided,
        if_neg hundecided']
      by_cases hloses : LosesReport p before after items
      · have hrest := hloses.noneEnabled
        simp only [if_neg (hrest True), if_neg (hrest False), hloses.noneReports, hloses.excluding,
          hloses.lost, or_false, or_true, if_true, if_false]
        constructor
        · simp
        · exact fun h => absurd hloses (h items)
      · constructor
        · intro _ others hothers
          rw [← Option.some.inj (hafter.symm.trans hothers.usable)] at hothers
          exact hloses hothers
        · intro _
          refine ⟨.inl ?_, fun h => ?_⟩
          · by_cases hcovered : SomeApplies p before items .enabled True
            · simp [hcovered]
            by_cases hconditional : SomeApplies p before items .enabled False
            · simp [hconditional]
            by_cases hreports : SomeReports p before items .matched
            · simp [hreports]
            by_cases hleft : SomeReports p after items .excluded
            · simp [hleft, hexcluded hleft]
            have hnone : ¬SomeReports p before items .excluded := by
              intro hexcluding
              refine hloses ⟨hafter, hdecided, fun universal h => ?_, hreports, hexcluding, hleft⟩
              by_cases huniv : universal
              · exact hcovered (by rwa [eq_true huniv] at h)
              · exact hconditional (by rwa [eq_false huniv] at h)
            simp [hreports, hleft, hnone]
          · by_cases hcovered : SomeApplies p before items .enabled True
            · simp [hcovered]
            · exfalso
              revert h
              simp only [if_neg hcovered]
              split_ifs <;> simp

section Sample

/-- A report-only policy that asks all users but one for an authentication strength. -/
def strengthPolicy : RecordLike := [
  (js "state", .string (js "enabledForReportingButNotEnforced")),
  (js "conditions", .object [(js "users", .object [
    (js "includeUsers", .array [.string (js "All")]),
    (js "excludeUsers", .array [.string (js "user-1")])])]),
  (js "grantControls", .object [
    (js "operator", .string (js "OR")),
    (js "authenticationStrength", .object [(js "id", .string (js "s"))])])]

/-- All of the evidence is fresh, but for what is said of the strengths. -/
def strengthSubject (strengths : EvidenceStatus) : EffectiveMfaEvaluationInput :=
  { excludedSubject with
    policies := some (.array [.object strengthPolicy])
    authenticationStrengths := some (.array [.object
      [(js "id", .string (js "s")), (js "isMfa", .bool true)]])
    evidence := { excludedSubject.evidence with authenticationStrengths := ⟨strengths, none⟩ } }

theorem staleStrengths (status : EvidenceStatus) (stale : status ≠ .fresh) :
    Degrades (strengthSubject .fresh) (strengthSubject status) where
  id := rfl
  userType := rfl
  externalTenantId := rfl
  policies := .inl ⟨rfl, rfl⟩
  membership := .inl ⟨rfl, rfl⟩
  roles := .inl ⟨rfl, rfl⟩
  strengths := .inr (.inl stale)

/-- Without the strengths, the policy that takes the subject out is not counted. -/
theorem stale_strengths_drop_report :
    ¬ ∀ before after, Degrades before after →
      NoBetter (evaluateEffectiveMfaEnforcement latinPlatform before)
        (evaluateEffectiveMfaEnforcement latinPlatform after) := by
  intro h
  obtain ⟨hstatus, -⟩ := h _ _ (staleStrengths .stale (by decide))
  exact absurd hstatus (by decide +kernel)

def staleGroups : EffectiveMfaEvaluationInput :=
  { excludedSubject with
    evidence := { excludedSubject.evidence with membership := ⟨.stale, none⟩ } }

/-- Groups that nothing asks for may be lost. -/
theorem evaluateEffectiveMfaEnforcement_degraded_groups :
    NoBetter (evaluateEffectiveMfaEnforcement latinPlatform excludedSubject)
      (evaluateEffectiveMfaEnforcement latinPlatform staleGroups) := by
  have hdegrades : Degrades excludedSubject staleGroups :=
    ⟨rfl, rfl, rfl, .inl ⟨rfl, rfl⟩, .inr (.inl (by decide)), .inl ⟨rfl, rfl⟩, .inl ⟨rfl, rfl⟩⟩
  apply (evaluateEffectiveMfaEnforcement_degraded_iff latinPlatform hdegrades).mpr
  intro items hloses
  obtain ⟨policy, hmem, hstate, -⟩ := hloses.excluding
  have hitems : items = [reportPolicy] := Option.some.inj hloses.usable.symm
  rw [hitems, mem_singleton] at hmem
  refine hloses.lost ⟨policy, hitems ▸ mem_singleton.mpr hmem, hstate, ?_⟩
  cases hmem
  exact ⟨by decide +kernel, by decide +kernel⟩

end Sample

end EffectiveMfa
