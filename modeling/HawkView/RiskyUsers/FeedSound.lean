import HawkView.Normalization.AuditConsistent
import HawkView.RiskyUsers.FeedCapability

/-!
# Whether the capabilities of the feeds are what the classifier does

Every outcome of a sign-in is reachable. An audit record without the name of a
reason is classified by its result code, and some codes have outcomes that the
table says this feed cannot produce.
-/

namespace FeedCapability

open Json Normalization

/-- The codes whose outcome the audit feed is said not to produce. -/
def gapCodes : List Int :=
  [50074, 500121, 53003, 530032, 53000, 53001, 50097, 53004, 50131, 50057, 50055, 50144]

/-- An audit record that failed, names no reason, and has one of these codes. -/
def CodeAlone (record : Json) : Prop :=
  Auth.isString (seen record (js "Operation")) (js "UserLoggedIn") = false ∧
    reasonName record = none ∧
    ∃ code, (readAuditErrorCode record).code = some code ∧ (code : Int) ∈ gapCodes

/-- The feed's record is not one that only a code speaks for. -/
def Answered (source : NormalizationSource) (record : Json) : Prop :=
  ¬(source = .m365AuditSts ∧ CodeAlone record)

/-- An outcome of the record is one that its feed can produce. -/
def Covered (source : NormalizationSource) (record : Json) : Prop :=
  ∀ outcome, (classify providerFacts source record).classification = .applies outcome →
    outcome ∈ reachableOutcomes source

theorem graph_reachable (outcome : EventOutcome) : outcome ∈ reachableOutcomes .graphSignIns := by
  cases outcome <;> decide

variable {outcome : EventOutcome}

theorem audit_reachable :
    outcome ∈ reachableOutcomes .m365AuditSts ↔ outcome ∉ auditGaps := by
  cases outcome <;> decide

variable {code : Int}

/-- What a code that applies says of the audit feed. -/
theorem gap_code (h : providerFacts.dispositionForCode code = .applies outcome) :
    outcome ∈ auditGaps ↔ code ∈ gapCodes := by
  rcases disposition_mem h with hunknown | ⟨entry, hentry, hdisposition⟩
  · cases hunknown
  · have hall : ∀ row ∈ RESULT_CODES, ∀ outcome ∈ allOutcomes,
        row.2.disposition = .applies outcome → (outcome ∈ auditGaps ↔ row.1 ∈ gapCodes) := by
      decide +kernel
    have houtcome : outcome ∈ allOutcomes := by cases outcome <;> decide
    exact hall _ hentry outcome houtcome hdisposition

theorem gap_applies (h : code ∈ gapCodes) :
    ∃ outcome, providerFacts.dispositionForCode code = .applies outcome ∧ outcome ∈ auditGaps := by
  have hall : ∀ code ∈ gapCodes, ∃ outcome ∈ auditGaps,
      providerFacts.dispositionForCode code = .applies outcome := by
    decide +kernel
  obtain ⟨outcome, hgap, happlies⟩ := hall code h
  exact ⟨outcome, happlies, hgap⟩

variable {name : JsString}

/-- The name of a reason never stands for one of the gaps. -/
theorem reason_reachable (h : providerFacts.auditReasonEntry name = some (.applies outcome)) :
    outcome ∉ auditGaps := by
  have hall : ∀ outcome ∈ auditGaps, .applies outcome ∉ AUDIT_REASON_NAMES.map Prod.snd := by
    decide +kernel
  exact fun hgap => hall outcome hgap (auditReason_mem h)

theorem completed_reachable : EventOutcome.passwordAcceptedCompleted ∉ auditGaps := by decide

variable {record : Json}

/-- Without one, a record that failed has the outcome of its code. -/
theorem unnamed_outcome (unnamed : reasonName record = none)
    (failed : Auth.isString (seen record (js "Operation")) (js "UserLoggedIn") = false) :
    (classifyAuditRecord providerFacts record).1 = .applies outcome ↔
      ∃ code, (readAuditErrorCode record).code = some code ∧ 1 < code ∧
        providerFacts.dispositionForCode (code : Int) = .applies outcome := by
  simp only [classifyAuditRecord, unnamed, failed, Bool.false_eq_true, if_false]
  cases hcode : (readAuditErrorCode record).code with
  | none => simp
  | some code =>
    by_cases hone : code = 1
    · subst hone
      simp
    · have hne : ¬some code = some 1 := by simpa using hone
      rw [if_neg hne]
      cases code with
      | zero => simp
      | succ n =>
        have hlt : 1 < n + 1 := by omega
        simp [hlt]

theorem gapCodes_large {code : Nat} (h : (code : Int) ∈ gapCodes) : 1 < code := by
  have hall : ∀ code ∈ gapCodes, 1 < code := by decide
  have hlarge := hall _ h
  omega

theorem audit_covered (record : Json) :
    Covered .m365AuditSts record ↔ ¬CodeAlone record := by
  constructor
  · rintro hcovered ⟨hfailed, hunnamed, code, hcode, hgap⟩
    obtain ⟨outcome, happlies, hout⟩ := gap_applies hgap
    have hclassified : (classifyAuditRecord providerFacts record).1 = .applies outcome :=
      (unnamed_outcome hunnamed hfailed).mpr ⟨code, hcode, gapCodes_large hgap, happlies⟩
    exact audit_reachable.mp (hcovered outcome hclassified) hout
  · intro hanswered outcome hclassified
    have happlies : (classifyAuditRecord providerFacts record).1 = .applies outcome := hclassified
    rw [audit_reachable]
    cases hname : reasonName record with
    | some name => exact reason_reachable (named_agrees hname happlies).1
    | none =>
      cases hsucceeded : Auth.isString (seen record (js "Operation")) (js "UserLoggedIn") with
      | true =>
        rw [(unnamed_agrees hname happlies).1.mp hsucceeded]
        exact completed_reachable
      | false =>
        obtain ⟨code, hcode, _, hdisposition⟩ := (unnamed_outcome hname hsucceeded).mp happlies
        intro hgap
        exact hanswered ⟨hsucceeded, hname, code, hcode, (gap_code hdisposition).mp hgap⟩

theorem covered_iff (source : NormalizationSource) (record : Json) :
    Covered source record ↔ Answered source record := by
  cases source with
  | graphSignIns =>
    constructor
    · rintro - ⟨hsource, _⟩
      cases hsource
    · exact fun _ outcome _ => graph_reachable outcome
  | m365AuditSts =>
    rw [audit_covered, Answered]
    exact ⟨fun h hboth => h hboth.2, fun h halone => h ⟨rfl, halone⟩⟩

/-- The table holds for exactly the records that are not audit records with such a code alone, and
a rule that is replaced could not have read one of its outcomes from any other record. -/
theorem capability_sound (source : NormalizationSource) (record : Json) :
    (Covered source record ↔ Answered source record) ∧
    ∀ {Event : Type} (bound : FeedBoundDetector Event),
      unreachableRequirements bound (capabilityOf source) ≠ [] →
      (∀ events, (bindToFeed bound (capabilityOf source)).run events =
        some (.inapplicable (inertReason (capabilityOf source)
          (unreachableRequirements bound (capabilityOf source))))) ∧
      ∃ outcome ∈ bound.requires, ∀ record, Answered source record →
        (classify providerFacts source record).classification ≠ .applies outcome := by
  refine ⟨covered_iff source record, fun bound hmissing => ?_⟩
  constructor
  · intro events
    have hempty : (unreachableRequirements bound (capabilityOf source)).isEmpty = false := by
      simpa using hmissing
    simp only [bindToFeed, hempty, Bool.false_eq_true, if_false]
  · obtain ⟨outcome, houtcome⟩ := List.exists_mem_of_ne_nil _ hmissing
    obtain ⟨hrequired, hunreachable⟩ := List.mem_filter.mp houtcome
    refine ⟨outcome, hrequired, fun record hanswered happlies => ?_⟩
    have hreachable := (covered_iff source record).mpr hanswered outcome happlies
    simp only [capabilityOf, Bool.not_eq_true', List.contains_eq_mem, decide_eq_false_iff_not]
      at hunreachable
    exact hunreachable hreachable

/-- A failed sign-in whose record has a code and no reason. -/
def codeRecord : Json :=
  .object [(js "Operation", .string (js "UserLoginFailed")),
    (js "ErrorCode", .string (js "50074"))]

theorem codeRecord_uncovered :
    (classify providerFacts .m365AuditSts codeRecord).classification =
        .applies .passwordAcceptedChallengeNotPassed ∧
      .passwordAcceptedChallengeNotPassed ∉ reachableOutcomes .m365AuditSts ∧
      ¬Covered .m365AuditSts codeRecord := by
  have hclassified : (classify providerFacts .m365AuditSts codeRecord).classification =
      .applies .passwordAcceptedChallengeNotPassed := by
    decide +kernel
  have hgap : EventOutcome.passwordAcceptedChallengeNotPassed ∉
      reachableOutcomes .m365AuditSts := by decide
  exact ⟨hclassified, hgap, fun h => hgap (h _ hclassified)⟩

end FeedCapability
