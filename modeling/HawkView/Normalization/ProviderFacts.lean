import HawkView.Normalization.Normalize

/-!
# What is known of the provider

The codes of sign-ins, the meanings of their descriptions, the names of the
reasons of audit records, and the details of risk.
-/

namespace Normalization

open Json List

/-- `toLowerCase`, where the result may hold basic Latin letters: the Kelvin sign and the capital I
with a dot above are written with them too. -/
def lowerCase (s : JsString) : JsString :=
  s.flatMap fun c =>
    if c = 0x212A then [0x6B]
    else if c = 0x130 then [0x69, 0x307]
    else JsString.lowerLatin [c]

/-! ## Result codes -/

def subjectNotProvisioned : EventClassification := .doesNotApply .subjectNotProvisionedForResource

def remediated : EventClassification := .doesNotApply .sessionInvalidatedByRemediation

def uncited : EventClassification := .notYetCited .exclusionNotYetCited

/-- `RESULT_CODES`. -/
def RESULT_CODES : List (Int × ResultCodeEntry) :=
  [(0, ⟨.applies .passwordAcceptedCompleted, [], none⟩),
    (50126, ⟨.applies .passwordRejected, [], none⟩),
    (50074, ⟨.applies .passwordAcceptedChallengeNotPassed, [], none⟩),
    (50076, ⟨.applies .passwordAcceptedChallengeIssued, [], none⟩),
    (500121, ⟨.applies .passwordAcceptedChallengeNotPassed, [], none⟩),
    (50072, ⟨.applies .passwordAcceptedRegistrationRequired, [], none⟩),
    (50079, ⟨.applies .passwordAcceptedRegistrationRequired, [], none⟩),
    (53003, ⟨.applies .blockedByControl, [], none⟩),
    (530032, ⟨.applies .blockedByControl, [], none⟩),
    (53000, ⟨.applies .blockedByControl, [], none⟩),
    (53001, ⟨.applies .blockedByControl, [], none⟩),
    (50097, ⟨.applies .blockedByControl, [], none⟩),
    (16003, ⟨subjectNotProvisioned, [], none⟩),
    (50020, ⟨subjectNotProvisioned, [], none⟩),
    (53004, ⟨.applies .blockedByControl, [], some .risk⟩),
    (50131, ⟨.applies .blockedByControl,
      [js "SUSPICIOUS_ACTIVITY_BLOCK", js "HIGH_CONFIDENCE_RISK_BLOCK"], none⟩),
    (50057, ⟨.applies .disabledAccountAttempt, [], none⟩),
    (50011, ⟨.doesNotApply .applicationConfigurationError, [], none⟩),
    (70044, ⟨.doesNotApply .signInFrequencyPolicyExpiry, [], none⟩),
    (50140, ⟨.doesNotApply .keepMeSignedIn, [], none⟩),
    (50058, ⟨.doesNotApply .insufficientSessionForSilentSignIn, [], none⟩),
    (50158, ⟨.unknown .ambiguousByProviderStatement, [], none⟩),
    (50055, ⟨.applies .credentialConfirmedValid, [], none⟩),
    (50144, ⟨.applies .credentialConfirmedValid, [], none⟩),
    (50056, ⟨uncited, [], none⟩),
    (50133, ⟨remediated, [], none⟩),
    (50173, ⟨remediated, [], none⟩),
    (65001, ⟨uncited, [], none⟩),
    (90094, ⟨uncited, [], none⟩),
    (50053, ⟨.unknown .ambiguousFailureReasonText,
      [js "SMART_LOCKOUT", js "MALICIOUS_IP_BLOCK", js "HIGH_CONFIDENCE_RISK_BLOCK"], none⟩),
    (1, ⟨.unknown .resultCodeNotAnAzureCode, [], none⟩)]

/-! ## Descriptions -/

structure MeaningPattern extends FailureReasonPattern where
  meaning : JsString
  fragments : List JsString

/-- `FAILURE_REASON_MEANINGS`. -/
def FAILURE_REASON_MEANINGS : List MeaningPattern :=
  [⟨⟨.applies .blockedByControl, some .risk⟩, js "SUSPICIOUS_ACTIVITY_BLOCK",
      [js "suspicious activity"]⟩,
    ⟨⟨.applies .blockedByControl, some .risk⟩, js "HIGH_CONFIDENCE_RISK_BLOCK",
      [js "high confidence of risk"]⟩,
    ⟨⟨.applies .blockedByControl, some .risk⟩, js "MALICIOUS_IP_BLOCK",
      [js "malicious activity"]⟩,
    ⟨⟨.applies .lockedOutAfterRepeatedFailures, none⟩, js "SMART_LOCKOUT",
      [js "too many times with an incorrect user id or password"]⟩]

/-- Every run of white space becomes one blank. -/
def collapseSpaces : JsString → JsString
  | [] => []
  | [c] => if JsString.whitespace c then [0x20] else [c]
  | c :: d :: rest =>
    if JsString.whitespace c && JsString.whitespace d then collapseSpaces (d :: rest)
    else (if JsString.whitespace c then 0x20 else c) :: collapseSpaces (d :: rest)

def normalizeFailureReason (value : JsString) : JsString :=
  let straight := (lowerCase value).map fun c => if c ∈ [0x2018, 0x2019, 0x2BC] then 0x27 else c
  (collapseSpaces straight).trim

/-- The one meaning of those allowed that a description has. -/
def failureReasonMeaning (value : JsString) (allowed : List JsString) :
    Option FailureReasonPattern :=
  if value = [] ∨ 2048 < value.length then none
  else
    let text := normalizeFailureReason value
    let candidates := FAILURE_REASON_MEANINGS.filter fun pattern => allowed.contains pattern.meaning
    match candidates.filter fun pattern => pattern.fragments.any text.includes with
    | [matched] => some matched.toFailureReasonPattern
    | _ => none

/-! ## Audit records -/

/-- `AUDIT_REASON_NAMES`. -/
def AUDIT_REASON_NAMES : List (JsString × EventClassification) :=
  [(js "InvalidUserNameOrPassword", .applies .passwordRejected),
    (js "IdsLocked", .applies .lockedOutAfterRepeatedFailures),
    (js "UserStrongAuthClientAuthNRequiredInterrupt", .applies .passwordAcceptedChallengeIssued),
    (js "UserStrongAuthEnrollmentRequiredInterrupt",
      .applies .passwordAcceptedRegistrationRequired),
    (js "UnclassifiedAuthenticationError", .unknown .providerDeclaredUnclassified),
    (js "UserUnauthorized", uncited),
    (js "DelegationDoesNotExist", uncited),
    (js "InvalidReplyTo", .doesNotApply .applicationConfigurationError),
    (js "SsoArtifactRevoked", remediated),
    (js "MisconfiguredApplicationWithGraphErrorMessage", uncited),
    (js "SsoUserAccountNotFoundInResourceTenant", uncited),
    (js "PasswordResetRegistrationRequiredInterrupt", uncited)]

def auditReasonEntry (name : JsString) : Option EventClassification :=
  (AUDIT_REASON_NAMES.find? fun entry => lowerCase entry.1 == lowerCase name.trim).map Prod.snd

/-! ## Details of risk -/

/-- A detail, the state that it is seen with, and the verdict that it carries. -/
structure RiskDetailEntry where
  value : JsString
  riskState : JsString
  verdict : Option MicrosoftVerdict

/-- `RISK_DETAIL_VALUES`. -/
def RISK_DETAIL_VALUES : List RiskDetailEntry :=
  [⟨js "none", js "none", none⟩,
    ⟨js "userPassedMFADrivenByRiskBasedPolicy", js "remediated", some .remediated⟩,
    ⟨js "aiConfirmedSigninSafe", js "dismissed", some .safe⟩]

def riskStateText : Option Shape → JsString
  | some (.string s) => lowerCase s.trim
  | _ => []

def riskDetailVerdict (detail state : Option Shape) : Option MicrosoftVerdict :=
  match detail with
  | none => none
  | some .null => none
  | some (.string s) =>
    if s = [] then none
    else if 256 < s.length then some .unrecognized
    else
      match RISK_DETAIL_VALUES.find? fun entry => lowerCase entry.value == lowerCase s.trim with
      | none => some .unrecognized
      | some entry =>
        match entry.verdict with
        | none => none
        | some verdict =>
          if riskStateText state ≠ lowerCase entry.riskState then some .unrecognized
          else some verdict
  | _ => some .unrecognized

/-- The tables of the provider. -/
def providerFacts : ProviderFacts where
  resultCodeEntry code := RESULT_CODES.lookup code
  failureReasonMeaning := failureReasonMeaning
  auditReasonEntry := auditReasonEntry
  riskDetailVerdict := riskDetailVerdict

variable {disposition : EventClassification}

theorem disposition_mem {code : Int} (h : providerFacts.dispositionForCode code = disposition) :
    disposition = .unknown .unrecognizedErrorCode ∨
      ∃ entry, (code, entry) ∈ RESULT_CODES ∧ entry.disposition = disposition := by
  rw [ProviderFacts.dispositionForCode] at h
  cases hentry : providerFacts.resultCodeEntry code with
  | none =>
    rw [hentry] at h
    exact .inl h.symm
  | some entry =>
    rw [hentry] at h
    obtain ⟨l, l', hcodes, _⟩ := List.lookup_eq_some_iff.mp
      (show RESULT_CODES.lookup code = some entry from hentry)
    refine .inr ⟨entry, ?_, h⟩
    rw [hcodes]
    exact mem_append_right _ mem_cons_self

theorem auditReason_mem {name : JsString}
    (h : providerFacts.auditReasonEntry name = some disposition) :
    disposition ∈ AUDIT_REASON_NAMES.map Prod.snd := by
  obtain ⟨entry, hentry, rfl⟩ := Option.map_eq_some_iff.mp h
  exact mem_map_of_mem (mem_of_find?_eq_some hentry)

end Normalization
