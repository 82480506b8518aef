import HawkView.Alerts.AlertKeys
import HawkView.Alerts.DecisionSound

/-!
# The incident of an email

The context of an incident email is looked up by what its message id says. The
id is taken apart again, part by part, and refused when it is not one that the
pipeline mints for a subject that can be shown.
-/

namespace EmailIncidentScope

open IncidentKey FindingPipeline FindingDecision DecisionSound AlertKeys SendTables List Option

structure Scope where
  organizationId : JsString
  customerTenantId : JsString
  incidentKey : JsString
  alertTypeId : JsString
  subjectRole : JsString
  subjectId : JsString
  deriving DecidableEq, Repr

/-- `/^(0|[1-9][0-9]{0,2})$/`. -/
def wholeNumber : JsString → Bool
  | [] => false
  | c :: digits =>
    (c == 0x30 && digits.isEmpty) ||
    (decide (0x31 ≤ c ∧ c ≤ 0x39) && decide (digits.length ≤ 2) &&
      digits.all fun d => decide (0x30 ≤ d ∧ d ≤ 0x39))

/-- `Number(digits)`. -/
def number (digits : JsString) : Nat :=
  digits.foldl (fun n d => 10 * n + (d.toNat - 0x30)) 0

/-- One round of the loop: the next part, and the text after it. -/
def readPart (text : JsString) : Option (JsString × JsString) :=
  match splitFirst 0x3A text with
  | none => none
  | some (digits, rest) =>
    if 3 < digits.length then none
    else if wholeNumber digits = false then none
    else
      let length := number digits
      if length < 1 ∨ 150 < length ∨ rest.length < length then none
      else some (rest.take length, rest.drop length)

def readParts : Nat → JsString → Option (List JsString × JsString)
  | 0, text => some ([], text)
  | n + 1, text => do
    let (part, text) ← readPart text
    let (parts, rest) ← readParts n text
    return (part :: parts, rest)

/-- `/[\u0000-\u001f\u007f]/`. -/
def control (c : UInt16) : Bool := decide (c ≤ 0x1F) || c == 0x7F

/-- Whether the catalogue has a security type of this id. -/
def securityType (alertTypeId : JsString) : Bool :=
  alertCatalog.any fun type => type.id.text == alertTypeId && category type.id == .security

def parseEmailIncidentScope (messageId : JsString) : Option Scope :=
  if 500 < messageId.length ∨ messageId.startsWith (js "incident/") = false then none
  else
    match splitFirst 0x7C (messageId.drop 9) with
    | none => none
    | some (organizationId, incidentKey) =>
      if isUuid organizationId = false ∨ 400 < incidentKey.length then none
      else
        match readParts 6 incidentKey with
        | some ([version, alertTypeId, organization, customerTenantId, subjectRole, subjectId],
            rest) =>
          if rest ≠ [] ∨
              joinUnambiguously [version, alertTypeId, organization, customerTenantId,
                subjectRole, subjectId] ≠ incidentKey ∨
              version ≠ js "hawkview-alert-incident/v1" ∨ organization ≠ organizationId ∨
              isUuid customerTenantId = false ∨ subjectRole ≠ js "ACCOUNT" ∨
              securityType alertTypeId = false ∨ 128 < subjectId.length ∨
              subjectId.any control = true then none
          else some
            { organizationId := organizationId
              customerTenantId := customerTenantId
              incidentKey := incidentKey
              alertTypeId := alertTypeId
              subjectRole := subjectRole
              subjectId := subjectId }
        | _ => none

/-! ## Reading what was joined -/

/-- A length as a part may have it. -/
structure ReadsBack (n : Nat) : Prop where
  short : (JsString.decimal n).length ≤ 3
  whole : wholeNumber (JsString.decimal n) = true
  value : number (JsString.decimal n) = n

variable {n : Nat}

theorem readsBack (h : n ≤ 150) : ReadsBack n := by
  have hall : ∀ n < 151, (JsString.decimal n).length ≤ 3 ∧
      wholeNumber (JsString.decimal n) = true ∧ number (JsString.decimal n) = n := by
    decide +kernel
  obtain ⟨hshort, hwhole, hvalue⟩ := hall n (by omega)
  exact ⟨hshort, hwhole, hvalue⟩

variable {part : JsString}

theorem readPart_append (hpos : 1 ≤ part.length) (hle : part.length ≤ 150) (rest : JsString) :
    readPart (JsString.decimal part.length ++ 0x3A :: (part ++ rest)) = some (part, rest) := by
  have hback := readsBack hle
  have hcut := splitFirst_append (JsString.colon_not_in_decimal part.length) (part ++ rest)
  have hshort : ¬ 3 < (JsString.decimal part.length).length := by
    have := hback.short
    omega
  have hfits : ¬ (part.length < 1 ∨ 150 < part.length ∨ (part ++ rest).length < part.length) := by
    rw [length_append]
    omega
  simp only [readPart, hcut, if_neg hshort, hback.whole, hback.value, if_neg hfits,
    take_left, drop_left]
  rfl

variable {parts : List JsString}

theorem readParts_join (fit : ∀ part ∈ parts, 1 ≤ part.length ∧ part.length ≤ 150) :
    readParts parts.length (joinUnambiguously parts) = some (parts, []) := by
  induction parts with
  | nil => rfl
  | cons part parts ih =>
    have hpart := fit part (by simp)
    have hrest := ih fun p hp => fit p (by simp [hp])
    have hjoin : joinUnambiguously (part :: parts) =
        JsString.decimal part.length ++ 0x3A :: (part ++ joinUnambiguously parts) := by
      simp [joinUnambiguously]
    rw [length_cons, readParts, hjoin, readPart_append hpart.1 hpart.2]
    simp only [bind_eq_bind, bind_some, hrest]
    rfl

/-! ## What is minted -/

/-- The components that the message id of a finding is minted from. -/
def scopeOf (finding : FindingRow) (alertTypeId : AlertTypeId) : Scope where
  organizationId := finding.organizationId.text
  customerTenantId := finding.customerTenantId.text
  incidentKey := incidentKeyOf finding alertTypeId
  alertTypeId := alertTypeId.text
  subjectRole := SubjectRole.account.text
  subjectId := finding.subjectId

/-- A subject that an email can name. -/
structure Nameable (subjectId : JsString) : Prop where
  nonempty : 1 ≤ subjectId.length
  bounded : subjectId.length ≤ 128
  printed : subjectId.any control = false

def mintedId (finding : FindingRow) (alertTypeId : AlertTypeId) : MessageId :=
  messageIdFor finding.organizationId (incidentKeyOf finding alertTypeId)

/-- The six parts of the incident key of a finding. -/
def keyParts (f : FindingRow) (t : AlertTypeId) : List JsString :=
  [js "hawkview-alert-incident/v1", t.text, f.organizationId.text, f.customerTenantId.text,
    js "ACCOUNT", f.subjectId]

theorem incidentKeyOf_parts (f : FindingRow) (t : AlertTypeId) :
    incidentKeyOf f t = joinUnambiguously (keyParts f t) := rfl

theorem type_length (t : AlertTypeId) : 1 ≤ t.text.length ∧ t.text.length ≤ 36 := by
  cases t <;> decide

theorem decimal_short (h : n ≤ 150) : (JsString.decimal n).length ≤ 3 :=
  (readsBack h).short

variable {f : FindingRow} {t : AlertTypeId}

/-- Keys of subjects of at most 128 units stay far below the bounds on a message id. -/
theorem key_short (h : f.subjectId.length ≤ 128) :
    (incidentKeyOf f t).length ≤ 400 := by
  have htype := type_length t
  have horganization := f.organizationId.length_text
  have htenant := f.customerTenantId.length_text
  have hversion : (js "hawkview-alert-incident/v1").length = 26 := by decide
  have hrole : (js "ACCOUNT").length = 7 := by decide
  have h₁ := decimal_short (n := t.text.length) (by omega)
  have h₂ := decimal_short (n := f.subjectId.length) (by omega)
  have h₃ := decimal_short (n := 26) (by omega)
  have h₄ := decimal_short (n := 36) (by omega)
  have h₅ := decimal_short (n := 7) (by omega)
  simp only [incidentKeyOf_parts, keyParts, joinUnambiguously, flatMap_cons,
    flatMap_nil, length_append, length_cons, length_nil, horganization,
    htenant, hversion, hrole]
  omega

theorem readParts_key (hpos : 1 ≤ f.subjectId.length) (hle : f.subjectId.length ≤ 128) :
    readParts 6 (incidentKeyOf f t) = some (keyParts f t, []) := by
  have hfit : ∀ part ∈ keyParts f t, 1 ≤ part.length ∧ part.length ≤ 150 := by
    have htype := type_length t
    have horganization := f.organizationId.length_text
    have htenant := f.customerTenantId.length_text
    simp only [keyParts, forall_mem_cons, not_mem_nil, false_implies, implies_true,
      and_true]
    refine ⟨by decide, ?_, ?_, ?_, by decide, ?_⟩ <;> omega
  exact readParts_join hfit

theorem securityType_text (t : AlertTypeId) :
    securityType t.text = true ↔ category t = .security := by
  cases t <;> decide

variable {text : JsString}

theorem securityType_sound (h : securityType text = true) :
    ∃ t : AlertTypeId, t.text = text ∧ category t = .security := by
  rw [securityType, List.any_eq_true] at h
  obtain ⟨declared, _, h⟩ := h
  rw [Bool.and_eq_true, beq_iff_eq, beq_iff_eq] at h
  exact ⟨declared.id, h.1, h.2⟩

/-- The rules only call for security types. -/
theorem rule_security {rule : RuleId} (h : alertTypeForRule rule = some t) :
    category t = .security := by
  rw [alertTypeForRule, bind_eq_some_iff] at h
  obtain ⟨guidance, _, h⟩ := h
  cases guidance <;> cases h <;> rfl

/-! ## Both directions -/

theorem pipe_not_in_uuid (a : Uuid) : 0x7C ∉ a.text := by
  intro hmem
  have hform := a.wellFormed
  simp only [isUuid, Bool.and_eq_true, List.all_eq_true] at hform
  obtain ⟨i, hi, hget⟩ := getElem_of_mem hmem
  have hpair : ((0x7C : UInt16), i) ∈ a.text.zipIdx := by
    rw [mem_zipIdx_iff_getElem?, getElem?_eq_getElem hi, hget]
  have hunit := hform.2 _ hpair
  split at hunit <;> simp at hunit

theorem split_minted (f : FindingRow) (t : AlertTypeId) :
    splitFirst 0x7C ((mintedId f t).drop 9) =
      some (f.organizationId.text, incidentKeyOf f t) :=
  splitFirst_append (pipe_not_in_uuid _) _

theorem minted_short (h : f.subjectId.length ≤ 128) :
    (mintedId f t).length ≤ 500 := by
  have hkey := key_short (t := t) h
  have horganization := f.organizationId.length_text
  have hstart : (js "incident/").length = 9 := by decide
  simp only [mintedId, messageIdFor, scopedText, length_append, length_cons, hstart]
  omega

theorem minted_starts (f : FindingRow) (t : AlertTypeId) :
    JsString.startsWith (mintedId f t) (js "incident/") = true := by
  rw [JsString.startsWith, isPrefixOf_iff_prefix]
  exact prefix_append _ _

theorem parse_minted (hsecurity : category t = .security) (hname : Nameable f.subjectId) :
    parseEmailIncidentScope (mintedId f t) = some (scopeOf f t) := by
  have hstart : ¬ (500 < (mintedId f t).length ∨
      JsString.startsWith (mintedId f t) (js "incident/") = false) := by
    rw [minted_starts]
    have := minted_short (t := t) hname.bounded
    simp only [Bool.true_eq_false, or_false]
    omega
  have hkey : ¬ (isUuid f.organizationId.text = false ∨ 400 < (incidentKeyOf f t).length) := by
    rw [f.organizationId.wellFormed]
    have := key_short (t := t) hname.bounded
    simp only [Bool.true_eq_false, false_or]
    omega
  have hbound : ¬ 128 < f.subjectId.length := by
    have := hname.bounded
    omega
  rw [parseEmailIncidentScope, if_neg hstart, split_minted]
  simp only [if_neg hkey, readParts_key hname.nonempty hname.bounded, keyParts]
  rw [if_neg]
  · rfl
  · simp only [incidentKeyOf_parts, keyParts, (securityType_text t).mpr hsecurity,
      f.customerTenantId.wellFormed, hname.printed, hbound, not_or, ne_eq, not_true_eq_false,
      not_false_eq_true, Bool.true_eq_false, Bool.false_eq_true, and_self]

variable {rest : JsString}

theorem readPart_nonempty (h : readPart text = some (part, rest)) : 1 ≤ part.length := by
  rw [readPart] at h
  split at h
  · cases h
  · simp only at h
    split_ifs at h with hlong hwhole hfits
    cases h
    rw [length_take]
    omega

theorem readParts_nonempty (h : readParts n text = some (parts, rest)) :
    ∀ part ∈ parts, 1 ≤ part.length := by
  induction n generalizing text parts with
  | zero =>
    cases h
    simp
  | succ n ih =>
    simp only [readParts, bind_eq_bind, bind_eq_some_iff] at h
    obtain ⟨⟨part, after⟩, hpart, ⟨more, last⟩, hmore, heq⟩ := h
    cases heq
    intro p hp
    rw [mem_cons] at hp
    obtain rfl | hp := hp
    · exact readPart_nonempty hpart
    · exact ih hmore p hp

/-- A finding with the components that a message id stands for. -/
def findingWith (organizationId customerTenantId : Uuid) (subjectId : JsString) : FindingRow where
  id := organizationId
  organizationId := organizationId
  customerTenantId := customerTenantId
  ruleId := ⟨js "HV-ID-AUTH-005.v2", by decide⟩
  dedupeKey := []
  subjectType := .unknown
  subjectId := subjectId
  state := .open
  observedAtIso := 0

/-- Everything that is accepted was minted from what is returned. -/
theorem parse_sound {messageId : JsString} {scope : Scope}
    (h : parseEmailIncidentScope messageId = some scope) :
    ∃ (f : FindingRow) (t : AlertTypeId), category t = .security ∧ Nameable f.subjectId ∧
      messageId = mintedId f t ∧ scope = scopeOf f t := by
  rw [parseEmailIncidentScope] at h
  split_ifs at h with hstart
  split at h
  · cases h
  rename_i organizationId incidentKey hcut
  split_ifs at h with hkey
  split at h
  · next version alertTypeId organization customerTenantId subjectRole subjectId rest hparts =>
    split_ifs at h with hrefused
    cases h
    simp only [not_or, ne_eq, not_not, Bool.not_eq_false, not_lt, Bool.not_eq_true]
      at hstart hkey hrefused
    obtain ⟨_, rfl, rfl, rfl, htenant, rfl, htype, hlong, hprinted⟩ := hrefused
    obtain ⟨t, rfl, hsecurity⟩ := securityType_sound htype
    have hnonempty := readParts_nonempty hparts subjectId (by simp)
    have hmessage : messageId = js "incident/" ++ messageId.drop 9 := by
      have hprefix := isPrefixOf_iff_prefix.mp hstart.2
      obtain ⟨body, hbody⟩ := hprefix
      rw [← hbody, drop_left' (by decide)]
    refine ⟨findingWith ⟨organization, hkey.1⟩ ⟨customerTenantId, htenant⟩ subjectId, t,
      hsecurity, ⟨hnonempty, hlong, hprinted⟩, ?_, rfl⟩
    rw [hmessage, splitFirst_sound hcut]
    rfl
  · cases h

theorem mintedId_injective {g : FindingRow} {u : AlertTypeId} (h : mintedId f t = mintedId g u) :
    f.subjectId = g.subjectId := by
  have hkey := (scopedText_injective (append_cancel_left h)).2
  have hparts := joinUnambiguously_injective hkey
  simp only [List.cons.injEq, and_true] at hparts
  exact hparts.2.2.2.2.2

theorem parse_refuses (h : ¬ Nameable f.subjectId) :
    parseEmailIncidentScope (mintedId f t) = none := by
  rw [eq_none_iff_forall_ne_some]
  intro scope hscope
  obtain ⟨g, u, _, hname, hid, _⟩ := parse_sound hscope
  rw [← mintedId_injective hid] at hname
  exact h hname

/-- Every job of a decision carries the id of the finding that it is for. -/
theorem job_minted {fs : List FindingRow} {existing : List ExistingIncident} {c : Context}
    {job : SendJobWrite} (h : job ∈ (FindingPipeline.decide fs existing c).jobs) :
    ∃ f ∈ fs, ∃ t, alertTypeForRule f.ruleId = some t ∧ job.messageId = mintedId f t := by
  rw [decide_jobs, mem_filterMap] at h
  obtain ⟨e, he, hjob⟩ := h
  obtain ⟨before, after, hfs, hentry⟩ := entries_split he
  have houtcome : e.outcome = .job job := by
    rw [Entry.toJob] at hjob
    cases hcase : e.outcome with
    | job write =>
      rw [hcase] at hjob
      rw [Option.some.inj hjob]
    | skipped because =>
      rw [hcase] at hjob
      cases hjob
  rw [hentry] at houtcome
  obtain ⟨t, ht, _, _, htold⟩ := entry_job houtcome
  obtain ⟨_, rfl⟩ := told_job htold
  have hopen : alertTypeForRule e.finding.ruleId = some t := by
    rw [openType] at ht
    split_ifs at ht
    exact ht
  have hmem : e.finding ∈ fs := by
    rw [hfs]
    simp
  exact ⟨e.finding, hmem, t, hopen, rfl⟩

/-- What the parser makes of the ids that the pipeline mints, and of every other text. -/
structure InvertsMinting : Prop where
  jobs : ∀ (fs : List FindingRow) (existing : List ExistingIncident) (c : Context),
    ∀ job ∈ (FindingPipeline.decide fs existing c).jobs,
      ∃ f ∈ fs, ∃ t, alertTypeForRule f.ruleId = some t ∧ job.messageId = mintedId f t
  named : ∀ (f : FindingRow) (t : AlertTypeId), alertTypeForRule f.ruleId = some t →
    Nameable f.subjectId → parseEmailIncidentScope (mintedId f t) = some (scopeOf f t)
  unnamed : ∀ (f : FindingRow) (t : AlertTypeId), ¬ Nameable f.subjectId →
    parseEmailIncidentScope (mintedId f t) = none
  accepted : ∀ (messageId : JsString) (scope : Scope),
    parseEmailIncidentScope messageId = some scope →
    ∃ (f : FindingRow) (t : AlertTypeId), category t = .security ∧ Nameable f.subjectId ∧
      messageId = mintedId f t ∧ scope = scopeOf f t

theorem parse_inverts_minting : InvertsMinting where
  jobs _ _ _ _ h := job_minted h
  named _ _ hrule hname := parse_minted (rule_security hrule) hname
  unnamed _ _ h := parse_refuses h
  accepted _ _ h := parse_sound h

/-- A finding about a subject of unknown type has the empty subject. -/
def unknownSubject : FindingRow :=
  findingWith ⟨js "00000000-0000-4000-8000-000000000001", by decide⟩
    ⟨js "00000000-0000-4000-8000-000000000002", by decide⟩ []

def everybodyTold : Context where
  dispositions := ⟨fun _ => none, [], fun _ => some true⟩
  watermark := ⟨none⟩
  tickAtIso := 0
  alreadyDecided := []

theorem minted_not_parsed :
    ((FindingPipeline.decide [unknownSubject] [] everybodyTold).jobs.map fun job =>
      (job.messageId, parseEmailIncidentScope job.messageId)) =
    [(mintedId unknownSubject .suspectedCredentialAttack, none)] := by
  decide +kernel

end EmailIncidentScope
