import HawkView.IdentityRisk.AuthenticationFingerprint
import HawkView.Normalization.Normalize

/-!
# What the fingerprint covers

Records with one fingerprint agree on the listed facts, with `null` and what is
not there taken for one. The normalizers read more than that: they tell an
absent field from `null` in a few places, and some fields are not listed.
-/

namespace AuthenticationIntegrity

open Json List Option

variable {v w raw raw' r r' : Json} {sha256 : JsString → JsString}

/-! ## Facts that two records share -/

/-- The same is seen at a path, an absent value being `null`. -/
def Agree (r r' : Json) (path : List Step) : Prop :=
  (shapeAt r path).getD .null = (shapeAt r' path).getD .null

/-- A field is there in both records or in neither. -/
def Together (r r' : Json) (key : JsString) : Prop :=
  seen r key = none ↔ seen r' key = none

theorem Agree.read {β : Type} {path : List Step} (h : Agree r r' path) (f : Option Shape → β)
    (hnull : f (some .null) = f none) : f (shapeAt r path) = f (shapeAt r' path) := by
  have hget : ∀ v : Option Shape, f v = f (some (v.getD .null)) := by
    intro v
    cases v with
    | none => exact hnull.symm
    | some s => rfl
  rw [hget, hget (shapeAt r' path), h]

variable {key : JsString}

/-- A field that is there together with the other one is the same. -/
theorem Agree.same (h : Agree r r' [.key key]) (together : Together r r' key) :
    seen r key = seen r' key := by
  unfold Agree at h
  unfold Together at together
  rw [seen, seen] at together ⊢
  cases hx : shapeAt r [.key key] with
  | none => rw [hx] at together; exact (together.mp rfl).symm
  | some s =>
    cases hy : shapeAt r' [.key key] with
    | none => rw [hy, hx] at together; exact absurd (together.mpr rfl) nofun
    | some t =>
      rw [hx, hy] at h
      exact congrArg some h

theorem seen_fact (r : Json) (key : JsString) :
    (fact r key).shape = (seen r key).getD .null := by
  rw [fact, seen, shapeAt]
  cases child r (.key key) <;> rfl

theorem seen_fact_fact (r : Json) (key inner : JsString) :
    (fact (fact r key) inner).shape = (shapeAt r [.key key, .key inner]).getD .null := by
  rw [seen_fact, fact, shapeAt]
  cases child r (.key key) <;> rfl

theorem agree_of_fact (h : Alike (fact r key) (fact r' key)) :
    Agree r r' [.key key] := by
  have hshape := h.shape
  rwa [seen_fact, seen_fact] at hshape

/-- What two sign-ins with one fingerprint agree on. -/
structure SignInAgree (r r' : Json) : Prop where
  keys : ∀ key ∈ SIGN_IN_KEYS, Agree r r' [.key key]
  status : Agree r r' [.key (js "status")]
  errorCode : Agree r r' [.key (js "status"), .key (js "errorCode")]
  failureReason : Agree r r' [.key (js "status"), .key (js "failureReason")]

/-- What two audit records with one fingerprint agree on. -/
structure AuditAgree (r r' : Json) : Prop where
  keys : ∀ key ∈ AUDIT_KEYS, Agree r r' [.key key]
  properties : Alike (fact r (js "ExtendedProperties")) (fact r' (js "ExtendedProperties"))

variable {f : JsString → Json} {keys : List JsString}

theorem child_keyed (h : key ∈ keys) :
    child (.object (keys.map fun k => (k, f k))) (.key key) = some (f key) := by
  rw [child]
  induction keys with
  | nil => cases h
  | cons k keys ih =>
    by_cases hk : key = k
    · rw [hk, map_cons, lookup_cons_self]
    · rw [map_cons, lookup_ne hk]
      exact ih ((mem_cons.mp h).resolve_left hk)

/-- Objects with alike members under one list of keys. -/
theorem alike_keyed {g : JsString → Json}
    (h : Alike (.object (keys.map fun k => (k, f k))) (.object (keys.map fun k => (k, g k))))
    (hkey : key ∈ keys) : Alike (f key) (g key) := by
  rcases h.children (.key key) with ⟨hx, _⟩ | ⟨x, y, hx, hy, hsame⟩
  · rw [child_keyed hkey] at hx
    cases hx
  · rw [child_keyed hkey] at hx hy
    cases hx
    cases hy
    exact hsame

theorem auditAgree_of_facts (h : Alike (.object (auditFacts r)) (.object (auditFacts r'))) :
    AuditAgree r r' := by
  rw [auditFacts_eq, auditFacts_eq] at h
  constructor
  · intro key hkey
    exact agree_of_fact (alike_keyed h (mem_append_left _ hkey))
  · exact alike_keyed h (mem_append_right _ (mem_singleton_self _))

variable {depth : Nat}

/-- Within the bounds, an object has no forbidden name. -/
theorem plain_of_bounded (h : Bounded depth v) (hobject : v.shape = .object) :
    plain v = true := by
  cases h with
  | object _ own _ _ => exact own
  | _ => cases hobject

theorem statusFact_shape (v : Json) : (statusFact v).shape = v.shape := by
  unfold statusFact
  split
  · rename_i hplain
    cases v <;> first | rfl | cases hplain
  · rfl

theorem fact_leaf (h : v.shape ≠ .object) : fact v key = .null := by
  cases v <;> first | rfl | exact absurd rfl h

theorem signInAgree_of_facts (h : Alike (.object (signInFacts r)) (.object (signInFacts r')))
    (hbounded : ∀ record ∈ [r, r'], (fact record (js "status")).shape = .object →
      plain (fact record (js "status")) = true) : SignInAgree r r' := by
  rw [signInFacts_eq, signInFacts_eq] at h
  have hkeys : ∀ key ∈ SIGN_IN_KEYS, key ≠ js "status" := by decide +kernel
  have hstatus := alike_keyed h (mem_append_right SIGN_IN_KEYS
    (mem_singleton_self (js "status")))
  simp only [if_true] at hstatus
  have hshape := hstatus.shape
  rw [statusFact_shape, statusFact_shape] at hshape
  have hinner : ∀ key ∈ [js "errorCode", js "failureReason"],
      (fact (fact r (js "status")) key).shape = (fact (fact r' (js "status")) key).shape := by
    intro key hkey
    by_cases hobject : (fact r (js "status")).shape = .object
    · have hplain := hbounded r (by simp) hobject
      have hplain' := hbounded r' (by simp) (hshape ▸ hobject)
      rw [statusFact, statusFact, if_pos hplain, if_pos hplain'] at hstatus
      exact (alike_keyed hstatus hkey).shape
    · rw [fact_leaf hobject, fact_leaf (hshape ▸ hobject)]
  constructor
  · intro key hkey
    have hfact := alike_keyed h (mem_append_left _ hkey)
    simp only [if_neg (hkeys key hkey)] at hfact
    exact agree_of_fact hfact
  · rwa [seen_fact, seen_fact] at hshape
  · have herror := hinner (js "errorCode") (by simp)
    rwa [seen_fact_fact, seen_fact_fact] at herror
  · have hreason := hinner (js "failureReason") (by simp)
    rwa [seen_fact_fact, seen_fact_fact] at hreason

variable {facts : Json}

theorem facts_wellFormed (hraw : WellFormed raw) (h : authenticationFacts raw = some facts) :
    WellFormed facts := by
  have hsame := facts_alike ⟨hraw, hraw, fun _ => rfl⟩
  rw [h] at hsame
  cases hsame with
  | some h => exact h.1

/-- Where the facts of a row come from. -/
theorem facts_cases (h : authenticationFacts raw = some facts) :
    plain raw = true ∧
      ((audit raw = true ∧ ∃ record, child raw (.key (js "managementActivityRecord")) = some record ∧
        plain record = true ∧ facts = tagged (js "M365_AUDIT_STS") (auditFacts record)) ∨
      (audit raw = false ∧ facts = tagged (js "GRAPH_SIGN_INS") (signInFacts raw))) := by
  unfold authenticationFacts at h
  split at h
  · cases h
  rename_i hplain
  refine ⟨by simpa using hplain, ?_⟩
  split at h
  · rename_i haudit
    obtain ⟨record, hrecord, hfacts⟩ := bind_eq_some_iff.mp h
    split at hfacts
    · rename_i hobject
      exact .inl ⟨haudit, record, hrecord, hobject, (Option.some.inj hfacts).symm⟩
    · cases hfacts
  · rename_i haudit
    split at h
    · cases h
    · exact .inr ⟨by simpa using haudit, (Option.some.inj h).symm⟩

variable {d : JsString}

theorem fingerprint_some (h : authenticationFactFingerprint sha256 raw = some d) :
    ∃ facts form, authenticationFacts raw = some facts ∧ canonical 0 facts = some form ∧
      d = sha256 form.stringify := by
  obtain ⟨form, hform, hd⟩ := bind_eq_some_iff.mp h
  obtain ⟨facts, hfacts, hform⟩ := bind_eq_some_iff.mp hform
  split at hd
  · cases hd
  · exact ⟨facts, form, hfacts, hform, (Option.some.inj hd).symm⟩

/-- One fingerprint stands for facts that are alike. -/
theorem facts_of_fingerprint (injective : Function.Injective sha256) (hraw : WellFormed raw)
    (hraw' : WellFormed raw') (h : authenticationFactFingerprint sha256 raw = some d)
    (h' : authenticationFactFingerprint sha256 raw' = some d) :
    ∃ facts facts', authenticationFacts raw = some facts ∧ authenticationFacts raw' = some facts' ∧
      Bounded 0 facts ∧ Bounded 0 facts' ∧ Alike facts facts' := by
  obtain ⟨facts, form, hfacts, hform, hd⟩ := fingerprint_some h
  obtain ⟨facts', form', hfacts', hform', hd'⟩ := fingerprint_some h'
  have heq : form = form' := stringify_injective (injective (hd.symm.trans hd'))
  refine ⟨facts, facts', hfacts, hfacts', (canonical_some.mp hform).1, (canonical_some.mp hform').1,
    ?_⟩
  exact alike_of_canonical (facts_wellFormed hraw hfacts) (facts_wellFormed hraw' hfacts') hform
    (heq ▸ hform')

variable {source : JsString}

theorem tagged_inv {source' : JsString} {facts facts' : Entries}
    (h : Alike (tagged source facts) (tagged source' facts')) :
    source = source' ∧ Alike (.object facts) (.object facts') := by
  have hsource := h [.key (js "source")]
  constructor
  · simpa [tagged, shapeAt, child, lookup_cons, Json.shape] using hsource
  · intro path
    have hpath := h (.key (js "facts") :: path)
    have hne : (js "facts" == js "source") = false := by decide +kernel
    simpa [tagged, shapeAt, child, lookup_cons, hne] using hpath

theorem Bounded.member {entries : Entries} (h : Bounded depth (.object entries))
    {e : JsString × Json} (he : e ∈ entries) : Bounded (depth + 1) e.2 := by
  cases h with
  | object _ _ _ inner => exact inner e he

theorem status_plain (h : Bounded 0 (tagged source (signInFacts r)))
    (hobject : (fact r (js "status")).shape = .object) :
    plain (fact r (js "status")) = true := by
  have hfacts := h.member (e := (js "facts", .object (signInFacts r))) (by simp)
  have hstatus := hfacts.member (e := (js "status", statusFact (fact r (js "status"))))
    (by simp [signInFacts])
  unfold statusFact at hstatus
  simp only at hstatus
  split at hstatus
  · assumption
  · exact plain_of_bounded hstatus hobject

/-- Two rows with one fingerprint come from one feed and agree on the listed facts. -/
theorem agree_of_fingerprint (injective : Function.Injective sha256) (hraw : WellFormed raw)
    (hraw' : WellFormed raw') (h : authenticationFactFingerprint sha256 raw = some d)
    (h' : authenticationFactFingerprint sha256 raw' = some d) :
    (audit raw = true ∧ audit raw' = true ∧ ∃ r r',
      child raw (.key (js "managementActivityRecord")) = some r ∧
      child raw' (.key (js "managementActivityRecord")) = some r' ∧
      plain r = true ∧ plain r' = true ∧ AuditAgree r r') ∨
    (audit raw = false ∧ audit raw' = false ∧ plain raw = true ∧ plain raw' = true ∧
      SignInAgree raw raw') := by
  obtain ⟨facts, facts', hfacts, hfacts', hbounded, hbounded', hsame⟩ :=
    facts_of_fingerprint injective hraw hraw' h h'
  have hsources : js "M365_AUDIT_STS" ≠ js "GRAPH_SIGN_INS" := by decide +kernel
  obtain ⟨hplain, ⟨haudit, r, hr, hplainR, rfl⟩ | ⟨haudit, rfl⟩⟩ := facts_cases hfacts
  · obtain ⟨_, ⟨haudit', r', hr', hplainR', rfl⟩ | ⟨_, rfl⟩⟩ := facts_cases hfacts'
    · exact .inl ⟨haudit, haudit', r, r', hr, hr', hplainR, hplainR',
        auditAgree_of_facts (tagged_inv hsame).2⟩
    · exact absurd (tagged_inv hsame).1 hsources
  · obtain ⟨hplain', ⟨_, _, _, _, rfl⟩ | ⟨haudit', rfl⟩⟩ := facts_cases hfacts'
    · exact absurd (tagged_inv hsame).1 hsources.symm
    · refine .inr ⟨haudit, haudit', hplain, hplain', signInAgree_of_facts (tagged_inv hsame).2 ?_⟩
      intro record hrecord hobject
      rcases mem_cons.mp hrecord with rfl | hrecord
      · exact status_plain hbounded hobject
      · rw [mem_singleton.mp hrecord] at hobject ⊢
        exact status_plain hbounded' hobject

/-! ## The authentication normalizer -/

section Record

open Auth

variable {p : Platform} {c : AuthNormalizationContext}

variable {key : JsString}

theorem Agree.isString (h : Agree r r' [.key key]) (s : JsString) :
    isString (seen r key) s = isString (seen r' key) s :=
  h.read (fun v => Auth.isString v s) rfl

theorem Agree.isNumber (h : Agree r r' [.key key]) (text : JsString) :
    isNumber (seen r key) text = isNumber (seen r' key) text :=
  h.read (fun v => Auth.isNumber v text) rfl

theorem plain_shape (h : plain v = true) : v.shape = .object := by
  cases v <;> first | rfl | cases h

/-- What two records must share for a context to bind and classify them alike. -/
structure SameBindings (source : AuthSource) (c : AuthNormalizationContext)
    (r r' : Json) : Prop where
  object : r.shape = .object ∧ r'.shape = .object
  eventId : eventIdOf source r = eventIdOf source r'
  eventAt : eventAtOf source r = eventAtOf source r'
  tenant : source = .m365AuditSts →
    isString (seen r (js "OrganizationId")) c.microsoftTenantId =
      isString (seen r' (js "OrganizationId")) c.microsoftTenantId
  subject : subjectBound c.subject source r = subjectBound c.subject source r'
  userType : source = .m365AuditSts → ∀ text,
    isNumber (seen r (js "UserType")) text = isNumber (seen r' (js "UserType")) text
  application : applicationBound c.application source r =
    applicationBound c.application source r'
  outcome : outcomeOf source r = outcomeOf source r'
  client : clientOf p c.clientSource source r = clientOf p c.clientSource source r'

theorem SameBindings.normalize {source : AuthSource} (hsource : c.source = source.text)
    (h : SameBindings (p := p) source c r r') :
    normalizeAuthenticationRecord p r c = normalizeAuthenticationRecord p r' c := by
  have hof : AuthSource.ofText c.source = some source := by
    rw [hsource]
    cases source <;> decide +kernel
  unfold normalizeAuthenticationRecord
  rw [hof, h.object.1, h.object.2]
  simp only [h.eventId, h.eventAt, h.subject, h.application, h.outcome, h.client]
  cases source with
  | graphSignIns => rfl
  | m365AuditSts => simp only [h.tenant rfl, h.userType rfl]

theorem subjectBound_congr (source : AuthSource) (c : SubjectContext)
    (h : ∀ s, isString (seen r (match source with
        | .graphSignIns => js "userId"
        | .m365AuditSts => js "UserId")) s =
      isString (seen r' (match source with
        | .graphSignIns => js "userId"
        | .m365AuditSts => js "UserId")) s) :
    subjectBound c source r = subjectBound c source r' := by
  unfold subjectBound
  cases source with
  | graphSignIns =>
    by_cases hfield : c.fieldFor .graphSignIns = js "userId"
    · rw [hfield, h]
    · simp [beq_eq_false_iff_ne.mpr hfield]
  | m365AuditSts =>
    by_cases hfield : c.fieldFor .m365AuditSts = js "UserId"
    · rw [hfield, h]
    · simp [beq_eq_false_iff_ne.mpr hfield]

theorem graphOutcome_congr (h : SignInAgree r r') (together : Together r r' (js "isInteractive")) :
    graphOutcome r = graphOutcome r' := by
  have hinteractive : seen r (js "isInteractive") = seen r' (js "isInteractive") :=
    (h.keys _ (by simp [SIGN_IN_KEYS])).same together
  have hcode := h.errorCode.read codeAt rfl
  have hreason := h.failureReason.read emptyError rfl
  simp only [graphOutcome, hinteractive, hcode, hreason]

theorem graph_sameBindings (h : SignInAgree r r') (hr : plain r = true) (hr' : plain r' = true)
    (together : Together r r' (js "isInteractive")) :
    SameBindings (p := p) .graphSignIns c r r' where
  object := ⟨plain_shape hr, plain_shape hr'⟩
  eventId := (h.keys (js "id") (by simp [SIGN_IN_KEYS])).read textAt rfl
  eventAt := (h.keys (js "createdDateTime") (by simp [SIGN_IN_KEYS])).read timeAtField rfl
  tenant := nofun
  subject := subjectBound_congr .graphSignIns c.subject
    (h.keys (js "userId") (by simp [SIGN_IN_KEYS])).isString
  userType := nofun
  application := by
    unfold applicationBound
    by_cases hfield : c.application.field = js "appId"
    · rw [hfield, (h.keys (js "appId") (by simp [SIGN_IN_KEYS])).isString]
    · simp [beq_eq_false_iff_ne.mpr hfield]
  outcome := congrArg Except.ok (graphOutcome_congr h together)
  client := by
    unfold clientOf
    by_cases hfield : c.clientSource.fieldFor .graphSignIns = js "ipAddress"
    · have haddress := (h.keys (js "ipAddress") (by simp [SIGN_IN_KEYS])).read
        (addressAt p) rfl
      rw [hfield]
      simp only [seen, haddress]
    · simp [hfield]

/-- The audit fields of which the normalizer tells `null` from what is not there. -/
structure AuditPresence (r r' : Json) : Prop where
  errorCode : Together r r' (js "ErrorCode")
  loginStatus : Together r r' (js "LoginStatus")
  resultStatus : Together r r' (js "ResultStatus")
  properties : Together r r' (js "ExtendedProperties")

def propertiesIn : Json → Option (List Property)
  | .array items =>
    some (items.map fun item => ⟨item.shape, seen item (js "Name"), seen item (js "Value")⟩)
  | _ => none

theorem propertiesOf_eq (r : Json) :
    propertiesOf r = propertiesIn (fact r (js "ExtendedProperties")) := by
  rw [propertiesOf, fact]
  cases child r (.key (js "ExtendedProperties")) with
  | none => rfl
  | some v => cases v <;> rfl

theorem propertiesIn_alike (h : Alike v w) : propertiesIn v = propertiesIn w := by
  cases v with
  | array items =>
    cases w with
    | array others =>
      rw [propertiesIn, propertiesIn]
      congr 1
      refine h.map_items fun x _ y _ hsame => ?_
      rw [hsame.shape, seen, hsame, seen, hsame]
      rfl
    | _ => cases h.shape
  | _ => cases w <;> first | rfl | cases h.shape

section

variable (h : AuditAgree r r')
include h

theorem AuditAgree.propertiesOf :
    propertiesOf r = propertiesOf r' := by
  rw [propertiesOf_eq, propertiesOf_eq, propertiesIn_alike h.properties]

theorem stsLogonErrors_all (properties : List Property)
    (f : Option Shape → Bool) (hnull : f (some .null) = f none) :
    (stsLogonErrors r properties).all f = (stsLogonErrors r' properties).all f := by
  rw [stsLogonErrors, stsLogonErrors, all_cons, all_cons]
  congr 1
  exact (h.keys (js "LogonError") (by simp [AUDIT_KEYS])).read f hnull

theorem stsOutcome_congr (present : AuditPresence r r')
    (properties : List Property) :
    stsOutcome r properties = stsOutcome r' properties := by
  have hcode : seen r (js "ErrorCode") = seen r' (js "ErrorCode") :=
    (h.keys _ (by simp [AUDIT_KEYS])).same present.errorCode
  have hlogin : seen r (js "LoginStatus") = seen r' (js "LoginStatus") :=
    (h.keys _ (by simp [AUDIT_KEYS])).same present.loginStatus
  have hresult : seen r (js "ResultStatus") = seen r' (js "ResultStatus") :=
    (h.keys _ (by simp [AUDIT_KEYS])).same present.resultStatus
  have hcodes : stsCodes r properties = stsCodes r' properties := by
    rw [stsCodes, stsCodes, hcode]
  have hempty := stsLogonErrors_all h properties emptyError rfl
  have hinvalid := stsLogonErrors_all h properties
    (fun e => emptyError e || isString e (js "InvalidUserNameOrPassword")) rfl
  unfold stsOutcome
  simp only [hcodes, hlogin, hresult, hempty, hinvalid,
    (h.keys (js "Operation") (by simp [AUDIT_KEYS])).isString]

theorem audit_outcome (present : AuditPresence r r') :
    outcomeOf .m365AuditSts r = outcomeOf .m365AuditSts r' := by
  have hproperties : stsProperties r = stsProperties r' := by
    have hpresent : (seen r (js "ExtendedProperties") = none) =
        (seen r' (js "ExtendedProperties") = none) := propext present.properties
    simp only [stsProperties, hpresent, h.propertiesOf]
  unfold outcomeOf
  simp only [hproperties, stsOutcome_congr h present,
    (h.keys (js "RecordType") (by simp [AUDIT_KEYS])).isNumber,
    (h.keys (js "Operation") (by simp [AUDIT_KEYS])).isString]

end

/-- The records agree on the fields outside the list that the context makes the normalizer read. -/
structure ContextAgree (c : AuthNormalizationContext) (r r' : Json) : Prop where
  application : c.application.field = js "Application" → Agree r r' [.key (js "Application")]
  client : c.clientSource.fieldFor .m365AuditSts = js "ClientIP" → Agree r r' [.key (js "ClientIP")]

theorem audit_sameBindings (h : AuditAgree r r') (hr : plain r = true) (hr' : plain r' = true)
    (present : AuditPresence r r') (agree : ContextAgree c r r') :
    SameBindings (p := p) .m365AuditSts c r r' where
  object := ⟨plain_shape hr, plain_shape hr'⟩
  eventId := (h.keys (js "Id") (by simp [AUDIT_KEYS])).read textAt rfl
  eventAt := (h.keys (js "CreationTime") (by simp [AUDIT_KEYS])).read timeAtField rfl
  tenant _ := (h.keys (js "OrganizationId") (by simp [AUDIT_KEYS])).isString _
  subject := subjectBound_congr .m365AuditSts c.subject
    (h.keys (js "UserId") (by simp [AUDIT_KEYS])).isString
  userType _ := (h.keys (js "UserType") (by simp [AUDIT_KEYS])).isNumber
  application := by
    unfold applicationBound
    by_cases hid : c.application.field = js "ApplicationId"
    · rw [hid, (h.keys (js "ApplicationId") (by simp [AUDIT_KEYS])).isString]
    by_cases hname : c.application.field = js "Application"
    · have hfield := agree.application hname
      rw [hname, hfield.isString]
    · simp [beq_eq_false_iff_ne.mpr hid, beq_eq_false_iff_ne.mpr hname]
  outcome := audit_outcome h present
  client := by
    unfold clientOf
    by_cases hclient : c.clientSource.fieldFor .m365AuditSts = js "ClientIP"
    · have haddress := (agree.client hclient).read (addressAt p) rfl
      rw [hclient]
      simp only [seen, haddress]
    by_cases hactor : c.clientSource.fieldFor .m365AuditSts = js "ActorIpAddress"
    · have haddress := (h.keys (js "ActorIpAddress") (by simp [AUDIT_KEYS])).read
        (addressAt p) rfl
      rw [hactor]
      simp only [seen, haddress]
    · simp [beq_eq_false_iff_ne.mpr hclient, beq_eq_false_iff_ne.mpr hactor]

end Record

/-! ## The row normalizer -/

section Row

open Normalization

variable {σ : Type} {p : Auth.Platform} {f : ProviderFacts}
  {c : RowContext σ}

/-- The audit fields outside the list, and the listed ones of which `null` is told from absent,
that decide how a row is read. -/
structure RowAgree (r r' : Json) : Prop where
  organization : Together r r' (js "OrganizationId")
  errorCode : Together r r' (js "ErrorCode")
  loginStatus : Together r r' (js "LoginStatus")
  application : Agree r r' [.key (js "Application")]
  client : Agree r r' [.key (js "ClientIP")]
  loginError : Agree r r' [.key (js "LoginError")]

theorem readAuditErrorCode_congr (h : AuditAgree r r') (agree : RowAgree r r') :
    readAuditErrorCode r = readAuditErrorCode r' := by
  have hcode : seen r (js "ErrorCode") = seen r' (js "ErrorCode") :=
    (h.keys _ (by simp [AUDIT_KEYS])).same agree.errorCode
  have hlogin : seen r (js "LoginStatus") = seen r' (js "LoginStatus") :=
    (h.keys _ (by simp [AUDIT_KEYS])).same agree.loginStatus
  simp only [readAuditErrorCode, auditExtendedValues, map_cons,
    map_nil, hcode, hlogin, h.propertiesOf]

theorem reasonName_congr (h : AuditAgree r r') (agree : RowAgree r r') :
    reasonName r = reasonName r' := by
  have hlogon : reasonAt (seen r (js "LogonError")) =
      reasonAt (seen r' (js "LogonError")) :=
    (h.keys _ (by simp [AUDIT_KEYS])).read reasonAt rfl
  have hlogin : reasonAt (seen r (js "LoginError")) =
      reasonAt (seen r' (js "LoginError")) :=
    agree.loginError.read reasonAt rfl
  simp only [reasonName, readAuditLogonErrors, cons_append,
    nil_append, findSome?_cons, auditExtendedValues, h.propertiesOf,
    hlogon, hlogin, (h.keys (js "Operation") (by simp [AUDIT_KEYS])).isString]

theorem classifyAuditRecord_congr (h : AuditAgree r r') (agree : RowAgree r r') :
    classifyAuditRecord f r = classifyAuditRecord f r' := by
  simp only [classifyAuditRecord, readAuditErrorCode_congr h agree,
    reasonName_congr h agree, (h.keys (js "Operation") (by simp [AUDIT_KEYS])).isString]

theorem qualifyClient_last {key : JsString} (h : Agree r r' [.key key])
    (others : List (Option Shape)) :
    qualifyClient p (others ++ [seen r key]) =
      qualifyClient p (others ++ [seen r' key]) := by
  refine h.read (fun v => qualifyClient p (others ++ [v])) ?_
  simp [qualifyClient, filter_append, notReported]

/-- What two records must share for a row to be classified alike. -/
structure SameReading (source : NormalizationSource)
    (scope : NormalizationScope) (p : Auth.Platform)
    (f : ProviderFacts) (r r' : Json) : Prop where
  supported : unsupported source scope r = unsupported source scope r'
  eventId : eventIdOf source r = eventIdOf source r'
  eventAt : eventAtOf source r = eventAtOf source r'
  subject : ∀ directory, bindSubject source r directory =
    bindSubject source r' directory
  application : applicationIdentifier source r =
    applicationIdentifier source r'
  classification : (classify f source r).classification =
    (classify f source r').classification
  errorCode : (classify f source r).errorCode =
    (classify f source r').errorCode
  client : clientSource p source r = clientSource p source r'

theorem SameReading.normalize {ingestedAt : Option Int} {s : σ}
    (hmarked : Normalization.marked raw = Normalization.marked raw')
    (h : SameReading c.source c.scope p f (rowRecord c.source raw)
      (rowRecord c.source raw')) :
    (normalizeRow p f ingestedAt raw c s).map
        (Except.map NormalizedRow.unjudged) id =
      (normalizeRow p f ingestedAt raw' c s).map
        (Except.map NormalizedRow.unjudged) id := by
  have hread : readRow ingestedAt raw c =
      readRow ingestedAt raw' c := by
    simp only [readRow, hmarked, readRecord, h.supported, h.eventId,
      h.eventAt, h.subject, h.application]
  unfold normalizeRow
  rw [hread]
  split
  · rfl
  simp only
  split
  · rfl
  split
  · rfl
  simp only [Prod.map, Except.map, NormalizedRow.unjudged, h.classification,
    h.errorCode, h.client]

/-- A classification without its verdict does not depend on the verdict so far. -/
theorem classifyShape_verdict (verdict : Option MicrosoftVerdict)
    (shape : ErrorCodeShape) (description : Option Shape) :
    (classifyShape f verdict shape description).classification =
        (classifyShape f none shape description).classification ∧
      (classifyShape f verdict shape description).errorCode =
        (classifyShape f none shape description).errorCode := by
  cases shape with
  | number code =>
    simp only [classifyShape]
    split <;> exact ⟨rfl, rfl⟩
  | _ => exact ⟨rfl, rfl⟩

theorem classifyShape_null (shape : ErrorCodeShape) :
    classifyShape f none shape (some .null) =
      classifyShape f none shape none := by
  cases shape with
  | number code =>
    have hrefine : refineByDescription f code (some .null) =
        refineByDescription f code none := by
      simp only [refineByDescription]
      rcases (f.resultCodeEntry code).map ResultCodeEntry.textMeanings with
        _ | _ | ⟨m, ms⟩ <;> rfl
    simp [classifyShape, hrefine, descriptionPermitsSuccess]
  | _ => rfl

theorem graph_classification (h : SignInAgree r r') :
    (classifyGraphRecord f r).classification =
        (classifyGraphRecord f r').classification ∧
      (classifyGraphRecord f r).errorCode =
        (classifyGraphRecord f r').errorCode := by
  let G := fun status code description =>
    ((classifyShape f none (codeShape status code)
        description).classification,
      (classifyShape f none (codeShape status code)
        description).errorCode)
  have hstatus := h.status.read (fun status => G status
    (shapeAt r [.key (js "status"), .key (js "errorCode")])
    (shapeAt r [.key (js "status"), .key (js "failureReason")])) rfl
  have hcode := h.errorCode.read (fun code => G (seen r' (js "status")) code
    (shapeAt r [.key (js "status"), .key (js "failureReason")])) (by
      cases seen r' (js "status") with
      | none => rfl
      | some s => cases s <;> rfl)
  have hreason := h.failureReason.read (fun description => G (seen r' (js "status"))
    (shapeAt r' [.key (js "status"), .key (js "errorCode")]) description) (by
      simp only [G, classifyShape_null])
  have hall := hstatus.trans (hcode.trans hreason)
  have hfirst := congrArg Prod.fst hall
  have hsecond := congrArg Prod.snd hall
  constructor
  · rw [classifyGraphRecord, classifyGraphRecord,
      (classifyShape_verdict _ _ _).1, (classifyShape_verdict (f.riskDetailVerdict
        (seen r' (js "riskDetail")) (seen r' (js "riskState"))) _ _).1]
    exact hfirst
  · rw [classifyGraphRecord, classifyGraphRecord,
      (classifyShape_verdict _ _ _).2, (classifyShape_verdict (f.riskDetailVerdict
        (seen r' (js "riskDetail")) (seen r' (js "riskState"))) _ _).2]
    exact hsecond

theorem graph_sameReading (h : SignInAgree r r') (scope : NormalizationScope) :
    SameReading .graphSignIns scope p f r r' where
  supported := rfl
  eventId := (h.keys (js "id") (by simp [SIGN_IN_KEYS])).read textAt rfl
  eventAt := (h.keys (js "createdDateTime") (by simp [SIGN_IN_KEYS])).read
    (utcMillis .required) rfl
  subject directory := by
    have hid : guidAt (seen r (js "userId")) =
        guidAt (seen r' (js "userId")) :=
      (h.keys _ (by simp [SIGN_IN_KEYS])).read guidAt rfl
    simp only [bindSubject, bindGraphSubject, hid]
  application := (h.keys (js "appId") (by simp [SIGN_IN_KEYS])).read guidAt rfl
  classification := (graph_classification h).1
  errorCode := (graph_classification h).2
  client := qualifyClient_last (h.keys (js "ipAddress") (by simp [SIGN_IN_KEYS])) []

theorem audit_sameReading (h : AuditAgree r r') (hr : plain r = true) (hr' : plain r' = true)
    (agree : RowAgree r r') (scope : NormalizationScope) :
    SameReading .m365AuditSts scope p f r r' where
  supported := by
    have horganization : seen r (js "OrganizationId") = seen r' (js "OrganizationId") :=
      (h.keys _ (by simp [AUDIT_KEYS])).same agree.organization
    simp only [unsupported, plain_shape hr, plain_shape hr', horganization,
      (h.keys (js "RecordType") (by simp [AUDIT_KEYS])).isNumber,
      (h.keys (js "Operation") (by simp [AUDIT_KEYS])).isString]
  eventId := (h.keys (js "Id") (by simp [AUDIT_KEYS])).read textAt rfl
  eventAt := (h.keys (js "CreationTime") (by simp [AUDIT_KEYS])).read
    (utcMillis .mayBeAbsent) rfl
  subject directory := by
    have hid : textAt (seen r (js "UserId")) =
        textAt (seen r' (js "UserId")) :=
      (h.keys _ (by simp [AUDIT_KEYS])).read textAt rfl
    simp only [bindSubject, bindAuditSubject, hid]
  application := by
    have hid : guidAt (seen r (js "ApplicationId")) =
        guidAt (seen r' (js "ApplicationId")) :=
      (h.keys _ (by simp [AUDIT_KEYS])).read guidAt rfl
    have hname : textAt (seen r (js "Application")) =
        textAt (seen r' (js "Application")) :=
      agree.application.read textAt rfl
    simp only [applicationIdentifier, hid, hname]
  classification := by
    simp only [classify, classifyAuditRecord_congr h agree]
  errorCode := by simp only [classify, classifyAuditRecord_congr h agree]
  client := by
    have hactor := qualifyClient_last (p := p)
      (h.keys (js "ActorIpAddress") (by simp [AUDIT_KEYS])) [seen r (js "ClientIP")]
    exact hactor.trans (agree.client.read (fun v => qualifyClient p [v, _]) rfl)

end Row

/-! ## Coverage -/

/-- The record that the normalizers read of a row. -/
def recordOf (raw : Json) : Json :=
  if audit raw then (child raw (.key (js "managementActivityRecord"))).getD .null else raw

def sourceOf (raw : Json) : Auth.AuthSource :=
  if audit raw then .m365AuditSts else .graphSignIns

def feedOf (raw : Json) : Normalization.NormalizationSource :=
  if audit raw then .m365AuditSts else .graphSignIns

/-- Rows of one fingerprint that one context normalizes alike. -/
def RecordsAgree (c : Auth.AuthNormalizationContext) (raw raw' : Json) : Prop :=
  if audit raw then AuditPresence (recordOf raw) (recordOf raw') ∧
    ContextAgree c (recordOf raw) (recordOf raw')
  else Together raw raw' (js "isInteractive")

/-- Rows of one fingerprint that are classified alike. -/
def RowsAgree (raw raw' : Json) : Prop :=
  Normalization.marked raw = Normalization.marked raw' ∧
    (audit raw = true → RowAgree (recordOf raw) (recordOf raw'))

def sampleGuid : JsString := js "00000000-0000-0000-0000-000000000001"

def sampleText (name value : String) : JsString × Json := (js name, .string (js value))

def sampleSignInRaw (more : Entries) : Json :=
  .object ([sampleText "id" "s", sampleText "createdDateTime" "2026-01-01T00:00:00Z",
    (js "userId", .string sampleGuid), (js "appId", .string sampleGuid),
    (js "status", .object [(js "errorCode", .number (.ofInt 0))])] ++ more)

def sampleAuditRaw (clientIp : String) : Json :=
  .object [sampleText "hawkviewSource" "MICROSOFT_365_MANAGEMENT_ACTIVITY",
    (js "managementActivityRecord", .object [sampleText "Id" "a",
      sampleText "CreationTime" "2026-01-01T00:00:00", sampleText "UserId" "u@example.com",
      (js "ApplicationId", .string sampleGuid), (js "RecordType", .number (.ofInt 15)),
      sampleText "Operation" "UserLoginFailed", sampleText "ClientIP" clientIp])]

def samplePlatform : Auth.Platform := ⟨fun _ => 4, fun s => s, fun s => s⟩

def sampleContext : Auth.AuthNormalizationContext where
  organizationId := js "o"
  customerTenantId := js "t"
  microsoftTenantId := js "m"
  source := js "GRAPH_SIGN_INS"
  ingestedAt := js "2026-01-01T00:00:01Z"
  subject := ⟨js "r", sampleGuid, js "HUMAN", none, none, none, none⟩
  application := ⟨js "a", sampleGuid, js "appId", true⟩
  clientSource := ⟨js "MISSING", none⟩
  eventMfa := none

def sampleFacts : Normalization.ProviderFacts :=
  ⟨fun _ => none, fun _ _ => none, fun _ => none, fun _ _ => none⟩

def sampleRowContext (source : Normalization.NormalizationSource) :
    Normalization.RowContext Unit where
  scope := ⟨js "o", js "t", js "m"⟩
  source := source
  directory := ⟨fun _ => .one (js "u"), fun _ => .one (js "u")⟩
  resolveReference s _ id := (id, s)

/-- The address of the event of an audit row. -/
def sampleAddress (raw : Json) : Option (Option JsString) :=
  (Normalization.normalizeRow samplePlatform sampleFacts (some 1800000000000) raw
    (sampleRowContext .m365AuditSts) ()).1.toOption.map fun r => r.event.clientSource.address

/-- The reason for which a sign-in row is set aside. -/
def sampleReason (raw : Json) : Option Normalization.UnprocessableReason :=
  match (Normalization.normalizeRow samplePlatform sampleFacts (some 1800000000000) raw
    (sampleRowContext .graphSignIns) ()).1 with
  | .error reason => some reason
  | .ok _ => none

theorem sampleSignInRaw_wellFormed (country : String) :
    WellFormed (sampleSignInRaw [sampleText "country" country]) := by
  constructor
  · intro e he
    simp only [cons_append, nil_append, mem_cons, not_mem_nil, or_false,
      sampleText] at he
    rcases he with rfl | rfl | rfl | rfl | rfl | rfl
    · exact .string _
    · exact .string _
    · exact .string _
    · exact .string _
    · refine .object (fun e he => ?_) (nodup_singleton _)
      rw [mem_singleton.mp he]
      exact .number _
    · exact .string _
  · show [js "id", js "createdDateTime", js "userId", js "appId", js "status", js "country"].Nodup
    decide

end AuthenticationIntegrity
