import HawkView.Alerts.FindingPipeline

/-!
# Event, incident and cause keys

The three keys of an alert. Each begins with a part of its own, so no two kinds
of key meet; a cause key has the parts that its declared type calls for.
-/

namespace AlertKeys

open FindingPipeline IncidentKey

structure AlertEventIdentity where
  source : JsString
  organizationId : JsString
  customerTenantId : JsString
  eventId : JsString
  deriving DecidableEq, Repr

def eventKey (event : AlertEventIdentity) : JsString :=
  joinUnambiguously [
    js "hawkview-alert-event/v1",
    event.source,
    event.organizationId,
    event.customerTenantId,
    event.eventId]

inductive AlertCategory
  | security | operational
  deriving DecidableEq, Repr

/-- `declaration.category` in the catalogue. -/
def category : AlertTypeId → AlertCategory
  | .suspectedCredentialAttack | .privilegedDirectoryChange | .routineDirectoryChange => .security
  | .tenantDisconnected | .collectorFailing | .consentExpiring | .recovered => .operational

/-- `declaration.subject` in the catalogue. -/
def declaredSubject : AlertTypeId → SubjectRole
  | .suspectedCredentialAttack => .target
  | .privilegedDirectoryChange | .routineDirectoryChange => .actor
  | .tenantDisconnected | .consentExpiring => .tenant
  | .collectorFailing | .recovered => .collector

structure RoutableIncident where
  organizationId : JsString
  customerTenantId : JsString
  alertTypeId : AlertTypeId
  subjectId : JsString
  deriving DecidableEq, Repr

/-- The parts of a cause key. -/
def causeParts (incident : RoutableIncident) : List JsString :=
  if category incident.alertTypeId = .security then
    [js "hawkview-cause/v1", js "SECURITY", incident.organizationId, incident.alertTypeId.text,
      incident.customerTenantId, incident.subjectId]
  else
    [js "hawkview-cause/v1", js "OPERATIONAL", incident.organizationId,
      incident.alertTypeId.text] ++
    if declaredSubject incident.alertTypeId = .tenant then [] else [incident.subjectId]

def causeKeyOf (incident : RoutableIncident) : JsString := joinUnambiguously (causeParts incident)

/-! ## One kind of key -/

theorem eventKey_injective : Function.Injective eventKey := by
  intro e f h
  have hparts := joinUnambiguously_injective h
  simp only [List.cons.injEq, true_and, and_true] at hparts
  obtain ⟨hsource, horganization, htenant, hevent⟩ := hparts
  cases e
  cases f
  cases hsource
  cases horganization
  cases htenant
  cases hevent
  rfl

/-- Two incidents of one cause agree on every part that their type puts in the key. -/
structure SameCause (i j : RoutableIncident) : Prop where
  organization : i.organizationId = j.organizationId
  type : i.alertTypeId = j.alertTypeId
  tenant : category i.alertTypeId = .security → i.customerTenantId = j.customerTenantId
  subject : category i.alertTypeId = .security ∨ declaredSubject i.alertTypeId ≠ .tenant →
    i.subjectId = j.subjectId

theorem causeParts_front (i : RoutableIncident) :
    ∃ word rest, causeParts i =
      js "hawkview-cause/v1" :: word :: i.organizationId :: i.alertTypeId.text :: rest := by
  unfold causeParts
  split
  · exact ⟨_, _, rfl⟩
  · exact ⟨_, _, rfl⟩

variable {i j : RoutableIncident}

theorem causeKeyOf_sound (h : causeKeyOf i = causeKeyOf j) :
    SameCause i j := by
  have hparts : causeParts i = causeParts j := joinUnambiguously_injective h
  obtain ⟨word, rest, hi⟩ := causeParts_front i
  obtain ⟨word', rest', hj⟩ := causeParts_front j
  have hfront := hparts
  rw [hi, hj] at hfront
  simp only [List.cons.injEq, true_and] at hfront
  obtain ⟨_, horganization, htext, _⟩ := hfront
  have htype := AlertTypeId.text_injective htext
  refine ⟨horganization, htype, ?_, ?_⟩
  · intro hsecurity
    simp only [causeParts, ← htype, hsecurity, if_true, List.cons.injEq, true_and] at hparts
    exact hparts.2.1
  · intro hsubject
    by_cases hsecurity : category i.alertTypeId = .security
    · simp only [causeParts, ← htype, hsecurity, if_true, List.cons.injEq, true_and,
        and_true] at hparts
      exact hparts.2.2
    · have hrole := hsubject.resolve_left hsecurity
      simp only [causeParts, ← htype, hsecurity, hrole, if_false, List.cons_append,
        List.nil_append, List.cons.injEq, true_and, and_true] at hparts
      exact hparts.2

/-- The converse: what the key leaves out does not split a cause. -/
theorem causeKeyOf_complete (h : SameCause i j) :
    causeKeyOf i = causeKeyOf j := by
  rw [causeKeyOf, causeKeyOf, causeParts, causeParts, ← h.organization, ← h.type]
  by_cases hsecurity : category i.alertTypeId = .security
  · rw [if_pos hsecurity, if_pos hsecurity, h.tenant hsecurity, h.subject (.inl hsecurity)]
  · rw [if_neg hsecurity, if_neg hsecurity]
    by_cases hrole : declaredSubject i.alertTypeId = .tenant
    · rw [if_pos hrole, if_pos hrole]
    · rw [if_neg hrole, if_neg hrole, h.subject (.inr hrole)]

/-! ## Keys of two kinds -/

/-- Joined lists with different first parts are different. -/
theorem join_front_ne {a b : JsString} {as bs : List JsString} (h : a ≠ b) :
    joinUnambiguously (a :: as) ≠ joinUnambiguously (b :: bs) := by
  intro heq
  exact h (List.cons.inj (joinUnambiguously_injective heq)).1

/-- What each kind of key says, and that the kinds do not meet. -/
structure KeysDetermine : Prop where
  join : Function.Injective joinUnambiguously
  event : Function.Injective eventKey
  incident : ∀ (d d' : IncidentIdentity) (s s' : IncidentScope) (id id' key : JsString),
    incidentGrouping d s (.resolved id) = .groups key →
    incidentGrouping d' s' (.resolved id') = .groups key → d = d' ∧ s = s' ∧ id = id'
  cause : ∀ i j : RoutableIncident, causeKeyOf i = causeKeyOf j ↔ SameCause i j
  event_incident : ∀ (e : AlertEventIdentity) (d : IncidentIdentity) (s : IncidentScope)
    (id : JsString), incidentGrouping d s (.resolved id) ≠ .groups (eventKey e)
  event_cause : ∀ (e : AlertEventIdentity) (i : RoutableIncident), eventKey e ≠ causeKeyOf i
  incident_cause : ∀ (d : IncidentIdentity) (s : IncidentScope) (id : JsString)
    (i : RoutableIncident), incidentGrouping d s (.resolved id) ≠ .groups (causeKeyOf i)

theorem keys_determine : KeysDetermine where
  join := joinUnambiguously_injective
  event := eventKey_injective
  incident d d' s s' id id' key h h' := incidentGrouping_injective (h.trans h'.symm)
  cause i j := ⟨causeKeyOf_sound, causeKeyOf_complete⟩
  event_incident e d s id := by
    intro h
    exact join_front_ne (by decide) (Grouping.groups.inj h)
  event_cause e i := by
    obtain ⟨word, rest, hparts⟩ := causeParts_front i
    rw [causeKeyOf, hparts]
    exact join_front_ne (by decide)
  incident_cause d s id i := by
    obtain ⟨word, rest, hparts⟩ := causeParts_front i
    intro h
    rw [causeKeyOf, hparts] at h
    exact join_front_ne (by decide) (Grouping.groups.inj h)

end AlertKeys
