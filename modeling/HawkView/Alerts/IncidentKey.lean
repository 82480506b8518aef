import HawkView.Lib.JsString

/-!
# The incident key

Which incident an event belongs to. The key is a tuple of texts of which only
the first is a constant, so every part stands behind its length.
-/

namespace IncidentKey

inductive SubjectRole
  | target | actor | account | tenant | collector
  deriving DecidableEq, Repr

def SubjectRole.text : SubjectRole → JsString
  | .target => js "TARGET"
  | .actor => js "ACTOR"
  | .account => js "ACCOUNT"
  | .tenant => js "TENANT"
  | .collector => js "COLLECTOR"

def SubjectRole.toLowerCase : SubjectRole → JsString
  | .target => js "target"
  | .actor => js "actor"
  | .account => js "account"
  | .tenant => js "tenant"
  | .collector => js "collector"

/-- The subject, after whatever resolution the caller could do. -/
inductive ResolvedSubject
  | resolved (id : JsString)
  | unresolved (why : JsString)
  deriving DecidableEq, Repr

structure IncidentScope where
  organizationId : JsString
  customerTenantId : JsString
  deriving DecidableEq, Repr

inductive Grouping
  | groups (key : JsString)
  | alone (because why : JsString)
  deriving DecidableEq, Repr

structure IncidentIdentity where
  id : JsString
  subject : SubjectRole
  deriving DecidableEq, Repr

def joinUnambiguously (parts : List JsString) : JsString :=
  parts.flatMap fun part => JsString.decimal part.length ++ 0x3A :: part

theorem joinUnambiguously_injective : Function.Injective joinUnambiguously :=
  JsString.lengthPrefixed.join_injective

def incidentGrouping (declaration : IncidentIdentity) (scope : IncidentScope) :
    ResolvedSubject → Grouping
  | .unresolved why => .alone
      (js "This event has no resolvable " ++ declaration.subject.toLowerCase ++
        js ", so it is recorded on its own " ++
        js "rather than joined to an incident. Grouping on an unresolved subject would " ++
        js "assert that these events are related on the strength of not knowing who was " ++
        js "involved in either.")
      why
  | .resolved id => .groups (joinUnambiguously [
      js "hawkview-alert-incident/v1",
      declaration.id,
      scope.organizationId,
      scope.customerTenantId,
      declaration.subject.text,
      id])

theorem SubjectRole.text_injective {a b : SubjectRole} (h : a.text = b.text) : a = b := by
  revert h
  cases a <;> cases b <;> decide

/-- One key stands for one type, one scope and one subject. -/
theorem incidentGrouping_injective {d d' : IncidentIdentity} {s s' : IncidentScope}
    {id id' : JsString}
    (h : incidentGrouping d s (.resolved id) = incidentGrouping d' s' (.resolved id')) :
    d = d' ∧ s = s' ∧ id = id' := by
  simp only [incidentGrouping, Grouping.groups.injEq] at h
  have hparts := joinUnambiguously_injective h
  simp only [List.cons.injEq, true_and, and_true] at hparts
  obtain ⟨hid, horganization, htenant, hrole, hsubject⟩ := hparts
  have hdeclaration : d = d' := by
    cases d
    cases d'
    cases hid
    cases SubjectRole.text_injective hrole
    rfl
  have hscope : s = s' := by
    cases s
    cases s'
    cases horganization
    cases htenant
    rfl
  exact ⟨hdeclaration, hscope, hsubject⟩

end IncidentKey
