import HawkView.Alerts.FindingIntake
import HawkView.Alerts.Intake

/-!
# Findings without a subject

`accountOf` of the intake does not group a finding whose subject is blank. `decide` takes the
subject as it is, so such a finding opens an incident or joins one.
-/

namespace BlankSubjects

open IncidentKey FindingPipeline FindingDecision List

/-- Nothing but white space. -/
def Blank (subjectId : JsString) : Prop := JsString.trim subjectId = []

theorem accountOf_unresolved (finding : FindingIntake.EmittedFinding) :
    (∃ why, FindingIntake.accountOf finding = .unresolved why) ↔ Blank finding.subjectId := by
  unfold FindingIntake.accountOf Blank
  split
  · next hsome => simp [ne_nil_of_length_pos hsome]
  · next hnone => simpa using hnone

section Refusal

variable (existing : List ExistingIncident) (c : Context)

/-- One more finding opens no incident and joins none. -/
structure Refuses (before : List FindingRow) (f : FindingRow) : Prop where
  opensNone : (FindingPipeline.decide (before ++ [f]) existing c).incidents =
    (FindingPipeline.decide before existing c).incidents
  joinsNone : (FindingPipeline.decide (before ++ [f]) existing c).skipped ≠
    (FindingPipeline.decide before existing c).skipped ++ [⟨f.id, .incidentAlreadyOpen⟩]

variable {existing c} {before : List FindingRow} {f : FindingRow}

theorem decisionEntries_more (before : List FindingRow) (f : FindingRow) :
    ∃ opened, decisionEntries (before ++ [f]) existing c =
      decisionEntries before existing c ++ [entry c opened f] :=
  ⟨_, entries_append⟩

theorem refuses_of_untyped (h : openType f = none) : Refuses existing c before f := by
  obtain ⟨opened, hentries⟩ := @decisionEntries_more existing c before f
  have hentry : entry c opened f = ⟨f, none, none, none,
      .skipped (if f.state = .open then .noAlertType else .notOpen)⟩ := by
    simp only [entry, h]
  constructor
  · rw [decide_incidents, decide_incidents, hentries, hentry, filterMap_append]
    exact append_nil _
  · rw [decide_skipped, decide_skipped, hentries, hentry, filterMap_append]
    intro hskipped
    have hlast := append_cancel_left hskipped
    simp only [filterMap_cons, filterMap_nil, Entry.toSkipped, Outcome.toSkipped] at hlast
    split at hlast <;> cases hlast

theorem not_refuses_of_typed {t : AlertTypeId} (h : openType f = some t) :
    ¬Refuses existing c before f := by
  obtain ⟨opened, hentries⟩ := @decisionEntries_more existing c before f
  rintro ⟨hopens, hjoins⟩
  rw [decide_incidents, decide_incidents, hentries, filterMap_append] at hopens
  rw [decide_skipped, decide_skipped, hentries, filterMap_append] at hjoins
  rw [entry_typed h] at hopens hjoins
  by_cases hopen : incidentScope f t ∈ opened
  · rw [if_pos hopen] at hjoins
    exact hjoins rfl
  · rw [if_neg hopen] at hopens
    have hlength := congrArg List.length hopens
    simp at hlength

end Refusal

/-- Blank findings are refused, and no two of them share a key, exactly when none of them is open
and of a rule that has an alert type. -/
theorem blank_refused_iff (fs : List FindingRow) (existing : List ExistingIncident) (c : Context) :
    ((∀ before f after, fs = before ++ f :: after → Blank f.subjectId →
        Refuses existing c before f) ∧
      fs.Pairwise fun f g => Blank f.subjectId → Blank g.subjectId → ∀ t u, openType f = some t →
        openType g = some u → incidentKeyOf f t ≠ incidentKeyOf g u) ↔
      ∀ f ∈ fs, Blank f.subjectId → openType f = none := by
  constructor
  · rintro ⟨hrefused, _⟩ f hf hblank
    obtain ⟨before, after, hsplit⟩ := append_of_mem hf
    cases htype : openType f with
    | none => rfl
    | some t => exact absurd (hrefused before f after hsplit hblank) (not_refuses_of_typed htype)
  · intro h
    constructor
    · rintro before f after rfl hblank
      exact refuses_of_untyped (h f (by simp) hblank)
    · refine pairwise_iff_getElem.mpr fun i j hi _ _ hblank _ t u ht _ => ?_
      rw [h _ (getElem_mem hi) hblank] at ht
      cases ht

/-- A finding that names nobody. -/
def blankFinding : FindingRow :=
  { Intake.sampleFinding Intake.attemptsRule Intake.sampleTenant with subjectId := [0x20] }

/-- Two findings that name nobody are one incident. -/
theorem blank_subjects_joined (c : Context) :
    ¬Refuses [] c [] blankFinding ∧ ¬Refuses [] c [blankFinding] blankFinding ∧
      (FindingPipeline.decide [blankFinding, blankFinding] [] c).incidents.length = 1 := by
  have htype : openType blankFinding = some .suspectedCredentialAttack := by decide
  refine ⟨not_refuses_of_typed htype, not_refuses_of_typed htype, ?_⟩
  rw [decide_incidents, decisionEntries]
  simp [entries, entry_typed htype, openBefore, Entry.opens, scope_incidentFor]

theorem blank_subjects_not_refused : ¬∀ (fs : List FindingRow) (existing : List ExistingIncident)
    (c : Context) (before : List FindingRow) (f : FindingRow) (after : List FindingRow),
    fs = before ++ f :: after → Blank f.subjectId → Refuses existing c before f := by
  intro h
  have hblank : JsString.trim blankFinding.subjectId = [] := by decide
  exact (blank_subjects_joined ⟨Intake.sampleDispositions, ⟨some 0⟩, 2000, []⟩).1
    (h [blankFinding] [] _ [] blankFinding [] rfl hblank)

end BlankSubjects
