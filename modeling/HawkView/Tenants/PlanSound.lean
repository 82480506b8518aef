import HawkView.Tenants.SourceWorkPlanner

/-!
# What a plan says of the dependencies

An input is selected only when everything that it depends on is there once, is
verified and fresh, and no dependency leads back. What is blocked for a
dependency is blocked for one of these.
-/

namespace PlanSound

open Relation SourceWorkPlanner List

variable {work : List SourceWorkInput} {now : JsNumber}

/-- The input at a place is the source of a tenant. -/
def Provides (work : List SourceWorkInput) (tenantId source : JsString) (k : Nat) : Prop :=
  ∃ item, work[k]? = some item ∧ item.tenantId = tenantId ∧ item.source = source

/-- A dependency whose prerequisite is present, unique, valid, verified, of the scope and the
generation that are asked for, and fresh. -/
structure Satisfies (work : List SourceWorkInput) (now : JsNumber) (tenantId : JsString)
    (dependency : SourceDependency) (k : Nat) : Prop where
  only : ∀ j, Provides work tenantId dependency.source j ↔ j = k
  checked : ∃ item check, work[k]? = some item ∧ valid item now = true ∧
    verified item = true ∧ item.lastComplete = some check ∧ check.scope = dependency.scope ∧
    check.generation = dependency.requiredGeneration ∧ stale now dependency item check = false

def Requires (work : List SourceWorkInput) (i k : Nat) : Prop :=
  ∃ item dependency, work[i]? = some item ∧ dependency ∈ item.dependencies ∧
    Provides work item.tenantId dependency.source k

/-- All transitive prerequisites of an input hold, and there is no cycle below it. -/
structure Certified (work : List SourceWorkInput) (now : JsNumber) (i : Nat) : Prop where
  satisfied : ∀ k item, ReflTransGen (Requires work) i k → work[k]? = some item →
    ∀ dependency ∈ item.dependencies, ∃ p, Satisfies work now item.tenantId dependency p
  acyclic : ∀ k, ReflTransGen (Requires work) i k → ¬ TransGen (Requires work) k k

/-- The only input of its tenant and source. -/
def Unique (work : List SourceWorkInput) (i : Nat) (item : SourceWorkInput) : Prop :=
  ∀ j, Provides work item.tenantId item.source j ↔ j = i

/-! ## Looking up a source -/

variable {t s : JsString}

theorem key_eq {t' s' : JsString} : key t s = key t' s' ↔ t = t' ∧ s = s' := by
  rw [key, key, Json.stringify_injective.eq_iff]
  simp

/-- The places of a source, in order. -/
def places (work : List SourceWorkInput) (tenantId source : JsString) : List Nat :=
  (work.zipIdx.filter fun entry =>
    entry.1.tenantId = tenantId ∧ entry.1.source = source).map Prod.snd

theorem mem_places {k : Nat} : k ∈ places work t s ↔ Provides work t s k := by
  simp only [places, mem_map, mem_filter, decide_eq_true_eq, Provides, Prod.exists,
    exists_eq_right, mem_zipIdx_iff_getElem?]

theorem places_nodup (t s : JsString) : (places work t s).Nodup := by
  have hsublist : (places work t s).Sublist (work.zipIdx.map Prod.snd) :=
    List.Sublist.map _ filter_sublist
  refine hsublist.nodup ?_
  rw [zipIdx_map_snd]
  exact nodup_range'

theorem places_eq_singleton {k : Nat} :
    places work t s = [k] ↔ ∀ j, Provides work t s j ↔ j = k := by
  constructor
  · intro h j
    rw [← mem_places, h, mem_singleton]
  · intro h
    have hmem : ∀ j, j ∈ places work t s ↔ j ∈ [k] := by
      intro j
      rw [mem_places, h, mem_singleton]
    have hperm := (perm_ext_iff_of_nodup (places_nodup t s) (nodup_singleton k)).mpr hmem
    exact hperm.eq_singleton

theorem fileKey_get? (es : List (SourceWorkInput × Nat)) (m : JsMap JsString (List Nat))
    (t s : JsString) :
    ((es.foldl fileKey m).get? (key t s)).getD [] =
      (m.get? (key t s)).getD [] ++
        (es.filter fun entry => entry.1.tenantId = t ∧ entry.1.source = s).map Prod.snd ∧
    ((es.foldl fileKey m).get? (key t s) = none ↔ m.get? (key t s) = none ∧
      es.filter (fun entry => entry.1.tenantId = t ∧ entry.1.source = s) = []) := by
  induction es generalizing m with
  | nil => simp
  | cons e es ih =>
    obtain ⟨hgetD, hnone⟩ := ih (fileKey m e)
    rw [foldl_cons, hgetD, hnone, fileKey, JsMap.get?_set]
    by_cases he : e.1.tenantId = t ∧ e.1.source = s
    · have hkey : key e.1.tenantId e.1.source = key t s := key_eq.mpr he
      simp [he]
    · have hkey : key e.1.tenantId e.1.source ≠ key t s := fun h => he (key_eq.mp h)
      simp [hkey, he]

/-- The map has the places of every source that there is. -/
theorem byKey_get? (t s : JsString) : (byKey work).get? (key t s) =
    if places work t s = [] then none else some (places work t s) := by
  obtain ⟨hgetD, hnone⟩ := fileKey_get? work.zipIdx .empty t s
  have hempty : (places work t s = []) ↔ (byKey work).get? (key t s) = none := by
    rw [byKey, hnone]
    simp [places]
  by_cases hplaces : places work t s = []
  · rw [if_pos hplaces]
    exact hempty.mp hplaces
  · rw [if_neg hplaces]
    cases hget : (byKey work).get? (key t s) with
    | none => exact absurd (hempty.mpr hget) hplaces
    | some indexes =>
      rw [byKey] at hget
      rw [hget] at hgetD
      rw [show indexes = places work t s from hgetD]

/-! ## The links of the graph -/

section Links

variable {item : SourceWorkInput} {dependency : SourceDependency}

/-- A prerequisite that is there once and valid is linked; every other is an issue. -/
theorem link_cases (work : List SourceWorkInput) (now : JsNumber) (item : SourceWorkInput)
    (dependency : SourceDependency) :
    (∃ p prerequisite, (∀ j, Provides work item.tenantId dependency.source j ↔ j = p) ∧
      work[p]? = some prerequisite ∧ valid prerequisite now = true ∧
      link work now item dependency =
        (some p, prerequisiteIssues now dependency prerequisite)) ∨
    ((∀ p prerequisite, (∀ j, Provides work item.tenantId dependency.source j ↔ j = p) →
        work[p]? = some prerequisite → valid prerequisite now = false) ∧
      (link work now item dependency).1 = none ∧ (link work now item dependency).2 ≠ []) := by
  simp only [← places_eq_singleton]
  rw [link, byKey_get?]
  cases hplaces : places work item.tenantId dependency.source with
  | nil => simp
  | cons k rest =>
    cases rest with
    | cons _ _ => simp
    | nil =>
      cases hget : work[k]? with
      | none =>
        refine .inr ⟨?_, by simp [hget]⟩
        intro p prerequisite hp hprerequisite
        cases hp
        rw [hget] at hprerequisite
        cases hprerequisite
      | some found =>
        by_cases hvalid : valid found now = true
        · exact .inl ⟨k, found, rfl, hget, hvalid, by simp [hget, hvalid]⟩
        · refine .inr ⟨?_, by simp [hget, hvalid]⟩
          intro p prerequisite hp hprerequisite
          cases hp
          rw [hget] at hprerequisite
          cases hprerequisite
          simpa using hvalid

theorem link_fst {p : Nat} : (link work now item dependency).1 = some p ↔
    (∀ j, Provides work item.tenantId dependency.source j ↔ j = p) ∧
      ∃ prerequisite, work[p]? = some prerequisite ∧ valid prerequisite now = true := by
  obtain ⟨q, found, honly, hget, hvalid, hlink⟩ | ⟨hinvalid, hnone, _⟩ :=
    link_cases work now item dependency
  · rw [hlink, Option.some.injEq]
    constructor
    · rintro rfl
      exact ⟨honly, found, hget, hvalid⟩
    · rintro ⟨hp, _⟩
      exact (hp q).mp ((honly q).mpr rfl)
  · rw [hnone]
    constructor
    · intro h
      cases h
    · rintro ⟨honly, found, hget, hvalid⟩
      rw [hinvalid p found honly hget] at hvalid
      cases hvalid

theorem prerequisiteIssues_nil {prerequisite : SourceWorkInput} :
    prerequisiteIssues now dependency prerequisite = [] ↔
      verified prerequisite = true ∧ ∃ check, prerequisite.lastComplete = some check ∧
        check.scope = dependency.scope ∧ check.generation = dependency.requiredGeneration ∧
        stale now dependency prerequisite check = false := by
  rw [prerequisiteIssues]
  cases hcomplete : prerequisite.lastComplete with
  | none =>
    have hunverified : verified prerequisite = false := by simp [verified, hcomplete]
    simp [hunverified]
  | some check =>
    by_cases hverified : verified prerequisite = true
    · simp [hverified]
    · rw [Bool.not_eq_true] at hverified
      simp [hverified]

theorem link_snd : (link work now item dependency).2 = [] ↔
    ∃ p, Satisfies work now item.tenantId dependency p := by
  obtain ⟨q, found, honly, hget, hvalid, hlink⟩ | ⟨hinvalid, _, hissues⟩ :=
    link_cases work now item dependency
  · rw [hlink, prerequisiteIssues_nil]
    constructor
    · rintro ⟨hverified, check, hchecked⟩
      exact ⟨q, honly, found, check, hget, hvalid, hverified, hchecked⟩
    · rintro ⟨p, hp, other, check, hother, _, hverified, hchecked⟩
      cases (hp q).mp ((honly q).mpr rfl)
      rw [hget] at hother
      cases hother
      exact ⟨hverified, check, hchecked⟩
  · constructor
    · exact fun h => absurd h hissues
    · rintro ⟨p, hp, found, check, hget, hvalid, _⟩
      rw [hinvalid p found hp hget] at hvalid
      cases hvalid

end Links

/-! ## Walking the graph -/

section Walk

variable {i k p : Nat} {item : SourceWorkInput}

theorem links_eq (hget : work[i]? = some item) (hvalid : valid item now = true) :
    links work now i = item.dependencies.map (link work now item) := by
  simp [links, hget, hvalid]

theorem needs_iff : (graph work now).Needs i p ↔
    ∃ item dependency, work[i]? = some item ∧ valid item now = true ∧
      dependency ∈ item.dependencies ∧ (link work now item dependency).1 = some p := by
  constructor
  · intro h
    obtain ⟨each, heach, hfst⟩ := mem_filterMap.mp h
    rw [links] at heach
    split at heach
    · next item hget =>
      split_ifs at heach with hvalid
      · obtain ⟨dependency, hmem, rfl⟩ := mem_map.mp heach
        exact ⟨item, dependency, hget, hvalid, hmem, hfst⟩
      · cases heach
    · cases heach
  · rintro ⟨item, dependency, hget, hvalid, hmem, hfst⟩
    apply mem_filterMap.mpr
    refine ⟨link work now item dependency, ?_, hfst⟩
    rw [links_eq hget hvalid]
    exact mem_map_of_mem hmem

theorem needs_requires (h : (graph work now).Needs i p) : Requires work i p := by
  obtain ⟨item, dependency, hget, _, hmem, hfst⟩ := needs_iff.mp h
  exact ⟨item, dependency, hget, hmem, ((link_fst.mp hfst).1 p).mpr rfl⟩

section

variable (hget : work[i]? = some item)
include hget

section

variable (hvalid : valid item now = true)
include hvalid

theorem reach_valid
    (h : ReflTransGen (graph work now).Needs i k) :
    ∃ other, work[k]? = some other ∧ valid other now = true := by
  induction h with
  | refl => exact ⟨item, hget, hvalid⟩
  | tail _ hneeds _ =>
    obtain ⟨_, _, _, _, _, hfst⟩ := needs_iff.mp hneeds
    exact (link_fst.mp hfst).2

theorem directIssues_nil :
    directIssues work now i = [] ↔
      ∀ dependency ∈ item.dependencies, ∃ p, Satisfies work now item.tenantId dependency p := by
  rw [directIssues, links_eq hget hvalid, flatMap_eq_nil_iff]
  simp only [mem_map, forall_exists_index, and_imp, forall_apply_eq_imp_iff₂, link_snd]

/-- Where no issue is, every requirement is linked. -/
theorem requires_needs
    (clean : directIssues work now i = []) (h : Requires work i p) :
    (graph work now).Needs i p := by
  obtain ⟨other, dependency, hother, hmem, hprovides⟩ := h
  rw [hget] at hother
  cases hother
  obtain ⟨q, honly, found, check, hfound, hfoundValid, hrest⟩ :=
    (directIssues_nil hget hvalid).mp clean dependency hmem
  cases (honly p).mp hprovides
  exact needs_iff.mpr
    ⟨item, dependency, hget, hvalid, hmem, link_fst.mpr ⟨honly, found, hfound, hfoundValid⟩⟩

section

variable (clean : ∀ k, ReflTransGen (graph work now).Needs i k → directIssues work now k = [])
include clean

theorem requires_reach
    (h : ReflTransGen (Requires work) i k) : ReflTransGen (graph work now).Needs i k := by
  induction h with
  | refl => exact .refl
  | tail _ hrequires ih =>
    obtain ⟨other, hother, hotherValid⟩ := reach_valid hget hvalid ih
    exact ih.tail (requires_needs hother hotherValid (clean _ ih) hrequires)

theorem requires_trans
    (h : TransGen (Requires work) i k) : TransGen (graph work now).Needs i k := by
  obtain ⟨j, hreach, hrequires⟩ := TransGen.tail'_iff.mp h
  have hneeds := requires_reach hget hvalid clean hreach
  obtain ⟨other, hother, hotherValid⟩ := reach_valid hget hvalid hneeds
  exact .tail' hneeds (requires_needs hother hotherValid (clean j hneeds) hrequires)

end

/-- What is required below a valid input is what the graph has below it, as long as that has
no issue. -/
theorem certified_iff :
    Certified work now i ↔ (graph work now).Grounded i ∧
      ∀ k, ReflTransGen (graph work now).Needs i k → directIssues work now k = [] := by
  have hweaker : (graph work now).Needs ≤ Requires work := fun j k => needs_requires
  have hreach := fun k => ReflTransGen.mono hweaker i k
  constructor
  · rintro ⟨hsatisfied, hacyclic⟩
    constructor
    · intro k hk hcycle
      exact hacyclic k (hreach k hk) (TransGen.mono hweaker k k hcycle)
    · intro k hk
      obtain ⟨other, hother, hotherValid⟩ := reach_valid hget hvalid hk
      exact (directIssues_nil hother hotherValid).mpr (hsatisfied k other (hreach k hk) hother)
  · rintro ⟨hgrounded, hclean⟩
    constructor
    · intro k other hk hother
      have hneeds := requires_reach hget hvalid hclean hk
      obtain ⟨same, hsame, hsameValid⟩ := reach_valid hget hvalid hneeds
      rw [hother] at hsame
      cases hsame
      exact (directIssues_nil hother hsameValid).mp (hclean k hneeds)
    · intro k hk hcycle
      have hneeds := requires_reach hget hvalid hclean hk
      obtain ⟨other, hother, hotherValid⟩ := reach_valid hget hvalid hneeds
      exact hgrounded k hneeds
        (requires_trans hother hotherValid (fun j hj => hclean j (hneeds.trans hj)) hcycle)

end

end

theorem resolved_outcome (work : List SourceWorkInput) (now : JsNumber) :
    Peel.Outcome (graph work now) (directIssues work now) (resolved work now) := by
  have hlength : (graph work now).vertices.length = work.length := length_range
  have houtcome := Peel.run_outcome (graph work now) (directIssues work now)
    .dependencyUnverified
  rw [hlength] at houtcome
  exact houtcome

/-- The walk finds an issue exactly when a prerequisite fails or leads back. -/
theorem dependencyIssues_nil (hget : work[i]? = some item) (hvalid : valid item now = true) :
    dependencyIssues work now i = [] ↔ Certified work now i := by
  have hknown : i ∈ (graph work now).vertices :=
    List.mem_range.mpr (List.getElem?_eq_some_iff.mp hget).1
  have houtcome := resolved_outcome work now
  have hremaining := houtcome.remaining i hknown
  rw [certified_iff hget hvalid, dependencyIssues, append_eq_nil_iff, ← hremaining]
  constructor
  · rintro ⟨hmarks, hcycle⟩
    have hleft : (resolved work now).remaining i ≤ 0 := by
      by_contra hpositive
      rw [if_pos (by omega)] at hcycle
      cases hcycle
    exact ⟨hleft, (houtcome.unmarked i hknown (hremaining.mp hleft)).mp hmarks⟩
  · rintro ⟨hleft, hclean⟩
    refine ⟨(houtcome.unmarked i hknown (hremaining.mp hleft)).mpr hclean, ?_⟩
    rw [if_neg]
    omega

end Walk

/-! ## The reasons -/

/-- The reasons that speak of a dependency. -/
def ofDependency : WorkReason → Bool
  | .missingDependency | .dependencyInvalid | .dependencyUnverified | .dependencyStale
  | .dependencyScopeMismatch | .dependencyGenerationMismatch | .dependencyCycle => true
  | .invalidInput | .duplicateSource | .noCompleteCheck | .deadlineDue | .failed | .partly
  | .skipped | .fresh | .running | .retryNotBefore | .budget => false

variable {r : WorkReason}

theorem link_reasons {item : SourceWorkInput} {dependency : SourceDependency}
    (h : r ∈ (link work now item dependency).2) : ofDependency r = true := by
  have hprerequisite : ∀ found, r ∈ prerequisiteIssues now dependency found →
      ofDependency r = true := by
    intro found hr
    rw [prerequisiteIssues] at hr
    split_ifs at hr
    · cases mem_singleton.mp hr
      rfl
    · split at hr
      · cases hr
      · simp only [mem_append] at hr
        obtain (hr | hr) | hr := hr
        all_goals
          split_ifs at hr
          all_goals cases hr <;> trivial
  rw [link] at h
  split at h
  · cases mem_singleton.mp h
    rfl
  · split at h
    · split at h
      · split_ifs at h
        · exact hprerequisite _ h
        · cases mem_singleton.mp h
          rfl
      · cases mem_singleton.mp h
        rfl
    · cases mem_singleton.mp h
      rfl

theorem directIssues_reasons {i : Nat} (h : r ∈ directIssues work now i) :
    ofDependency r = true := by
  obtain ⟨each, heach, hr⟩ := mem_flatMap.mp h
  rw [links] at heach
  split at heach
  · split_ifs at heach
    · obtain ⟨dependency, _, rfl⟩ := mem_map.mp heach
      exact link_reasons hr
    · cases heach
  · cases heach

theorem dependencyIssues_reasons {i : Nat} (h : r ∈ dependencyIssues work now i) :
    ofDependency r = true := by
  rw [dependencyIssues, mem_append] at h
  obtain h | h := h
  · exact Peel.run_marks_all (P := fun r => ofDependency r = true) rfl (graph work now)
      work.length (fun v m hm => directIssues_reasons hm) i r h
  · split_ifs at h
    · cases mem_singleton.mp h
      rfl
    · cases h

/-! ## The decisions -/

/-- Reported as blocked for a dependency. -/
def HeldBack (decision : WorkDecision) : Prop :=
  decision.disposition = .blocked ∧ ∃ r ∈ decision.reasons, ofDependency r = true

/-- What a selection stands for. -/
structure Cleared (work : List SourceWorkInput) (now : JsNumber) (i : Nat)
    (item : SourceWorkInput) : Prop where
  valid : valid item now = true
  unique : Unique work i item
  certified : Certified work now i

/-- The inputs that are judged by their dependencies. -/
structure Judged (work : List SourceWorkInput) (now : JsNumber) (i : Nat)
    (item : SourceWorkInput) : Prop where
  valid : SourceWorkPlanner.valid item now = true
  unique : Unique work i item
  idle : ∀ attempt, item.lastAttempt = some attempt → attempt.outcome ≠ .running

/-- A decision before the budget is spent. -/
structure Decided (work : List SourceWorkInput) (now : JsNumber) (i : Nat)
    (item : SourceWorkInput) (entry : WorkDecision × Bool) : Prop where
  index : entry.1.inputIndex = i
  unselected : entry.1.disposition ≠ .selected
  eligible : entry.2 = true → entry.1.disposition = .deferred ∧ Cleared work now i item
  heldBack : HeldBack entry.1 ↔ Judged work now i item ∧ ¬ Certified work now i

section Decisions

variable {i : Nat} {item : SourceWorkInput}

theorem unique_iff (hget : work[i]? = some item) :
    ((byKey work).get? (key item.tenantId item.source)).any (·.length != 1) = false ↔
      Unique work i item := by
  have hmem : i ∈ places work item.tenantId item.source := mem_places.mpr ⟨item, hget, rfl, rfl⟩
  rw [Unique, ← places_eq_singleton, byKey_get?, if_neg (ne_nil_of_mem hmem)]
  simp only [Option.any_some, bne_eq_false_iff_eq]
  constructor
  · intro hlength
    obtain ⟨k, hk⟩ := List.length_eq_one_iff.mp hlength
    rw [hk, mem_singleton] at hmem
    rw [hk, hmem]
  · intro h
    rw [h]
    rfl

theorem idle_iff : item.lastAttempt.any (fun attempt => attempt.outcome == .running) = false ↔
    ∀ attempt, item.lastAttempt = some attempt → attempt.outcome ≠ .running := by
  cases item.lastAttempt with
  | none => simp
  | some attempt => simp

variable {decision : WorkDecision}

/-- A decision that is reported for a reason of the input itself. -/
theorem Decided.unjudged {r : WorkReason} (index : decision.inputIndex = i)
    (unselected : decision.disposition ≠ .selected) (reasons : decision.reasons = [r])
    (own : ofDependency r = false) (not : ¬ Judged work now i item) :
    Decided work now i item (decision, false) where
  index := index
  unselected := unselected
  eligible h := absurd h Bool.false_ne_true
  heldBack := by
    constructor
    · rintro ⟨_, r', hr', hdependency⟩
      rw [reasons, mem_singleton] at hr'
      rw [hr', own] at hdependency
      cases hdependency
    · rintro ⟨hjudged, _⟩
      exact absurd hjudged not

/-- A decision on an input whose dependencies are certified. -/
theorem Decided.certified {eligible : Bool} (index : decision.inputIndex = i)
    (deferred : decision.disposition = .deferred) (cleared : Cleared work now i item) :
    Decided work now i item (decision, eligible) where
  index := index
  unselected := by simp [deferred]
  eligible _ := ⟨deferred, cleared⟩
  heldBack := by
    constructor
    · rintro ⟨hblocked, _⟩
      rw [deferred] at hblocked
      cases hblocked
    · rintro ⟨_, huncertified⟩
      exact absurd cleared.certified huncertified

theorem decideOn_decided (now : JsNumber) (hget : work[i]? = some item) :
    Decided work now i item (decideOn work now item i) := by
  simp only [decideOn]
  by_cases hvalid : valid item now = false
  · rw [if_pos hvalid]
    refine .unjudged rfl (by simp) rfl rfl ?_
    intro hjudged
    rw [hjudged.valid] at hvalid
    cases hvalid
  rw [if_neg hvalid]
  rw [Bool.not_eq_false] at hvalid
  have hunique := unique_iff hget
  by_cases hdouble : ((byKey work).get? (key item.tenantId item.source)).any (·.length != 1) = true
  · rw [if_pos hdouble]
    refine .unjudged rfl (by simp) rfl rfl ?_
    intro hjudged
    rw [hunique.mpr hjudged.unique] at hdouble
    cases hdouble
  rw [if_neg hdouble]
  rw [Bool.not_eq_true, hunique] at hdouble
  by_cases hrunning : item.lastAttempt.any (fun attempt => attempt.outcome == .running) = true
  · rw [if_pos hrunning]
    refine .unjudged rfl (by simp) rfl rfl ?_
    intro hjudged
    rw [idle_iff.mpr hjudged.idle] at hrunning
    cases hrunning
  rw [if_neg hrunning]
  rw [Bool.not_eq_true, idle_iff] at hrunning
  have hissues := dependencyIssues_nil hget hvalid
  by_cases hblockers : dependencyIssues work now i = []
  · have hcleared : Cleared work now i item := ⟨hvalid, hdouble, hissues.mp hblockers⟩
    rw [if_neg (not_not.mpr hblockers)]
    split_ifs
    · exact .certified rfl rfl hcleared
    · exact .certified rfl rfl hcleared
    · exact .certified rfl rfl hcleared
  · rw [if_pos hblockers]
    refine ⟨rfl, by simp, by simp, ?_⟩
    constructor
    · intro _
      exact ⟨⟨hvalid, hdouble, hrunning⟩, fun hcertified => hblockers (hissues.mpr hcertified)⟩
    · intro _
      obtain ⟨r, hr⟩ := exists_mem_of_ne_nil _ hblockers
      refine ⟨rfl, r, ?_, dependencyIssues_reasons hr⟩
      rw [mem_append, mem_eraseDups]
      exact .inr hr

end Decisions

/-! ## The plan -/

variable {eligible : List WorkDecision}

/-- The budget selects an eligible decision or adds its reason. -/
theorem spend_cases {budget : Budget} {n : Nat} {cost : JsNumber} {judged : WorkDecision}
    (h : judged ∈ (spend work budget n cost eligible).1) :
    ∃ decision ∈ eligible, judged = { decision with disposition := .selected } ∨
      judged = { decision with reasons := decision.reasons ++ [.budget] } := by
  induction eligible generalizing n cost with
  | nil => cases h
  | cons decision eligible ih =>
    simp only [spend] at h
    split_ifs at h
    · rw [mem_cons] at h
      obtain rfl | h := h
      · exact ⟨decision, by simp, .inr rfl⟩
      · obtain ⟨other, hother, hjudged⟩ := ih h
        exact ⟨other, mem_cons_of_mem _ hother, hjudged⟩
    · rw [mem_cons] at h
      obtain rfl | h := h
      · exact ⟨decision, by simp, .inl rfl⟩
      · obtain ⟨other, hother, hjudged⟩ := ih h
        exact ⟨other, mem_cons_of_mem _ hother, hjudged⟩

/-- What is judged by the budget is free of its dependencies. -/
theorem judged_cleared (budget : Budget) (n : Nat) (cost : JsNumber)
    (heligible : ∀ decision ∈ eligible, ∃ i item, work[i]? = some item ∧
      decision = (decideOn work now item i).1 ∧ (decideOn work now item i).2 = true)
    (judged : WorkDecision) (h : judged ∈ (spend work budget n cost eligible).1) :
    ∃ i item, work[i]? = some item ∧ judged.inputIndex = i ∧ judged.disposition ≠ .blocked ∧
      (decideOn work now item i).2 = true := by
  obtain ⟨decision, hmem, hjudged⟩ := spend_cases h
  obtain ⟨i, item, hget, rfl, hbudget⟩ := heligible decision hmem
  have hdecided := decideOn_decided now hget
  have hdeferred := (hdecided.eligible hbudget).1
  obtain rfl | rfl := hjudged
  · exact ⟨i, item, hget, hdecided.index, by simp, hbudget⟩
  · exact ⟨i, item, hget, hdecided.index, by simp [hdeferred], hbudget⟩

/-- The dependency walk has ended, what is selected is cleared, and an input that is judged by
its dependencies is held back unless they hold. -/
structure Sound (work : List SourceWorkInput) (now : JsNumber) (plan : SourceWorkPlan) :
    Prop where
  ended : (resolved work now).waiting = []
  selected : ∀ decision ∈ plan.selected,
    ∃ item, work[decision.inputIndex]? = some item ∧ Cleared work now decision.inputIndex item
  decisions : ∀ i item, work[i]? = some item →
    ∃ decision, plan.decisions[i]? = some decision ∧ decision.inputIndex = i ∧
      (decision.disposition = .selected → Cleared work now i item) ∧
      (HeldBack decision ↔ Judged work now i item ∧ ¬ Certified work now i)

theorem plan_sound {budget : Budget} {plan : SourceWorkPlan}
    (h : planSourceWork work now budget = some plan) : Sound work now plan := by
  simp only [planSourceWork] at h
  split_ifs at h
  cases h
  generalize hentries : work.zipIdx.map (fun entry => decideOn work now entry.1 entry.2) = entries
  generalize helig : ((entries.filter Prod.snd).map Prod.fst).insertionSort
    (fun a b => sortsBefore a b = true) = eligible
  have heligible : ∀ decision ∈ eligible, ∃ i item, work[i]? = some item ∧
      decision = (decideOn work now item i).1 ∧ (decideOn work now item i).2 = true := by
    intro decision hmem
    rw [← helig, mem_insertionSort, mem_map] at hmem
    obtain ⟨entry, hentry, rfl⟩ := hmem
    obtain ⟨hentry, hbudget⟩ := mem_filter.mp hentry
    rw [← hentries, mem_map] at hentry
    obtain ⟨⟨item, i⟩, hitem, rfl⟩ := hentry
    exact ⟨i, item, mem_zipIdx_iff_getElem?.mp hitem, rfl, hbudget⟩
  have hjudged := judged_cleared budget 0 (.ofNat 0) heligible
  refine ⟨(resolved_outcome work now).ended, ?_, ?_⟩
  · intro decision hmem
    obtain ⟨i, item, hget, rfl, _, hbudget⟩ := hjudged decision (mem_filter.mp hmem).1
    exact ⟨item, hget, ((decideOn_decided now hget).eligible hbudget).2⟩
  · intro i item hget
    have hdecided := decideOn_decided now hget
    have hentry : entries[i]? = some (decideOn work now item i) := by
      simp [← hentries, hget]
    refine ⟨_, by rw [getElem?_map, hentry]; rfl, ?_⟩
    simp only [hdecided.index]
    cases hfind : (spend work budget 0 (.ofNat 0) eligible).1.find?
        fun decision => decision.inputIndex == i with
    | none =>
      refine ⟨hdecided.index, ?_, hdecided.heldBack⟩
      exact fun hselected => absurd hselected hdecided.unselected
    | some judged =>
      have hindex : judged.inputIndex = i := by simpa using find?_some hfind
      obtain ⟨j, other, hother, hj, hunblocked, hbudget⟩ :=
        hjudged judged (mem_of_find?_eq_some hfind)
      cases hj.symm.trans hindex
      rw [hget] at hother
      cases hother
      have hcleared := (hdecided.eligible hbudget).2
      refine ⟨hindex, fun _ => hcleared, ?_⟩
      constructor
      · exact fun hheld => absurd hheld.1 hunblocked
      · exact fun hfails => absurd hcleared.certified hfails.2

def sampleWork (source : JsString) (dependencies : List SourceDependency) : SourceWorkInput where
  tenantId := js "t"
  source := source
  scope := js "all"
  lastComplete := none
  lastAttempt := none
  retryNotBefore := none
  deadline := .ofNat 5
  maxAgeMs := .ofNat 10
  estimatedCost := .ofNat 1
  dependencies := dependencies

/-- Users after roles. -/
def userWork : SourceWorkInput :=
  sampleWork (js "users") [⟨js "roles", js "all", js "g1", .ofNat 10⟩]

def checkedRoles : SourceWorkInput :=
  { sampleWork (js "roles") [] with lastComplete := some ⟨.ofNat 2, js "g1", js "all"⟩ }

def sampleBudget : Budget := ⟨.ofNat 2, .ofNat 9⟩

theorem plan_sound_sample :
    ((planSourceWork [userWork, checkedRoles] (.ofNat 6) sampleBudget).get
      (by decide +kernel)).selected.map (·.inputIndex) = [1, 0] ∧
    Sound [userWork, checkedRoles] (.ofNat 6)
      ((planSourceWork [userWork, checkedRoles] (.ofNat 6) sampleBudget).get
        (by decide +kernel)) :=
  ⟨by decide +kernel, plan_sound (Option.some_get _).symm⟩

def runningUsers : SourceWorkInput := { userWork with lastAttempt := some ⟨.ofNat 3, .running⟩ }

/-- A source that is being collected is deferred although the one before it is not there. -/
theorem running_not_held_back :
    ((planSourceWork [runningUsers] (.ofNat 6) sampleBudget).map fun plan =>
      plan.decisions.map fun decision => (decision.disposition, decision.reasons)) =
        some [(.deferred, [.running])] ∧
    (∃ dependency ∈ runningUsers.dependencies,
      ∀ k, ¬ Provides [runningUsers] runningUsers.tenantId dependency.source k) ∧
    ¬ Certified [runningUsers] (.ofNat 6) 0 := by
  have hmissing : ∀ k, ¬ Provides [runningUsers] (js "t") (js "roles") k := by
    rintro k ⟨item, hget, _, hsource⟩
    cases mem_singleton.mp (mem_of_getElem? hget)
    revert hsource
    decide
  refine ⟨by decide +kernel, ⟨_, mem_singleton.mpr rfl, hmissing⟩, ?_⟩
  intro hcertified
  obtain ⟨p, honly, _⟩ :=
    hcertified.satisfied 0 runningUsers .refl rfl _ (mem_singleton.mpr rfl)
  exact hmissing p ((honly p).mpr rfl)

end PlanSound
