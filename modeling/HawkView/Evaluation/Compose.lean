import HawkView.Evaluation.EarnedCount
import HawkView.Lib.JsMap

/-!
# One answer for a tenant

Streams are assessed on their own and joined here. A stream that could not
answer withholds the exact count of the tenant and takes nothing away from what
the others found.
-/

namespace Compose

open EvaluationContract Evaluate EarnedCount List

/-- `none` is the tenant itself. -/
structure Withholding where
  stream : Option JsString
  because : WithheldReason
  deriving DecidableEq, Repr

structure StreamAssessment where
  stream : JsString
  assessment : Assessment

inductive TenantClaim
  | permitted
  | withheld (withheld : List Withholding)
  deriving DecidableEq, Repr

def TenantClaim.isPermitted : TenantClaim → Bool
  | .permitted => true
  | .withheld _ => false

structure TenantAssessment where
  streams : List StreamAssessment
  findings : FindingSet
  count : Count
  claim : TenantClaim

def vocabularyText : SetAsideVocabulary → JsString
  | .doesNotApply => js "DOES_NOT_APPLY"
  | .notYetCited => js "NOT_YET_CITED"
  | .unknown => js "UNKNOWN"
  | .unprocessable => js "UNPROCESSABLE"

/-- `${entry.vocabulary}\u0000${entry.reason}`. -/
def setAsideKey (entry : SetAside) : JsString := vocabularyText entry.vocabulary ++ 0 :: entry.reason

def mergeSetAside (merged : JsMap JsString SetAside) (entry : SetAside) :
    JsMap JsString SetAside :=
  match merged.get? (setAsideKey entry) with
  | none => merged.set (setAsideKey entry) entry
  | some running =>
    merged.set (setAsideKey entry) { entry with count := running.count + entry.count }

def withheldOf (streams : List StreamAssessment) : List Withholding :=
  if streams.isEmpty then [⟨none, .nothingApplicable⟩]
  else streams.flatMap fun entry =>
    entry.assessment.claim.reasons.map fun because => ⟨some entry.stream, because⟩

def composeTenantAssessment (streams : List StreamAssessment) : TenantAssessment :=
  let findings := streams.flatMap fun entry => entry.assessment.findings.items
  let findingGaps := (streams.flatMap fun entry => entry.assessment.findings.because).eraseDups
  let withheld := withheldOf streams
  let claim : TenantClaim := if withheld.isEmpty then .permitted else .withheld withheld
  let scopes := streams.map fun entry => entry.assessment.count.scope
  { streams := streams
    findings := ⟨findings, findingGaps⟩
    count := countOf (distinctUsers findings) claim.isPermitted
      { evidenceRequested := (scopes.flatMap CountScope.evidenceRequested).eraseDups
        setAside := ((scopes.flatMap CountScope.setAside).foldl mergeSetAside .empty).values
        covered := scopes.flatMap CountScope.covered
        notCovered := scopes.flatMap CountScope.notCovered }
    claim := claim }

/-! ## What was set aside -/

theorem vocabularyText_injective {a b : SetAsideVocabulary}
    (h : vocabularyText a = vocabularyText b) : a = b := by
  revert h
  cases a <;> cases b <;> decide

theorem nul_not_in_vocabulary (a : SetAsideVocabulary) : 0 ∉ vocabularyText a := by
  cases a <;> decide

variable {e : SetAside}

/-- A key stands for one vocabulary and one reason. -/
theorem setAsideKey_eq {f : SetAside} (h : setAsideKey e = setAsideKey f) :
    e.vocabulary = f.vocabulary ∧ e.reason = f.reason := by
  have he := splitFirst_append (nul_not_in_vocabulary e.vocabulary) e.reason
  have hf := splitFirst_append (nul_not_in_vocabulary f.vocabulary) f.reason
  rw [setAsideKey, setAsideKey] at h
  rw [h, hf] at he
  cases e
  cases f
  simp only [Option.some.injEq, Prod.mk.injEq] at he
  exact ⟨vocabularyText_injective he.1.symm, he.2.symm⟩

/-- What an entry counts for one vocabulary and one reason. -/
def share (vocabulary : SetAsideVocabulary) (reason : JsString) (entry : SetAside) : Nat :=
  if entry.vocabulary = vocabulary ∧ entry.reason = reason then entry.count else 0

def setAsideTotal (vocabulary : SetAsideVocabulary) (reason : JsString)
    (entries : List SetAside) : Nat := (entries.map (share vocabulary reason)).sum

/-- Every entry stands under its own key. -/
def Filed (merged : JsMap JsString SetAside) : Prop :=
  ∀ entry ∈ merged.entries, entry.1 = setAsideKey entry.2

variable {merged : JsMap JsString SetAside}

theorem filed_set (filed : Filed merged) {k : JsString} (hk : k = setAsideKey e) :
    Filed (merged.set k e) := by
  intro entry hentry
  rw [← Prod.mk.eta (p := entry), ← JsMap.get?_eq_some, JsMap.get?_set] at hentry
  split_ifs at hentry with hsame
  · rw [← hsame, hk, Option.some.inj hentry]
  · exact filed entry (JsMap.get?_eq_some.mp hentry)

theorem filed_merge (filed : Filed merged) (e : SetAside) :
    Filed (mergeSetAside merged e) := by
  rw [mergeSetAside]
  split
  · exact filed_set filed rfl
  · exact filed_set filed rfl

theorem share_running {running : SetAside} (hvocabulary : e.vocabulary = running.vocabulary)
    (hreason : e.reason = running.reason) (v : SetAsideVocabulary) (r : JsString) :
    share v r { e with count := running.count + e.count } = share v r running + share v r e := by
  simp only [share, hvocabulary, hreason]
  split_ifs <;> rfl

/-- Merging an entry adds what it counts. -/
theorem total_merge (filed : Filed merged) (e : SetAside) (v : SetAsideVocabulary) (r : JsString) :
    setAsideTotal v r (mergeSetAside merged e).values =
      setAsideTotal v r merged.values + share v r e := by
  simp only [setAsideTotal, JsMap.values, List.map_map]
  rw [mergeSetAside]
  cases hheld : merged.get? (setAsideKey e) with
  | none => exact JsMap.sum_set_fresh _ hheld e
  | some running =>
    have hfiled : setAsideKey e = setAsideKey running := filed _ (JsMap.get?_eq_some.mp hheld)
    obtain ⟨hvocabulary, hreason⟩ := setAsideKey_eq hfiled
    have hsum := JsMap.sum_set_held (share v r ∘ Prod.snd) hheld
      { e with count := running.count + e.count }
    simp only [Function.comp_apply, share_running hvocabulary hreason] at hsum
    simp only
    omega

theorem total_fold (es : List SetAside) (filed : Filed merged) (v : SetAsideVocabulary)
    (r : JsString) :
    setAsideTotal v r (es.foldl mergeSetAside merged).values =
      setAsideTotal v r merged.values + setAsideTotal v r es := by
  induction es generalizing merged with
  | nil => simp [setAsideTotal]
  | cons e es ih =>
    rw [foldl_cons, ih (filed_merge filed e), total_merge filed]
    simp only [setAsideTotal, map_cons, sum_cons]
    omega

theorem total_flatMap (v : SetAsideVocabulary) (r : JsString) (scopes : List CountScope) :
    setAsideTotal v r (scopes.flatMap CountScope.setAside) =
      (scopes.map fun scope => setAsideTotal v r scope.setAside).sum := by
  induction scopes with
  | nil => rfl
  | cons scope scopes ih =>
    simp only [flatMap_cons, map_cons, sum_cons, ← ih]
    simp only [setAsideTotal, map_append, sum_append]

/-! ## The claim of the tenant -/

theorem reasons_eq_nil {claim : ZeroClaim} : claim.reasons = [] ↔ claim.isPermitted = true := by
  cases claim <;> simp [ZeroClaim.reasons, ZeroClaim.isPermitted]

theorem withheldOf_eq_nil {streams : List StreamAssessment} :
    withheldOf streams = [] ↔
      streams ≠ [] ∧ ∀ entry ∈ streams, entry.assessment.claim.isPermitted = true := by
  cases streams with
  | nil => simp [withheldOf]
  | cons entry streams =>
    simp only [withheldOf, isEmpty_cons, Bool.false_eq_true, if_false,
      flatMap_eq_nil_iff, map_eq_nil_iff, reasons_eq_nil, ne_eq, reduceCtorEq,
      not_false_eq_true, true_and]

theorem users_flatMap (streams : List StreamAssessment) :
    users (streams.flatMap fun entry => entry.assessment.findings.items) =
      {user | ∃ entry ∈ streams, user ∈ users entry.assessment.findings.items} := by
  ext user
  simp only [users_eq, Set.mem_ofPred_eq, mem_filterMap, mem_flatMap]
  constructor
  · rintro ⟨f, ⟨entry, hentry, hf⟩, huser⟩
    exact ⟨entry, hentry, f, hf, huser⟩
  · rintro ⟨entry, hentry, f, hf, huser⟩
    exact ⟨f, ⟨entry, hentry, hf⟩, huser⟩

/-- `count.value`. -/
def value : Count → Option Nat
  | .exact value _ => some value
  | .atLeast value _ => some value
  | .notAvailable _ => none

def Count.isExact : Count → Bool
  | .exact _ _ => true
  | .atLeast _ _ => false
  | .notAvailable _ => false

theorem countOf_isExact (n : Nat) (permitted : Bool) (scope : CountScope) :
    Count.isExact (countOf n permitted scope) = permitted := by
  rw [countOf]
  cases permitted with
  | true => rfl
  | false =>
    simp only [Bool.false_eq_true, if_false]
    split <;> rfl

/-- A count states its number, and states none only when it is zero. -/
theorem countOf_value (n : Nat) (permitted : Bool) (scope : CountScope) :
    (value (countOf n permitted scope)).getD 0 = n := by
  rw [countOf]
  split_ifs with hpermitted hpos
  · rfl
  · rfl
  · have hzero : n = 0 := by omega
    rw [hzero]
    rfl

theorem countOf_scope (n : Nat) (permitted : Bool) (scope : CountScope) :
    (countOf n permitted scope).scope = scope := by
  rw [countOf]
  split_ifs <;> rfl

/-! ## The tenant -/

section Tenant

variable (streams : List StreamAssessment)

theorem compose_isExact : Count.isExact (composeTenantAssessment streams).count = true ↔
    streams ≠ [] ∧ ∀ entry ∈ streams, entry.assessment.claim.isPermitted = true := by
  rw [← withheldOf_eq_nil]
  simp only [composeTenantAssessment, countOf_isExact]
  cases withheldOf streams with
  | nil => simp [TenantClaim.isPermitted]
  | cons first rest => simp [TenantClaim.isPermitted]

theorem compose_setAside (v : SetAsideVocabulary) (r : JsString) :
    setAsideTotal v r (composeTenantAssessment streams).count.scope.setAside =
      (streams.map fun entry =>
        setAsideTotal v r entry.assessment.count.scope.setAside).sum := by
  have hempty : Filed .empty := fun entry hentry => absurd hentry not_mem_nil
  simp only [composeTenantAssessment, countOf_scope]
  rw [total_fold _ hempty, total_flatMap, List.map_map]
  exact Nat.zero_add _

/-- What the tenant says of its streams. -/
structure Faithful : Prop where
  exact : Count.isExact (composeTenantAssessment streams).count = true ↔
    streams ≠ [] ∧ ∀ entry ∈ streams, entry.assessment.claim.isPermitted = true
  users : (value (composeTenantAssessment streams).count).getD 0 =
    Set.ncard {user | ∃ entry ∈ streams, user ∈ users entry.assessment.findings.items}
  findings : (composeTenantAssessment streams).findings.items =
    streams.flatMap fun entry => entry.assessment.findings.items
  setAside : ∀ v r, setAsideTotal v r (composeTenantAssessment streams).count.scope.setAside =
    (streams.map fun entry => setAsideTotal v r entry.assessment.count.scope.setAside).sum

theorem compose_faithful : Faithful streams where
  exact := compose_isExact streams
  users := by
    rw [← users_flatMap, ← distinctUsers_eq]
    exact countOf_value _ _ _
  findings := rfl
  setAside := compose_setAside streams

end Tenant

end Compose
