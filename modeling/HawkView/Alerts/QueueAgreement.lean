import HawkView.Alerts.SendStore

/-!
# The queue's rules and their statements

Each rule of the queue is written twice, as a function of a job and as the `WHERE` clause of a
statement. A claim refuses a little more than `eligibility`: a column has microseconds, and a
job that is read back has lost them. The preview of a stop and the stop itself take the same
jobs, unless the organisation's id has pattern characters.
-/

namespace QueueAgreement

open SendTables SendQueue SendStore List

/-! ## Claims -/

/-- Claimed and not expired, as the statement sees the row. -/
def heldRow (row : JobRow) (nowIso : Millis) : Bool :=
  row.claimExpiresAt.any fun expires => decide (timestamptz nowIso < expires)

/-- Claimed and not expired, as `eligibility` sees the job. -/
def heldJob (job : SendJob) (nowIso : Millis) : Bool :=
  job.claim.any fun claim => decide (nowIso < claim.expiresIso)

/-- Later than a time of the program, but in the millisecond that begins with it. -/
def InMillisecond (nowIso : Millis) (t : Micros) : Prop :=
  timestamptz nowIso < t ∧ iso t = nowIso

theorem iso_le_of_le {t : Micros} {now : Millis} (h : t ≤ timestamptz now) : iso t ≤ now := by
  simp only [timestamptz, iso, Micros, Millis] at *
  omega

theorem le_of_iso_le {t : Micros} {now : Millis} (h : iso t ≤ now) (out : ¬InMillisecond now t) :
    t ≤ timestamptz now := by
  simp only [InMillisecond, timestamptz, iso, Micros, Millis] at *
  omega

/-- The claim that is read back is the claim of the row, with the time it ends. -/
theorem expires_jobFrom {row : JobRow} (h : row.check = true) :
    (jobFrom row).claim.map Claim.expiresIso = row.claimExpiresAt.map iso := by
  have hall : allOrNone row.claimedBy row.claimedAt row.claimExpiresAt = true := by
    simp only [JobRow.check, Bool.and_eq_true] at h
    exact h.1.1.1.1.2
  simp only [jobFrom]
  cases hby : row.claimedBy <;> cases hat : row.claimedAt <;>
    cases hexpires : row.claimExpiresAt <;>
    simp [allOrNone, hby, hat, hexpires] at hall ⊢

theorem heldJob_iff {row : JobRow} (h : row.check = true) {now : Millis} :
    heldJob (jobFrom row) now = true ↔ ∃ t ∈ row.claimExpiresAt, now < iso t := by
  have hexpires := expires_jobFrom h
  cases hclaim : (jobFrom row).claim <;> cases hend : row.claimExpiresAt <;>
    simp_all [heldJob]

theorem eligible_jobFrom {row : JobRow} {now : Millis} :
    eligibility (jobFrom row) now = .mayAttempt ↔
      terminal row.state = false ∧ row.attemptsMade < row.maxAttempts ∧
        iso row.notBeforeAt ≤ now ∧ heldJob (jobFrom row) now = false := by
  rw [eligible_iff]
  simp only [heldJob, Option.any_eq_false, decide_eq_false_iff_not, Int.not_lt]
  rfl

theorem claim_applies {row : JobRow} {worker : WorkerId} {now hold : Millis} :
    (claimStatement row.messageId worker now hold).applies row = true ↔
      terminal row.state = false ∧ row.attemptsMade < row.maxAttempts ∧
        row.notBeforeAt ≤ timestamptz now ∧ heldRow row now = false := by
  simp only [claimStatement, beq_self_eq_true, Bool.true_and, Bool.and_eq_true, Bool.not_eq_true',
    decide_eq_true_eq, heldRow, Option.any_eq_false, decide_eq_false_iff_not, Int.not_lt,
    Option.all_eq_true, and_assoc]

/-- The statement claims only what is eligible, and what it takes for held is held or ends within
the millisecond; out of that millisecond the two agree. -/
theorem claim_refines_eligibility (row : JobRow) (worker : WorkerId) (now hold : Millis)
    (h : row.check = true) :
    ((claimStatement row.messageId worker now hold).applies row = true →
      eligibility (jobFrom row) now = .mayAttempt) ∧
    (heldJob (jobFrom row) now = true → heldRow row now = true) ∧
    ((∀ t ∈ row.claimExpiresAt, ¬InMillisecond now t) →
      heldJob (jobFrom row) now = heldRow row now ∧
      (¬InMillisecond now row.notBeforeAt →
        ((claimStatement row.messageId worker now hold).applies row = true ↔
          eligibility (jobFrom row) now = .mayAttempt))) := by
  have hheld : heldJob (jobFrom row) now = true → heldRow row now = true := by
    rw [heldJob_iff h]
    rintro ⟨t, ht, hlt⟩
    simp only [heldRow, Option.any_eq_true, decide_eq_true_eq]
    exact ⟨t, ht, by simp only [timestamptz, iso, Micros, Millis] at *; omega⟩
  have hfree : heldRow row now = false → heldJob (jobFrom row) now = false := by
    intro hrow
    rw [Bool.eq_false_iff] at hrow ⊢
    exact fun hjob => hrow (hheld hjob)
  refine ⟨?_, hheld, fun hexpires => ?_⟩
  · rw [claim_applies, eligible_jobFrom]
    rintro ⟨hlive, hbudget, hdue, hrow⟩
    exact ⟨hlive, hbudget, iso_le_of_le hdue, hfree hrow⟩
  · have hsame : heldJob (jobFrom row) now = heldRow row now := by
      rw [Bool.eq_iff_iff]
      refine ⟨hheld, ?_⟩
      simp only [heldRow, Option.any_eq_true, decide_eq_true_eq, heldJob_iff h]
      rintro ⟨t, ht, hlt⟩
      refine ⟨t, ht, ?_⟩
      by_contra hle
      exact absurd hlt (Int.not_lt.mpr (le_of_iso_le (Int.not_lt.mp hle) (hexpires t ht)))
    refine ⟨hsame, fun hdue => ?_⟩
    rw [claim_applies, eligible_jobFrom, hsame]
    constructor
    · exact fun ⟨hlive, hbudget, hle, hrow⟩ => ⟨hlive, hbudget, iso_le_of_le hle, hrow⟩
    · exact fun ⟨hlive, hbudget, hle, hrow⟩ => ⟨hlive, hbudget, le_of_iso_le hle hdue, hrow⟩

/-- A job of an organisation's incident, due half a millisecond after the epoch. -/
def sampleRow : JobRow where
  messageId := js "incident/org|1"
  idempotencyKey := js "key"
  state := .ready
  attemptsMade := 0
  maxAttempts := 3
  notBeforeAt := 500
  claimedBy := none
  claimedAt := none
  claimExpiresAt := none
  providerId := none
  createdAt := 0
  cancelledAt := none
  cancelledBy := none
  cancelledBecause := none
  withdrawnAt := none
  withdrawnBecause := none

theorem sampleRow_unclaimed :
    eligibility (jobFrom sampleRow) 1 = .mayAttempt :=
  (claim_refines_eligibility sampleRow [] 1 60000 (by decide +kernel)).1 (by decide +kernel)

/-- At the epoch the job is eligible, and the statement does not claim it. -/
theorem eligible_not_claimed : ¬∀ (row : JobRow) (worker : WorkerId) (now hold : Millis),
    row.check = true → ((claimStatement row.messageId worker now hold).applies row = true ↔
      eligibility (jobFrom row) now = .mayAttempt) := by
  intro h
  have hclaim := (h sampleRow [] 0 60000 (by decide +kernel)).mpr (by decide +kernel)
  rw [claim_applies] at hclaim
  exact absurd hclaim.2.2.1 (by decide +kernel)

/-! ## The stop button -/

/-- A scope whose statement takes its organisation's id as it is. -/
def Plain : CancelScope → Prop
  | .everything _ => True
  | .organisation organizationId _ => ∀ c ∈ organizationId, JsString.Literal c

theorem created_before {t : Micros} {before : Millis} :
    t < timestamptz before ↔ iso t < before := by
  simp only [timestamptz, iso, Micros, Millis] at *
  omega

theorem plain_iff {organizationId : JsString} :
    (∀ text, JsString.like (organisationScope organizationId ++ js "%") text =
      JsString.startsWith text (organisationScope organizationId)) ↔
        ∀ c ∈ organizationId, JsString.Literal c := by
  have hincident : ∀ c ∈ js "incident/", JsString.Literal c := by
    have hall : (js "incident/").all (fun c => decide (JsString.Literal c)) = true := by
      decide +kernel
    exact fun c hc => of_decide_eq_true (List.all_eq_true.mp hall c hc)
  have hagree := @JsString.like_iff_startsWith 0x7C (js "incident/" ++ organizationId)
    (by decide)
  simp only [forall_mem_append] at hagree
  rw [organisationScope, show js "|" = [0x7C] from rfl, show js "%" = [0x25] from rfl]
  simp only [append_assoc, singleton_append] at hagree ⊢
  exact hagree.trans (and_iff_right hincident)

/-- A job that the stop may take, apart from its organisation. -/
def stoppable (row : JobRow) (before : Millis) : Bool :=
  !terminal row.state && decide (iso row.createdAt < before)

theorem wouldCancel_organisation (row : JobRow) (organizationId : JsString) (before : Millis) :
    wouldCancel (jobFrom row) (.organisation organizationId before) (iso row.createdAt) =
      (stoppable row before && JsString.startsWith row.messageId
        (organisationScope organizationId)) := by
  unfold wouldCancel stoppable
  cases hstate : terminal row.state <;> by_cases hcreated : iso row.createdAt < before <;>
    simp [jobFrom, CancelScope.createdBeforeIso, hstate, hcreated]

theorem targets_organisation (row : JobRow) (organizationId : JsString) (before : Millis) :
    CancelScope.targets (.organisation organizationId before) row =
      (stoppable row before && JsString.like (organisationScope organizationId ++ js "%")
        row.messageId) := by
  simp only [CancelScope.targets, CancelScope.createdBeforeIso, created_before, stoppable]

/-- The preview of a stop is the stop exactly when no pattern character is in the scope. -/
theorem preview_agrees_iff (scope : CancelScope) :
    (∀ row : JobRow, row.check = true →
      wouldCancel (jobFrom row) scope (iso row.createdAt) = scope.targets row) ↔ Plain scope := by
  cases scope with
  | everything before =>
    refine iff_of_true (fun row _ => ?_) trivial
    simp only [wouldCancel, CancelScope.targets, CancelScope.createdBeforeIso, created_before]
    cases hstate : terminal row.state <;> by_cases hcreated : iso row.createdAt < before <;>
      simp [jobFrom, hstate, hcreated]
  | organisation organizationId before =>
    rw [Plain, ← plain_iff]
    simp only [wouldCancel_organisation, targets_organisation]
    constructor
    · intro h text
      have hfree : stoppable { sampleRow with
          messageId := text, createdAt := timestamptz (before - 1) } before = true := by
        have hcreated : iso (timestamptz (before - 1)) < before :=
          created_before.mp (by simp only [timestamptz, Micros, Millis]; omega)
        simp only [stoppable, hcreated, decide_true, Bool.and_true]
        rfl
      have hrow := h { sampleRow with
        messageId := text, createdAt := timestamptz (before - 1) } rfl
      rw [hfree, Bool.true_and, Bool.true_and] at hrow
      exact hrow.symm
    · exact fun h row _ => by rw [h]

/-- For an organisation called `_` the stop takes the jobs of every one with a single letter. -/
theorem preview_misses : ¬∀ (row : JobRow) (scope : CancelScope), row.check = true →
    wouldCancel (jobFrom row) scope (iso row.createdAt) = scope.targets row := by
  intro h
  have hagree := (preview_agrees_iff (.organisation [0x5F] 0)).mp fun row hrow => h row _ hrow
  exact (hagree 0x5F (mem_singleton_self _)).2.1 rfl

end QueueAgreement
