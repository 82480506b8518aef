import HawkView.Microsoft.MicrosoftRequest

/-!
# Retries respect the server and the deadline

However long fetches and waits take, what the loop does stays in front of the
deadline and behind what the server asked for.
-/

namespace MicrosoftRequest

open List

open JsString RetryAfter
open ChangeEvidence (Date)

/-- The deadline has come at this time. -/
def Due (options : RequestOptions) (t : Int) : Prop :=
  ∃ deadlineAt, options.deadlineAt = some deadlineAt ∧ deadlineAt.le (.ofInt t) = true

/-- A wait lasts as long as it was asked for. -/
def Environment.Patient (env : Environment) : Prop :=
  ∀ attempt delay now, now.val + delay ≤ (env.wait attempt delay now).val

def Event.isRequest : Event → Bool
  | .requested _ _ => true
  | _ => false

def requests (events : List Event) : List Event := events.filter Event.isRequest

/-- A request after a response comes when the response's delay is over. -/
def Respects (e e' : Event) : Prop :=
  ∀ t response delay t' timeoutMs, e = .responded t response →
    retryAfterMilliseconds response.retryAfter t = some delay → e' = .requested t' timeoutMs →
    t.val + delay ≤ t'.val

section

variable {env : Environment} {options : RequestOptions} {attempts : JsNumber}

theorem nonpositive_due (now : Date) :
    (remainingBudget options now).nonpositive = true ↔ Due options now.val := by
  rw [remainingBudget, Due]
  cases options.deadlineAt with
  | none => simp [JsNumber.nonpositive]
  | some deadlineAt => simp [JsNumber.nonpositive_sub]

theorem le_due (now : Date) (delay : Int) :
    (remainingBudget options now).le (.ofInt delay) = true ↔ Due options (now.val + delay) := by
  rw [remainingBudget, Due]
  cases options.deadlineAt with
  | none => simp [JsNumber.le, JsNumber.lt, JsNumber.ofInt]
  | some deadlineAt => simp [JsNumber.sub_le]

variable (env options) in
/-- What holds of the events from an attempt on. -/
structure Keeps (rounds : Nat) (attempt : Nat) (now : Date) (attempts : JsNumber)
    (result : List Event × Outcome) : Prop where
  few : (requests result.1).length ≤ rounds
  exhausted : (JsNumber.ofNat attempt).lt attempts = false → requests result.1 = []
  once : (JsNumber.ofNat (attempt + 1)).lt attempts = false → (requests result.1).length ≤ 1
  inTime : ∀ t timeoutMs, .requested t timeoutMs ∈ result.1 →
    now.val ≤ t.val ∧ ¬Due options t.val
  waits : ∀ t delay, .waited t delay ∈ result.1 → ¬Due options (t.val + delay)
  returned : ∀ response t, result.2 = .returned response t →
    .responded t response ∈ result.1 ∧ ¬Due options t.val
  patient : env.Patient → result.1.Pairwise Respects

variable {rounds attempt : Nat} {message : JsString}

/-- An attempt that sends nothing. -/
theorem Keeps.still {now : Date} :
    Keeps env options rounds attempt now attempts ([], .thrown message) where
  few := Nat.zero_le _
  exhausted _ := rfl
  once _ := Nat.zero_le _
  inTime _ _ h := by cases h
  waits _ _ h := by cases h
  returned _ _ h := by cases h
  patient _ := List.Pairwise.nil

/-- The events of one attempt: a request, and then none. -/
structure Attempt (options : RequestOptions) (now : Date) (body : List Event) : Prop where
  inTime : ¬Due options now.val
  single : ∀ e ∈ body, e.isRequest = false
  waits : ∀ t delay, .waited t delay ∈ body → ¬Due options (t.val + delay)

theorem Attempt.requests_cons {now : Date} {timeoutMs : JsNumber} {body : List Event}
    (h : Attempt options now body) :
    requests (.requested now timeoutMs :: body) = [.requested now timeoutMs] := by
  have hbody : requests body = [] := by
    rw [requests, filter_eq_nil_iff]
    intro e he
    rw [h.single e he]
    exact Bool.false_ne_true
  rw [requests, filter_cons_of_pos rfl]
  exact congrArg _ hbody

/-- Nothing follows a response in one attempt that it would have to wait for. -/
theorem Attempt.pairwise {now : Date} {timeoutMs : JsNumber} {body : List Event}
    (h : Attempt options now body) : (Event.requested now timeoutMs :: body).Pairwise Respects := by
  rw [pairwise_cons]
  constructor
  · intro e he t response delay t' timeout hfirst
    cases hfirst
  · apply List.Pairwise.imp_of_mem (R := fun _ _ => True)
    · intro e e' _ he' _ t response delay t' timeout _ _ hrequest
      have hsingle := h.single e' he'
      rw [hrequest] at hsingle
      cases hsingle
    · exact pairwise_of_forall fun _ _ => trivial

/-- An attempt that is the last. -/
theorem Attempt.last {now : Date} {timeoutMs : JsNumber} {body : List Event} {outcome : Outcome}
    (h : Attempt options now body) (more : (JsNumber.ofNat attempt).lt attempts = true)
    (returned : ∀ response t, outcome = .returned response t →
      .responded t response ∈ body ∧ ¬Due options t.val) :
    Keeps env options (rounds + 1) attempt now attempts
      (.requested now timeoutMs :: body, outcome) where
  few := by
    rw [h.requests_cons, length_singleton]
    omega
  exhausted hover := by
    rw [more] at hover
    cases hover
  once _ := by rw [h.requests_cons, length_singleton]
  inTime t timeout ht := by
    rcases mem_cons.mp ht with heq | ht
    · cases heq
      exact ⟨Int.le_refl _, h.inTime⟩
    · cases h.single _ ht
  waits t delay ht := by
    rcases mem_cons.mp ht with heq | ht
    · cases heq
    · exact h.waits t delay ht
  returned response t hreturned :=
    ⟨mem_cons_of_mem _ (returned response t hreturned).1, (returned response t hreturned).2⟩
  patient _ := h.pairwise

theorem Attempt.thrown {now : Date} {timeoutMs : JsNumber} {body : List Event}
    (h : Attempt options now body) (more : (JsNumber.ofNat attempt).lt attempts = true) :
    Keeps env options (rounds + 1) attempt now attempts
      (.requested now timeoutMs :: body, .thrown message) :=
  h.last more fun _ _ hreturned => by cases hreturned

/-- An attempt that another one follows. -/
theorem Attempt.followed {now next : Date} {timeoutMs : JsNumber} {body : List Event}
    {rest : List Event × Outcome} (h : Attempt options now body)
    (more : (JsNumber.ofNat attempt).lt attempts = true) (later : now.val ≤ next.val)
    (respects : env.Patient → ∀ t response delay, .responded t response ∈ body →
      retryAfterMilliseconds response.retryAfter t = some delay → t.val + delay ≤ next.val)
    (follows : Keeps env options rounds (attempt + 1) next attempts rest) :
    Keeps env options (rounds + 1) attempt now attempts
      (before (.requested now timeoutMs :: body) rest) where
  few := by
    have hfew := follows.few
    rw [before, requests, filter_append, length_append]
    have hone := congrArg List.length (@Attempt.requests_cons _ _ timeoutMs _ h)
    rw [requests] at hone hfew
    rw [hone, length_singleton]
    omega
  exhausted hover := by
    rw [more] at hover
    cases hover
  once hover := by
    have hnone := follows.exhausted hover
    rw [before, requests, filter_append, length_append]
    have hone := congrArg List.length (@Attempt.requests_cons _ _ timeoutMs _ h)
    rw [requests] at hone hnone
    rw [hone, hnone, length_singleton, length_nil]
  inTime t timeout ht := by
    rcases mem_append.mp ht with ht | ht
    · rcases mem_cons.mp ht with heq | ht
      · cases heq
        exact ⟨Int.le_refl _, h.inTime⟩
      · cases h.single _ ht
    · obtain ⟨hlate, hdue⟩ := follows.inTime t timeout ht
      exact ⟨by omega, hdue⟩
  waits t delay ht := by
    rcases mem_append.mp ht with ht | ht
    · rcases mem_cons.mp ht with heq | ht
      · cases heq
      · exact h.waits t delay ht
    · exact follows.waits t delay ht
  returned response t hreturned :=
    ⟨mem_append_right _ (follows.returned response t hreturned).1,
      (follows.returned response t hreturned).2⟩
  patient hpatient := by
    rw [before, pairwise_append]
    refine ⟨h.pairwise, follows.patient hpatient, ?_⟩
    intro e he e' he' t response delay t' timeout hresponded hdelay hrequested
    subst hresponded hrequested
    have hbody : .responded t response ∈ body := by
      rcases mem_cons.mp he with heq | he
      · cases heq
      · exact he
    have hnext := respects hpatient t response delay hbody hdelay
    have hlate := (follows.inTime t' timeout he').1
    omega

variable {delay : Int}

theorem waitWithinBudget_some {now next : Date} {waited : Event}
    (h : waitWithinBudget env options attempt delay now = some (waited, next)) :
    waited = .waited now delay ∧ next = env.wait attempt delay now ∧
      ¬Due options (now.val + delay) := by
  rw [waitWithinBudget] at h
  split at h
  · cases h
  · rename_i hbudget
    cases h
    exact ⟨rfl, rfl, fun hdue => hbudget ((le_due now delay).mpr hdue)⟩

variable {response : Response}

theorem judge_returned {response' : Response} {now t : Date}
    (h : judge options attempts attempt response now = .finished (.returned response' t)) :
    response' = response ∧ t = now ∧ ¬Due options now.val := by
  rw [judge] at h
  split at h
  · cases h
  · rename_i hbudget
    have hdue : ¬Due options now.val := fun hdue => hbudget ((nonpositive_due now).mpr hdue)
    split at h
    · cases h
      exact ⟨rfl, rfl, hdue⟩
    · simp only at h
      split at h
      · cases h
      · split at h
        · cases h
          exact ⟨rfl, rfl, hdue⟩
        · cases h

theorem judge_again {now : Date} (h : judge options attempts attempt response now = .again delay) :
    delay = waitBeforeRetry attempt response now := by
  rw [judge] at h
  split at h
  · cases h
  · split at h
    · cases h
    · simp only at h
      split at h
      · cases h
      · split at h
        · cases h
        · cases h
          rfl

theorem warning_warned {now : Date} {e : Event}
    (h : e ∈ warning options attempts attempt response now) : e = .warned := by
  rw [warning] at h
  split at h
  · exact mem_singleton.mp h
  · cases h

/-- After its answer an attempt only warns and waits. -/
theorem answered_attempt {now : Date} {answer : Event} {warnings waits : List Event}
    (inTime : ¬Due options now.val)
    (hanswer : answer.isRequest = false ∧ ∀ t delay, .waited t delay ≠ answer)
    (hwarnings : ∀ e ∈ warnings, e = .warned)
    (hwaits : ∀ e ∈ waits, ∃ t delay, e = .waited t delay ∧ ¬Due options (t.val + delay)) :
    Attempt options now (answer :: (warnings ++ waits)) where
  inTime := inTime
  single e he := by
    rcases mem_cons.mp he with rfl | he
    · exact hanswer.1
    · rcases mem_append.mp he with he | he
      · rw [hwarnings e he]
        rfl
      · obtain ⟨t, delay, rfl, _⟩ := hwaits e he
        rfl
  waits t delay ht := by
    rcases mem_cons.mp ht with heq | ht
    · exact absurd heq (hanswer.2 t delay)
    · rcases mem_append.mp ht with ht | ht
      · cases hwarnings _ ht
      · obtain ⟨t', delay', heq, hdue⟩ := hwaits _ ht
        cases heq
        exact hdue

theorem responded_attempt {now now' : Date} {waits : List Event} (inTime : ¬Due options now.val)
    (hwaits : ∀ e ∈ waits, ∃ t delay, e = .waited t delay ∧ ¬Due options (t.val + delay)) :
    Attempt options now (.responded now' response ::
      (warning options attempts attempt response now' ++ waits)) :=
  answered_attempt inTime ⟨rfl, fun _ _ h => by cases h⟩ (fun _ => warning_warned) hwaits

theorem failed_attempt {now now' : Date} {waits : List Event} (inTime : ¬Due options now.val)
    (hwaits : ∀ e ∈ waits, ∃ t delay, e = .waited t delay ∧ ¬Due options (t.val + delay)) :
    Attempt options now (.failed now' :: waits) :=
  @answered_attempt options now (.failed now') [] waits inTime ⟨rfl, fun _ _ h => by cases h⟩
    (forall_mem_nil _) hwaits

theorem attemptFrom_keeps (rounds attempt : Nat) (lastError : Option JsString) (now : Date) :
    Keeps env options rounds attempt now attempts
      (attemptFrom env options attempts rounds attempt lastError now) := by
  induction rounds generalizing attempt lastError now with
  | zero => exact .still
  | succ rounds ih =>
    rw [attemptFrom]
    by_cases hmore : (JsNumber.ofNat attempt).lt attempts = true
    · rw [if_pos hmore]
      simp only
      by_cases hbudget : (remainingBudget options now).nonpositive = true
      · rw [if_pos hbudget]
        exact .still
      · rw [if_neg hbudget]
        have inTime : ¬Due options now.val :=
          fun hdue => hbudget ((nonpositive_due now).mpr hdue)
        have hlater := env.fetchImpl_later attempt now
          (requestTimeout options (remainingBudget options now))
        cases hfetched : env.fetchImpl attempt now
            (requestTimeout options (remainingBudget options now)) with
        | mk fetched now' =>
          rw [hfetched] at hlater
          cases fetched with
          | failed message =>
            simp only
            have hlast : Attempt options now [.failed now'] :=
              failed_attempt inTime (forall_mem_nil _)
            split
            · exact hlast.thrown hmore
            · split
              · exact hlast.thrown hmore
              · cases hwait : waitWithinBudget env options attempt ((attempt + 1) * 500) now' with
                | none => exact hlast.thrown hmore
                | some waited =>
                  obtain ⟨waited, now''⟩ := waited
                  obtain ⟨rfl, rfl, hdue⟩ := waitWithinBudget_some hwait
                  have hwaits : ∀ e ∈ [Event.waited now' ((attempt + 1) * 500)],
                      ∃ t delay, e = .waited t delay ∧ ¬Due options (t.val + delay) := by
                    intro e he
                    exact ⟨_, _, mem_singleton.mp he, hdue⟩
                  have hnext := env.wait_later attempt ((attempt + 1) * 500) now'
                  apply (failed_attempt inTime hwaits).followed hmore (hlater.trans hnext) ?_
                    (ih (attempt + 1) message _)
                  intro _ t response delay ht
                  simp only [mem_cons, reduceCtorEq, not_mem_nil, or_self] at ht
          | response response =>
            simp only
            have hlast := @responded_attempt options attempts attempt response now now' [] inTime
              (forall_mem_nil _)
            rw [append_nil] at hlast
            cases hjudge : judge options attempts attempt response now' with
            | finished outcome =>
              apply hlast.last hmore
              rintro response' t rfl
              obtain ⟨rfl, rfl, hdue⟩ := judge_returned hjudge
              exact ⟨mem_cons_self, hdue⟩
            | cancelled => exact hlast.thrown hmore
            | again delay =>
              simp only
              have hdelay := judge_again hjudge
              cases hwait : waitWithinBudget env options attempt delay
                  (env.cancel attempt now') with
              | none => exact hlast.thrown hmore
              | some waited =>
                obtain ⟨waited, now''⟩ := waited
                obtain ⟨rfl, rfl, hdue⟩ := waitWithinBudget_some hwait
                have hwaits : ∀ e ∈ [Event.waited (env.cancel attempt now') delay],
                    ∃ t delay, e = .waited t delay ∧ ¬Due options (t.val + delay) := by
                  intro e he
                  exact ⟨_, _, mem_singleton.mp he, hdue⟩
                have hcancel := env.cancel_later attempt now'
                have hnext := env.wait_later attempt delay (env.cancel attempt now')
                have hattempt := @responded_attempt options attempts attempt response now now' _
                  inTime hwaits
                apply hattempt.followed hmore ((hlater.trans hcancel).trans hnext) ?_
                  (ih (attempt + 1) lastError _)
                intro hpatient t response' asked ht hasked
                have hresponse : t = now' ∧ response' = response := by
                  rcases mem_cons.mp ht with heq | ht
                  · cases heq
                    exact ⟨rfl, rfl⟩
                  · rcases mem_append.mp ht with ht | ht
                    · cases warning_warned ht
                    · cases mem_singleton.mp ht
                obtain ⟨rfl, rfl⟩ := hresponse
                have hslept := hpatient attempt delay (env.cancel attempt t)
                rw [hdelay, waitBeforeRetry, hasked, Option.getD_some] at hslept ⊢
                omega
    · rw [if_neg hmore]
      exact .still

end

/-- Three rounds are enough for every number of attempts. -/
theorem attempts_le_three (method : Option JsString) (options : RequestOptions) :
    (JsNumber.ofNat 3).lt (attemptsOf method options) = false := by
  have hone : (JsNumber.ofNat 3).lt (.ofNat 1) = false := by decide
  have hmin (x : JsNumber) : (JsNumber.ofNat 3).lt (x.min (.ofNat 3)) = false := by
    rw [JsNumber.min]
    split
    · rfl
    · rename_i hnan
      rw [not_or] at hnan
      split
      · decide
      · rename_i hle
        cases x with
        | finite q =>
          simpa only [JsNumber.ofNat, JsNumber.lt, Bool.not_eq_true] using hle
        | infinite negative => cases negative <;> simp_all [JsNumber.ofNat, JsNumber.lt]
        | nan => exact absurd rfl hnan.1
  rw [attemptsOf]
  split
  · rw [JsNumber.max]
    split
    · rfl
    · split
      · exact hmin _
      · exact hone
  · exact hone

/-- More rounds would not send more. -/
theorem attemptFrom_enough (env : Environment) (options : RequestOptions) (attempts : JsNumber)
    {rounds attempt : Nat} (enough : ∀ n, attempt + rounds ≤ n → (JsNumber.ofNat n).lt attempts = false)
    (lastError : Option JsString) (now : Date) (more : Nat) :
    attemptFrom env options attempts (rounds + more) attempt lastError now =
      attemptFrom env options attempts rounds attempt lastError now := by
  induction rounds generalizing attempt lastError now with
  | zero =>
    cases more with
    | zero => rfl
    | succ more =>
      have hover : ¬(JsNumber.ofNat attempt).lt attempts = true := by
        rw [enough attempt (Nat.le_refl _)]
        exact Bool.false_ne_true
      rw [Nat.zero_add, attemptFrom, attemptFrom, if_neg hover]
  | succ rounds ih =>
    have hnext (lastError : Option JsString) (now : Date) :
        attemptFrom env options attempts (rounds + more) (attempt + 1) lastError now =
          attemptFrom env options attempts rounds (attempt + 1) lastError now :=
      ih (fun n hn => enough n (by omega)) lastError now
    have hrounds : rounds + 1 + more = rounds + more + 1 := by omega
    rw [hrounds, attemptFrom, attemptFrom]
    simp only [hnext]

variable (env : Environment) (method : Option JsString) (options : RequestOptions) (now : Date) in
/-- What the loop promises about its requests, its waits and its answer. -/
structure Respectful (result : List Event × Outcome) : Prop where
  few : (requests result.1).length ≤ 3
  safe : mayRetry method options = false → (requests result.1).length ≤ 1
  inTime : ∀ t timeoutMs, .requested t timeoutMs ∈ result.1 → ¬Due options t.val
  waits : ∀ t delay, .waited t delay ∈ result.1 → ¬Due options (t.val + delay)
  returned : ∀ response t, result.2 = .returned response t →
    .responded t response ∈ result.1 ∧ ¬Due options t.val
  patient : env.Patient → result.1.Pairwise Respects
  finished : ∀ more,
    attemptFrom env options (attemptsOf method options) (3 + more) 0 none now = result

end MicrosoftRequest
