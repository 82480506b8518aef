import HawkView.Lib.JsNumber
import HawkView.Microsoft.RetryAfter

/-!
# Requests that are tried again

A request is sent up to three times, with a wait before each but the first. The
clock runs while a fetch, a wait or the end of a response is awaited, and stands
still in between.
-/

namespace MicrosoftRequest

open JsString RetryAfter
open ChangeEvidence (Date)

/-! ## Options -/

structure RequestOptions where
  label : JsString
  timeoutMs : Option JsNumber
  deadlineAt : Option JsNumber
  maxAttempts : Option JsNumber
  retryUnsafeMethod : Option Bool

def RETRYABLE_STATUSES : List Nat := [429, 500, 502, 503, 504]

def isRetryableMicrosoftStatus (status : Nat) : Bool := RETRYABLE_STATUSES.contains status

/-- The method of a request, `GET` without one. No letter outside of basic Latin is written `GET`
or `HEAD` in upper case. -/
def mayRetry (method : Option JsString) (options : RequestOptions) : Bool :=
  let method := upperLatin (method.getD (js "GET"))
  method == js "GET" || method == js "HEAD" || options.retryUnsafeMethod == some true

def attemptsOf (method : Option JsString) (options : RequestOptions) : JsNumber :=
  if mayRetry method options then
    (JsNumber.ofNat 1).max ((options.maxAttempts.getD (.ofNat 3)).min (.ofNat 3))
  else .ofNat 1

def remainingBudget (options : RequestOptions) (now : Date) : JsNumber :=
  match options.deadlineAt with
  | none => .infinite false
  | some deadlineAt => deadlineAt.sub (.ofInt now.val)

def deadlineError (options : RequestOptions) : JsString :=
  options.label ++ js " reached its bounded collection deadline."

/-- The message of the last error that was one, or that the request failed. -/
def requestFailed (options : RequestOptions) (lastError : Option JsString) : JsString :=
  lastError.getD (options.label ++ js " request failed.")

/-- The timeout of a fetch. -/
def requestTimeout (options : RequestOptions) (remaining : JsNumber) : JsNumber :=
  (JsNumber.ofNat 1).max ((options.timeoutMs.getD (.ofNat 30000)).min remaining).ceil

/-! ## What is awaited -/

structure Response where
  status : Nat
  retryAfter : Option JsString

/-- What a fetch comes to: a response, or an error with its message, if it is an `Error`. -/
inductive Fetched
  | response (response : Response)
  | failed (message : Option JsString)

/-- What happens on each attempt, and how late it is afterwards. -/
structure Environment where
  fetchImpl : Nat → Date → JsNumber → Fetched × Date
  cancel : Nat → Date → Date
  wait : Nat → Int → Date → Date
  fetchImpl_later : ∀ attempt now timeout, now.val ≤ (fetchImpl attempt now timeout).2.val
  cancel_later : ∀ attempt now, now.val ≤ (cancel attempt now).val
  wait_later : ∀ attempt delay now, now.val ≤ (wait attempt delay now).val

inductive Event
  | requested (now : Date) (timeoutMs : JsNumber)
  | failed (now : Date)
  | responded (now : Date) (response : Response)
  | warned
  | waited (now : Date) (delay : Int)

inductive Outcome
  | returned (response : Response) (arrived : Date)
  | thrown (message : JsString)

/-! ## The loop -/

/-- What an attempt does after a response: how it ends, or how long it waits before the next. -/
inductive Verdict
  | finished (outcome : Outcome)
  | cancelled
  | again (delay : Int)

section

variable (env : Environment) (options : RequestOptions) (attempts : JsNumber)

def isLast (attempt : Nat) : Bool := JsNumber.ofNat attempt == attempts.sub (.ofNat 1)

def waitBeforeRetry (attempt : Nat) (response : Response) (now : Date) : Int :=
  (retryAfterMilliseconds response.retryAfter now).getD ((attempt + 1) * 500)

def judge (attempt : Nat) (response : Response) (now : Date) : Verdict :=
  if (remainingBudget options now).nonpositive then .cancelled
  else if !isRetryableMicrosoftStatus response.status || isLast attempts attempt then
    .finished (.returned response now)
  else
    let delay := waitBeforeRetry attempt response now
    if (remainingBudget options now).le (.ofInt delay) then .cancelled
    else if 10000 < delay then .finished (.returned response now)
    else .again delay

/-- A header that is there and cannot be read is reported, where it is read at all. -/
def warning (attempt : Nat) (response : Response) (now : Date) : List Event :=
  if !(remainingBudget options now).nonpositive && isRetryableMicrosoftStatus response.status &&
      !isLast attempts attempt && response.retryAfter.isSome &&
      (retryAfterMilliseconds response.retryAfter now).isNone then [.warned]
  else []

/-- `waitWithinBudget`: the events of the wait and when it ends, unless the budget is too small. -/
def waitWithinBudget (attempt : Nat) (delay : Int) (now : Date) : Option (Event × Date) :=
  if (remainingBudget options now).le (.ofInt delay) then none
  else some (.waited now delay, env.wait attempt delay now)

/-- Events in front of those that follow. -/
def before (events : List Event) (rest : List Event × Outcome) : List Event × Outcome :=
  (events ++ rest.1, rest.2)

/-- The loop from an attempt on. There are never more than three, so that it is not cut short. -/
def attemptFrom : Nat → Nat → Option JsString → Date → List Event × Outcome
  | 0, _, lastError, _ => ([], .thrown (requestFailed options lastError))
  | rounds + 1, attempt, lastError, now =>
    if (JsNumber.ofNat attempt).lt attempts then
      let remaining := remainingBudget options now
      if remaining.nonpositive then ([], .thrown (deadlineError options))
      else
        let timeoutMs := requestTimeout options remaining
        match env.fetchImpl attempt now timeoutMs with
        | (.failed message, now') =>
          let events := [.requested now timeoutMs, .failed now']
          if (remainingBudget options now').nonpositive then
            (events, .thrown (deadlineError options))
          else if isLast attempts attempt then (events, .thrown (requestFailed options message))
          else
            match waitWithinBudget env options attempt ((attempt + 1) * 500) now' with
            | none => (events, .thrown (deadlineError options))
            | some (waited, now'') =>
              before (events ++ [waited]) (attemptFrom rounds (attempt + 1) message now'')
        | (.response response, now') =>
          let events := [.requested now timeoutMs, .responded now' response] ++
            warning options attempts attempt response now'
          match judge options attempts attempt response now' with
          | .finished outcome => (events, outcome)
          | .cancelled => (events, .thrown (deadlineError options))
          | .again delay =>
            match waitWithinBudget env options attempt delay (env.cancel attempt now') with
            | none => (events, .thrown (deadlineError options))
            | some (waited, now'') =>
              before (events ++ [waited]) (attemptFrom rounds (attempt + 1) lastError now'')
    else ([], .thrown (requestFailed options lastError))

end

def fetchMicrosoftWithRetry (env : Environment) (method : Option JsString)
    (options : RequestOptions) (now : Date) : List Event × Outcome :=
  attemptFrom env options (attemptsOf method options) 3 0 none now

end MicrosoftRequest
