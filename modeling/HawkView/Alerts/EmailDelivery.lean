import HawkView.Lib.JsMap
import HawkView.Lib.JsString

/-!
# The ledger of email delivery

What the provider said of a send, and what it later told of the message. An
event resolves the job that waits for it or is kept with the reason why not.
-/

namespace EmailDelivery

structure SendAttempt where
  messageId : JsString

inductive RefusalCode
  | rateLimited | invalidAddress | suppressed | providerError
  deriving DecidableEq

inductive Acceptance
  | accepted (providerId atIso : JsString)
  | refused (code : RefusalCode) (atIso : JsString)

inductive BounceClass
  | hard | soft
  deriving DecidableEq

inductive Outcome
  | delivered (atIso : JsString)
  | bounced (atIso : JsString) (bounce : BounceClass)
  | complained (atIso : JsString)
  deriving DecidableEq

inductive OutcomeKind
  | delivered | bounced | complained
  deriving DecidableEq

structure AuthenticEvent where
  providerId : JsString
  kind : OutcomeKind
  atIso : JsString
  bounce : Option BounceClass

inductive Because
  | signatureMissing | signatureInvalid | noSuchJob | alreadyResolved
  deriving DecidableEq

structure UnmatchedEvent where
  providerId : JsString
  atIso : JsString
  because : Because
  deriving DecidableEq

inductive Received
  | authentic (event : AuthenticEvent)
  | rejected (event : UnmatchedEvent)

inductive Job
  | unresolved (messageId providerId acceptedAtIso unresolvedSinceIso : JsString)
  | resolved (messageId providerId acceptedAtIso : JsString) (outcome : Outcome)
  | refused (messageId refusedAtIso : JsString) (code : RefusalCode)
  deriving DecidableEq

structure Retry where
  providerId : JsString
  messageId : JsString
  atIso : JsString
  deriving DecidableEq

structure Ledger where
  jobs : List Job
  unmatched : List UnmatchedEvent
  retries : List Retry
  deriving DecidableEq

def emptyLedger : Ledger := ⟨[], [], []⟩

namespace Job

/-- The provider's id of a job and its message, unless it was refused. -/
def binding : Job → Option (JsString × JsString)
  | unresolved messageId providerId _ _ | resolved messageId providerId _ _ =>
    some (providerId, messageId)
  | refused _ _ _ => none

def holds (providerId : JsString) (job : Job) : Bool :=
  job.binding.any fun bound => bound.1 = providerId

def isUnresolved : Job → Bool
  | unresolved _ _ _ _ => true
  | resolved _ _ _ _ | refused _ _ _ => false

def isResolved : Job → Bool
  | resolved _ _ _ _ => true
  | unresolved _ _ _ _ | refused _ _ _ => false

def resolve (outcome : Outcome) : Job → Job
  | unresolved messageId providerId acceptedAtIso _ =>
    resolved messageId providerId acceptedAtIso outcome
  | job => job

end Job

def accept (ledger : Ledger) (attempt : SendAttempt) : Acceptance → Ledger
  | .accepted providerId atIso =>
    match ledger.jobs.find? (Job.holds providerId) with
    | some _ =>
      { ledger with retries := ledger.retries ++ [⟨providerId, attempt.messageId, atIso⟩] }
    | none =>
      { ledger with
        jobs := ledger.jobs ++ [.unresolved attempt.messageId providerId atIso atIso] }
  | .refused code atIso =>
    { ledger with jobs := ledger.jobs ++ [.refused attempt.messageId atIso code] }

def outcomeOf (event : AuthenticEvent) : Outcome :=
  match event.kind with
  | .bounced => .bounced event.atIso (event.bounce.getD .hard)
  | .complained => .complained event.atIso
  | .delivered => .delivered event.atIso

/-- The place of `open[0]`. -/
def target (ledger : Ledger) (providerId : JsString) : Option Nat :=
  ledger.jobs.findIdx? fun job => job.isUnresolved && job.holds providerId

/-- Of the jobs only the one at the place of the target is replaced. -/
def record (ledger : Ledger) : Received → Ledger
  | .rejected rejected => { ledger with unmatched := ledger.unmatched ++ [rejected] }
  | .authentic event =>
    match target ledger event.providerId with
    | none =>
      let resolvedAlready :=
        ledger.jobs.any fun job => job.isResolved && job.holds event.providerId
      { ledger with
        unmatched := ledger.unmatched ++ [⟨event.providerId, event.atIso,
          if resolvedAlready then .alreadyResolved else .noSuchJob⟩] }
    | some place =>
      { ledger with jobs := ledger.jobs.modify place (Job.resolve (outcomeOf event)) }

/-! ## The accounting -/

inductive Problem
  | collision (providerId messageId held : JsString)
  | unaccounted (eventsReceived resolved unmatched : Nat)
  | shared (count : Nat) (providerId : JsString)
  deriving DecidableEq

def Problem.text : Problem → JsString
  | collision providerId messageId held =>
    js "provider id " ++ providerId ++ js " was returned for message " ++ messageId ++
      js " and is already held by " ++ held ++
      js " — two messages share an identifier, so one’s outcome will resolve the other’s job."
  | unaccounted eventsReceived resolved unmatched =>
    JsString.decimal eventsReceived ++ js " events received, " ++
      JsString.decimal (resolved + unmatched) ++ js " accounted for (" ++
      JsString.decimal resolved ++ js " resolved a job, " ++ JsString.decimal unmatched ++
      js " unmatched) — an event either resolves a job or is named as unmatched, so these " ++
      js "must be equal."
  | shared count providerId =>
    JsString.decimal count ++ js " jobs share provider id " ++ providerId

def bindings (ledger : Ledger) : List (JsString × JsString) :=
  ledger.jobs.filterMap Job.binding

def resolvedCount (ledger : Ledger) : Nat := ledger.jobs.countP Job.isResolved

def collisions (ledger : Ledger) : List Problem :=
  let messageFor := JsMap.ofList (bindings ledger)
  ledger.retries.filterMap fun retry =>
    match messageFor.get? retry.providerId with
    | some held =>
      if held ≠ retry.messageId then some (.collision retry.providerId retry.messageId held)
      else none
    | none => none

def tally (byProvider : JsMap JsString Nat) (bound : JsString × JsString) : JsMap JsString Nat :=
  byProvider.set bound.1 ((byProvider.get? bound.1).getD 0 + 1)

def byProvider (ledger : Ledger) : JsMap JsString Nat := (bindings ledger).foldl tally .empty

def problems (ledger : Ledger) (eventsReceived : Nat) : List Problem :=
  collisions ledger ++
  (if resolvedCount ledger + ledger.unmatched.length ≠ eventsReceived then
    [.unaccounted eventsReceived (resolvedCount ledger) ledger.unmatched.length] else []) ++
  (byProvider ledger).entries.filterMap fun entry =>
    if 1 < entry.2 then some (.shared entry.2 entry.1) else none

def accounting (ledger : Ledger) (eventsReceived : Nat) : List JsString :=
  (problems ledger eventsReceived).map Problem.text

end EmailDelivery
