import HawkView.Alerts.SendTables
import HawkView.Lib.StableOrder

/-!
# The delivery limit

What one tick does with the deliveries it carries over and those that arrive:
it sends, releases as one aggregate, or withholds. Ticks in a row carry over
what the one before withheld.
-/

namespace RoutingLimit

open SendTables StableOrder

inductive RoutingTier
  | phone | email | inApp
  deriving DecidableEq, Repr

inductive VerifiedRecipient
  | mspSecurityInbox (address : JsString) (verifiedAt : Millis)
  | designatedOwner (userId address : JsString) (verifiedAt : Millis)
  deriving DecidableEq, Repr

inductive ReleaseCondition
  | whenVolumeFalls (limit observed : Nat)
  | withTheCauseAheadOfIt (causeKey : JsString)
  deriving DecidableEq, Repr

inductive DeliveryTiming
  | immediate
  | limited (releaseWhen : ReleaseCondition) (because : JsString)
  | held (heldUntil : Millis) (because : JsString)
  deriving DecidableEq, Repr

structure Delivery where
  organizationId : JsString
  causeKey : JsString
  tier : RoutingTier
  timing : DeliveryTiming
  recipient : VerifiedRecipient
  tickAt : Millis
  affectedTenants : List JsString
  incidentKeys : List JsString
  deriving DecidableEq, Repr

/-- Deliveries released together, each incident still named. -/
structure Aggregate where
  organizationId : JsString
  causeKey : JsString
  tickAt : Millis
  members : List Delivery
  deriving DecidableEq, Repr

def fold (into : Aggregate) (delivery : Delivery) : Aggregate :=
  { into with members := into.members ++ [delivery] }

def incidentsCoveredBy (aggregate : Aggregate) : List JsString :=
  aggregate.members.flatMap Delivery.incidentKeys

structure LimitPolicy where
  perOrganizationPerTick : Int
  deriving DecidableEq, Repr

structure LimitOutcome where
  sent : List Delivery
  withheld : List Delivery
  released : List Aggregate
  accountingProblems : List JsString
  deriving DecidableEq, Repr

def URGENCY : RoutingTier → Nat
  | .phone => 0
  | .email => 1
  | .inApp => 2

/-- The room that the policy leaves. -/
def LimitPolicy.room (policy : LimitPolicy) : Nat := (max 0 policy.perOrganizationPerTick).toNat

section Limit

variable (toISOString : Millis → JsString)

/-- The cause keys of what was carried over. -/
def carriedIds (carriedOver : List Delivery) : List JsString := carriedOver.map Delivery.causeKey

/-- `Number(b)`. -/
def number (b : Bool) : Int := if b then 1 else 0

/-- The comparison of the sort, most urgent first and then what was carried over. -/
def compareDeliveries (carriedOver : List Delivery) (left right : Delivery) : Int :=
  let byTier : Int := URGENCY left.tier - URGENCY right.tier
  if byTier ≠ 0 then byTier
  else number (right.causeKey ∈ carriedIds carriedOver) -
    number (left.causeKey ∈ carriedIds carriedOver)

def ordered (carriedOver all : List Delivery) : List Delivery :=
  all.insertionSort fun left right => compareDeliveries carriedOver left right ≤ 0

def goingNow (carriedOver : List Delivery) (policy : LimitPolicy) (all : List Delivery) :
    List Delivery := (ordered carriedOver all).take policy.room

def drained (carriedOver : List Delivery) (policy : LimitPolicy) (all : List Delivery) :
    List Delivery :=
  (goingNow carriedOver policy all).filter fun d => d.causeKey ∈ carriedIds carriedOver

def fresh (carriedOver : List Delivery) (policy : LimitPolicy) (all : List Delivery) :
    List Delivery :=
  (goingNow carriedOver policy all).filter fun d => !(d.causeKey ∈ carriedIds carriedOver)

/-- A withheld delivery carries the condition of its release. -/
def limitedDelivery (policy : LimitPolicy) (observed : Nat) (delivery : Delivery) : Delivery :=
  { delivery with
    timing := .limited (.whenVolumeFalls policy.room observed)
      (JsString.decimal observed ++ js " causes this tick for this organisation, over the limit of "
        ++ JsString.decimal policy.room ++ js ".") }

def withheldOf (carriedOver : List Delivery) (policy : LimitPolicy) (all : List Delivery) :
    List Delivery :=
  ((ordered carriedOver all).drop policy.room).map
    (limitedDelivery policy (ordered carriedOver all).length)

/-- What comes due for one organization, as one aggregate. -/
def releasedBacklog (carriedOver : List Delivery) (policy : LimitPolicy) (tickAt : Millis)
    (group : JsString × List Delivery) : List Aggregate :=
  if 0 < (drained carriedOver policy group.2).length then
    [(drained carriedOver policy group.2).foldl fold
      ⟨group.1, js "released-backlog/" ++ toISOString tickAt, tickAt, []⟩]
  else []

def accountingProblemsOf (input accountedFor : Nat) : List JsString :=
  if accountedFor = input then []
  else [JsString.decimal input ++ js " deliveries in, " ++ JsString.decimal accountedFor ++
    js " accounted for — a limit may withhold or aggregate, never drop, so these must be equal."]

def applyLimit (carriedOver arriving : List Delivery) (policy : LimitPolicy) (tickAt : Millis) :
    LimitOutcome :=
  let byOrg := grouped Delivery.organizationId (carriedOver ++ arriving)
  let sent := byOrg.flatMap fun group => fresh carriedOver policy group.2
  let withheld := byOrg.flatMap fun group => withheldOf carriedOver policy group.2
  let released := byOrg.flatMap (releasedBacklog toISOString carriedOver policy tickAt)
  let accountedFor := sent.length + withheld.length +
    released.foldl (fun total aggregate => total + aggregate.members.length) 0
  { sent := sent
    withheld := withheld
    released := released
    accountingProblems := accountingProblemsOf (carriedOver ++ arriving).length accountedFor }

/-! ## Ticks -/

structure Tick where
  arriving : List Delivery
  policy : LimitPolicy
  tickAt : Millis
  deriving DecidableEq, Repr

/-- The outcomes of ticks in a row, each carrying over what the one before withheld. -/
def outcomes : List Delivery → List Tick → List LimitOutcome
  | _, [] => []
  | carriedOver, tick :: rest =>
    let outcome := applyLimit toISOString carriedOver tick.arriving tick.policy tick.tickAt
    outcome :: outcomes outcome.withheld rest

/-- What is still withheld after the ticks. -/
def backlog : List Delivery → List Tick → List Delivery
  | carriedOver, [] => carriedOver
  | carriedOver, tick :: rest =>
    backlog (applyLimit toISOString carriedOver tick.arriving tick.policy tick.tickAt).withheld rest

end Limit

/-- What goes out, the released members before what is sent. -/
def LimitOutcome.goingOut (outcome : LimitOutcome) : List Delivery :=
  outcome.released.flatMap Aggregate.members ++ outcome.sent

end RoutingLimit
