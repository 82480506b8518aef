import HawkView.Auth.Contract
import HawkView.IdentityRisk.AuthenticationFingerprint
import HawkView.Lib.IsoRange
import HawkView.Lib.JsonNumber

/-!
# The window of an authentication collection

A completed collection extends the stored window of its source and carries the newest event
that was seen. What is stored may be any value; only the two versions of a window are read.
-/

namespace AuthenticationReadiness

open Json IsoTime
open Auth (AuthSource dateParse)

/-! ## Stored windows -/

inductive AuthWindowSchema
  | v1 | v2
  deriving DecidableEq, Repr

def AuthWindowSchema.text : AuthWindowSchema → JsString
  | .v1 => js "hawkview-authentication-window/v1"
  | .v2 => js "hawkview-authentication-window/v2"

def AuthWindowSchema.ofText (s : JsString) : Option AuthWindowSchema :=
  [AuthWindowSchema.v1, .v2].find? fun schema => schema.text = s

/-- The names of a version, in order and joined by commas. -/
def AuthWindowSchema.keys : AuthWindowSchema → JsString
  | .v1 => js "end,paginationComplete,schemaVersion,source,start"
  | .v2 => js "end,latestObservedEventAt,observedEvents,paginationComplete,schemaVersion,source,start"

/-- `stop` is the `end` of the source; a version without the observed fields has none. -/
structure AuthenticationWindow where
  schemaVersion : AuthWindowSchema
  source : AuthSource
  start : JsString
  stop : JsString
  paginationComplete : Bool
  observedEvents : Option Nat
  latestObservedEventAt : Option (Option JsString)
  deriving DecidableEq, Repr

inductive AuthenticationObservation
  | unrecorded
  | recorded (events : Nat) (latestEventAt : Option JsString)
  deriving DecidableEq, Repr

def windowObservation (window : AuthenticationWindow) : AuthenticationObservation :=
  match window.observedEvents, window.latestObservedEventAt with
  | some events, some latestEventAt => .recorded events latestEventAt
  | _, _ => .unrecorded

def iso (s : JsString) : Bool := (utcTime s).isSome && decide (Canonical s)

/-- A safe integer that is not negative. -/
def safeCount : JsNumber → Option Nat
  | .finite q => if (JsNumber.finite q).isSafeInteger ∧ 0 ≤ q then some q.num.toNat else none
  | _ => none

/-- `null` or a time. -/
def latestOf : Option Json → Option (Option JsString)
  | some .null => some none
  | some (.string s) => if iso s then some (some s) else none
  | _ => none

def dayLength : Int := 24 * 60 * 60000

def joinedKeys (keys : List JsString) : JsString :=
  (js ",").intercalate (keys.insertionSort (· ≤ ·))

/-- What a version adds to the first one. -/
def observationOf (entries : List (JsString × Json)) :
    AuthWindowSchema → Option (Option Nat × Option (Option JsString))
  | .v1 => some (none, none)
  | .v2 => do
    let events ← (numberOf (entries.lookup (js "observedEvents"))).bind safeCount
    let latest ← latestOf (entries.lookup (js "latestObservedEventAt"))
    return (some events, some latest)

/-- The window, when `authenticationWindow` accepts the value. -/
def authenticationWindow (value : Json) : Option AuthenticationWindow :=
  match value with
  | .object entries => do
    let schemaVersion ← (textOf (entries.lookup (js "schemaVersion"))).bind AuthWindowSchema.ofText
    let (observedEvents, latestObservedEventAt) ← observationOf entries schemaVersion
    let source ← (textOf (entries.lookup (js "source"))).bind AuthSource.ofText
    let paginationComplete ← boolOf (entries.lookup (js "paginationComplete"))
    let start ← (textOf (entries.lookup (js "start"))).filter iso
    let stop ← (textOf (entries.lookup (js "end"))).filter iso
    if AuthenticationIntegrity.plainEntries entries ∧
        joinedKeys (names entries) = schemaVersion.keys ∧ start ≤ stop ∧
        dateParse stop - dateParse start ≤ dayLength then
      return ⟨schemaVersion, source, start, stop, paginationComplete, observedEvents,
        latestObservedEventAt⟩
    else none
  | _ => none

/-- The value that is stored of a window. -/
def AuthenticationWindow.json (w : AuthenticationWindow) : Json :=
  .object ([(js "schemaVersion", .string w.schemaVersion.text),
    (js "source", .string w.source.text), (js "start", .string w.start),
    (js "end", .string w.stop), (js "paginationComplete", .bool w.paginationComplete)] ++
    (w.observedEvents.map fun events => (js "observedEvents", ofCount events)).toList ++
    (w.latestObservedEventAt.map fun latest =>
      (js "latestObservedEventAt", Auth.jsonOption latest)).toList)

/-! ## Merging -/

abbrev Date := {t : Int // InDateRange t}

structure Observed where
  events : JsNumber
  latestEventAt : Option JsString

inductive MergeError
  | windowInvalid | observationInvalid | windowSuperseded
  deriving DecidableEq

def MergeError.text : MergeError → JsString
  | .windowInvalid => js "IDENTITY_AUTH_WINDOW_INVALID"
  | .observationInvalid => js "IDENTITY_AUTH_OBSERVATION_INVALID"
  | .windowSuperseded => js "IDENTITY_AUTH_WINDOW_SUPERSEDED"

/-- The start of the window, before it is cut to a day. -/
def extendedStart (priorForSource : Option AuthenticationWindow) (start stop : Date) : Int :=
  match priorForSource with
  | some prior =>
    if prior.paginationComplete ∧ start.val ≤ dateParse prior.stop ∧
        dateParse prior.stop ≤ stop.val then
      min (dateParse prior.start) start.val
    else start.val
  | none => start.val

/-- The newest event that the stored window of the source recorded. -/
def carriedLatest (priorForSource : Option AuthenticationWindow) : Option JsString :=
  match priorForSource.map windowObservation with
  | some (.recorded _ latestEventAt) => latestEventAt
  | _ => none

def latestObserved (observed carried : Option JsString) : Option JsString :=
  match observed, carried with
  | some t, none => some t
  | some t, some u => if u < t then some t else some u
  | none, carried => carried

/-- `start` and `stop` are `none` for a value that is not a date. -/
def mergeAuthenticationWindow (previous : Json) (source : AuthSource) (start stop : Option Date)
    (completedPageChain : Bool) (observed : Observed) : Except MergeError AuthenticationWindow :=
  match start, stop with
  | some start, some stop =>
    if completedPageChain = false ∨ stop.val < start.val then .error .windowInvalid
    else
      match safeCount observed.events with
      | none => .error .observationInvalid
      | some events =>
        if observed.latestEventAt.any fun t => !iso t then .error .observationInvalid
        else
          let prior := authenticationWindow previous
          if prior.any fun w => decide (stop.val < dateParse w.stop) then .error .windowSuperseded
          else
            let priorForSource := prior.filter fun w => w.source = source
            .ok
              { schemaVersion := .v2
                source
                start := toISOString
                  (max (extendedStart priorForSource start stop) (stop.val - dayLength))
                stop := toISOString stop.val
                paginationComplete := true
                observedEvents := some events
                latestObservedEventAt :=
                  some (latestObserved observed.latestEventAt (carriedLatest priorForSource)) }
  | _, _ => .error .windowInvalid

end AuthenticationReadiness
