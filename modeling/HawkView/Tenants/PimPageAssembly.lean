import HawkView.Tenants.PimScheduleObservation

/-!
# The pages of a schedule

The pages that a directory returned are followed from token to token. Only a
chain that ends gives its rows to the normalisation.
-/

namespace PimObservation

open JsString

structure PimPageAssemblyBounds extends PimObservationBounds where
  maxPages : JsNumber

structure PageContext where
  tenantId : JsString
  plane : PimPlane

/-- Why no page is kept. -/
inductive PageFailure
  | normalization (failure : Failure)
  | noPages | pageLimitExceeded | invalidPageToken | invalidPageEnvelope | invalidContinuation
  | pageTokenMismatch | repeatedPageToken | missingContinuationPage | pageAfterTermination
  deriving DecidableEq, Repr

/-- The properties of an object that is only data. -/
def dataObject : JsData → Option (List (Property JsData))
  | .object _ prototype own =>
    if prototype = .other then none
    else if own.all fun p => p.key.isName && JsData.plain p then some own
    else none
  | _ => none

/-- `object[name]`, with `none` for `undefined` or a property that is not there. -/
def valueOf (own : List (Property JsData)) (name : JsString) : Option JsData :=
  (JsData.find own name).bind Property.value

/-- A string that is not blank. -/
def nonBlank : JsData → Option JsString
  | .string s => if s.blank then none else some s
  | _ => none

/-- A page with a token, and the token. -/
def pageToken (page : JsData) : Option (List (Property JsData) × JsString) := do
  let own ← dataObject page
  let token ← (valueOf own (js "requestedPageToken")).bind nonBlank
  return (own, token)

/-- The envelope of a page, and the length and the properties of the array that it holds. -/
def pageEnvelope (own : List (Property JsData)) :
    Option (List (Property JsData) × Nat × List (Property JsData)) := do
  let envelope ← (valueOf own (js "envelope")).bind dataObject
  match ← valueOf envelope (js "value") with
  | .array _ length rows => some (envelope, length, rows)
  | _ => none

/-- `@odata.nextLink`, `null` for the end of the chain. -/
def continuationOf (envelope : List (Property JsData)) : Except PageFailure (Option JsString) :=
  match JsData.find envelope (js "@odata.nextLink") with
  | none => .ok none
  | some link =>
    match link.value with
    | some .null => .ok none
    | some (.string s) => if s.blank then .error .invalidContinuation else .ok (some s)
    | _ => .error .invalidContinuation

structure Assembly where
  index : Nat
  seen : List JsString
  rowPages : List (List JsData)
  rowCount : Nat
  expected : Option JsString

/-- The turn of a page. -/
def followPage (maxInputRows : Nat) (a : Assembly) (page : JsData) :
    Except PageFailure Assembly :=
  if 0 < a.index ∧ a.expected = none then .error .pageAfterTermination
  else
    match pageToken page with
    | none => .error .invalidPageToken
    | some (own, token) =>
      if token ∈ a.seen then .error .repeatedPageToken
      else if 0 < a.index ∧ some token ≠ a.expected then .error .pageTokenMismatch
      else
        match pageEnvelope own with
        | none => .error .invalidPageEnvelope
        | some (envelope, length, rows) =>
          if maxInputRows - a.rowCount < length then
            .error (.normalization (.rejected .inputRowLimitExceeded))
          else if !JsData.dense length rows then .error .invalidPageEnvelope
          else (continuationOf envelope).map fun expected =>
            { index := a.index + 1
              seen := a.seen ++ [token]
              rowPages := a.rowPages ++ [rows.filterMap Property.value]
              rowCount := a.rowCount + length
              expected }

/-- The pages of a chain that ends, with what was observed in their rows. -/
structure PageAssembly where
  pageCount : Nat
  observations : Observations

def PageContext.input (context : PageContext) (rows : List JsData) : List PimScheduleInput :=
  rows.map fun record => ⟨context.tenantId, context.plane, record⟩

def assemblePimSchedulePages (context : PageContext) (pages : List JsData)
    (bounds : PimPageAssemblyBounds) : Except PageFailure PageAssembly := do
  let maxPages ← (boundOf bounds.maxPages).elim
    (.error (.normalization (.rejected .invalidBounds))) .ok
  -- The bounds are checked by normalising no rows.
  let limits ← bounds.limits?.elim (.error (.normalization (.rejected .invalidBounds))) .ok
  if context.tenantId = [] then throw (.normalization (.rejected .invalidContext))
  if pages = [] then throw .noPages
  if maxPages < pages.length then throw .pageLimitExceeded
  let a ← pages.foldlM (followPage limits.maxInputRows) ⟨0, [], [], 0, none⟩
  if a.expected ≠ none then throw .missingContinuationPage
  let observations ← (normalizePimScheduleObservations (context.input a.rowPages.flatten)
    bounds.toPimObservationBounds).mapError .normalization
  return { pageCount := pages.length, observations }

end PimObservation
