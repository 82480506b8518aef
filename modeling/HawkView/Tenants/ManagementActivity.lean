import HawkView.Lib.IsoTime
import HawkView.Lib.JsMap
import HawkView.Lib.Json

/-!
# The management activity feed

The tables of one tenant: a subscription with its discovery cursor for each
content type, and the ledger of the content blobs that were discovered. Times
are milliseconds since 1970.
-/

namespace ManagementActivity

def MINUTE : Int := 60 * 1000

def DAY : Int := 24 * 60 * 60 * 1000

def CONTENT_LEDGER_RETENTION_MS : Int := 30 * DAY

inductive ContentType
  | azureActiveDirectory | exchange | sharePoint | general
  deriving DecidableEq, Repr

def ContentType.text : ContentType → JsString
  | .azureActiveDirectory => js "Audit.AzureActiveDirectory"
  | .exchange => js "Audit.Exchange"
  | .sharePoint => js "Audit.SharePoint"
  | .general => js "Audit.General"

def M365_ACTIVITY_CONTENT_TYPES : List ContentType :=
  [.azureActiveDirectory, .exchange, .sharePoint, .general]

theorem mem_contentTypes (contentType : ContentType) :
    contentType ∈ M365_ACTIVITY_CONTENT_TYPES := by
  cases contentType <;> decide

theorem contentTypes_nodup : M365_ACTIVITY_CONTENT_TYPES.Nodup := by decide

/-! ## Tables -/

structure Subscription where
  lastContentPollAt : Option Int
  lastSuccessfulPollAt : Option Int
  discoveryWindowStart : Option Int
  discoveryWindowEnd : Option Int
  discoveryNextPageUri : Option JsString
  lastError : Option JsString
  deriving DecidableEq

inductive ContentStatus
  | pending | processing | retry | completed | failed
  deriving DecidableEq, Repr

/-- A blob in the ledger. -/
structure Content where
  id : Nat
  contentType : ContentType
  microsoftContentId : JsString
  contentUri : JsString
  contentCreatedAt : Option Int
  contentExpiresAt : Option Int
  status : ContentStatus
  attemptCount : Nat
  nextRetryAt : Option Int
  lastError : Option JsString
  discoveredAt : Int
  processedAt : Option Int
  ledgerExpiresAt : Int
  updatedAt : Int
  deriving DecidableEq

/-- What discovery says of a blob. -/
structure Discovered where
  contentType : ContentType
  microsoftContentId : JsString
  contentUri : JsString
  contentCreatedAt : Option Int
  contentExpiresAt : Option Int
  ledgerExpiresAt : Int
  deriving DecidableEq

/-- The ledger, with the id of the next row. -/
structure Ledger where
  rows : List Content
  nextId : Nat

namespace Ledger

def has (l : Ledger) (microsoftContentId : JsString) : Bool :=
  l.rows.any fun c => c.microsoftContentId = microsoftContentId

/-- An insert that skips a duplicate of the unique content id. -/
def create (at' : Int) (l : Ledger) (d : Discovered) : Ledger :=
  if l.has d.microsoftContentId then l
  else {
    rows := l.rows ++ [{
      id := l.nextId
      contentType := d.contentType
      microsoftContentId := d.microsoftContentId
      contentUri := d.contentUri
      contentCreatedAt := d.contentCreatedAt
      contentExpiresAt := d.contentExpiresAt
      status := .pending
      attemptCount := 0
      nextRetryAt := none
      lastError := none
      discoveredAt := at'
      processedAt := none
      ledgerExpiresAt := d.ledgerExpiresAt
      updatedAt := at' }]
    nextId := l.nextId + 1 }

def createMany (at' : Int) (ds : List Discovered) (l : Ledger) : Ledger :=
  ds.foldl (create at') l

variable {l : Ledger}

theorem has_iff {id : JsString} :
    l.has id = true ↔ ∃ c ∈ l.rows, c.microsoftContentId = id := by
  simp [has]

variable {at' : Int} {d : Discovered} {c : Content}

theorem create_keeps (h : c ∈ l.rows) :
    c ∈ (l.create at' d).rows := by
  unfold create
  split
  · exact h
  · exact List.mem_append_left _ h

variable {ds : List Discovered}

theorem createMany_keeps (h : c ∈ l.rows) : c ∈ (l.createMany at' ds).rows := by
  unfold createMany
  induction ds generalizing l with
  | nil => exact h
  | cons d ds ih => exact ih (create_keeps h)

theorem create_has (at' : Int) (l : Ledger) (d : Discovered) :
    (l.create at' d).has d.microsoftContentId = true := by
  unfold create
  split
  · assumption
  · exact has_iff.mpr ⟨_, List.mem_append_right _ List.mem_cons_self, rfl⟩

/-- Every blob of a page is in the ledger afterwards. -/
theorem createMany_has (h : d ∈ ds) : (l.createMany at' ds).has d.microsoftContentId = true := by
  induction ds generalizing l with
  | nil => cases h
  | cons e ds ih =>
    rcases List.mem_cons.mp h with rfl | h
    · obtain ⟨c, hc, hid⟩ := has_iff.mp (create_has at' l d)
      exact has_iff.mpr ⟨c, createMany_keeps (l := l.create at' d) hc, hid⟩
    · exact ih h

end Ledger

/-! ## Payloads -/

/-- `text(value)`. -/
def text : Option Json → Option JsString
  | some (.string s) => if s.trim = [] then none else some s.trim
  | _ => none

/-- `item.name`; a property of `null` throws. -/
def property (item : Json) (name : JsString) : Option (Option Json) :=
  match item with
  | .null => none
  | .object entries => some (entries.lookup name)
  | _ => some none

/-- A parsed URL, in lower case where the parser makes it so. -/
structure Url where
  protocol : JsString
  hostname : JsString
  pathname : JsString

def MANAGEMENT_HOST : JsString := js "manage.office.com"

/-- The tenant, and what the runtime parses. -/
structure Env where
  microsoftTenantId : Uuid
  parseUrl : JsString → Option Url
  parseDate : JsString → Option Int

def validateManagementUrl (env : Env) (url : JsString) : Bool :=
  (env.parseUrl url).any fun parsed =>
    decide (parsed.protocol = js "https:") &&
    decide (parsed.hostname.lowerLatin = MANAGEMENT_HOST) &&
    parsed.pathname.lowerLatin.startsWith
      (js "/api/v1.0/" ++ env.microsoftTenantId.text ++ js "/activity/feed/")

def validDate (env : Env) : Option Json → Option Int
  | some (.string s) => env.parseDate s
  | _ => none

end ManagementActivity
