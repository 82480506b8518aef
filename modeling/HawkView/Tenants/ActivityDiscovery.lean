import HawkView.Tenants.ManagementActivity

/-!
# Discovery of content

A run goes through the enabled content types and, for each, pages through one
window of time after the other. The cursor of the subscription says up to where
windows are complete, and keeps the next page of a window that is not.
-/

namespace ManagementActivity

def MAX_CONTENT_PAGES_PER_TYPE_PER_RUN : Nat := 100

/-- A page of a window. -/
structure Page where
  windowStart : Int
  windowEnd : Int
  url : JsString
  deriving DecidableEq

/-- What discovery of a content type did, in order: a page it requested, with the cursor and the
time of its run, and a page that it stored and recorded in the cursor. -/
inductive Event
  | requested (now : Int) (since : Option Int) (page : Page)
  | recorded (page : Page) (items : List Json) (continuation : Option JsString)

structure Feed where
  subscriptions : ContentType → Option Subscription
  ledger : Ledger
  trace : ContentType → List Event

namespace Feed

def emit (feed : Feed) (contentType : ContentType) (e : Event) : Feed :=
  { feed with trace := Function.update feed.trace contentType (feed.trace contentType ++ [e]) }

/-- An update of a subscription that is there. -/
def update (feed : Feed) (contentType : ContentType) (write : Subscription → Subscription) :
    Option (Feed × Subscription) :=
  (feed.subscriptions contentType).map fun s =>
    ({ feed with
      subscriptions := Function.update feed.subscriptions contentType (some (write s)) }, write s)

end Feed

/-- The page that a window was left at; an empty text counts as none. -/
def Subscription.saved (s : Subscription) : Option Page :=
  match s.discoveryWindowStart, s.discoveryWindowEnd, s.discoveryNextPageUri with
  | some windowStart, some windowEnd, some next =>
    if next = [] then none else some ⟨windowStart, windowEnd, next⟩
  | _, _, _ => none

/-- `encodeURIComponent` on ASCII text. -/
def encodeURIComponent (s : JsString) : JsString :=
  s.flatMap fun c =>
    if 0x30 ≤ c ∧ c ≤ 0x39 ∨ 0x41 ≤ c ∧ c ≤ 0x5A ∨ 0x61 ≤ c ∧ c ≤ 0x7A ∨
        c ∈ [0x2D, 0x5F, 0x2E, 0x21, 0x7E, 0x2A, 0x27, 0x28, 0x29] then [c]
    else 0x25 :: [c / 16, c % 16].map fun d => if d < 10 then 0x30 + d else 0x37 + d

def contentUrl (env : Env) (contentType : ContentType) (windowStart windowEnd : Int) :
    JsString :=
  js "https://manage.office.com/api/v1.0/" ++ encodeURIComponent env.microsoftTenantId.text ++
    js "/activity/feed/subscriptions/content?contentType=" ++
    encodeURIComponent contentType.text ++
    js "&startTime=" ++ encodeURIComponent (IsoTime.toISOString windowStart) ++
    js "&endTime=" ++ encodeURIComponent (IsoTime.toISOString windowEnd)

/-! ## One page -/

/-- What the loop over the pages keeps. -/
structure Loop where
  seen : List JsString
  pageCount : Nat
  state : Option Subscription
  contiguousStart : Option Int

def Loop.lastSuccessfulPollAt (loop : Loop) : Option Int :=
  loop.state.bind Subscription.lastSuccessfulPollAt

def freshStart (now : Int) (lastSuccessfulPollAt : Option Int) : Int :=
  match lastSuccessfulPollAt with
  | some last => max (now - 7 * DAY) (last - 5 * MINUTE)
  | none => now - DAY

def nextPage (env : Env) (contentType : ContentType) (now : Int) (loop : Loop) : Page :=
  match loop.state.bind Subscription.saved with
  | some page => page
  | none =>
    let windowStart := loop.contiguousStart.getD (freshStart now loop.lastSuccessfulPollAt)
    let windowEnd := min now (windowStart + DAY)
    ⟨windowStart, windowEnd, contentUrl env contentType windowStart windowEnd⟩

/-- The blobs of a page: an item without an id or an address is left out, and an address outside
the tenant throws. -/
def discovered (env : Env) (contentType : ContentType) (now : Int) :
    List Json → Option (List Discovered)
  | [] => some []
  | item :: rest => do
    let microsoftContentId := text (← property item (js "contentId"))
    let contentUri := text (← property item (js "contentUri"))
    match microsoftContentId, contentUri with
    | some id, some uri =>
      if validateManagementUrl env uri then
        let created ← property item (js "contentCreated")
        let expires ← property item (js "contentExpiration")
        let others ← discovered env contentType now rest
        return ⟨contentType, id.take 500, uri, validDate env created, validDate env expires,
          now + CONTENT_LEDGER_RETENTION_MS⟩ :: others
      else none
    | _, _ => discovered env contentType now rest

structure Answer where
  payload : Json
  nextPageUri : Option JsString

/-- What the world does in one turn of the loop: the clock at its condition and after the loop,
the answer if the request and the metered read succeed, the number of batches before one that
fails, and whether the update succeeds. -/
structure Turn where
  clock : Int
  answer : Option Answer
  failsAfter : Option Nat
  saves : Bool
  storedAt : Int
  polledAt : Int
  after : Int
  forward : clock ≤ after

/-- The blobs of a page are stored in batches of 500. -/
def store (turn : Turn) (ds : List Discovered) (ledger : Ledger) : Ledger × Bool :=
  match turn.failsAfter with
  | some n =>
    if 500 * n < ds.length then (ledger.createMany turn.storedAt (ds.take (500 * n)), false)
    else (ledger.createMany turn.storedAt ds, true)
  | none => (ledger.createMany turn.storedAt ds, true)

/-- The cursor after a page. -/
def Subscription.advance (page : Page) (continuation : Option JsString) (polledAt : Int)
    (s : Subscription) : Subscription :=
  match continuation with
  | some next => { s with
      lastContentPollAt := some polledAt
      discoveryWindowStart := some page.windowStart
      discoveryWindowEnd := some page.windowEnd
      discoveryNextPageUri := some next
      lastError := none }
  | none => { s with
      lastContentPollAt := some polledAt
      lastSuccessfulPollAt := some page.windowEnd
      discoveryWindowStart := none
      discoveryWindowEnd := none
      discoveryNextPageUri := none
      lastError := none }

inductive Verdict
  | threw
  | breaks (hasBacklog : Bool) (state : Option Subscription)
  | continues (loop : Loop)

/-- The cursor is moved once the page is stored. -/
def recordPage (contentType : ContentType) (now : Int) (turn : Turn) (loop : Loop) (page : Page)
    (items : List Json) (continuation : Option JsString) (feed : Feed) : Feed × Verdict :=
  if !turn.saves then (feed, .threw)
  else match feed.update contentType (.advance page continuation turn.polledAt) with
    | none => (feed, .threw)
    | some (feed, state) =>
      let feed := feed.emit contentType (.recorded page items continuation)
      match continuation with
      | some _ => (feed, .continues
          ⟨page.url :: loop.seen, loop.pageCount + 1, some state, loop.contiguousStart⟩)
      | none =>
        if now ≤ page.windowEnd then (feed, .breaks false (some state))
        else (feed, .continues
          ⟨page.url :: loop.seen, loop.pageCount + 1, some state, some page.windowEnd⟩)

/-- What is done with the answer to a request. -/
def readPage (env : Env) (contentType : ContentType) (now : Int) (turn : Turn) (loop : Loop)
    (page : Page) (answer : Answer) (feed : Feed) : Feed × Verdict :=
  match answer.payload with
  | .array items =>
    match discovered env contentType now items with
    | none => (feed, .threw)
    | some ds =>
      let stored := store turn ds feed.ledger
      let feed := { feed with ledger := stored.1 }
      let continuation := answer.nextPageUri.filter (· ≠ [])
      if stored.2 && continuation.all (validateManagementUrl env) then
        recordPage contentType now turn loop page items continuation feed
      else (feed, .threw)
  | _ => (feed, .threw)

/-- The body of the loop. -/
def fetchPage (env : Env) (contentType : ContentType) (now : Int) (turn : Turn) (loop : Loop)
    (feed : Feed) : Feed × Verdict :=
  let page := nextPage env contentType now loop
  if page.url ∈ loop.seen then (feed, .threw)
  else if MAX_CONTENT_PAGES_PER_TYPE_PER_RUN ≤ loop.pageCount then
    (feed, .breaks true loop.state)
  else
    let feed := feed.emit contentType (.requested now loop.lastSuccessfulPollAt page)
    match turn.answer with
    | none => (feed, .threw)
    | some answer => readPage env contentType now turn loop page answer feed

/-! ## Runs -/

/-- How the loop over the pages of a content type ends. -/
inductive Departure
  | interrupted
  | left (hasBacklog : Bool) (state : Option Subscription) (after : Int) (rest : List Turn)

/-- The loop over the pages; a run without further turns was interrupted. -/
def discoverType (env : Env) (contentType : ContentType) (now deadline : Int) :
    List Turn → Loop → Feed → Feed × Departure
  | [], _, feed => (feed, .interrupted)
  | turn :: rest, loop, feed =>
    if turn.clock < deadline then
      match fetchPage env contentType now turn loop feed with
      | (feed, .threw) => (feed, .interrupted)
      | (feed, .breaks hasBacklog state) => (feed, .left hasBacklog state turn.after rest)
      | (feed, .continues loop) => discoverType env contentType now deadline rest loop feed
    else (feed, .left false loop.state turn.after rest)

/-- The cursor is behind the run, or the deadline cut its loop off. -/
def backlogged (now deadline after : Int) (state : Option Subscription) : Bool :=
  decide (deadline ≤ after) ||
    (state.bind Subscription.lastSuccessfulPollAt).any fun last => last < now

structure Run where
  now : Int
  deadline : Int
  enabledContentTypes : JsSet JsString
  turns : List Turn

/-- The content types in order, until one throws. -/
def discoverTypes (env : Env) (run : Run) :
    List ContentType → Bool → List Turn → Feed → Feed × Option Bool
  | [], hasBacklog, _, feed => (feed, some hasBacklog)
  | contentType :: others, hasBacklog, turns, feed =>
    if !run.enabledContentTypes.has contentType.text then
      discoverTypes env run others hasBacklog turns feed
    else
      match discoverType env contentType run.now run.deadline turns
        ⟨[], 0, feed.subscriptions contentType, none⟩ feed with
      | (feed, .interrupted) => (feed, none)
      | (feed, .left backlog state after rest) =>
        discoverTypes env run others
          (hasBacklog || backlog || backlogged run.now run.deadline after state) rest feed

/-- A run reports whether there is a backlog, unless it throws. -/
def discoverContent (env : Env) (run : Run) (feed : Feed) : Feed × Option Bool :=
  discoverTypes env run M365_ACTIVITY_CONTENT_TYPES false run.turns feed

def discoverRuns (env : Env) (runs : List Run) (feed : Feed) : Feed :=
  runs.foldl (fun feed run => (discoverContent env run feed).1) feed

end ManagementActivity
