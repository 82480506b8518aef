import HawkView.Tenants.DiscoveryTrace

/-!
# The cursor leaves no hole

Each page that a run asks for is the next of a window that joins what was
completed, whatever became of the runs before.
-/

namespace ManagementActivity

open List Option

/-! ## Pages -/

/-- The loop goes on from the subscription as it is stored. -/
structure Follows (contentType : ContentType) (feed : Feed) (loop : Loop) : Prop where
  state : loop.state = feed.subscriptions contentType
  contiguous : ∀ start, loop.contiguousStart = some start → loop.lastSuccessfulPollAt = some start

structure Sound (env : Env) (feed : Feed) (latest : Int) : Prop where
  cursor : ∀ contentType,
    Cursor env contentType (feed.subscriptions contentType) (feed.trace contentType) latest
  ledgered : ∀ contentType page items continuation,
    .recorded page items continuation ∈ feed.trace contentType → Ledgered items feed.ledger

/-- Discovery of one content type leaves the others alone, and forgets nothing. -/
structure Frame (contentType : ContentType) (feed feed' : Feed) : Prop where
  subscriptions : ∀ other, other ≠ contentType →
    feed'.subscriptions other = feed.subscriptions other
  traces : ∀ other, other ≠ contentType → feed'.trace other = feed.trace other
  grows : feed.trace contentType <+: feed'.trace contentType

section Pages

variable {env : Env} {contentType : ContentType} {feed feed' : Feed} {now latest : Int}
  {loop : Loop} {page : Page}

theorem Frame.refl (contentType : ContentType) (feed : Feed) : Frame contentType feed feed :=
  ⟨fun _ _ => rfl, fun _ _ => rfl, prefix_refl _⟩

theorem Frame.trans {feed'' : Feed} (h : Frame contentType feed feed')
    (h' : Frame contentType feed' feed'') : Frame contentType feed feed'' where
  subscriptions other hne := (h'.subscriptions other hne).trans (h.subscriptions other hne)
  traces other hne := (h'.traces other hne).trans (h.traces other hne)
  grows := h.grows.trans h'.grows

theorem nextPage_resumes (h : Cursor env contentType (feed.subscriptions contentType)
    (feed.trace contentType) latest) (follows : Follows contentType feed loop) {saved : Page}
    (resumed : resumption (feed.trace contentType) = some saved) :
    nextPage env contentType now loop = saved := by
  unfold nextPage
  rw [follows.state, h.saved, resumed]

theorem Follows.last (follows : Follows contentType feed loop)
    (h : Cursor env contentType (feed.subscriptions contentType) (feed.trace contentType)
      latest) :
    loop.lastSuccessfulPollAt = (completions (feed.trace contentType)).getLast? := by
  rw [Loop.lastSuccessfulPollAt, follows.state]
  exact h.last

section

variable (h : Cursor env contentType (feed.subscriptions contentType) (feed.trace contentType) now)
include h

/-- A fresh window begins where the cursor is, or a little before it, or a week ago. -/
theorem fresh_joins (follows : Follows contentType feed loop)
    (resumed : resumption (feed.trace contentType) = none) {windowStart windowEnd : Int}
    (start : windowStart = loop.contiguousStart.getD (freshStart now loop.lastSuccessfulPollAt))
    (ends : windowEnd = min now (windowStart + DAY)) :
    Joins env contentType (feed.trace contentType ++ [.requested now loop.lastSuccessfulPollAt
      ⟨windowStart, windowEnd, contentUrl env contentType windowStart windowEnd⟩]) now
      ⟨windowStart, windowEnd, contentUrl env contentType windowStart windowEnd⟩ where
  reached := .first
  recent := by
    simp only
    omega
  first hcompleted first hfirst := by
    rw [completions_requested] at hcompleted
    rw [firstWindow_requested, unrecorded hcompleted resumed] at hfirst
    cases hfirst
  later last hlast := by
    rw [completions_requested] at hlast
    have hrecent := h.recent last (mem_of_getLast? hlast)
    rw [follows.last h, hlast] at start
    rw [follows.last h, hlast]
    cases hcontiguous : loop.contiguousStart with
    | some c =>
      have hc := follows.contiguous c hcontiguous
      rw [follows.last h, hlast, Option.some.injEq] at hc
      rw [hcontiguous, getD_some] at start
      subst hc start
      simp only [DAY] at ends ⊢
      exact ⟨by omega, fun t ht hlt => absurd ht (not_le_of_gt hlt)⟩
    | none =>
      rw [hcontiguous, getD_none] at start
      simp only [freshStart, DAY, MINUTE] at start ends ⊢
      refine ⟨by omega, fun t ht hlt => ⟨now, last, _, mem_append_right _ mem_cons_self,
        ht, hlt, ?_⟩⟩
      simp only [DAY]
      omega

theorem nextPage_joins (follows : Follows contentType feed loop) :
    Joins env contentType (feed.trace contentType ++
      [.requested now loop.lastSuccessfulPollAt (nextPage env contentType now loop)]) now
      (nextPage env contentType now loop) := by
  cases hresumed : resumption (feed.trace contentType) with
  | some saved =>
    rw [nextPage_resumes h follows hresumed]
    exact (h.joins saved hresumed).requested
  | none =>
    have hpage : nextPage env contentType now loop =
        let windowStart := loop.contiguousStart.getD (freshStart now loop.lastSuccessfulPollAt)
        let windowEnd := min now (windowStart + DAY)
        ⟨windowStart, windowEnd, contentUrl env contentType windowStart windowEnd⟩ := by
      unfold nextPage
      rw [follows.state, h.saved, hresumed]
    rw [hpage]
    exact fresh_joins h follows hresumed rfl rfl

end

variable {ds : List Discovered} {id : JsString}

theorem discovered_mem {ct : ContentType} {items : List Json}
    (h : discovered env ct now items = some ds) {item : Json} (mem : item ∈ items)
    {uri : JsString} (hid : (property item (js "contentId")).bind text = some id)
    (huri : (property item (js "contentUri")).bind text = some uri) :
    ∃ d ∈ ds, d.microsoftContentId = id.take 500 := by
  induction items generalizing ds with
  | nil => cases mem
  | cons other rest ih =>
    unfold discovered at h
    obtain ⟨contentId, hcontentId, h⟩ := bind_eq_some_iff.mp h
    obtain ⟨contentUri, hcontentUri, h⟩ := bind_eq_some_iff.mp h
    simp only at h
    split at h
    · rename_i otherId otherUri hotherId hotherUri
      split at h
      · obtain ⟨created, _, h⟩ := bind_eq_some_iff.mp h
        obtain ⟨expires, _, h⟩ := bind_eq_some_iff.mp h
        obtain ⟨others, hothers, h⟩ := bind_eq_some_iff.mp h
        cases h
        rcases mem_cons.mp mem with rfl | mem
        · rw [hcontentId, bind_some, hotherId, Option.some.injEq] at hid
          subst hid
          exact ⟨_, mem_cons_self, rfl⟩
        · obtain ⟨d, hd, heq⟩ := ih hothers mem
          exact ⟨d, mem_cons_of_mem _ hd, heq⟩
      · cases h
    · rename_i hnone
      rcases mem_cons.mp mem with rfl | mem
      · rw [hcontentId, bind_some] at hid
        rw [hcontentUri, bind_some] at huri
        exact absurd huri (hnone id uri hid)
      · exact ih h mem

variable {ledger : Ledger}

theorem createMany_grows {at' : Int} (h : ledger.has id = true) :
    (ledger.createMany at' ds).has id = true := by
  obtain ⟨c, hc, hid⟩ := Ledger.has_iff.mp h
  exact Ledger.has_iff.mpr ⟨c, Ledger.createMany_keeps hc, hid⟩

variable {turn : Turn}

theorem store_grows (h : ledger.has id = true) : (store turn ds ledger).1.has id = true := by
  unfold store
  split
  · split <;> exact createMany_grows h
  · exact createMany_grows h

theorem store_all (h : (store turn ds ledger).2 = true) {d : Discovered} (mem : d ∈ ds) :
    (store turn ds ledger).1.has d.microsoftContentId = true := by
  unfold store at h ⊢
  split
  · rename_i n hn
    rw [hn] at h
    simp only at h
    split at h
    · cases h
    · rename_i hbatches
      rw [if_neg hbatches]
      exact Ledger.createMany_has mem
  · exact Ledger.createMany_has mem

theorem Sound.stored (h : Sound env feed latest) :
    Sound env { feed with ledger := (store turn ds feed.ledger).1 } latest where
  cursor := h.cursor
  ledgered ct page items continuation hmem item hitem id uri hid huri :=
    store_grows (h.ledgered ct page items continuation hmem item hitem id uri hid huri)

@[simp] theorem emit_trace (e : Event) :
    (feed.emit contentType e).trace contentType = feed.trace contentType ++ [e] := by
  simp [Feed.emit]

theorem emit_frame (e : Event) : Frame contentType feed (feed.emit contentType e) where
  subscriptions _ _ := rfl
  traces other hne := by simp [Feed.emit, Function.update_of_ne hne]
  grows := by simp

/-- The request of a page, which goes on with what the cursor keeps. -/
theorem Sound.requested (h : Sound env feed now) (follows : Follows contentType feed loop) :
    Sound env (feed.emit contentType (.requested now loop.lastSuccessfulPollAt
      (nextPage env contentType now loop))) now where
  cursor ct := by
    by_cases hct : ct = contentType
    · subst hct
      rw [emit_trace]
      exact (h.cursor ct).requested fun saved hsaved =>
        nextPage_resumes (h.cursor ct) follows hsaved
    · rw [(emit_frame _).traces ct hct]
      exact h.cursor ct
  ledgered ct page items continuation hmem := by
    by_cases hct : ct = contentType
    · subst hct
      rw [emit_trace, mem_append, mem_singleton] at hmem
      rcases hmem with hmem | hmem
      · exact h.ledgered ct page items continuation hmem
      · cases hmem
    · rw [(emit_frame _).traces ct hct] at hmem
      exact h.ledgered ct page items continuation hmem

/-- What a turn of the loop guarantees. -/
structure Turned (env : Env) (contentType : ContentType) (now : Int) (feed : Feed)
    (result : Feed × Verdict) : Prop where
  sound : Sound env result.1 now
  frame : Frame contentType feed result.1
  continues : ∀ loop, result.2 = .continues loop → Follows contentType result.1 loop
  breaks : ∀ hasBacklog state, result.2 = .breaks hasBacklog state →
    state = result.1.subscriptions contentType ∧
      (hasBacklog = false → state.bind Subscription.lastSuccessfulPollAt = some now)

theorem Turned.threw (h : Sound env feed now) : Turned env contentType now feed (feed, .threw) :=
  ⟨h, .refl contentType feed, by simp, by simp⟩

/-- The feed with a page recorded in the cursor of its content type. -/
def withRecord (feed : Feed) (contentType : ContentType) (s : Subscription) (page : Page)
    (items : List Json) (continuation : Option JsString) (polledAt : Int) : Feed :=
  Feed.emit ⟨Function.update feed.subscriptions contentType
    (some (s.advance page continuation polledAt)), feed.ledger, feed.trace⟩ contentType
    (.recorded page items continuation)

section Records

variable {s : Subscription} {items : List Json} {continuation : Option JsString} {polledAt : Int}

@[simp] theorem withRecord_subscription :
    (withRecord feed contentType s page items continuation polledAt).subscriptions contentType =
      some (s.advance page continuation polledAt) := by
  simp [withRecord, Feed.emit]

@[simp] theorem withRecord_trace :
    (withRecord feed contentType s page items continuation polledAt).trace contentType =
      feed.trace contentType ++ [.recorded page items continuation] := by
  simp [withRecord, Feed.emit]

theorem withRecord_frame :
    Frame contentType feed
      (withRecord feed contentType s page items continuation polledAt) where
  subscriptions other hne := by simp [withRecord, Feed.emit, Function.update_of_ne hne]
  traces other hne := by simp [withRecord, Feed.emit, Function.update_of_ne hne]
  grows := by simp

theorem Sound.recorded (h : Sound env feed now)
    (present : feed.subscriptions contentType = some s)
    (joins : Joins env contentType (feed.trace contentType) now page)
    (ledgered : Ledgered items feed.ledger) (nonempty : continuation ≠ some []) :
    Sound env (withRecord feed contentType s page items continuation polledAt) now where
  cursor ct := by
    by_cases hct : ct = contentType
    · subst hct
      rw [withRecord_subscription, withRecord_trace]
      cases continuation with
      | some next =>
        exact (h.cursor ct).continued present joins (fun heq => nonempty (heq ▸ rfl)) polledAt
      | none => exact (h.cursor ct).completed joins polledAt
    · rw [withRecord_frame.subscriptions ct hct, withRecord_frame.traces ct hct]
      exact h.cursor ct
  ledgered ct other others next hmem := by
    by_cases hct : ct = contentType
    · subst hct
      rw [withRecord_trace, mem_append, mem_singleton] at hmem
      rcases hmem with hmem | hmem
      · exact h.ledgered ct other others next hmem
      · cases hmem
        exact ledgered
    · rw [withRecord_frame.traces ct hct] at hmem
      exact h.ledgered ct other others next hmem

theorem recordPage_turned (h : Sound env feed now) (follows : Follows contentType feed loop)
    (joins : Joins env contentType (feed.trace contentType) now page)
    (ledgered : Ledgered items feed.ledger) (nonempty : continuation ≠ some []) (turn : Turn) :
    Turned env contentType now feed
      (recordPage contentType now turn loop page items continuation feed) := by
  unfold recordPage
  split
  · exact .threw h
  unfold Feed.update
  cases hpresent : feed.subscriptions contentType with
  | none => exact .threw h
  | some s =>
    have hsound : Sound env
        (withRecord feed contentType s page items continuation turn.polledAt) now :=
      h.recorded hpresent joins ledgered nonempty
    have hframe : Frame contentType feed
        (withRecord feed contentType s page items continuation turn.polledAt) :=
      withRecord_frame
    cases continuation with
    | some next =>
      refine ⟨hsound, hframe, ?_, by simp⟩
      rintro after ⟨⟩
      refine ⟨withRecord_subscription.symm, ?_⟩
      intro start hstart
      have hlast := follows.contiguous start hstart
      rw [Loop.lastSuccessfulPollAt, follows.state, hpresent] at hlast
      exact hlast
    | none =>
      rw [map_some]
      simp only
      split
      · rename_i hreached
        refine ⟨hsound, hframe, by simp, ?_⟩
        rintro hasBacklog state ⟨⟩
        refine ⟨withRecord_subscription.symm, fun _ => ?_⟩
        exact congrArg some (le_antisymm joins.recent hreached)
      · refine ⟨hsound, hframe, ?_, by simp⟩
        rintro after ⟨⟩
        exact ⟨withRecord_subscription.symm, fun start hstart => hstart⟩

end Records

theorem readPage_turned (h : Sound env feed now) (follows : Follows contentType feed loop)
    (joins : Joins env contentType (feed.trace contentType) now page) (turn : Turn)
    (answer : Answer) :
    Turned env contentType now feed (readPage env contentType now turn loop page answer feed) := by
  unfold readPage
  split
  · rename_i items hitems
    cases hds : discovered env contentType now items with
    | none => exact .threw h
    | some ds =>
      simp only
      have hstored : Sound env { feed with ledger := (store turn ds feed.ledger).1 } now :=
        h.stored
      split
      · rename_i hgo
        simp only [Bool.and_eq_true] at hgo
        have hledgered : Ledgered items (store turn ds feed.ledger).1 := by
          intro item hitem id uri hid huri
          obtain ⟨d, hd, heq⟩ := discovered_mem hds hitem hid huri
          rw [← heq]
          exact store_all hgo.1 hd
        have hnonempty : answer.nextPageUri.filter (· ≠ []) ≠ some [] := by
          intro hempty
          rw [filter_eq_some_iff] at hempty
          simp at hempty
        have hturned := recordPage_turned hstored ⟨follows.state, follows.contiguous⟩ joins
          hledgered hnonempty turn
        exact ⟨hturned.sound, ⟨hturned.frame.subscriptions, hturned.frame.traces,
          hturned.frame.grows⟩, hturned.continues, hturned.breaks⟩
      · exact ⟨hstored, ⟨fun _ _ => rfl, fun _ _ => rfl, prefix_refl _⟩, by simp, by simp⟩
  · exact .threw h

theorem fetchPage_turned (h : Sound env feed now) (follows : Follows contentType feed loop)
    (turn : Turn) :
    Turned env contentType now feed (fetchPage env contentType now turn loop feed) := by
  unfold fetchPage
  simp only
  split
  · exact .threw h
  split
  · exact ⟨h, .refl contentType feed, by simp, by
      rintro hasBacklog state ⟨⟩
      exact ⟨follows.state, by simp⟩⟩
  have hsound := h.requested follows
  have hjoins := nextPage_joins (h.cursor contentType) follows
  have hframe : Frame contentType feed (feed.emit contentType (.requested now
      loop.lastSuccessfulPollAt (nextPage env contentType now loop))) := emit_frame _
  have hfollows : Follows contentType (feed.emit contentType (.requested now
      loop.lastSuccessfulPollAt (nextPage env contentType now loop))) loop :=
    ⟨follows.state, follows.contiguous⟩
  rw [← emit_trace] at hjoins
  split
  · exact ⟨hsound, hframe, by simp, by simp⟩
  · rename_i answer _
    have hturned := readPage_turned hsound hfollows hjoins turn answer
    exact ⟨hturned.sound, hframe.trans hturned.frame, hturned.continues, hturned.breaks⟩

/-- What the loop over the pages of a content type guarantees. -/
structure Departed (env : Env) (contentType : ContentType) (now deadline : Int) (feed : Feed)
    (result : Feed × Departure) : Prop where
  sound : Sound env result.1 now
  frame : Frame contentType feed result.1
  left : ∀ hasBacklog state after rest, result.2 = .left hasBacklog state after rest →
    state = result.1.subscriptions contentType ∧ (hasBacklog = false → deadline ≤ after ∨
      state.bind Subscription.lastSuccessfulPollAt = some now)

theorem discoverType_departed (deadline : Int) (turns : List Turn) (h : Sound env feed now)
    (follows : Follows contentType feed loop) :
    Departed env contentType now deadline feed
      (discoverType env contentType now deadline turns loop feed) := by
  induction turns generalizing loop feed with
  | nil => exact ⟨h, .refl contentType feed, by simp [discoverType]⟩
  | cons turn rest ih =>
    unfold discoverType
    split
    · have hturned := fetchPage_turned h follows turn
      cases hfetch : fetchPage env contentType now turn loop feed with
      | mk feed' verdict =>
        rw [hfetch] at hturned
        cases verdict with
        | threw => exact ⟨hturned.sound, hturned.frame, by simp⟩
        | breaks hasBacklog state =>
          refine ⟨hturned.sound, hturned.frame, ?_⟩
          rintro backlog other after others ⟨⟩
          exact (hturned.breaks hasBacklog state rfl).imp id fun h hb => .inr (h hb)
        | continues loop' =>
          have hrest := ih hturned.sound (hturned.continues loop' rfl)
          exact ⟨hrest.sound, hturned.frame.trans hrest.frame, hrest.left⟩
    · rename_i hclock
      refine ⟨h, .refl contentType feed, ?_⟩
      rintro backlog state after others ⟨⟩
      exact ⟨follows.state, fun _ => .inl ((not_lt.mp hclock).trans turn.forward)⟩

/-- What the loop over the content types guarantees. -/
structure Visited (env : Env) (run : Run) (contentTypes : List ContentType) (hasBacklog : Bool)
    (feed : Feed) (result : Feed × Option Bool) : Prop where
  sound : Sound env result.1 run.now
  others : ∀ contentType, contentType ∉ contentTypes →
    result.1.subscriptions contentType = feed.subscriptions contentType
  grows : ∀ contentType, feed.trace contentType <+: result.1.trace contentType
  caughtUp : result.2 = some false → hasBacklog = false ∧ ∀ contentType ∈ contentTypes,
    run.enabledContentTypes.has contentType.text = true →
      (result.1.subscriptions contentType).bind Subscription.lastSuccessfulPollAt = some run.now

theorem Frame.grows_all (h : Frame contentType feed feed') (other : ContentType) :
    feed.trace other <+: feed'.trace other := by
  by_cases heq : other = contentType
  · exact heq ▸ h.grows
  · rw [h.traces other heq]

theorem discoverTypes_visited {run : Run} {contentTypes : List ContentType}
    (distinct : contentTypes.Nodup) (hasBacklog : Bool) (turns : List Turn)
    (h : Sound env feed run.now) :
    Visited env run contentTypes hasBacklog feed
      (discoverTypes env run contentTypes hasBacklog turns feed) := by
  induction contentTypes generalizing hasBacklog turns feed with
  | nil => exact ⟨h, fun _ _ => rfl, fun _ => prefix_refl _, by simp [discoverTypes]⟩
  | cons contentType rest ih =>
    obtain ⟨hnew, hrest⟩ := nodup_cons.mp distinct
    unfold discoverTypes
    split
    · rename_i hdisabled
      have hvisited := ih hrest hasBacklog turns h
      refine ⟨hvisited.sound, fun other hother => hvisited.others other ?_, hvisited.grows, ?_⟩
      · exact fun hmem => hother (mem_cons_of_mem _ hmem)
      · intro hresult
        refine ⟨(hvisited.caughtUp hresult).1, fun other hother henabled => ?_⟩
        rcases mem_cons.mp hother with rfl | hother
        · simp [henabled] at hdisabled
        · exact (hvisited.caughtUp hresult).2 other hother henabled
    · have hfollows : Follows contentType feed
          ⟨[], 0, feed.subscriptions contentType, none⟩ := ⟨rfl, by simp⟩
      have hdeparted := discoverType_departed run.deadline turns h hfollows
      cases hleave : discoverType env contentType run.now run.deadline turns
        ⟨[], 0, feed.subscriptions contentType, none⟩ feed with
      | mk feed' departure =>
        rw [hleave] at hdeparted
        cases departure with
        | interrupted =>
          refine ⟨hdeparted.sound, fun other hother => hdeparted.frame.subscriptions other ?_,
            hdeparted.frame.grows_all, by simp⟩
          exact fun heq => hother (heq ▸ mem_cons_self)
        | left backlog state after others =>
          obtain ⟨hstate, hreached⟩ := hdeparted.left backlog state after others rfl
          simp only
          have hvisited := ih hrest
            (hasBacklog || backlog || backlogged run.now run.deadline after state) others
            hdeparted.sound
          refine ⟨hvisited.sound, fun other hother => ?_, fun other =>
            (hdeparted.frame.grows_all other).trans (hvisited.grows other), ?_⟩
          · rw [hvisited.others other fun hmem => hother (mem_cons_of_mem _ hmem)]
            exact hdeparted.frame.subscriptions other fun heq => hother (heq ▸ mem_cons_self)
          · intro hresult
            obtain ⟨hnone, hall⟩ := hvisited.caughtUp hresult
            simp only [Bool.or_eq_false_iff] at hnone
            obtain ⟨⟨hnone, hbacklog⟩, hbehind⟩ := hnone
            refine ⟨hnone, fun other hother henabled => ?_⟩
            rcases mem_cons.mp hother with rfl | hother
            · rw [hvisited.others other hnew, ← hstate]
              simp only [backlogged, Bool.or_eq_false_iff, decide_eq_false_iff_not] at hbehind
              exact (hreached hbacklog).resolve_left hbehind.1
            · exact hall other hother henabled

theorem discoverContent_visited {run : Run} (h : Sound env feed run.now) :
    Visited env run M365_ACTIVITY_CONTENT_TYPES false feed (discoverContent env run feed) :=
  discoverTypes_visited contentTypes_nodup false run.turns h

end Pages

/-! ## Runs -/

/-- Nothing was discovered yet. -/
structure Fresh (feed : Feed) : Prop where
  traces : ∀ contentType, feed.trace contentType = []
  cursors : ∀ contentType s, feed.subscriptions contentType = some s →
    s.lastSuccessfulPollAt = none ∧ s.saved = none

section Runs

variable {env : Env} {feed : Feed} {runs : List Run}

theorem sound_fresh (h : Fresh feed) (latest : Int) : Sound env feed latest where
  cursor contentType := by
    rw [h.traces]
    have hcursor := h.cursors contentType
    refine ⟨?_, List.Pairwise.nil, by simp [completions, records], ?_, ?_, ?_, ?_⟩
    · cases hrow : feed.subscriptions contentType with
      | none => rfl
      | some s => exact (hcursor s hrow).1
    · cases hrow : feed.subscriptions contentType with
      | none => rfl
      | some s => exact (hcursor s hrow).2
    · intro before now since page after heq
      simp at heq
    · intro page hpage
      simp [resumption, records] at hpage
    · intro first last hfirst
      simp [firstWindow, records] at hfirst
  ledgered contentType page items continuation hmem := by
    rw [h.traces] at hmem
    cases hmem

theorem Sound.later_run {latest now : Int} (h : Sound env feed latest) (le : latest ≤ now) :
    Sound env feed now :=
  ⟨fun contentType => (h.cursor contentType).later_run le, h.ledgered⟩

theorem discoverRuns_sound (fresh : Fresh feed) (ordered : runs.Pairwise (·.now ≤ ·.now))
    {now : Int} (later : ∀ run ∈ runs, run.now ≤ now) :
    Sound env (discoverRuns env runs feed) now := by
  induction runs using reverseRecOn generalizing now with
  | nil => exact sound_fresh fresh now
  | append_singleton runs run ih =>
    obtain ⟨hordered, _, hlast⟩ := pairwise_append.mp ordered
    have hsound := ih hordered fun other hother => hlast other hother run mem_cons_self
    rw [discoverRuns, foldl_append]
    exact (discoverContent_visited hsound).sound.later_run
      (later run (mem_append_right _ mem_cons_self))

end Runs

/-- What a run leaves behind, after the runs before it. -/
structure NoHole (env : Env) (feed : Feed) (run : Run) (after : Feed) (hasBacklog : Option Bool) :
    Prop where
  grows : ∀ contentType, feed.trace contentType <+: after.trace contentType
  last : ∀ contentType, (after.subscriptions contentType).bind
    Subscription.lastSuccessfulPollAt = (completions (after.trace contentType)).getLast?
  increasing : ∀ contentType, (completions (after.trace contentType)).Pairwise (· ≤ ·)
  covered : ∀ contentType first last, firstWindow (after.trace contentType) = some first →
    (after.subscriptions contentType).bind Subscription.lastSuccessfulPollAt = some last →
    ∀ t, first ≤ t → t < last →
      Covered env contentType (after.trace contentType) t ∨ Skipped (after.trace contentType) t
  ledgered : ∀ contentType page items continuation,
    .recorded page items continuation ∈ after.trace contentType → Ledgered items after.ledger
  resumes : ∀ contentType, Resumes (after.trace contentType)
  caughtUp : hasBacklog = some false → ∀ contentType,
    run.enabledContentTypes.has contentType.text = true →
      (after.subscriptions contentType).bind Subscription.lastSuccessfulPollAt = some run.now

/-- The cursor leaves no hole after the first window that a page was recorded of. -/
theorem discoverContent_leaves_no_hole (env : Env) {feed : Feed} (fresh : Fresh feed)
    {runs : List Run} (ordered : runs.Pairwise (·.now ≤ ·.now)) (run : Run)
    (later : ∀ other ∈ runs, other.now ≤ run.now) :
    NoHole env (discoverRuns env runs feed) run
      (discoverContent env run (discoverRuns env runs feed)).1
      (discoverContent env run (discoverRuns env runs feed)).2 := by
  have hsound : Sound env (discoverRuns env runs feed) run.now :=
    discoverRuns_sound fresh ordered later
  have hvisited := discoverContent_visited hsound
  refine ⟨hvisited.grows, fun contentType => (hvisited.sound.cursor contentType).last,
    fun contentType => (hvisited.sound.cursor contentType).increasing, ?_,
    hvisited.sound.ledgered, fun contentType => (hvisited.sound.cursor contentType).resumes, ?_⟩
  · intro contentType first last hfirst hlast
    have hcursor := hvisited.sound.cursor contentType
    rw [hcursor.last] at hlast
    exact hcursor.covered first last hfirst hlast
  · intro hresult contentType
    exact (hvisited.caughtUp hresult).2 contentType (mem_contentTypes contentType)

section Sample

def sampleEnv : Env where
  microsoftTenantId := ⟨js "10000000-0000-4000-8000-000000000000", by decide⟩
  parseUrl _ := none
  parseDate _ := none

def sampleFeed : Feed where
  subscriptions _ := some ⟨none, none, none, none, none, none⟩
  ledger := ⟨[], 0⟩
  trace _ := []

theorem sampleFeed_fresh : Fresh sampleFeed := by
  refine ⟨fun _ => rfl, ?_⟩
  rintro _ s ⟨⟩
  exact ⟨rfl, rfl⟩

/-- A run of one request for the content of Exchange. -/
def sampleRun (now : Int) (answer : Option Answer) : Run where
  now
  deadline := 1
  enabledContentTypes := JsSet.ofList [ContentType.exchange.text]
  turns := [⟨0, answer, none, true, 0, 0, 0, le_rfl⟩]

/-- The request of the first run fails, and three days later the second run succeeds. -/
def failedRun : Run := sampleRun (10 * DAY) none

def emptyRun : Run := sampleRun (13 * DAY) (some ⟨.array [], none⟩)

theorem discoverContent_leaves_no_hole_sample :
    NoHole sampleEnv (discoverRuns sampleEnv [failedRun] sampleFeed) emptyRun
      (discoverContent sampleEnv emptyRun (discoverRuns sampleEnv [failedRun] sampleFeed)).1
      (discoverContent sampleEnv emptyRun (discoverRuns sampleEnv [failedRun] sampleFeed)).2 :=
  discoverContent_leaves_no_hole sampleEnv sampleFeed_fresh (by simp) emptyRun (by
    simp [failedRun, emptyRun, sampleRun, DAY])

/-- The start of the first window that was requested. -/
def firstRequest (trace : List Event) : Option Int :=
  (trace.filterMap fun
    | .requested _ _ page => some page.windowStart
    | .recorded _ _ _ => none).head?

/-- What the first run asked for in vain is not asked for again. -/
theorem failed_first_request_leaves_hole :
    ¬ ∀ (env : Env) (feed : Feed) (runs : List Run), Fresh feed →
      runs.Pairwise (·.now ≤ ·.now) → ∀ contentType first last,
      firstRequest ((discoverRuns env runs feed).trace contentType) = some first →
      ((discoverRuns env runs feed).subscriptions contentType).bind
        Subscription.lastSuccessfulPollAt = some last → ∀ t, first ≤ t → t < last →
      Covered env contentType ((discoverRuns env runs feed).trace contentType) t ∨
        Skipped ((discoverRuns env runs feed).trace contentType) t := by
  intro h
  have hordered : [failedRun, emptyRun].Pairwise (·.now ≤ ·.now) := by
    simp [failedRun, emptyRun, sampleRun, DAY]
  have htrace : (discoverRuns sampleEnv [failedRun, emptyRun] sampleFeed).trace .exchange = [
      .requested (10 * DAY) none ⟨9 * DAY, 10 * DAY,
        contentUrl sampleEnv .exchange (9 * DAY) (10 * DAY)⟩,
      .requested (13 * DAY) none ⟨12 * DAY, 13 * DAY,
        contentUrl sampleEnv .exchange (12 * DAY) (13 * DAY)⟩,
      .recorded ⟨12 * DAY, 13 * DAY,
        contentUrl sampleEnv .exchange (12 * DAY) (13 * DAY)⟩ [] none] := rfl
  have hlast : ((discoverRuns sampleEnv [failedRun, emptyRun] sampleFeed).subscriptions
      .exchange).bind Subscription.lastSuccessfulPollAt = some (13 * DAY) := rfl
  rcases h sampleEnv sampleFeed _ sampleFeed_fresh hordered .exchange (9 * DAY) (13 * DAY)
    (by rw [htrace]; rfl) hlast (9 * DAY) le_rfl (by decide) with hcovered | hskipped
  · obtain ⟨windowStart, windowEnd, hfetched, hle, _⟩ := hcovered
    rw [htrace] at hfetched
    cases hfetched with
    | last mem =>
      simp [records] at mem
      simp [mem.1, DAY] at hle
    | more mem => simp [records] at mem
  · obtain ⟨now, last, page, hmem, _⟩ := hskipped
    rw [htrace] at hmem
    simp at hmem

end Sample

end ManagementActivity
