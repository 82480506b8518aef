import HawkView.Tenants.ActivityDiscovery

/-!
# The trace of discovery

What discovery did is in its trace. The cursor of a subscription is what the trace
says it should be, and the windows that were paged to their end join up to it.
-/

namespace ManagementActivity

open List Option

/-! ## What a trace says -/

/-- The pages that were recorded, each with its continuation. -/
def records (trace : List Event) : List (Page × Option JsString) :=
  trace.filterMap fun
    | .recorded page _ continuation => some (page, continuation)
    | .requested _ _ _ => none

/-- The ends of the windows that were completed. -/
def completions (trace : List Event) : List Int :=
  (records trace).filterMap fun r => if r.2 = none then some r.1.windowEnd else none

/-- The start of the first window that a page was recorded of. -/
def firstWindow (trace : List Event) : Option Int :=
  (records trace).head?.map fun r => r.1.windowStart

/-- The page that the window in progress goes on with. -/
def resumption (trace : List Event) : Option Page :=
  (records trace).getLast?.bind fun r =>
    r.2.map fun next => ⟨r.1.windowStart, r.1.windowEnd, next⟩

/-- All pages of a window from this one on were recorded. -/
inductive PagedFrom (trace : List Event) (windowStart windowEnd : Int) : JsString → Prop
  | last {url : JsString} (mem : (⟨windowStart, windowEnd, url⟩, none) ∈ records trace) :
      PagedFrom trace windowStart windowEnd url
  | more {url next : JsString}
      (mem : (⟨windowStart, windowEnd, url⟩, some next) ∈ records trace)
      (rest : PagedFrom trace windowStart windowEnd next) :
      PagedFrom trace windowStart windowEnd url

/-- All pages of the window were recorded. -/
def Fetched (env : Env) (contentType : ContentType) (trace : List Event)
    (windowStart windowEnd : Int) : Prop :=
  PagedFrom trace windowStart windowEnd (contentUrl env contentType windowStart windowEnd)

/-- The instant lies in a window whose pages were all recorded. -/
def Covered (env : Env) (contentType : ContentType) (trace : List Event) (t : Int) : Prop :=
  ∃ windowStart windowEnd, Fetched env contentType trace windowStart windowEnd ∧
    windowStart ≤ t ∧ t < windowEnd

/-- A run that found the instant to be over seven days old began its window after it. -/
def Skipped (trace : List Event) (t : Int) : Prop :=
  ∃ now last page, .requested now (some last) page ∈ trace ∧ last ≤ t ∧ t < page.windowStart ∧
    t < now - 7 * DAY

/-- A window in progress is gone on with where it was left. -/
def Resumes (trace : List Event) : Prop :=
  ∀ before now since page after, trace = before ++ .requested now since page :: after →
    ∀ saved, resumption before = some saved → page = saved

/-- The blobs of the items are in the ledger. -/
def Ledgered (items : List Json) (ledger : Ledger) : Prop :=
  ∀ item ∈ items, ∀ id uri, (property item (js "contentId")).bind text = some id →
    (property item (js "contentUri")).bind text = some uri → ledger.has (id.take 500) = true

section Traces

variable {env : Env} {contentType : ContentType} {trace : List Event} {now t : Int}
  {since : Option Int} {page : Page} {items : List Json} {continuation : Option JsString}

@[simp] theorem records_requested :
    records (trace ++ [.requested now since page]) = records trace := by
  simp [records]

@[simp] theorem records_recorded :
    records (trace ++ [.recorded page items continuation]) =
      records trace ++ [(page, continuation)] := by
  simp [records]

@[simp] theorem completions_requested :
    completions (trace ++ [.requested now since page]) = completions trace := by
  simp [completions]

theorem completions_continued (next : JsString) :
    completions (trace ++ [.recorded page items (some next)]) = completions trace := by
  simp [completions]

theorem completions_ended :
    completions (trace ++ [.recorded page items none]) = completions trace ++ [page.windowEnd] := by
  simp [completions]

@[simp] theorem firstWindow_requested :
    firstWindow (trace ++ [.requested now since page]) = firstWindow trace := by
  simp [firstWindow]

theorem firstWindow_recorded :
    firstWindow (trace ++ [.recorded page items continuation]) =
      some ((firstWindow trace).getD page.windowStart) := by
  unfold firstWindow
  rw [records_recorded]
  cases records trace <;> simp

@[simp] theorem resumption_requested :
    resumption (trace ++ [.requested now since page]) = resumption trace := by
  simp [resumption]

theorem resumption_recorded :
    resumption (trace ++ [.recorded page items continuation]) =
      continuation.map fun next => ⟨page.windowStart, page.windowEnd, next⟩ := by
  simp [resumption]

/-- A window in progress is the only one that was begun without being completed. -/
theorem unrecorded (completed : completions trace = []) (resumed : resumption trace = none) :
    firstWindow trace = none := by
  unfold firstWindow resumption completions at *
  cases hlast : (records trace).getLast? with
  | none => simp [List.getLast?_eq_none_iff.mp hlast]
  | some r =>
    rw [hlast, bind_some, map_eq_none_iff] at resumed
    have hmem := filterMap_eq_nil_iff.mp completed r (mem_of_getLast? hlast)
    simp [resumed] at hmem

variable {trace' : List Event}

theorem PagedFrom.mono (sub : ∀ r ∈ records trace, r ∈ records trace')
    {windowStart windowEnd : Int} {url : JsString} (h : PagedFrom trace windowStart windowEnd url) :
    PagedFrom trace' windowStart windowEnd url := by
  induction h with
  | last mem => exact .last (sub _ mem)
  | more mem _ ih => exact .more (sub _ mem) ih

theorem Covered.mono (sub : ∀ r ∈ records trace, r ∈ records trace')
    (h : Covered env contentType trace t) : Covered env contentType trace' t := by
  obtain ⟨windowStart, windowEnd, hfetched, hle, hlt⟩ := h
  exact ⟨windowStart, windowEnd, PagedFrom.mono sub hfetched, hle, hlt⟩

theorem Skipped.append {more : List Event} (h : Skipped trace t) : Skipped (trace ++ more) t := by
  obtain ⟨now, last, page, hmem, hrest⟩ := h
  exact ⟨now, last, page, mem_append_left _ hmem, hrest⟩

end Traces

/-- The pages before this one were recorded, from the first of its window. -/
inductive PagedTo (env : Env) (contentType : ContentType) (trace : List Event)
    (windowStart windowEnd : Int) : JsString → Prop
  | first : PagedTo env contentType trace windowStart windowEnd
      (contentUrl env contentType windowStart windowEnd)
  | next {url next : JsString} (reached : PagedTo env contentType trace windowStart windowEnd url)
      (mem : (⟨windowStart, windowEnd, url⟩, some next) ∈ records trace) :
      PagedTo env contentType trace windowStart windowEnd next

variable {contentType : ContentType} {trace : List Event} {windowStart windowEnd : Int}
  {url : JsString}

theorem PagedTo.fetched {env : Env} (h : PagedTo env contentType trace windowStart windowEnd url)
    (rest : PagedFrom trace windowStart windowEnd url) :
    Fetched env contentType trace windowStart windowEnd := by
  induction h with
  | first => exact rest
  | next _ mem ih => exact ih (.more mem rest)

theorem PagedTo.mono {env : Env} {trace' : List Event}
    (sub : ∀ r ∈ records trace, r ∈ records trace')
    (h : PagedTo env contentType trace windowStart windowEnd url) :
    PagedTo env contentType trace' windowStart windowEnd url := by
  induction h with
  | first => exact .first
  | next _ mem ih => exact .next ih (sub _ mem)

/-! ## The cursor -/

/-- The page is the next of a window that joins what was completed. -/
structure Joins (env : Env) (contentType : ContentType) (trace : List Event) (latest : Int)
    (page : Page) : Prop where
  reached : PagedTo env contentType trace page.windowStart page.windowEnd page.url
  recent : page.windowEnd ≤ latest
  first : completions trace = [] → ∀ first, firstWindow trace = some first →
    page.windowStart = first
  later : ∀ last, (completions trace).getLast? = some last → last ≤ page.windowEnd ∧
    ∀ t, last ≤ t → t < page.windowStart → Skipped trace t

/-- The cursor of a subscription says what the trace does, and nothing before it is missing. -/
structure Cursor (env : Env) (contentType : ContentType) (row : Option Subscription)
    (trace : List Event) (latest : Int) : Prop where
  last : row.bind Subscription.lastSuccessfulPollAt = (completions trace).getLast?
  increasing : (completions trace).Pairwise (· ≤ ·)
  recent : ∀ last ∈ completions trace, last ≤ latest
  saved : row.bind Subscription.saved = resumption trace
  resumes : Resumes trace
  joins : ∀ page, resumption trace = some page → Joins env contentType trace latest page
  covered : ∀ first last, firstWindow trace = some first →
    (completions trace).getLast? = some last → ∀ t, first ≤ t → t < last →
      Covered env contentType trace t ∨ Skipped trace t

section Steps

variable {env : Env} {contentType : ContentType} {row : Option Subscription}
  {trace : List Event} {latest now : Int} {page : Page} {items : List Json}

theorem Joins.later_run (h : Joins env contentType trace latest page) (le : latest ≤ now) :
    Joins env contentType trace now page :=
  ⟨h.reached, h.recent.trans le, h.first, h.later⟩

theorem Cursor.later_run (h : Cursor env contentType row trace latest) (le : latest ≤ now) :
    Cursor env contentType row trace now where
  last := h.last
  increasing := h.increasing
  recent last hlast := (h.recent last hlast).trans le
  saved := h.saved
  resumes := h.resumes
  joins page hpage := (h.joins page hpage).later_run le
  covered := h.covered

variable {since : Option Int}

theorem Joins.requested (h : Joins env contentType trace latest page) {other : Page} :
    Joins env contentType (trace ++ [.requested now since other]) latest page where
  reached := h.reached.mono (by simp)
  recent := h.recent
  first := by simpa using h.first
  later last hlast := by
    rw [completions_requested] at hlast
    obtain ⟨hle, hskipped⟩ := h.later last hlast
    exact ⟨hle, fun t ht hlt => (hskipped t ht hlt).append⟩

/-- A trace keeps resuming where a page that is requested next is the one that was saved. -/
theorem resumes_next (h : Resumes trace) {e : Event}
    (resumed : ∀ now since page, e = .requested now since page →
      ∀ saved, resumption trace = some saved → page = saved) : Resumes (trace ++ [e]) := by
  intro before other otherSince otherPage after heq saved hsaved
  rcases eq_nil_or_concat after with rfl | ⟨middle, last, rfl⟩
  · obtain ⟨rfl, hlast⟩ := append_inj' heq rfl
    exact resumed other otherSince otherPage (singleton_injective hlast) saved hsaved
  · rw [concat_eq_append, ← cons_append, ← append_assoc] at heq
    obtain ⟨heq, _⟩ := append_inj' heq rfl
    exact h before other otherSince otherPage middle heq saved hsaved

theorem resumes_requested (h : Resumes trace)
    (resumed : ∀ saved, resumption trace = some saved → page = saved) :
    Resumes (trace ++ [.requested now since page]) :=
  resumes_next h fun _ _ _ heq => (Event.requested.inj heq).2.2 ▸ resumed

variable {continuation : Option JsString}

theorem resumes_recorded (h : Resumes trace) :
    Resumes (trace ++ [.recorded page items continuation]) :=
  resumes_next h fun _ _ _ heq => by cases heq

theorem Cursor.requested (h : Cursor env contentType row trace latest)
    (resumed : ∀ saved, resumption trace = some saved → page = saved) :
    Cursor env contentType row (trace ++ [.requested now since page]) latest where
  last := by simpa using h.last
  increasing := by simpa using h.increasing
  recent := by simpa using h.recent
  saved := by simpa using h.saved
  resumes := resumes_requested h.resumes resumed
  joins other hother := by
    rw [resumption_requested] at hother
    exact (h.joins other hother).requested
  covered first last hfirst hlast t ht hlt := by
    rw [firstWindow_requested] at hfirst
    rw [completions_requested] at hlast
    rcases h.covered first last hfirst hlast t ht hlt with hcovered | hskipped
    · exact .inl (hcovered.mono (by simp))
    · exact .inr hskipped.append

theorem completions_of_unrecorded (h : firstWindow trace = none) : completions trace = [] := by
  unfold firstWindow at h
  rw [map_eq_none_iff, List.head?_eq_none_iff] at h
  rw [completions, h, filterMap_nil]

theorem le_last {l : List Int} (h : l.Pairwise (· ≤ ·)) {last : Int}
    (hlast : l.getLast? = some last) : ∀ t ∈ l, t ≤ last := by
  obtain ⟨front, rfl⟩ := List.getLast?_eq_some_iff.mp hlast
  intro t ht
  rcases mem_append.mp ht with ht | ht
  · exact (pairwise_append.mp h).2.2 t ht last mem_cons_self
  · rw [mem_singleton.mp ht]

theorem mem_records_recorded :
    (page, continuation) ∈ records (trace ++ [.recorded page items continuation]) := by
  simp

theorem records_sub :
    ∀ r ∈ records trace, r ∈ records (trace ++ [.recorded page items continuation]) := by
  intro r hr
  rw [records_recorded]
  exact mem_append_left _ hr

/-- The first window stays the first, and one that is begun joins it. -/
theorem Joins.firstWindow_recorded (h : Joins env contentType trace latest page) :
    firstWindow (trace ++ [.recorded page items continuation]) =
      if completions trace = [] then some page.windowStart else firstWindow trace := by
  rw [ManagementActivity.firstWindow_recorded]
  cases hfirst : firstWindow trace with
  | none => rw [if_pos (completions_of_unrecorded hfirst), getD_none]
  | some first =>
    rw [getD_some]
    split
    · rename_i hcompleted
      rw [h.first hcompleted first hfirst]
    · rfl

variable {s : Subscription}

/-- A page with a continuation leaves the window in progress. -/
theorem Cursor.continued (h : Cursor env contentType row trace latest) (present : row = some s)
    (joins : Joins env contentType trace latest page) {next : JsString} (nonempty : next ≠ [])
    (polledAt : Int) :
    Cursor env contentType (some (s.advance page (some next) polledAt))
      (trace ++ [.recorded page items (some next)]) latest where
  last := by
    rw [completions_continued, ← h.last, present]
    rfl
  increasing := by
    rw [completions_continued]
    exact h.increasing
  recent := by
    rw [completions_continued]
    exact h.recent
  saved := by
    simp [resumption_recorded, Subscription.saved, Subscription.advance, nonempty]
  resumes := resumes_recorded h.resumes
  joins other hother := by
    rw [resumption_recorded, map_some, Option.some.injEq] at hother
    subst hother
    refine ⟨.next (joins.reached.mono records_sub) mem_records_recorded, joins.recent, ?_, ?_⟩
    · intro hcompleted first hfirst
      rw [completions_continued] at hcompleted
      rw [joins.firstWindow_recorded, if_pos hcompleted, Option.some.injEq] at hfirst
      exact hfirst
    · intro last hlast
      rw [completions_continued] at hlast
      obtain ⟨hle, hskipped⟩ := joins.later last hlast
      exact ⟨hle, fun t ht hlt => (hskipped t ht hlt).append⟩
  covered first last hfirst hlast t ht hlt := by
    rw [completions_continued] at hlast
    rw [joins.firstWindow_recorded, if_neg (by rintro heq; rw [heq] at hlast; cases hlast)] at hfirst
    rcases h.covered first last hfirst hlast t ht hlt with hcovered | hskipped
    · exact .inl (hcovered.mono records_sub)
    · exact .inr hskipped.append

/-- The last page of a window completes it. -/
theorem Cursor.completed (h : Cursor env contentType row trace latest)
    (joins : Joins env contentType trace latest page) (polledAt : Int) :
    Cursor env contentType (some (s.advance page none polledAt))
      (trace ++ [.recorded page items none]) latest where
  last := by
    rw [completions_ended, getLast?_concat]
    rfl
  increasing := by
    rw [completions_ended, pairwise_append]
    refine ⟨h.increasing, pairwise_singleton _ _, ?_⟩
    intro t ht e he
    rw [mem_singleton.mp he]
    obtain ⟨last, hlast⟩ := isSome_iff_exists.mp
      (List.getLast?_isSome.mpr (ne_nil_of_mem ht))
    exact (le_last h.increasing hlast t ht).trans (joins.later last hlast).1
  recent last hlast := by
    rw [completions_ended, mem_append, mem_singleton] at hlast
    rcases hlast with hlast | rfl
    · exact h.recent last hlast
    · exact joins.recent
  saved := by simp [resumption_recorded, Subscription.saved, Subscription.advance]
  resumes := resumes_recorded h.resumes
  joins other hother := by
    rw [resumption_recorded] at hother
    cases hother
  covered first last hfirst hlast t ht hlt := by
    rw [completions_ended, getLast?_concat, Option.some.injEq] at hlast
    subst hlast
    rw [joins.firstWindow_recorded] at hfirst
    by_cases hin : page.windowStart ≤ t
    · left
      exact ⟨page.windowStart, page.windowEnd,
        (joins.reached.mono records_sub).fetched (.last mem_records_recorded), hin, hlt⟩
    cases hlast : (completions trace).getLast? with
    | none =>
      rw [if_pos (List.getLast?_eq_none_iff.mp hlast), Option.some.injEq] at hfirst
      omega
    | some last =>
      rw [if_neg (by rintro heq; rw [heq] at hlast; cases hlast)] at hfirst
      by_cases hold : t < last
      · rcases h.covered first last hfirst hlast t ht hold with hcovered | hskipped
        · exact .inl (hcovered.mono records_sub)
        · exact .inr hskipped.append
      · exact .inr ((joins.later last hlast).2 t (by omega) (by omega)).append

end Steps

end ManagementActivity
