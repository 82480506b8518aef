import HawkView.IdentityRisk.PreparationRows

/-!
# Every row of an evaluation is accounted for

A row of the feed that was selected is an event or a gap, and so is a row whose feed cannot be
told. An event lies in the window, not after the evaluation, and belongs to the one user that its
record names. In another order of the rows and of the directory the same is prepared.
-/

namespace AuthenticationReadiness

open List

open Json IsoTime
open Auth (AuthScope AuthSource RecordEvent)

/-! ## The fate of a row -/

/-- The event of a row and the one user that it belongs to. -/
structure Belongs (env : Environment) (scope : AuthScope)
    (directory : List AuthenticationDirectoryUser) (selected : AuthSource) (window : ReadWindow)
    (asOf : Date) (row : AuthenticationRow) (user : AuthenticationDirectoryUser)
    (event : RecordEvent) : Prop where
  placed : Placed selected window asOf event
  named : ∃ entries record rawUser, Told asOf row entries selected ∧
    recordOf selected row entries = some record ∧
    textOf (record.lookup (recordFields selected).user) = some rawUser ∧
    usersNamed env directory selected rawUser = [user]
  reference : referenceOf env scope .subject user.microsoftUserId = .ok event.subjectRef

/-- The fates that rows have in an evaluation. -/
structure Fates (env : Environment) (scope : AuthScope)
    (directory : List AuthenticationDirectoryUser) (selected : AuthSource) (window : ReadWindow)
    (asOf : Date) (fate : AuthenticationRow → Fate) : Prop where
  otherFeed : ∀ row, fate row = .otherFeed ↔
    ∃ entries source, Told asOf row entries source ∧ source ≠ selected
  event : ∀ row user event, fate row = .event user event →
    Belongs env scope directory selected window asOf row user event
  marked : ∀ row entries, row.raw = .object entries → isMarked entries = true →
    ∀ user event, fate row ≠ .event user event
  disputed : ∀ row id, fate row = .gap (some id) ↔ ∃ entries record,
    Told asOf row entries selected ∧ recordOf selected row entries = some record ∧
      isMarked entries = true ∧ reportableId (record.lookup (recordFields selected).id) = some id

section

variable {g : Reading}

variable {row : AuthenticationRow}

theorem Reading.fate_bound {b : Binding} (h : g.classify row = .bound b) : g.fate row = .gap none ∨
      ∃ event, g.fate row = .event b.user event ∧
        Placed g.selected g.window g.asOf event ∧
        referenceOf g.env g.scope .subject b.user.microsoftUserId = .ok event.subjectRef := by
  rw [Reading.fate, h]
  cases hreferred : g.referred row with
  | none => exact .inl rfl
  | some found =>
    obtain ⟨b', subjectRef, applicationRef⟩ := found
    obtain ⟨hclass, hsubject, _⟩ := referred_bound hreferred
    obtain rfl : b = b' := RowClass.bound.inj (h.symm.trans hclass)
    simp only [Reading.boundFate]
    cases hevent : eventOf g.env g.scope g.selected g.window g.asOf b subjectRef
        applicationRef with
    | none => exact .inl rfl
    | some event =>
      obtain ⟨href, hplaced⟩ := eventOf_some hevent
      exact .inr ⟨event, rfl, hplaced, href ▸ hsubject⟩

variable {user : AuthenticationDirectoryUser} {event : RecordEvent}

theorem Reading.fate_event (h : g.fate row = .event user event) :
    ∃ b, g.classify row = .bound b ∧ b.user = user ∧
      Placed g.selected g.window g.asOf event ∧
      referenceOf g.env g.scope .subject user.microsoftUserId = .ok event.subjectRef := by
  cases hclass : g.classify row with
  | otherFeed => simp [Reading.fate, hclass] at h
  | gap => simp [Reading.fate, hclass] at h
  | disputed id => simp [Reading.fate, hclass] at h
  | bound b =>
    rcases fate_bound hclass with hgap | ⟨event', hevent, hplaced, href⟩
    · rw [hgap] at h
      cases h
    · rw [hevent] at h
      cases h
      exact ⟨b, rfl, rfl, hplaced, href⟩

theorem Reading.classify_cases (row : AuthenticationRow) :
    ClassSays g.env g.index g.selected g.asOf row (g.classify row) :=
  classifyRow_cases g.index g.selected g.asOf row

theorem Reading.fate_otherFeed (row : AuthenticationRow) : g.fate row = .otherFeed ↔
    ∃ entries source, Told g.asOf row entries source ∧ source ≠ g.selected := by
  have hclass := g.classify_cases row
  constructor
  · intro hother
    cases hrow : g.classify row with
    | otherFeed =>
      rw [hrow] at hclass
      exact hclass
    | gap => simp [Reading.fate, hrow] at hother
    | disputed id => simp [Reading.fate, hrow] at hother
    | bound b =>
      rcases fate_bound hrow with hgap | ⟨event, hevent, _⟩
      · rw [hgap] at hother
        cases hother
      · rw [hevent] at hother
        cases hother
  · rintro ⟨entries, source, told, hne⟩
    cases hrow : g.classify row with
    | otherFeed => rw [Reading.fate, hrow]
    | gap =>
      rw [hrow] at hclass
      exact absurd (hclass entries source told).1 hne
    | disputed id =>
      rw [hrow] at hclass
      obtain ⟨entries', record, told', _⟩ := hclass
      exact absurd (told'.unique told).2 hne
    | bound b =>
      rw [hrow] at hclass
      obtain ⟨entries', told', _⟩ := hclass
      exact absurd (told'.unique told).2 hne

variable {directory : List AuthenticationDirectoryUser}

theorem Reading.fate_belongs (indexed : g.index.Of g.env directory)
    (h : g.fate row = .event user event) :
    Belongs g.env g.scope directory g.selected g.window g.asOf row user event := by
  obtain ⟨b, hbound, rfl, hplaced, href⟩ := fate_event h
  have hclass := g.classify_cases row
  rw [hbound] at hclass
  obtain ⟨entries, told, hrecord, _, hrawUser, _, huser, _⟩ := hclass
  exact ⟨hplaced, ⟨entries, b.record, b.rawUser, told, hrecord, hrawUser,
    (usersMatching_one indexed _ _ _).mp huser⟩, href⟩

theorem Reading.fate_marked {entries : Entries} (hraw : row.raw = .object entries)
    (hmarked : isMarked entries = true) (user : AuthenticationDirectoryUser) (event : RecordEvent) :
    g.fate row ≠ .event user event := by
  intro hevent
  obtain ⟨b, hbound, _⟩ := fate_event hevent
  have hclass := g.classify_cases row
  rw [hbound] at hclass
  obtain ⟨entries', told, _, hunmarked, _⟩ := hclass
  have hrecord := told.record
  rw [hraw] at hrecord
  have hsame : entries' = entries := by
    simp only [plainRecord] at hrecord
    split_ifs at hrecord
    exact (Option.some.inj hrecord).symm
  rw [hsame, hmarked] at hunmarked
  cases hunmarked

theorem Reading.fate_disputed (row : AuthenticationRow) (id : JsString) :
    g.fate row = .gap (some id) ↔ ∃ entries record, Told g.asOf row entries g.selected ∧
      recordOf g.selected row entries = some record ∧ isMarked entries = true ∧
      reportableId (record.lookup (recordFields g.selected).id) = some id := by
  have hclass := g.classify_cases row
  constructor
  · intro hgap
    cases hrow : g.classify row with
    | otherFeed => simp [Reading.fate, hrow] at hgap
    | gap => simp [Reading.fate, hrow] at hgap
    | disputed id' =>
      rw [hrow] at hclass
      obtain ⟨entries, record, told, hrecord, hmarked, hid⟩ := hclass
      simp only [Reading.fate, hrow, Fate.gap.injEq] at hgap
      exact ⟨entries, record, told, hrecord, hmarked, hid.symm.trans hgap⟩
    | bound b =>
      rcases fate_bound hrow with hnone | ⟨event, hevent, _⟩
      · rw [hnone] at hgap
        cases hgap
      · rw [hevent] at hgap
        cases hgap
  · rintro ⟨entries, record, told, hrecord, hmarked, hid⟩
    cases hrow : g.classify row with
    | otherFeed =>
      rw [hrow] at hclass
      obtain ⟨entries', source, told', hne⟩ := hclass
      exact absurd (told.unique told').2 hne
    | gap =>
      rw [hrow] at hclass
      have hunmarked := (hclass entries g.selected told).2 record hrecord
      rw [hmarked] at hunmarked
      cases hunmarked
    | disputed id' =>
      rw [hrow] at hclass
      obtain ⟨entries', record', told', hrecord', _, hid'⟩ := hclass
      obtain ⟨rfl, _⟩ := told.unique told'
      obtain rfl : record = record' := Option.some.inj (hrecord.symm.trans hrecord')
      rw [Reading.fate, hrow, hid', hid]
    | bound b =>
      rw [hrow] at hclass
      obtain ⟨entries', told', _, hunmarked, _⟩ := hclass
      obtain ⟨rfl, _⟩ := told.unique told'
      rw [hmarked] at hunmarked
      cases hunmarked

theorem Reading.fates (indexed : g.index.Of g.env directory) :
    Fates g.env g.scope directory g.selected g.window g.asOf g.fate where
  otherFeed := fate_otherFeed
  event _ _ _ := fate_belongs indexed
  marked _ _ := fate_marked
  disputed := fate_disputed

end

/-! ## Orders of the rows and of the directory -/

theorem latest_perm {texts texts' : List JsString} (perm : texts'.Perm texts) :
    texts'.foldl later none = texts.foldl later none := by
  have : RightCommutative later := ⟨fun latest _ _ => by cases latest <;> grind [later]⟩
  exact perm.foldl_eq none

section

variable {g : Reading}

variable {rows rows' : List AuthenticationRow}

/-- In another order the rows ask for as many references. -/
theorem Reading.length_perm (perm : rows'.Perm rows) :
    (rows'.foldl g.advance .start).refCache.entries.length =
      (rows.foldl g.advance .start).refCache.entries.length := by
  have hkeys : ((rows'.foldl g.advance .start).refCache.entries.map Prod.fst).Perm
      ((rows.foldl g.advance .start).refCache.entries.map Prod.fst) := by
    refine (perm_ext_iff_of_nodup (JsMap.unique _) (JsMap.unique _)).mpr fun key => ?_
    rw [(reads_foldl g rows').keys, (reads_foldl g rows).keys]
    exact (perm.flatMap_right g.keysOf).mem_iff
  have hlength := hkeys.length_eq
  rwa [length_map, length_map] at hlength

variable {index' : UserIndex}

/-- The same rows are fine against another index that classifies them alike. -/
theorem Reading.reindexed
    (same : ∀ row, classifyRow g.env index' g.selected g.asOf row = g.classify row) :
    ({ g with index := index' } : Reading).advance = g.advance ∧
      ∀ row, g.Fine row → ({ g with index := index' } : Reading).Fine row := by
  have hclassify : ({ g with index := index' } : Reading).classify = g.classify := funext same
  have hreferred : ({ g with index := index' } : Reading).referred = g.referred := by
    funext row
    rw [Reading.referred, hclassify, Reading.referred]
  constructor
  · funext s row
    have hfate : ({ g with index := index' } : Reading).fate row = g.fate row := by
      rw [Reading.fate, hclassify, hreferred, Reading.fate]
      rfl
    rw [Reading.advance, Reading.cacheAfter, hreferred, hfate]
    rfl
  · rintro row ⟨hown, hfine⟩
    refine ⟨hown, ?_⟩
    rw [hclassify, hreferred]
    exact hfine

variable {s : RowState}

/-- In another order, and with another order of the directory, the loop ends too. -/
theorem Reading.readRows_perm (perm : rows'.Perm rows)
    (same : ∀ row, classifyRow g.env index' g.selected g.asOf row = g.classify row)
    (h : rows.foldlM (readRow g.env g.scope g.index g.selected g.window g.asOf) .start = .ok s) :
    rows'.foldlM (readRow g.env g.scope index' g.selected g.window g.asOf) .start =
      .ok (rows'.foldl g.advance .start) := by
  have hcached : Cached g.env g.scope RowState.start.refCache := fun _ _ hget => nomatch hget
  obtain ⟨hfine, hfits, _⟩ := (readRows_ok hcached (Nat.zero_le _) rows).mp h
  obtain ⟨hadvance, hsame⟩ := reindexed same
  refine (readRows_ok (g := { g with index := index' }) hcached (Nat.zero_le _) rows').mpr
    ⟨fun row hrow => hsame row (hfine row (perm.mem_iff.mp hrow)), ?_, ?_⟩
  · rw [hadvance, length_perm perm]
    exact hfits
  · rw [hadvance]

/-- What is prepared twice, but for the order. -/
structure SameUpToOrder (p q : Prepared) : Prop where
  sources : p.sources = q.sources
  disputed : p.disputedEventIds.Perm q.disputedEventIds
  input : ∃ i j, p.input = some i ∧ q.input = some j ∧ i.events.Perm j.events ∧
    { i with events := j.events } = j
  subjects : (p.resolvedSubjects.map ResolvedSubject.subjectRef).Perm
    (q.resolvedSubjects.map ResolvedSubject.subjectRef)

/-- No two users that can be bound share a reference and have different ids. -/
def Apart (env : Environment) (scope : AuthScope)
    (directory : List AuthenticationDirectoryUser) : Prop :=
  ∀ u ∈ directory, ∀ v ∈ directory, isBindable u = true → isBindable v = true → ∀ ref,
    referenceOf env scope .subject u.microsoftUserId = .ok ref →
      referenceOf env scope .subject v.microsoftUserId = .ok ref →
        u.microsoftUserId = v.microsoftUserId

theorem resolvedSubjects_finishRows (scope : AuthScope) (c : Collection) (s : RowState) :
    (finishRows scope c s).resolvedSubjects.map ResolvedSubject.subjectRef =
      s.resolved.entries.map Prod.fst := by
  simp [finishRows, Function.comp_def]

variable {s' : RowState}

theorem finishRows_perm (perm : rows'.Perm rows) (reads : Reads g rows s)
    (reads' : Reads g rows' s') (scope : AuthScope) (c : Collection) :
    SameUpToOrder (finishRows scope c s') (finishRows scope c s) := by
  have hevents : s'.events.Perm s.events := by
    rw [reads.events, reads'.events]
    exact perm.filterMap _
  have hdisputed : s'.disputedEventIds.Perm s.disputedEventIds := by
    rw [reads.disputed, reads'.disputed]
    exact perm.filterMap _
  have hgaps : s'.gaps = s.gaps := by
    rw [reads.gaps, reads'.gaps]
    exact perm.countP_eq _
  have hevent : s'.latestEvent = s.latestEvent := by
    rw [reads.latestEvent, reads'.latestEvent]
    exact latest_perm (hevents.map _)
  have hingestion : s'.latestIngestion = s.latestIngestion := by
    rw [reads.latestIngestion, reads'.latestIngestion]
    exact latest_perm (hevents.map _)
  refine ⟨?_, hdisputed, ⟨_, _, rfl, rfl, hevents, ?_⟩, ?_⟩
  · simp only [finishRows, hgaps, hevent, hingestion, hdisputed.isEmpty_eq]
  · simp only [hgaps]
  · rw [resolvedSubjects_finishRows, resolvedSubjects_finishRows, reads.resolved, reads'.resolved]
    refine (perm_ext_iff_of_nodup (JsMap.unique _) (JsMap.unique _)).mpr fun key => ?_
    rw [JsMap.mem_keys_ofList, JsMap.mem_keys_ofList]
    exact ((perm.filterMap _).map Prod.fst).mem_iff

theorem resolvedSubjects_perm (perm : rows'.Perm rows) (reads : Reads g rows s)
    (reads' : Reads g rows' s') {directory : List AuthenticationDirectoryUser}
    (indexed : g.index.Of g.env directory) (apart : Apart g.env g.scope directory)
    (scope : AuthScope) (c : Collection) :
    (finishRows scope c s').resolvedSubjects.Perm (finishRows scope c s).resolvedSubjects := by
  refine List.Perm.map _ ?_
  rw [reads.resolved, reads'.resolved]
  refine JsMap.entries_ofList_perm (perm.filterMap _) ?_
  have hsubject {ref id : JsString}
      (h : (ref, id) ∈ rows'.filterMap fun row => (g.fate row).subject?) :
      ∃ user ∈ directory, isBindable user = true ∧ user.microsoftUserId = id ∧
        referenceOf g.env g.scope .subject user.microsoftUserId = .ok ref := by
    obtain ⟨row, _, hrow⟩ := mem_filterMap.mp h
    cases hfate : g.fate row with
    | otherFeed =>
      rw [hfate] at hrow
      cases hrow
    | gap d =>
      rw [hfate] at hrow
      cases hrow
    | event user event =>
      rw [hfate] at hrow
      cases hrow
      have hbelongs := Reading.fate_belongs indexed hfate
      obtain ⟨_, _, rawUser, _, _, _, hnamed⟩ := hbelongs.named
      have hmem : user ∈ usersNamed g.env directory g.selected rawUser := by
        rw [hnamed]
        exact mem_singleton_self _
      obtain ⟨hmem, hchecks⟩ := mem_filter.mp hmem
      exact ⟨user, hmem, (Bool.and_eq_true_iff.mp hchecks).1, rfl, hbelongs.reference⟩
  intro ref id id' hid hid'
  obtain ⟨u, hu, hbindable, rfl, href⟩ := hsubject hid
  obtain ⟨v, hv, hbindable', rfl, href'⟩ := hsubject hid'
  exact apart u hu v hv hbindable hbindable' ref href href'

end

/-! ## The evaluation -/

variable {c : Collection}

theorem checkCollection_ok {rowCount userCount : Nat} {proof : Option AuthenticationProof}
    {window : Option ReadWindow} {directoryReady : Bool} {asOf : Option Date}
    (h : checkCollection rowCount userCount proof window directoryReady asOf = .ok c) :
    window = some c.window ∧ asOf = some c.asOf ∧
      selectedAuthenticationSource proof = some c.selected := by
  simp only [checkCollection] at h
  iterate 2
    split at h
    · cases h
  split at h
  · split at h
    · cases h
    · rename_i hselected
      iterate 5
        split at h
        · cases h
      split at h
      · cases h
      · iterate 2
          split at h
          · cases h
        cases h
        exact ⟨rfl, rfl, hselected⟩
  · cases h

/-- What an evaluation says of its rows, which have the given fates. -/
structure Accounted (env : Environment) (scope : AuthScope) (rows : List AuthenticationRow)
    (directory : List AuthenticationDirectoryUser) (window : ReadWindow) (asOf : Date)
    (prepared : Prepared) (input : EvaluationInput) (fate : AuthenticationRow → Fate) : Prop where
  fates : Fates env scope directory input.source window asOf fate
  events : input.events = rows.filterMap fun row => (fate row).event?
  gaps : input.readiness.gapCount = rows.countP fun row => (fate row).isGap
  disputed : prepared.disputedEventIds = rows.filterMap fun row => (fate row).disputed?
  ready : input.readiness.state = js "READY" ↔
    input.readiness.gapCount = 0 ∧ window.paginationComplete = true

theorem finishRows_accounted {g : Reading} {rows : List AuthenticationRow} {s : RowState}
    {directory : List AuthenticationDirectoryUser} (indexed : g.index.Of g.env directory)
    (reads : Reads g rows s) (hselected : g.selected = c.selected) {input : EvaluationInput}
    (hinput : (finishRows g.scope c s).input = some input) (hwindow : g.window = c.window) :
    Accounted g.env g.scope rows directory c.window g.asOf (finishRows g.scope c s) input
      g.fate := by
  cases hinput
  refine ⟨?_, reads.events, reads.gaps, reads.disputed, ?_⟩
  · show Fates g.env g.scope directory c.selected c.window g.asOf g.fate
    rw [← hselected, ← hwindow]
    exact Reading.fates indexed
  · have htexts : js "PARTIAL" ≠ js "READY" := by decide
    simp only [InputReadiness.state]
    cases hcomplete : c.window.paginationComplete with
    | false => simp [htexts]
    | true =>
      by_cases hgaps : 0 < s.gaps
      · simp [hgaps, htexts]
        omega
      · simp [hgaps]
        omega

/-- The stages of an evaluation that has an input. -/
structure Stages (env : Environment) (scope : AuthScope) (rows : List AuthenticationRow)
    (directory : List AuthenticationDirectoryUser) (proof : Option AuthenticationProof)
    (window : Option ReadWindow) (directoryReady : Bool) (asOf : Option Date) (c : Collection)
    (index : UserIndex) (s : RowState) : Prop where
  checked : checkCollection rows.length directory.length proof window directoryReady asOf = .ok c
  indexed : indexDirectory env scope directory = .ok index
  read : rows.foldlM (readRow env scope index c.selected c.window c.asOf) .start = .ok s

section

variable {env : Environment} {scope : AuthScope} {rows : List AuthenticationRow}
  {directory : List AuthenticationDirectoryUser} {proof : Option AuthenticationProof}
  {window : Option ReadWindow} {directoryReady : Bool} {asOf : Option Date}

theorem stages_of_input {prepared : Prepared} {input : EvaluationInput}
    (h : prepareAuthenticationEvaluation env scope rows directory proof window directoryReady
      asOf = .ok prepared) (hinput : prepared.input = some input) :
    ∃ c index s, Stages env scope rows directory proof window directoryReady asOf c index s ∧
      prepared = finishRows scope c s := by
  unfold prepareAuthenticationEvaluation at h
  split at h
  · cases h
    cases hinput
  · rename_i c hcheck
    split at h
    · cases h
    · rename_i index hindex
      split at h
      · cases h
      · cases h
        cases hinput
      · rename_i s hrows
        cases h
        exact ⟨c, index, s, ⟨hcheck, hindex, hrows⟩, rfl⟩

variable {c : Collection} {index : UserIndex} {s : RowState}

theorem Stages.prepared
    (stages : Stages env scope rows directory proof window directoryReady asOf c index s) :
    prepareAuthenticationEvaluation env scope rows directory proof window directoryReady asOf =
      .ok (finishRows scope c s) := by
  rw [prepareAuthenticationEvaluation, stages.checked]
  simp only [stages.indexed, stages.read]

/-- What the rows are read against once the collection passed its checks. -/
def Collection.reading (c : Collection) (env : Environment) (scope : AuthScope)
    (index : UserIndex) : Reading where
  env
  scope
  index
  selected := c.selected
  window := c.window
  asOf := c.asOf

section

variable (stages : Stages env scope rows directory proof window directoryReady asOf c index s)
include stages

theorem Stages.reads :
    Reads (c.reading env scope index) rows s := by
  have hcached : Cached env scope RowState.start.refCache := fun _ _ hget => nomatch hget
  obtain ⟨_, _, hlast⟩ := (Reading.readRows_ok (g := c.reading env scope index) hcached
    (Nat.zero_le _) rows).mp stages.read
  rw [← hlast]
  exact reads_foldl _ rows

/-- Another order of the rows and of the directory passes the same stages. -/
theorem Stages.perm
    {rows' : List AuthenticationRow} {directory' : List AuthenticationDirectoryUser}
    (hrows : rows'.Perm rows) (hdirectory : directory'.Perm directory) :
    ∃ index', Stages env scope rows' directory' proof window directoryReady asOf c index'
      (rows'.foldl (c.reading env scope index).advance .start) := by
  obtain ⟨hown, hindexed⟩ := indexDirectory_of stages.indexed
  obtain ⟨index', hindex'⟩ := @exists_indexDirectory env scope directory' fun user hu =>
    hown user (hdirectory.mem_iff.mp hu)
  obtain ⟨_, hindexed'⟩ := indexDirectory_of hindex'
  refine ⟨index', ?_, hindex', ?_⟩
  · rw [hrows.length_eq, hdirectory.length_eq]
    exact stages.checked
  · refine Reading.readRows_perm (g := c.reading env scope index) hrows (fun row => ?_) stages.read
    refine classifyRow_congr (fun rawUser user => ?_) c.asOf row
    exact (usersMatching_one hindexed' c.selected rawUser user).trans
      ((usersNamed_perm hdirectory c.selected rawUser user).trans
        (usersMatching_one hindexed c.selected rawUser user).symm)

end

end

/-- An evaluation that has an input accounts for every row, in every order of the rows and of the
directory. -/
theorem prepareAuthenticationEvaluation_accounts (env : Environment) (scope : AuthScope)
    (rows : List AuthenticationRow) (directory : List AuthenticationDirectoryUser)
    (proof : Option AuthenticationProof) (window : Option ReadWindow) (directoryReady : Bool)
    (asOf : Option Date) {prepared : Prepared} {input : EvaluationInput}
    (h : prepareAuthenticationEvaluation env scope rows directory proof window directoryReady
      asOf = .ok prepared) (hinput : prepared.input = some input) :
    ∃ w now fate, window = some w ∧ asOf = some now ∧
      selectedAuthenticationSource proof = some input.source ∧
      Accounted env scope rows directory w now prepared input fate ∧
      ∀ rows' directory', rows'.Perm rows → directory'.Perm directory → ∃ prepared',
        prepareAuthenticationEvaluation env scope rows' directory' proof window directoryReady
          asOf = .ok prepared' ∧ SameUpToOrder prepared' prepared ∧
        (Apart env scope directory →
          prepared'.resolvedSubjects.Perm prepared.resolvedSubjects) := by
  obtain ⟨c, index, s, stages, rfl⟩ := stages_of_input h hinput
  obtain ⟨hwindow, hasOf, hselected⟩ := checkCollection_ok stages.checked
  obtain ⟨_, hindexed⟩ := indexDirectory_of stages.indexed
  have hsource : input.source = c.selected := by
    cases hinput
    rfl
  refine ⟨c.window, c.asOf, (c.reading env scope index).fate, hwindow, hasOf, ?_, ?_, ?_⟩
  · rw [hsource]
    exact hselected
  · exact finishRows_accounted hindexed stages.reads rfl hinput rfl
  · intro rows' directory' hrows hdirectory
    obtain ⟨index', stages'⟩ := stages.perm hrows hdirectory
    have hreads' := reads_foldl (c.reading env scope index) rows'
    exact ⟨_, stages'.prepared, finishRows_perm hrows stages.reads hreads' scope c,
      fun apart => resolvedSubjects_perm hrows stages.reads hreads' hindexed apart scope c⟩

/-! ## Samples -/

/-- The reference of an id spells its digits twice. -/
def sampleEnvironment : Environment where
  platform := ⟨fun _ => 0, id, id⟩
  toLowerCase := JsString.lowerLatin
  reference kind identifiers :=
    let digits := (identifiers.getLast?.getD []).filter fun c => c != 0x2D
    some (js "hvr1_" ++ kind.text ++ js "_" ++ digits ++ digits)

def sampleScope : AuthScope := ⟨js "o", js "t", js "m"⟩

def sampleHour : Date := ⟨3600000, by decide⟩

def sampleWindow (source : AuthSource) : ReadWindow :=
  ⟨source, ⟨0, IsoTime.inDateRange_zero⟩, sampleHour, by decide, true⟩

def sampleProof : AuthSource → AuthenticationProof
  | .graphSignIns => ⟨js "SUCCEEDED", some (some sampleHour), none, none⟩
  | .m365AuditSts => ⟨js "RUNNING", some (some sampleHour), none, fallbackCodes.head?⟩

/-- An id of thirty-two times the same digit. -/
def sampleId (c : UInt16) : JsString :=
  [8, 4, 4, 4, 12].map (fun n => List.replicate n c) |>.intersperse [0x2D] |>.flatten

def sampleUser (c : UInt16) (name : String) : AuthenticationDirectoryUser :=
  ⟨js "o", js "t", sampleId c, js name, some (js "Member")⟩

def sampleRow (ingestedAt : Date) (raw : Entries) : AuthenticationRow :=
  ⟨js "o", js "t", .object raw, some ingestedAt⟩

def auditFeed : JsString × Json :=
  (js "hawkviewSource", .string (js "MICROSOFT_365_MANAGEMENT_ACTIVITY"))

/-- A failed sign-in of the audit feed. -/
def sampleAudit (name : String) : AuthenticationRow :=
  sampleRow sampleHour [auditFeed, (js "managementActivityRecord", .object
    [(js "Id", .string (js name)), (js "CreationTime", .string (toISOString 0)),
      (js "UserId", .string (js name)), (js "ApplicationId", .string (sampleId 0x31)),
      (js "RecordType", .number (.ofInt 15)), (js "UserType", .number (.ofInt 0)),
      (js "OrganizationId", .string (js "m")), (js "Operation", .string (js "UserLoginFailed"))])]

def samplePrepare (source : AuthSource) (rows : List AuthenticationRow)
    (directory : List AuthenticationDirectoryUser) : Except PrepareError Prepared :=
  prepareAuthenticationEvaluation sampleEnvironment sampleScope rows directory
    (some (sampleProof source)) (some (sampleWindow source)) true (some sampleHour)

/-- The number of gaps, the disputed ids and the subjects. -/
def sampleCounts (source : AuthSource) (rows : List AuthenticationRow)
    (directory : List AuthenticationDirectoryUser) :
    Option (Option Nat × List JsString × List ResolvedSubject) :=
  (samplePrepare source rows directory).toOption.map fun p =>
    (p.input.map fun input => input.readiness.gapCount, p.disputedEventIds, p.resolvedSubjects)

/-- Two users with one id in two letter cases. -/
def sampleTwins : List AuthenticationDirectoryUser := [sampleUser 0x61 "u", sampleUser 0x41 "v"]

def sampleReference : JsString := js "hvr1_subject_" ++ List.replicate 64 0x61

/-- A row of the other feed that was ingested late is a gap, a marked row without an id is not
reported, and of two users with one id in two letter cases the last row decides. -/
theorem late_row_is_a_gap :
    sampleCounts .graphSignIns [sampleRow ⟨3600001, by decide⟩ [auditFeed]] [] =
      some (some 1, [], []) ∧
    sampleCounts .graphSignIns [sampleRow sampleHour
      [(js "hawkviewAuthenticationIntegrity", .null)]] [] = some (some 1, [], []) ∧
    sampleCounts .m365AuditSts [sampleAudit "u", sampleAudit "v"] sampleTwins =
      some (some 0, [], [⟨sampleReference, sampleId 0x41⟩]) ∧
    sampleCounts .m365AuditSts [sampleAudit "v", sampleAudit "u"] sampleTwins =
      some (some 0, [], [⟨sampleReference, sampleId 0x61⟩]) := by
  refine ⟨?_, ?_, ?_, ?_⟩ <;> decide +kernel

/-- One event and one gap, in both orders. -/
theorem one_event_one_gap :
    ∃ prepared, samplePrepare .m365AuditSts [sampleAudit "u", sampleAudit "w"] sampleTwins =
      .ok prepared ∧ ∃ input, prepared.input = some input ∧
      ∃ w now fate, some (sampleWindow .m365AuditSts) = some w ∧ some sampleHour = some now ∧
        selectedAuthenticationSource (some (sampleProof .m365AuditSts)) = some input.source ∧
        Accounted sampleEnvironment sampleScope [sampleAudit "u", sampleAudit "w"] sampleTwins w
          now prepared input fate ∧ input.events.length = 1 ∧ input.readiness.gapCount = 1 := by
  have hcounts : ((samplePrepare .m365AuditSts [sampleAudit "u", sampleAudit "w"]
      sampleTwins).toOption.bind Prepared.input).map (fun input =>
        (input.events.length, input.readiness.gapCount)) = some (1, 1) := by
    decide +kernel
  cases hprepared : samplePrepare .m365AuditSts [sampleAudit "u", sampleAudit "w"]
      sampleTwins with
  | error e =>
    rw [hprepared] at hcounts
    cases hcounts
  | ok prepared =>
    rw [hprepared] at hcounts
    obtain ⟨input, hinput, hlengths⟩ := Option.map_eq_some_iff.mp hcounts
    obtain ⟨w, now, fate, hw, hnow, hsource, haccounted, _⟩ :=
      prepareAuthenticationEvaluation_accounts sampleEnvironment sampleScope _ _ _ _ _ _
        hprepared hinput
    obtain ⟨hevents, hgaps⟩ := Prod.mk.inj hlengths
    exact ⟨prepared, rfl, input, hinput, w, now, fate, hw, hnow, hsource, haccounted, hevents,
      hgaps⟩

end AuthenticationReadiness
