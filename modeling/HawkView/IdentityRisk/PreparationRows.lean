import HawkView.IdentityRisk.AuthenticationPreparation
import HawkView.IdentityRisk.WindowCoverage
import HawkView.Lib.Traverse

/-!
# What the rows of an evaluation come to

The index of a directory holds the users of a key, and the cache of references holds what they
are made of. What the loop over the rows has made is therefore what its rows come to one by one,
and whether it ends does not depend on their order.
-/

namespace AuthenticationReadiness

open List

open Json IsoTime
open Auth (AuthScope AuthSource RecordEvent)

variable {env : Environment} {scope : AuthScope}

/-! ## Users of a key -/

def userKey (env : Environment) (selected : AuthSource) : AuthenticationDirectoryUser → JsString :=
  match selected with
  | .graphSignIns => idKey env
  | .m365AuditSts => upnKey env

def rawKey (env : Environment) (selected : AuthSource) (rawUser : JsString) : JsString :=
  match selected with
  | .graphSignIns => env.toLowerCase rawUser
  | .m365AuditSts => env.toLowerCase rawUser.trim

/-- The users that an identifier of a record matches. -/
def usersNamed (env : Environment) (directory : List AuthenticationDirectoryUser)
    (selected : AuthSource) (rawUser : JsString) : List AuthenticationDirectoryUser :=
  directory.filter fun user =>
    isBindable user && decide (userKey env selected user = rawKey env selected rawUser)

/-- The users of each key, in the order of the directory. -/
def Groups (users : JsMap JsString (List AuthenticationDirectoryUser))
    (key : AuthenticationDirectoryUser → JsString)
    (directory : List AuthenticationDirectoryUser) : Prop :=
  ∀ k, (users.get? k).getD [] =
    directory.filter fun user => isBindable user && decide (key user = k)

variable {users : JsMap JsString (List AuthenticationDirectoryUser)}
  {key : AuthenticationDirectoryUser → JsString} {directory : List AuthenticationDirectoryUser}
  {user : AuthenticationDirectoryUser}

theorem Groups.add (groups : Groups users key directory) (bindable : isBindable user = true) :
    Groups (addUser users (key user) user) key (directory ++ [user]) := by
  intro k
  rw [addUser, JsMap.get?_set, filter_append, ← groups k]
  by_cases hk : key user = k
  · simp [hk, bindable]
  · simp [hk, bindable]

theorem Groups.skip (groups : Groups users key directory) (bindable : ¬isBindable user = true) :
    Groups users key (directory ++ [user]) := by
  intro k
  simp [groups k, bindable]

structure UserIndex.Of (index : UserIndex) (env : Environment)
    (directory : List AuthenticationDirectoryUser) : Prop where
  ids : Groups index.usersById (idKey env) directory
  upns : Groups index.usersByUpn (upnKey env) directory

def AuthenticationDirectoryUser.Own (scope : AuthScope) (user : AuthenticationDirectoryUser) :
    Prop :=
  user.organizationId = scope.organizationId ∧ user.customerTenantId = scope.customerTenantId

theorem indexUser_own (own : user.Own scope) (index : UserIndex) : indexUser env scope index user =
      .ok (if isBindable user then
        ⟨addUser index.usersById (idKey env user) user,
          addUser index.usersByUpn (upnKey env user) user⟩ else index) := by
  rw [indexUser, if_neg (by simp [own.1, own.2])]
  split_ifs <;> rfl

variable {index index' : UserIndex}

theorem own_of_indexUser (h : indexUser env scope index user = .ok index') : user.Own scope := by
  by_contra hforeign
  rw [indexUser, if_pos (not_and_or.mp hforeign)] at h
  cases h

theorem UserIndex.Of.step (indexed : index.Of env directory)
    (h : indexUser env scope index user = .ok index') :
    index'.Of env (directory ++ [user]) := by
  rw [indexUser_own (own_of_indexUser h)] at h
  cases h
  split_ifs with hbindable
  · exact ⟨indexed.ids.add hbindable, indexed.upns.add hbindable⟩
  · exact ⟨indexed.ids.skip hbindable, indexed.upns.skip hbindable⟩

theorem indexDirectory_of (h : indexDirectory env scope directory = .ok index) :
    (∀ user ∈ directory, user.Own scope) ∧ index.Of env directory := by
  induction directory using reverseRecOn generalizing index with
  | nil =>
    cases h
    exact ⟨fun user hu => absurd hu not_mem_nil, ⟨fun _ => rfl, fun _ => rfl⟩⟩
  | append_singleton directory user ih =>
    rw [indexDirectory, foldlM_append] at h
    obtain ⟨before, hbefore, hlast⟩ := Traverse.bind_ok.mp h
    rw [foldlM_cons] at hlast
    obtain ⟨after, hafter, hrest⟩ := Traverse.bind_ok.mp hlast
    cases hrest
    obtain ⟨hown, hindexed⟩ := ih hbefore
    refine ⟨fun u hu => ?_, hindexed.step hafter⟩
    rcases mem_append.mp hu with hfront | hend
    · exact hown u hfront
    · rw [mem_singleton.mp hend]
      exact own_of_indexUser hafter

theorem exists_indexDirectory (own : ∀ user ∈ directory, user.Own scope) :
    ∃ index, indexDirectory env scope directory = .ok index := by
  have hrun (start : UserIndex) : ∃ index,
      directory.foldlM (indexUser env scope) start = .ok index := by
    induction directory generalizing start with
    | nil => exact ⟨start, rfl⟩
    | cons user rest ih =>
      rw [foldlM_cons, indexUser_own (own user mem_cons_self)]
      exact ih (fun u hu => own u (mem_cons_of_mem _ hu)) _
  exact hrun _

/-- An identifier finds a user alone in the index as in the directory. -/
theorem usersMatching_one (indexed : index.Of env directory) (selected : AuthSource)
    (rawUser : JsString) (user : AuthenticationDirectoryUser) :
    usersMatching env index selected rawUser = some [user] ↔
      usersNamed env directory selected rawUser = [user] := by
  have hmatch : (usersMatching env index selected rawUser).getD [] =
      usersNamed env directory selected rawUser := by
    cases selected with
    | graphSignIns => exact indexed.ids _
    | m365AuditSts => exact indexed.upns _
  rw [← hmatch]
  cases usersMatching env index selected rawUser with
  | none => simp
  | some users => simp

/-! ## Classes of rows -/

theorem usersNamed_perm {directory' : List AuthenticationDirectoryUser}
    (perm : directory'.Perm directory) (selected : AuthSource) (rawUser : JsString)
    (user : AuthenticationDirectoryUser) :
    usersNamed env directory' selected rawUser = [user] ↔
      usersNamed env directory selected rawUser = [user] := by
  have hperm : (usersNamed env directory' selected rawUser).Perm
      (usersNamed env directory selected rawUser) := perm.filter _
  constructor
  · intro h
    rw [h] at hperm
    exact List.perm_singleton.mp hperm.symm
  · intro h
    rw [h] at hperm
    exact List.perm_singleton.mp hperm

variable {selected : AuthSource}

section

variable (same : ∀ rawUser user, usersMatching env index' selected rawUser = some [user] ↔
      usersMatching env index selected rawUser = some [user])
include same

theorem bindRecord_congr
    (record : Entries) (ingestedAt : Date) :
    bindRecord env index' selected record ingestedAt =
      bindRecord env index selected record ingestedAt := by
  unfold bindRecord
  cases textOf (record.lookup (recordFields selected).user) with
  | none => rfl
  | some rawUser =>
    cases textOf (record.lookup (recordFields selected).application) with
    | none => rfl
    | some appId =>
      by_cases hone : ∃ user, usersMatching env index selected rawUser = some [user]
      · obtain ⟨user, huser⟩ := hone
        simp only [huser, (same rawUser user).mpr huser]
      · simp only
        split
        · rename_i user huser
          exact absurd ⟨user, (same rawUser user).mp huser⟩ hone
        · split
          · rename_i user huser
            exact absurd ⟨user, huser⟩ hone
          · rfl

theorem classifyRow_congr
    (asOf : Date) (row : AuthenticationRow) :
    classifyRow env index' selected asOf row = classifyRow env index selected asOf row := by
  unfold classifyRow
  simp only [bindRecord_congr same]

end

/-- A row that can be read by the evaluation, and the feed that it names. -/
structure Told (asOf : Date) (row : AuthenticationRow) (entries : Entries) (source : AuthSource) :
    Prop where
  record : plainRecord (some row.raw) = some entries
  ingested : ∃ t, row.ingestedAt = some t ∧ t.val ≤ asOf.val
  source : rowSource entries = some source

/-- The record of a row. -/
def recordOf (selected : AuthSource) (row : AuthenticationRow) (entries : Entries) :
    Option Entries :=
  plainRecord (match selected with
    | .m365AuditSts => entries.lookup (js "managementActivityRecord")
    | .graphSignIns => some row.raw)

def isMarked (entries : Entries) : Bool :=
  (entries.lookup (js "hawkviewAuthenticationIntegrity")).isSome

/-- What the class of a row says of it. -/
def ClassSays (env : Environment) (index : UserIndex) (selected : AuthSource) (asOf : Date)
    (row : AuthenticationRow) : RowClass → Prop
  | .otherFeed => ∃ entries source, Told asOf row entries source ∧ source ≠ selected
  | .gap => ∀ entries source, Told asOf row entries source → source = selected ∧
      ∀ record, recordOf selected row entries = some record → isMarked entries = false
  | .disputed id => ∃ entries record, Told asOf row entries selected ∧
      recordOf selected row entries = some record ∧ isMarked entries = true ∧
      id = reportableId (record.lookup (recordFields selected).id)
  | .bound b => ∃ entries, Told asOf row entries selected ∧
      recordOf selected row entries = some b.record ∧ isMarked entries = false ∧
      textOf (b.record.lookup (recordFields selected).user) = some b.rawUser ∧
      textOf (b.record.lookup (recordFields selected).application) = some b.appId ∧
      usersMatching env index selected b.rawUser = some [b.user] ∧
      row.ingestedAt = some b.ingestedAt

theorem bindRecord_cases (index : UserIndex) (selected : AuthSource) (record : Entries)
    (ingestedAt : Date) :
    bindRecord env index selected record ingestedAt = .gap ∨
      ∃ rawUser appId user,
        bindRecord env index selected record ingestedAt =
          .bound ⟨record, rawUser, appId, user, ingestedAt⟩ ∧
        textOf (record.lookup (recordFields selected).user) = some rawUser ∧
        textOf (record.lookup (recordFields selected).application) = some appId ∧
        usersMatching env index selected rawUser = some [user] := by
  unfold bindRecord
  split
  · rename_i rawUser appId hrawUser happId
    split
    · rename_i user huser
      split_ifs
      · exact .inl rfl
      · exact .inl rfl
      · exact .inr ⟨rawUser, appId, user, rfl, hrawUser, happId, huser⟩
    · exact .inl rfl
  · exact .inl rfl

variable {asOf : Date}

theorem Told.unique {row : AuthenticationRow} {entries entries' : Entries}
    {source source' : AuthSource} (told : Told asOf row entries source)
    (told' : Told asOf row entries' source') : entries' = entries ∧ source' = source := by
  have hentries : entries' = entries :=
    Option.some.inj (told'.record.symm.trans told.record)
  refine ⟨hentries, Option.some.inj ?_⟩
  rw [← told'.source, ← told.source, hentries]

theorem classifyRow_cases (index : UserIndex) (selected : AuthSource) (asOf : Date)
    (row : AuthenticationRow) :
    ClassSays env index selected asOf row (classifyRow env index selected asOf row) := by
  unfold classifyRow
  split
  · rename_i entries t hentries ht
    by_cases hfuture : asOf.val < t.val
    · rw [if_pos hfuture]
      intro entries' source told
      obtain ⟨t', ht', hle⟩ := told.ingested
      obtain rfl : t = t' := Option.some.inj (ht.symm.trans ht')
      omega
    · rw [if_neg hfuture]
      cases hsource : rowSource entries with
      | none =>
        intro entries' source told
        have hsame : entries' = entries := Option.some.inj (told.record.symm.trans hentries)
        have htold := told.source
        rw [hsame, hsource] at htold
        cases htold
      | some source =>
        have htold : Told asOf row entries source := ⟨hentries, ⟨t, ht, by omega⟩, hsource⟩
        simp only
        by_cases hselected : source ≠ selected
        · rw [if_pos hselected]
          exact ⟨entries, source, htold, hselected⟩
        · rw [if_neg hselected]
          obtain rfl : source = selected := not_not.mp hselected
          split
          · rename_i hnone
            have hrecord : recordOf source row entries = none := hnone
            intro entries' source' told
            obtain ⟨rfl, rfl⟩ := htold.unique told
            refine ⟨rfl, fun record hsome => ?_⟩
            rw [hrecord] at hsome
            cases hsome
          · rename_i record hsome
            have hrecord : recordOf source row entries = some record := hsome
            by_cases hmarked : isMarked entries = true
            · rw [if_pos (show Option.isSome _ = true from hmarked)]
              exact ⟨entries, record, htold, hrecord, hmarked, rfl⟩
            · rw [if_neg (show ¬ Option.isSome _ = true from hmarked)]
              have hunmarked := Bool.eq_false_iff.mpr hmarked
              rcases @bindRecord_cases env index source record t with
                hgap | ⟨rawUser, appId, user, hbound, hrawUser, happId, huser⟩
              · rw [hgap]
                intro entries' source' told
                obtain ⟨rfl, rfl⟩ := htold.unique told
                exact ⟨rfl, fun _ _ => hunmarked⟩
              · rw [hbound]
                exact ⟨entries, htold, hrecord, hunmarked, hrawUser, happId, huser, ht⟩
  · rename_i hnone
    intro entries source told
    obtain ⟨t, ht, _⟩ := told.ingested
    exact absurd ht (hnone entries t told.record)

/-! ## References -/

/-- What is cached is what the reference of an id has to be. -/
def Cached (env : Environment) (scope : AuthScope) (refCache : JsMap JsString JsString) : Prop :=
  ∀ key value, refCache.get? key = some value →
    ∃ kind id, key = referenceKey env kind id ∧ referenceOf env scope kind id = .ok value

theorem head_referenceKey (kind : ReferenceKind) (id : JsString) :
    (referenceKey env kind id).head? = kind.text.head? := by
  cases kind <;> rfl

variable {kind : ReferenceKind} {id : JsString}

theorem referenceKey_inj {kind' : ReferenceKind} {id' : JsString}
    (h : referenceKey env kind id = referenceKey env kind' id') :
    kind = kind' ∧ env.toLowerCase id = env.toLowerCase id' := by
  have hkind : kind = kind' := by
    have hhead := congrArg List.head? h
    rw [head_referenceKey, head_referenceKey] at hhead
    cases kind <;> cases kind' <;> first | rfl | exact absurd hhead (by decide)
  subst hkind
  exact ⟨rfl, append_cancel_left h⟩

variable {refCache : JsMap JsString JsString} {value : JsString}

theorem Cached.get (cached : Cached env scope refCache)
    (h : refCache.get? (referenceKey env kind id) = some value) :
    referenceOf env scope kind id = .ok value := by
  obtain ⟨kind', id', hkey, hvalue⟩ := cached _ _ h
  obtain ⟨rfl, hlower⟩ := referenceKey_inj hkey
  rw [← hvalue, referenceOf, referenceOf, hlower]

/-- The cache once a reference was asked for. -/
def remember (refCache : JsMap JsString JsString) (key value : JsString) : JsMap JsString JsString :=
  if (refCache.get? key).isSome then refCache else refCache.set key value

theorem managed_eq (cached : Cached env scope refCache) (kind : ReferenceKind) (id : JsString) :
    managed env scope refCache kind id = (referenceOf env scope kind id).map fun value =>
      (value, remember refCache (referenceKey env kind id) value) := by
  cases hprior : refCache.get? (referenceKey env kind id) with
  | none => simp [managed, remember, hprior]
  | some prior => simp [managed, remember, hprior, cached.get hprior, Except.map]

theorem Cached.remember (cached : Cached env scope refCache)
    (h : referenceOf env scope kind id = .ok value) :
    Cached env scope (remember refCache (referenceKey env kind id) value) := by
  intro key v hget
  unfold AuthenticationReadiness.remember at hget
  split_ifs at hget
  · exact cached key v hget
  · rw [JsMap.get?_set] at hget
    split_ifs at hget with hkey
    · cases hget
      exact ⟨kind, id, hkey.symm, h⟩
    · exact cached key v hget

theorem get?_remember (refCache : JsMap JsString JsString) (key value k : JsString) :
    ((remember refCache key value).get? k).isSome =
      (decide (key = k) || (refCache.get? k).isSome) := by
  unfold remember
  split_ifs with hheld
  · by_cases hk : key = k
    · rw [← hk, hheld, Bool.or_true]
    · simp [hk]
  · rw [JsMap.get?_set]
    by_cases hk : key = k <;> simp [hk]

theorem length_remember (refCache : JsMap JsString JsString) (key value : JsString) :
    (remember refCache key value).entries.length =
      refCache.entries.length + if (refCache.get? key).isSome then 0 else 1 := by
  unfold remember
  split_ifs with hheld
  · rfl
  · rw [JsMap.length_set, if_neg hheld]

/-- The cache once both references of a row were asked for. -/
def rememberBoth (env : Environment) (refCache : JsMap JsString JsString) (b : Binding)
    (subjectRef applicationRef : JsString) : JsMap JsString JsString :=
  remember (remember refCache (referenceKey env .subject b.user.microsoftUserId) subjectRef)
    (referenceKey env .application b.appId) applicationRef

theorem length_rememberBoth (refCache : JsMap JsString JsString) (b : Binding)
    (subjectRef applicationRef : JsString) :
    (rememberBoth env refCache b subjectRef applicationRef).entries.length =
      refCache.entries.length + newReferences env refCache b := by
  have hne : referenceKey env .subject b.user.microsoftUserId ≠
      referenceKey env .application b.appId := fun h => nomatch (referenceKey_inj h).1
  rw [rememberBoth, length_remember, length_remember, get?_remember, decide_eq_false hne,
    Bool.false_or, newReferences]
  omega

/-! ## Fates -/

/-- What a row comes to. -/
inductive Fate
  | otherFeed
  | gap (disputed : Option JsString)
  | event (user : AuthenticationDirectoryUser) (signIn : RecordEvent)

def Fate.event? : Fate → Option RecordEvent
  | .event _ signIn => some signIn
  | _ => none

def Fate.isGap : Fate → Bool
  | .gap _ => true
  | _ => false

def Fate.disputed? : Fate → Option JsString
  | .gap disputed => disputed
  | _ => none

/-- The reference of the subject of an event and the user that it stands for. -/
def Fate.subject? : Fate → Option (JsString × JsString)
  | .event user signIn => some (signIn.subjectRef, user.microsoftUserId)
  | _ => none

/-- What the rows are read against. -/
structure Reading where
  env : Environment
  scope : AuthScope
  index : UserIndex
  selected : AuthSource
  window : ReadWindow
  asOf : Date

namespace Reading

variable (g : Reading)

def classify (row : AuthenticationRow) : RowClass :=
  classifyRow g.env g.index g.selected g.asOf row

/-- The binding of a row, with the references of its user and of its application. -/
def referred (row : AuthenticationRow) : Option (Binding × JsString × JsString) :=
  match g.classify row with
  | .bound b =>
    match referenceOf g.env g.scope .subject b.user.microsoftUserId,
        referenceOf g.env g.scope .application b.appId with
    | .ok subjectRef, .ok applicationRef => some (b, subjectRef, applicationRef)
    | _, _ => none
  | _ => none

def boundFate (b : Binding) (subjectRef applicationRef : JsString) : Fate :=
  match eventOf g.env g.scope g.selected g.window g.asOf b subjectRef applicationRef with
  | none => .gap none
  | some event => .event b.user event

def fate (row : AuthenticationRow) : Fate :=
  match g.classify row with
  | .otherFeed => .otherFeed
  | .gap => .gap none
  | .disputed id => .gap id
  | .bound _ =>
    match g.referred row with
    | some (b, subjectRef, applicationRef) => g.boundFate b subjectRef applicationRef
    | none => .gap none

def keysOf (row : AuthenticationRow) : List JsString :=
  match g.referred row with
  | some (b, _, _) => [referenceKey g.env .subject b.user.microsoftUserId,
      referenceKey g.env .application b.appId]
  | none => []

def cacheAfter (refCache : JsMap JsString JsString) (row : AuthenticationRow) :
    JsMap JsString JsString :=
  match g.referred row with
  | some (b, subjectRef, applicationRef) =>
    rememberBoth g.env refCache b subjectRef applicationRef
  | none => refCache

/-- A row of the scope whose references can be made. -/
structure Fine (row : AuthenticationRow) : Prop where
  own : row.organizationId = g.scope.organizationId ∧
    row.customerTenantId = g.scope.customerTenantId
  referred : ∀ b, g.classify row = .bound b → (g.referred row).isSome = true

end Reading

/-- What a row adds to what the loop has made. -/
def RowState.add (s : RowState) : Fate → RowState
  | .otherFeed => s
  | .gap disputed =>
    { s with
      gaps := s.gaps + 1
      disputedEventIds := s.disputedEventIds ++ disputed.toList }
  | .event user event =>
    { s with
      events := s.events ++ [event]
      resolved := s.resolved.set event.subjectRef user.microsoftUserId
      latestEvent := later s.latestEvent event.eventAt
      latestIngestion := later s.latestIngestion event.ingestedAt }

theorem refCache_add (s : RowState) (fate : Fate) : (s.add fate).refCache = s.refCache := by
  cases fate <;> rfl

def Reading.advance (g : Reading) (s : RowState) (row : AuthenticationRow) : RowState :=
  { s with refCache := g.cacheAfter s.refCache row }.add (g.fate row)

/-! ## Events -/

structure Placed (selected : AuthSource) (window : ReadWindow) (asOf : Date) (event : RecordEvent) :
    Prop where
  source : event.source = selected
  time : ∃ t, event.eventAt = toISOString t ∧ window.start.val ≤ t ∧ t ≤ window.stop.val ∧
    t ≤ asOf.val

variable {event : RecordEvent}

/-- A record that is normalized keeps its context, and its times are read ones. -/
theorem normalized_event {p : Auth.Platform} {record : Json} {c : Auth.AuthNormalizationContext}
    (h : Auth.normalizeAuthenticationRecord p record c = .ok event) :
    event.subjectRef = c.subject.resolvedSubjectRef ∧
      Auth.AuthSource.ofText c.source = some event.source ∧
      ∃ t, FourDigitYear t ∧ event.eventAt = toISOString t := by
  unfold Auth.normalizeAuthenticationRecord at h
  split at h
  · cases h
  · split at h
    · cases h
    · split at h
      · cases h
      · rename_i source hsource
        split at h
        · rename_i eventId eventAt ingestedAt _ htime _
          split_ifs at h
          obtain ⟨⟨outcome, errorCode⟩, _, h⟩ := Traverse.bind_ok.mp h
          obtain ⟨client, _, h⟩ := Traverse.bind_ok.mp h
          cases h
          have hyear : FourDigitYear eventAt := by
            unfold Auth.eventAtOf Auth.timeAtField at htime
            split at htime
            · exact fourDigitYear_of_utcTime htime
            · cases htime
          exact ⟨rfl, hsource, eventAt, hyear, rfl⟩
        · cases h

theorem eventOf_some {window : ReadWindow} {b : Binding} {subjectRef applicationRef : JsString}
    (h : eventOf env scope selected window asOf b subjectRef applicationRef = some event) :
    event.subjectRef = subjectRef ∧ Placed selected window asOf event := by
  unfold eventOf at h
  split at h
  · cases h
  · rename_i found hfound
    split_ifs at h with hoff
    obtain rfl := Option.some.inj h
    rw [not_or, not_or] at hoff
    obtain ⟨hsubject, hsource, t, hyear, htext⟩ := normalized_event hfound
    rw [htext] at hoff
    obtain ⟨hstart, hstop, hnow⟩ := hoff
    obtain ⟨hstopYear, hle⟩ := le_of_not_lt hyear hstop
    refine ⟨hsubject, ?_, t, htext, ?_, hle, (le_of_not_lt hyear hnow).2⟩
    · exact Option.some.inj (hsource.symm.trans (source_ofText selected))
    · exact ge_of_not_lt hyear hstopYear window.ordered hstart

/-! ## One row -/

section Step

variable {g : Reading}

variable {row : AuthenticationRow} {b : Binding} {subjectRef applicationRef : JsString}

theorem Reading.referred_bound (h : g.referred row = some (b, subjectRef, applicationRef)) :
    g.classify row = .bound b ∧
      referenceOf g.env g.scope .subject b.user.microsoftUserId = .ok subjectRef ∧
      referenceOf g.env g.scope .application b.appId = .ok applicationRef := by
  unfold Reading.referred at h
  split at h
  · rename_i b' hbound
    split at h
    · rename_i s a hsubject happlication
      cases h
      exact ⟨hbound, hsubject, happlication⟩
    · cases h
  · cases h

variable {s : RowState}

theorem Reading.cached_advance (cached : Cached g.env g.scope s.refCache)
    (row : AuthenticationRow) : Cached g.env g.scope (g.advance s row).refCache := by
  rw [Reading.advance, refCache_add]
  show Cached g.env g.scope (g.cacheAfter s.refCache row)
  unfold Reading.cacheAfter
  split
  · rename_i b subjectRef applicationRef hreferred
    obtain ⟨_, hsubject, happlication⟩ := referred_bound hreferred
    exact (cached.remember hsubject).remember happlication
  · exact cached

theorem Reading.length_advance (s : RowState) (row : AuthenticationRow) :
    s.refCache.entries.length ≤ (g.advance s row).refCache.entries.length := by
  rw [Reading.advance, refCache_add]
  show _ ≤ (g.cacheAfter s.refCache row).entries.length
  unfold Reading.cacheAfter
  split
  · rw [length_rememberBoth]
    exact Nat.le_add_right _ _
  · exact le_rfl

/-- A bound row with both references. -/
theorem Reading.readBound_referred (cached : Cached g.env g.scope s.refCache)
    (h : g.referred row = some (b, subjectRef, applicationRef)) :
    readBound g.env g.scope g.selected g.window g.asOf s b =
      if MAX_REFERENCES < (g.advance s row).refCache.entries.length then
        .error (.capacity s.disputedEventIds)
      else .ok (g.advance s row) := by
  obtain ⟨hbound, hsubject, happlication⟩ := referred_bound h
  have hlength : (g.advance s row).refCache.entries.length =
      s.refCache.entries.length + newReferences g.env s.refCache b := by
    rw [Reading.advance, refCache_add]
    show (g.cacheAfter s.refCache row).entries.length = _
    rw [Reading.cacheAfter, h]
    exact length_rememberBoth _ _ _ _
  rw [hlength, readBound, managed_eq cached, hsubject]
  simp only [Except.map]
  rw [managed_eq (cached.remember hsubject), happlication]
  simp only [Except.map]
  congr 1
  rw [Reading.advance, Reading.fate, hbound, Reading.cacheAfter, h]
  simp only [Reading.boundFate]
  cases hevent : eventOf g.env g.scope g.selected g.window g.asOf b subjectRef applicationRef with
  | none => simp [RowState.add, rememberBoth]
  | some event =>
    have href := (eventOf_some hevent).1
    simp [RowState.add, rememberBoth, href]

variable {s' : RowState}

/-- Without both references the loop does not go on. -/
theorem Reading.readBound_unreferred (cached : Cached g.env g.scope s.refCache)
    (hclass : g.classify row = .bound b) (h : g.referred row = none) :
    readBound g.env g.scope g.selected g.window g.asOf s b ≠ .ok s' := by
  intro hok
  rw [readBound, managed_eq cached] at hok
  rw [Reading.referred, hclass] at h
  simp only at h
  split at hok
  · cases hok
  · cases hsubject : referenceOf g.env g.scope .subject b.user.microsoftUserId with
    | error e =>
      rw [hsubject] at hok
      cases hok
    | ok subjectRef =>
      rw [hsubject] at hok h
      simp only [Except.map] at hok
      rw [managed_eq (cached.remember hsubject)] at hok
      cases happlication : referenceOf g.env g.scope .application b.appId with
      | error e =>
        rw [happlication] at hok
        cases hok
      | ok applicationRef =>
        rw [happlication] at h
        cases h

theorem Reading.readRow_ok (cached : Cached g.env g.scope s.refCache)
    (small : s.refCache.entries.length ≤ MAX_REFERENCES) (row : AuthenticationRow) :
    readRow g.env g.scope g.index g.selected g.window g.asOf s row = .ok s' ↔
      g.Fine row ∧ (g.advance s row).refCache.entries.length ≤ MAX_REFERENCES ∧
        g.advance s row = s' := by
  unfold readRow
  by_cases hforeign : row.organizationId ≠ g.scope.organizationId ∨
      row.customerTenantId ≠ g.scope.customerTenantId
  · rw [if_pos hforeign]
    constructor
    · exact nofun
    · rintro ⟨⟨hown, _⟩, _⟩
      exact absurd hown (not_and_or.mpr hforeign)
  · rw [if_neg hforeign]
    have hown : row.organizationId = g.scope.organizationId ∧
        row.customerTenantId = g.scope.customerTenantId := by
      rw [not_or, not_not, not_not] at hforeign
      exact hforeign
    change (match g.classify row with
      | .otherFeed => .ok s
      | .gap => .ok { s with gaps := s.gaps + 1 }
      | .disputed id => .ok { s with
        gaps := s.gaps + 1
        disputedEventIds := s.disputedEventIds ++ id.toList }
      | .bound binding => readBound g.env g.scope g.selected g.window g.asOf s binding :
        Except RowExit RowState) = .ok s' ↔ _
    cases hclass : g.classify row with
    | otherFeed =>
      have hadvance : g.advance s row = s := by
        simp [Reading.advance, Reading.fate, Reading.cacheAfter, Reading.referred, hclass,
          RowState.add]
      have hfine : g.Fine row := ⟨hown, fun b hb => by rw [hclass] at hb; cases hb⟩
      simp [hadvance, hfine, small]
    | gap =>
      have hadvance : g.advance s row = { s with gaps := s.gaps + 1 } := by
        simp [Reading.advance, Reading.fate, Reading.cacheAfter, Reading.referred, hclass,
          RowState.add]
      have hfine : g.Fine row := ⟨hown, fun b hb => by rw [hclass] at hb; cases hb⟩
      simp [hadvance, hfine, small]
    | disputed id =>
      have hadvance : g.advance s row = { s with
          gaps := s.gaps + 1
          disputedEventIds := s.disputedEventIds ++ id.toList } := by
        simp [Reading.advance, Reading.fate, Reading.cacheAfter, Reading.referred, hclass,
          RowState.add]
      have hfine : g.Fine row := ⟨hown, fun b hb => by rw [hclass] at hb; cases hb⟩
      simp [hadvance, hfine, small]
    | bound b =>
      simp only
      cases hreferred : g.referred row with
      | some found =>
        obtain ⟨b', subjectRef, applicationRef⟩ := found
        obtain rfl : b = b' := RowClass.bound.inj
          (hclass.symm.trans (referred_bound hreferred).1)
        have hfine : g.Fine row := ⟨hown, fun _ _ => by rw [hreferred]; rfl⟩
        rw [readBound_referred cached hreferred]
        by_cases hfull : MAX_REFERENCES < (g.advance s row).refCache.entries.length
        · rw [if_pos hfull]
          constructor
          · exact nofun
          · rintro ⟨_, hle, _⟩
            omega
        · rw [if_neg hfull]
          constructor
          · rintro ⟨⟩
            exact ⟨hfine, by omega, rfl⟩
          · rintro ⟨_, _, rfl⟩
            rfl
      | none =>
        constructor
        · exact fun hok => absurd hok (readBound_unreferred cached hclass hreferred)
        · rintro ⟨hfine, _⟩
          have hsome := hfine.referred b hclass
          rw [hreferred] at hsome
          cases hsome

end Step

/-! ## All of the rows -/

section Loop

variable {g : Reading}

theorem Reading.length_foldl_advance (s : RowState) (rows : List AuthenticationRow) :
    s.refCache.entries.length ≤ (rows.foldl g.advance s).refCache.entries.length := by
  induction rows generalizing s with
  | nil => exact le_rfl
  | cons row rest ih => exact (length_advance s row).trans (ih _)

variable {s : RowState}

/-- The loop ends when every row is fine and the references fit. -/
theorem Reading.readRows_ok {s' : RowState} (cached : Cached g.env g.scope s.refCache)
    (small : s.refCache.entries.length ≤ MAX_REFERENCES) (rows : List AuthenticationRow) :
    rows.foldlM (readRow g.env g.scope g.index g.selected g.window g.asOf) s = .ok s' ↔
      (∀ row ∈ rows, g.Fine row) ∧
        (rows.foldl g.advance s).refCache.entries.length ≤ MAX_REFERENCES ∧
          rows.foldl g.advance s = s' := by
  induction rows generalizing s with
  | nil =>
    rw [foldlM_nil, foldl_nil]
    constructor
    · rintro ⟨⟩
      exact ⟨fun row hrow => absurd hrow not_mem_nil, small, rfl⟩
    · rintro ⟨_, _, rfl⟩
      rfl
  | cons row rest ih =>
    rw [foldlM_cons, foldl_cons]
    constructor
    · intro hok
      obtain ⟨next, hnext, hrest⟩ := Traverse.bind_ok.mp hok
      obtain ⟨hfine, hsmall, rfl⟩ := (readRow_ok cached small row).mp hnext
      obtain ⟨hall, hfits, hlast⟩ := (ih (cached_advance cached row) hsmall).mp hrest
      refine ⟨fun r hr => ?_, hfits, hlast⟩
      rcases mem_cons.mp hr with rfl | hr
      · exact hfine
      · exact hall r hr
    · rintro ⟨hall, hfits, hlast⟩
      have hsmall : (g.advance s row).refCache.entries.length ≤ MAX_REFERENCES :=
        (length_foldl_advance _ rest).trans hfits
      have hrow := (readRow_ok cached small row).mpr
        ⟨hall row mem_cons_self, hsmall, rfl⟩
      exact Traverse.bind_ok.mpr ⟨_, hrow, (ih (cached_advance cached row) hsmall).mpr
        ⟨fun r hr => hall r (mem_cons_of_mem _ hr), hfits, hlast⟩⟩

/-- What the loop has made of the rows. -/
structure Reads (g : Reading) (rows : List AuthenticationRow) (s : RowState) : Prop where
  events : s.events = rows.filterMap fun row => (g.fate row).event?
  gaps : s.gaps = rows.countP fun row => (g.fate row).isGap
  disputed : s.disputedEventIds = rows.filterMap fun row => (g.fate row).disputed?
  resolved : s.resolved = JsMap.ofList (rows.filterMap fun row => (g.fate row).subject?)
  latestEvent : s.latestEvent = (s.events.map RecordEvent.eventAt).foldl later none
  latestIngestion : s.latestIngestion = (s.events.map RecordEvent.ingestedAt).foldl later none
  keys : ∀ key, key ∈ s.refCache.entries.map Prod.fst ↔ key ∈ rows.flatMap g.keysOf

theorem mem_keys_remember (refCache : JsMap JsString JsString) (key value k : JsString) :
    k ∈ (remember refCache key value).entries.map Prod.fst ↔
      k = key ∨ k ∈ refCache.entries.map Prod.fst := by
  rw [JsMap.mem_keys, JsMap.mem_keys, get?_remember, Bool.or_eq_true, decide_eq_true_eq]
  exact or_congr_left eq_comm

theorem Reading.mem_keys_cacheAfter (refCache : JsMap JsString JsString) (row : AuthenticationRow)
    (key : JsString) : key ∈ (g.cacheAfter refCache row).entries.map Prod.fst ↔
      key ∈ refCache.entries.map Prod.fst ∨ key ∈ g.keysOf row := by
  unfold Reading.cacheAfter Reading.keysOf
  split
  · rw [rememberBoth, mem_keys_remember, mem_keys_remember, mem_cons, mem_singleton]
    tauto
  · simp

theorem Reads.advance {rows : List AuthenticationRow} (reads : Reads g rows s)
    (row : AuthenticationRow) : Reads g (rows ++ [row]) (g.advance s row) := by
  have hkeys : ∀ key, key ∈ (g.advance s row).refCache.entries.map Prod.fst ↔
      key ∈ (rows ++ [row]).flatMap g.keysOf := by
    intro key
    rw [Reading.advance, refCache_add, flatMap_append, mem_append, ← reads.keys key,
      flatMap_singleton]
    exact Reading.mem_keys_cacheAfter _ _ _
  obtain ⟨hevents, hgaps, hdisputed, hresolved, hlatestEvent, hlatestIngestion, _⟩ := reads
  cases hfate : g.fate row with
  | otherFeed =>
    refine ⟨?_, ?_, ?_, ?_, ?_, ?_, hkeys⟩ <;>
      simp [Reading.advance, RowState.add, hfate, Fate.event?, Fate.isGap, Fate.disputed?,
        Fate.subject?, hevents, hgaps, hdisputed, hresolved, hlatestEvent, hlatestIngestion]
  | gap disputed =>
    refine ⟨?_, ?_, ?_, ?_, ?_, ?_, hkeys⟩ <;>
      simp [Reading.advance, RowState.add, hfate, Fate.event?, Fate.isGap, Fate.disputed?,
        Fate.subject?, hevents, hgaps, hdisputed, hresolved, hlatestEvent, hlatestIngestion]
    cases disputed <;> simp [hfate]
  | event user event =>
    refine ⟨?_, ?_, ?_, ?_, ?_, ?_, hkeys⟩ <;>
      simp [Reading.advance, RowState.add, hfate, Fate.event?, Fate.isGap, Fate.disputed?,
        Fate.subject?, hevents, hgaps, hdisputed, hresolved, hlatestEvent, hlatestIngestion,
        JsMap.ofList_append]

theorem reads_foldl (g : Reading) (rows : List AuthenticationRow) :
    Reads g rows (rows.foldl g.advance .start) := by
  induction rows using reverseRecOn with
  | nil => exact ⟨rfl, rfl, rfl, rfl, rfl, rfl, fun _ => Iff.rfl⟩
  | append_singleton rows row ih =>
    rw [foldl_append]
    exact ih.advance row

end Loop

end AuthenticationReadiness
