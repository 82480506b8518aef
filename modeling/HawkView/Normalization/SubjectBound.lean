import HawkView.Normalization.BatchConserved

/-!
# Whose sign-in an event is

An event is bound to the one user of the directory that its record names, and to
nobody where the record names none or several. Its reference was made for that
user's id, then or for an earlier row, so an injective resolver keeps users apart.
-/

namespace Normalization

open Json List Option

/-! ## References -/

section References

variable {ρ : Type} {toLowerCase : JsString → JsString} {resolver : ReferenceResolver ρ}
  {s : References ρ} {kind : ReferenceKind} {identifier text : JsString}

/-- The caller's resolver gives the text for the identifier. -/
def Refers (resolver : ReferenceResolver ρ) (kind : ReferenceKind) (identifier text : JsString) :
    Prop :=
  ∃ caller, (resolver caller kind identifier).1.bind textAt = some text

/-- The text was given for an identifier that differs in its letter case at most. -/
def Stands (toLowerCase : JsString → JsString) (resolver : ReferenceResolver ρ)
    (kind : ReferenceKind) (identifier text : JsString) : Prop :=
  ∃ asked, toLowerCase asked = toLowerCase identifier ∧ Refers resolver kind asked text

/-- What is cached was given for an identifier of its key. -/
def References.Sound (toLowerCase : JsString → JsString) (resolver : ReferenceResolver ρ)
    (s : References ρ) : Prop :=
  ∀ kind identifier text,
    s.references.get? (kind.text ++ js ":" ++ toLowerCase identifier) = some text →
      Stands toLowerCase resolver kind identifier text

theorem key_inj {kind kind' : ReferenceKind} {folded folded' : JsString}
    (h : kind.text ++ js ":" ++ folded = kind'.text ++ js ":" ++ folded') :
    kind = kind' ∧ folded = folded' := by
  cases kind with
  | subject =>
    cases kind' with
    | subject => exact ⟨rfl, append_cancel_left h⟩
    | application => exact absurd (List.cons.inj h).1 (by decide)
  | application =>
    cases kind' with
    | subject => exact absurd (List.cons.inj h).1 (by decide)
    | application => exact ⟨rfl, append_cancel_left h⟩

/-- A resolution keeps the cache sound, and what it gives stands for the identifier. -/
theorem resolveReference_sound (sound : s.Sound toLowerCase resolver) (kind : ReferenceKind)
    (identifier : JsString) :
    (resolveReference toLowerCase resolver s kind identifier).2.Sound toLowerCase resolver ∧
      ∀ text, reference (resolveReference toLowerCase resolver s kind identifier).1 = .ok text →
        Stands toLowerCase resolver kind identifier text := by
  have hbudget : ∀ text, reference (js "BUDGET") ≠ .ok text := fun _ => by
    simp [reference]
  have hunavailable : ∀ text, reference (js "UNAVAILABLE") ≠ .ok text := fun _ => by
    rw [reference, if_neg (by decide), if_pos rfl]
    exact fun h => by cases h
  have hgiven : ∀ {given text : JsString}, reference given = .ok text → given = text := by
    intro given text h
    rw [reference] at h
    split_ifs at h
    exact Except.ok.inj h
  simp only [resolveReference]
  split
  · rename_i cached hcached
    refine ⟨sound, fun text htext => ?_⟩
    exact sound kind identifier text (hcached.trans (congrArg some (hgiven htext)))
  split_ifs with hfull hfailed
  · exact ⟨sound, fun text h => absurd h (hbudget text)⟩
  · exact ⟨sound, fun text h => absurd h (hunavailable text)⟩
  split
  · exact ⟨sound, fun text h => absurd h (hunavailable text)⟩
  · rename_i given hvalue
    have hrefers : Refers resolver kind identifier given := ⟨s.caller, hvalue⟩
    refine ⟨fun kind' identifier' text htext => ?_, fun text htext => ?_⟩
    · simp only [JsMap.get?_set] at htext
      split_ifs at htext with hkey
      · obtain ⟨rfl, hfolded⟩ := key_inj hkey
        exact ⟨identifier, hfolded, Option.some.inj htext ▸ hrefers⟩
      · exact sound kind' identifier' text htext
    · exact ⟨identifier, rfl, hgiven htext ▸ hrefers⟩

end References

/-! ## Rows -/

section Rows

variable {ρ : Type} {p : Auth.Platform} {f : ProviderFacts} {toLowerCase : JsString → JsString}
  {resolver : ReferenceResolver ρ} {c : RowContext (References ρ)} {s : References ρ}

/-- Resolutions of a context keep the cache sound, and what they give stands for the identifier. -/
def Caches (toLowerCase : JsString → JsString) (resolver : ReferenceResolver ρ)
    (c : RowContext (References ρ)) : Prop :=
  ∀ s : References ρ, s.Sound toLowerCase resolver → ∀ kind identifier,
    (c.resolveReference s kind identifier).2.Sound toLowerCase resolver ∧
      ∀ text, reference (c.resolveReference s kind identifier).1 = .ok text →
        Stands toLowerCase resolver kind identifier text

/-- The user that a record is bound to, and a text that stands for the user's id. -/
def Bound (toLowerCase : JsString → JsString) (resolver : ReferenceResolver ρ)
    (c : RowContext (References ρ)) (raw : Json) (event : NormalizedEvent) : Prop :=
  ∃ binding, bindSubject c.source (rowRecord c.source raw) c.directory = .ok binding ∧
    Stands toLowerCase resolver .subject binding.microsoftUserId event.subjectRef

section

variable (caches : Caches toLowerCase resolver c)
include caches

section

variable (sound : s.Sound toLowerCase resolver)
include sound

theorem normalizeRow_sound {ingestedAt : Option Int} {raw : Json}
    {outcome : Except UnprocessableReason NormalizedRow} {s' : References ρ}
    (h : normalizeRow p f ingestedAt raw c s = (outcome, s')) :
    s'.Sound toLowerCase resolver ∧
      ∀ result, outcome = .ok result → Bound toLowerCase resolver c raw result.event := by
  rw [normalizeRow] at h
  cases hread : readRow ingestedAt raw c with
  | error reason =>
    simp only [hread] at h
    cases h
    exact ⟨sound, fun _ h => by cases h⟩
  | ok r =>
    obtain ⟨hsubject, hstands⟩ := caches s sound .subject r.binding.microsoftUserId
    obtain ⟨happlication, -⟩ := caches _ hsubject .application r.application
    simp only [hread] at h
    split at h
    · cases h
      exact ⟨hsubject, fun _ hresult => by cases hresult⟩
    rename_i subjectRef href
    split at h
    · cases h
      exact ⟨happlication, fun _ hresult => by cases hresult⟩
    · cases h
      refine ⟨happlication, fun result hresult => ?_⟩
      cases hresult
      exact ⟨r.binding, (readRow_ok hread).2, hstands subjectRef href⟩

theorem outcomeOf_sound (position : Nat) (row : SignInRow) :
    (outcomeOf p f c s position row).2.Sound toLowerCase resolver ∧
      ∀ event, (outcomeOf p f c s position row).1.event = some event →
        Bound toLowerCase resolver c row.raw event := by
  rw [outcomeOf]
  split
  · exact ⟨sound, fun _ h => by cases h⟩
  split
  · exact ⟨sound, fun _ h => by cases h⟩
  split
  · exact ⟨sound, fun _ h => by cases h⟩
  split
  · exact ⟨sound, fun _ h => by cases h⟩
  split
  · exact ⟨sound, fun _ h => by cases h⟩
  split
  · rename_i hrow
    exact ⟨(normalizeRow_sound caches sound hrow).1, fun _ h => by cases h⟩
  · rename_i result _ hrow
    obtain ⟨hsound, hbound⟩ := normalizeRow_sound caches sound hrow
    refine ⟨hsound, fun event hevent => ?_⟩
    obtain rfl := Option.some.inj hevent
    exact hbound result rfl

/-- The events of the rows from a position on are each bound by their own row. -/
theorem eventsFrom_bound (position : Nat) (rows : List SignInRow) :
    ∀ e ∈ eventsFrom position (outcomes p f c s position rows),
      ∃ i row, e.position = position + i ∧ rows[i]? = some row ∧
        Bound toLowerCase resolver c row.raw e.event := by
  induction rows generalizing s position with
  | nil => simp [outcomes, eventsFrom]
  | cons row rows ih =>
    obtain ⟨hsound, hbound⟩ := outcomeOf_sound (p := p) (f := f) caches sound position row
    intro e he
    rw [outcomes, eventsFrom, mem_append, mem_toList, map_eq_some_iff] at he
    rcases he with ⟨event, hevent, rfl⟩ | he
    · exact ⟨0, row, rfl, rfl, hbound event hevent⟩
    · obtain ⟨i, row', hposition, hrow, hbound'⟩ := ih hsound (position + 1) e he
      exact ⟨i + 1, row', by omega, hrow, hbound'⟩

end

end

end Rows

/-! ## The directory -/

section Directory

variable (toLowerCase : JsString → JsString)

/-- Identifiers are compared in lower case, and names without the blanks around them. -/
def folded (source : NormalizationSource) (identifier : JsString) : JsString :=
  match source with
  | .graphSignIns => toLowerCase identifier
  | .m365AuditSts => normalizeUpn toLowerCase identifier

/-- The identifier by which records of a feed name the user. -/
def DirectoryUserRow.identifier (source : NormalizationSource) (user : DirectoryUserRow) :
    JsString :=
  match source with
  | .graphSignIns => user.microsoftUserId
  | .m365AuditSts => user.userPrincipalName

/-- The user is one that the directory can be asked for. -/
def DirectoryUserRow.indexed (source : NormalizationSource) (user : DirectoryUserRow) : Bool :=
  match source with
  | .graphSignIns => Auth.guid user.microsoftUserId
  | .m365AuditSts => (textAt (some (.string user.userPrincipalName))).isSome

/-- The identifier that a record names its subject by. -/
def namedAt (source : NormalizationSource) (record : Json) : Option JsString :=
  match seen record (match source with
    | .graphSignIns => js "userId"
    | .m365AuditSts => js "UserId") with
  | some (.string identifier) => some identifier
  | _ => none

/-- The record names the user. -/
def Names (source : NormalizationSource) (record : Json) (user : DirectoryUserRow) : Bool :=
  (namedAt source record).any fun identifier =>
    folded toLowerCase source (user.identifier source) == folded toLowerCase source identifier

/-- The users that a record may be bound to. -/
def candidates (source : NormalizationSource) (record : Json) (directory : List DirectoryUserRow) :
    List DirectoryUserRow :=
  directory.filter fun user => user.indexed source && Names toLowerCase source record user

variable {toLowerCase} {scope : NormalizationScope} {directory : List DirectoryUserRow}
  {index : DirectoryIndex} {source : NormalizationSource} {record : Json} {binding : SubjectBinding}

theorem resolve_one {users : List DirectoryUserRow} {id : JsString}
    (h : resolve users = .one id) : ∃ user, users = [user] ∧ user.microsoftUserId = id := by
  match users with
  | [] => cases h
  | [user] => exact ⟨user, rfl, Resolution.one.inj h⟩
  | _ :: _ :: _ => cases h

variable {v : Option Shape} {text : JsString}

theorem textAt_string (h : textAt v = some text) :
    v = some (.string text) := by
  unfold textAt at h
  split at h
  · split_ifs at h
    rw [Option.some.inj h]
  · cases h

theorem guidAt_string (h : guidAt v = some text) :
    v = some (.string text) := by
  unfold guidAt at h
  split at h
  · split_ifs at h
    rw [Option.some.inj h]
  · cases h

/-- A record is bound to its only candidate. -/
theorem bindSubject_candidates (hindex : indexDirectory toLowerCase scope directory = some index)
    (h : bindSubject source record index = .ok binding) :
    ∃ user, candidates toLowerCase source record directory = [user] ∧
      user.foreign scope = false ∧ user.microsoftUserId = binding.microsoftUserId := by
  rw [indexDirectory] at hindex
  split_ifs at hindex with hforeign
  obtain rfl := Option.some.inj hindex
  have hfound : ∃ user, candidates toLowerCase source record directory = [user] ∧
      user.microsoftUserId = binding.microsoftUserId := by
    cases source with
    | graphSignIns =>
      simp only [bindSubject, bindGraphSubject] at h
      split at h
      · cases h
      rename_i id hid
      split at h
      · cases h
      · cases h
      rename_i user hone
      obtain ⟨user, husers, rfl⟩ := resolve_one hone
      cases h
      refine ⟨user, ?_, rfl⟩
      rw [← husers, candidates]
      simp only [Names, namedAt, guidAt_string hid]
      rfl
    | m365AuditSts =>
      simp only [bindSubject, bindAuditSubject] at h
      split at h
      · cases h
      rename_i name hname
      split at h
      · cases h
      · cases h
      rename_i user hone
      obtain ⟨user, husers, rfl⟩ := resolve_one hone
      cases h
      refine ⟨user, ?_, rfl⟩
      obtain ⟨htext, -⟩ := filter_eq_some_iff.mp hname
      rw [← husers, candidates]
      simp only [Names, namedAt, textAt_string htext]
      rfl
  obtain ⟨user, hcandidates, hid⟩ := hfound
  have hmem : user ∈ directory := mem_of_mem_filter
    (show user ∈ candidates toLowerCase source record directory by simp [hcandidates])
  refine ⟨user, hcandidates, ?_, hid⟩
  simp only [List.any_eq_true, not_exists, not_and, Bool.not_eq_true] at hforeign
  exact hforeign user hmem

end Directory

/-! ## The events of a batch -/

section Batch

variable {ρ : Type} {p : Auth.Platform} {f : ProviderFacts} {toLowerCase : JsString → JsString}
  {options : NormalizeBatchOptions ρ} {batch : NormalizationBatch}

/-- The event's row names this user of the scope, and no other. -/
def Subject (toLowerCase : JsString → JsString) (options : NormalizeBatchOptions ρ)
    (e : BatchEvent) (user : DirectoryUserRow) : Prop :=
  user.foreign options.scope = false ∧ ∃ row, options.rows[e.position]? = some row ∧
    candidates toLowerCase options.source (rowRecord options.source row.raw) options.directory =
      [user]

/-- Different identifiers are given different texts. -/
def KeepsApart (resolver : ReferenceResolver ρ) : Prop :=
  ∀ identifier identifier' text, Refers resolver .subject identifier text →
    Refers resolver .subject identifier' text → identifier = identifier'

variable {e : BatchEvent}

theorem Subject.unique {user user' : DirectoryUserRow} (h : Subject toLowerCase options e user)
    (h' : Subject toLowerCase options e user') :
    user = user' := by
  obtain ⟨-, row, hrow, huser⟩ := h
  obtain ⟨-, row', hrow', huser'⟩ := h'
  obtain rfl := Option.some.inj (hrow.symm.trans hrow')
  exact (List.cons.inj (huser.symm.trans huser')).1

theorem event_subject (h : normalizeSignInBatch p f toLowerCase options = some batch)
    (he : e ∈ batch.events) :
    ∃ user, Subject toLowerCase options e user ∧
      Stands toLowerCase options.reference .subject user.microsoftUserId e.event.subjectRef := by
  obtain ⟨index, hindex, rfl⟩ := map_eq_some_iff.mp h
  have hmem := finish_conserves.events.mem_iff.mp he
  have caches : Caches toLowerCase options.reference (options.context toLowerCase index) :=
    fun s sound kind identifier => resolveReference_sound sound kind identifier
  have sound : References.Sound toLowerCase options.reference ⟨.empty, false, options.caller⟩ :=
    fun _ _ _ h => by cases h
  obtain ⟨i, row, hposition, hrow, binding, hbinding, hstands⟩ :=
    eventsFrom_bound caches sound 0 options.rows e hmem
  obtain ⟨user, hcandidates, hscope, hid⟩ := bindSubject_candidates hindex hbinding
  rw [Nat.zero_add] at hposition
  exact ⟨user, ⟨hscope, row, hposition ▸ hrow, hcandidates⟩, hid ▸ hstands⟩

/-- Every event has one subject, and different subjects have different references. -/
theorem normalizeSignInBatch_subjects
    (h : normalizeSignInBatch p f toLowerCase options = some batch) :
    (∀ e ∈ batch.events, ∃ user, Subject toLowerCase options e user ∧
      Stands toLowerCase options.reference .subject user.microsoftUserId e.event.subjectRef) ∧
    (∀ i row, options.rows[i]? = some row →
      (candidates toLowerCase options.source (rowRecord options.source row.raw)
        options.directory).length ≠ 1 → ∀ e ∈ batch.events, e.position ≠ i) ∧
    (KeepsApart options.reference → ∀ e ∈ batch.events, ∀ e' ∈ batch.events, ∀ user user',
      Subject toLowerCase options e user → Subject toLowerCase options e' user' →
        toLowerCase user.microsoftUserId ≠ toLowerCase user'.microsoftUserId →
          e.event.subjectRef ≠ e'.event.subjectRef) := by
  refine ⟨fun e he => event_subject h he, ?_, ?_⟩
  · rintro i row hrow hlength e he rfl
    obtain ⟨user, ⟨-, row', hrow', hcandidates⟩, -⟩ := event_subject h he
    obtain rfl := Option.some.inj (hrow.symm.trans hrow')
    rw [hcandidates] at hlength
    exact hlength rfl
  · intro apart e he e' he' user user' huser huser' hne same
    obtain ⟨u, hu, asked, hasked, hrefers⟩ := event_subject h he
    obtain ⟨u', hu', asked', hasked', hrefers'⟩ := event_subject h he'
    obtain rfl := huser.unique hu
    obtain rfl := huser'.unique hu'
    obtain rfl := apart asked asked' _ hrefers (same ▸ hrefers')
    exact hne (hasked.symm.trans hasked')

end Batch

/-! ## Two users -/

def firstUser : DirectoryUserRow :=
  ⟨js "o", js "t", js "00000000-0000-4000-8000-000000000001", js "a@b.c"⟩

def secondUser : DirectoryUserRow :=
  ⟨js "o", js "t", js "00000000-0000-4000-8000-000000000003", js "a@b.c" ++ [0x09]⟩

/-- Both users sign in, and each gets a reference of their own. -/
def twoSubjects : NormalizeBatchOptions Unit where
  scope := ⟨js "o", js "t", js "m"⟩
  source := .graphSignIns
  rows := [firstUser, secondUser].map fun user => { sampleSignInRow with
    raw := .object [(js "id", .string (js "e")),
      (js "createdDateTime", .string (js "2026-01-01T00:00:00Z")),
      (js "userId", .string user.microsoftUserId),
      (js "appId", .string (js "00000000-0000-4000-8000-000000000002"))] }
  directory := [firstUser, secondUser]
  reference _ _ identifier := (some (some (.string (js "r" ++ identifier))), ())
  caller := ()
  collectionScope := .undeclared

theorem normalizeSignInBatch_subjects_two :
    ∃ batch, normalizeSignInBatch ⟨fun _ => 0, id, id⟩
        ⟨fun _ => none, fun _ _ => none, fun _ => none, fun _ _ => none⟩ id twoSubjects =
          some batch ∧
      batch.events.length = 2 ∧ ∀ e ∈ batch.events, ∀ e' ∈ batch.events,
        Subject id twoSubjects e firstUser → Subject id twoSubjects e' secondUser →
          e.event.subjectRef ≠ e'.event.subjectRef := by
  have hread : (normalizeSignInBatch ⟨fun _ => 0, id, id⟩
      ⟨fun _ => none, fun _ _ => none, fun _ => none, fun _ _ => none⟩ id twoSubjects).map
        (fun batch => batch.events.length) = some 2 := by
    decide +kernel
  obtain ⟨batch, hbatch, hlength⟩ := map_eq_some_iff.mp hread
  have apart : KeepsApart twoSubjects.reference := by
    rintro identifier identifier' text ⟨_, h⟩ ⟨_, h'⟩
    have htext : some (Shape.string (js "r" ++ identifier)) = some (.string text) := textAt_string h
    have htext' : some (Shape.string (js "r" ++ identifier')) = some (.string text) :=
      textAt_string h'
    have hsame := htext.trans htext'.symm
    rw [Option.some.injEq, Shape.string.injEq] at hsame
    exact append_cancel_left hsame
  refine ⟨batch, hbatch, hlength, fun e he e' he' huser huser' => ?_⟩
  exact (normalizeSignInBatch_subjects hbatch).2.2 apart e he e' he' _ _ huser huser' (by decide)

/-- The first user's audited sign-in. -/
def nameShared : NormalizeBatchOptions Unit :=
  { twoSubjects with
    source := .m365AuditSts
    rows := [{ sampleSignInRow with
      raw := .object [(js "hawkviewSource", .string (js "MICROSOFT_365_MANAGEMENT_ACTIVITY")),
        (js "managementActivityRecord", .object [(js "RecordType", .number (.ofInt 15)),
          (js "Operation", .string (js "UserLoggedIn")), (js "Id", .string (js "e")),
          (js "CreationTime", .string (js "2026-01-01T00:00:00")),
          (js "UserId", .string (js "a@b.c")), (js "Application", .string (js "x"))])] }] }

/-- Both users have the name, but only the first one's has no tab in it. -/
theorem shared_name_binds :
    (normalizeSignInBatch ⟨fun _ => 0, id, id⟩
        ⟨fun _ => none, fun _ _ => none, fun _ => none, fun _ _ => none⟩ id nameShared).map
          (fun batch => batch.events.length) = some 1 ∧
      nameShared.rows.map (fun row => (nameShared.directory.filter
        (Names id .m365AuditSts (rowRecord .m365AuditSts row.raw))).length) = [2] := by
  decide +kernel

end Normalization
