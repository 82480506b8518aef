import HawkView.Auth.ConsoleSession

/-!
# Console sessions are not revived

The calls of one session take its lock in turn, so its row before an accepted call
is the row after the one accepted before it. What a call may do to the row then
carries over every interleaving.
-/

namespace ConsoleSession

open Locking List Option

/-! ## What a call does to the row of its session -/

/-- The row before and after an accepted call. -/
inductive Effect (request : Request) (ids : Ids) (now : Int) :
    Option ConsoleSessionRow → Option ConsoleSessionRow → Prop
  | started (authenticatedAt : Int) (access : request.operation ≠ .ending)
      (authenticated : request.identity.authenticatedAt = some authenticatedAt)
      (past : authenticatedAt ≤ now) (fresh : now < authenticatedAt + idleSeconds * 1000) :
      Effect request ids now none (some (startedRow ids authenticatedAt now))
  | checked (row : ConsoleSessionRow) (check : request.operation = .check)
      (own : row.subject = ids.subject) (live : row.revokedAt = none)
      (ahead : now < row.idleExpiresAt) : Effect request ids now (some row) (some row)
  | extended (row : ConsoleSessionRow) (activity : request.operation = .activity)
      (own : row.subject = ids.subject) (live : row.revokedAt = none)
      (ahead : now < row.idleExpiresAt) :
      Effect request ids now (some row) (some ((extendIdle ids now).set row))
  | revoked (row : ConsoleSessionRow) (ending : request.operation = .ending)
      (own : row.subject = ids.subject) :
      Effect request ids now (some row) (some ((revoke ids now).set row))
  | again (row : ConsoleSessionRow) (ending : request.operation = .ending)
      (own : row.subject = ids.subject) (revoked : row.revokedAt ≠ none) :
      Effect request ids now (some row) (some row)
  | buried (ending : request.operation = .ending) :
      Effect request ids now none (some (tombstone ids now))

/-- The row of one session is as told, and the others are left. -/
def Rewrites (table table' : Sessions) (sessionId : JsString) (row : Option ConsoleSessionRow) :
    Prop :=
  table'.find ConsoleSessionRow.sessionId sessionId = row ∧
    ∀ other, other ≠ sessionId → table'.find ConsoleSessionRow.sessionId other =
      table.find ConsoleSessionRow.sessionId other

section Calls

variable {request : Request} {ids : Ids} {table table' : Sessions} {now : Int}
  {row : Option ConsoleSessionRow} {r : ConsoleSessionRow} {reply : Reply}

theorem Rewrites.insert (h : table.insert r = some table')
    (absent : table.find ConsoleSessionRow.sessionId r.sessionId = none) :
    Rewrites table table' r.sessionId (some r) := by
  constructor
  · simp [Sql.Table.find_insert h, absent]
  · intro other hother
    simp [Sql.Table.find_insert h, hother.symm]

theorem Rewrites.update {u : Sql.Update ConsoleSessionRow} {n : Nat} {sessionId : JsString}
    (h : table.update u = some (table', n)) (keeps : u.KeepsKey ConsoleSessionRow.sessionId)
    (applies : ∀ r, u.applies r = (r.sessionId == sessionId))
    (found : table.find ConsoleSessionRow.sessionId sessionId = some r) :
    Rewrites table table' sessionId (some (u.set r)) := by
  constructor
  · rw [Sql.Table.find_update keeps h, found, map_some, Sql.Update.on_pos]
    simp [applies, Sql.Table.find_key found]
  · intro other hother
    rw [Sql.Table.find_update keeps h]
    cases hfind : table.find ConsoleSessionRow.sessionId other with
    | none => rfl
    | some r' =>
      have hkey := Sql.Table.find_key hfind
      rw [map_some, Sql.Update.on_neg]
      simp [applies, hkey, hother]

theorem Rewrites.refl (table : Sessions) (sessionId : JsString) :
    Rewrites table table sessionId (table.find ConsoleSessionRow.sessionId sessionId) :=
  ⟨rfl, fun _ _ => rfl⟩

variable {authenticatedAt : Int} {admitted : Sessions × Int}

/-- What a check or an activity of a session that is there goes on with. -/
theorem resume_some (h : resume authenticatedAt ids table (some r) now = .ok admitted) :
    r.subject = ids.subject ∧ r.revokedAt = none ∧ now < r.idleExpiresAt ∧ admitted.1 = table := by
  simp only [resume] at h
  split at h
  · cases h
  rename_i hown
  split at h
  · cases h
  rename_i hahead
  cases h
  simp only [not_or, not_not] at hown
  exact ⟨hown.1, hown.2, by omega, rfl⟩

/-- A session starts within the hour of its authentication. -/
theorem resume_none (h : resume authenticatedAt ids table none now = .ok admitted) :
    now < authenticatedAt + idleSeconds * 1000 ∧
      table.insert (startedRow ids authenticatedAt now) = some admitted.1 := by
  simp only [resume] at h
  split at h
  · cases h
  rename_i hfresh
  split at h
  · cases hinsert : table.insert (startedRow ids authenticatedAt now) with
    | none =>
      rw [hinsert] at h
      cases h
    | some t =>
      rw [hinsert] at h
      cases h
      exact ⟨by omega, rfl⟩
  · cases h

variable {activity : Bool}

theorem extend_ok {extended : Sessions × Int}
    (h : extend activity ids row now admitted = .ok extended) :
    (activity ∧ row.isSome) ∧
        (∃ n, admitted.1.update (extendIdle ids now) = some (extended.1, n)) ∨
      ¬ (activity ∧ row.isSome) ∧ extended = admitted := by
  simp only [extend] at h
  split at h
  · rename_i hextends
    left
    refine ⟨hextends, ?_⟩
    split at h
    · cases hupdate : admitted.1.update (extendIdle ids now) with
      | none =>
        rw [hupdate] at h
        cases h
      | some result =>
        rw [hupdate] at h
        cases h
        exact ⟨result.2, rfl⟩
    · cases h
  · rename_i hkeeps
    right
    cases h
    exact ⟨hkeeps, rfl⟩

/-- An accepted access is a start, a check or an extension. -/
theorem access_effect
    (h : access request.identity activity ids table row now = .ok (table', reply))
    (operation : request.operation = if activity then .activity else .check)
    (read : row = table.find ConsoleSessionRow.sessionId ids.sessionId) :
    ∃ after, Rewrites table table' ids.sessionId after ∧ Effect request ids now row after := by
  simp only [access] at h
  split at h
  · cases h
  rename_i authenticatedAt husable
  have hauthenticated := (filter_eq_some_iff.mp husable).1
  split at h
  · cases h
  rename_i hpast
  simp only [bind, Except.bind] at h
  split at h
  · cases h
  rename_i admitted hresume
  split at h
  · cases h
  rename_i extended hextend
  split at h
  · cases h
  split at h
  · cases h
  cases h
  cases row with
  | none =>
    obtain ⟨hfresh, hinsert⟩ := resume_none hresume
    rcases extend_ok hextend with ⟨⟨_, hsome⟩, _⟩ | ⟨_, rfl⟩
    · cases hsome
    · refine ⟨_, Rewrites.insert hinsert read.symm, ?_⟩
      exact .started authenticatedAt (by cases activity <;> simp [operation]) hauthenticated
        (by omega) hfresh
  | some r =>
    obtain ⟨hown, hlive, hahead, rfl⟩ := resume_some hresume
    rcases extend_ok hextend with ⟨⟨hactivity, _⟩, n, hupdate⟩ | ⟨hcheck, rfl⟩
    · refine ⟨_, Rewrites.update hupdate (fun _ => rfl) (fun _ => rfl) read.symm, ?_⟩
      exact .extended r (by rw [operation, if_pos hactivity]) hown hlive hahead
    · refine ⟨_, Rewrites.refl _ _, ?_⟩
      rw [← read]
      refine .checked r ?_ hown hlive hahead
      cases activity with
      | false => exact operation
      | true => exact absurd ⟨rfl, rfl⟩ hcheck

/-- An accepted end revokes, finds what is revoked, or leaves a tombstone. -/
theorem endSession_effect (h : endSession ids table row now = .ok (table', reply))
    (operation : request.operation = .ending)
    (read : row = table.find ConsoleSessionRow.sessionId ids.sessionId) :
    ∃ after, Rewrites table table' ids.sessionId after ∧ Effect request ids now row after := by
  cases row with
  | none =>
    simp only [endSession] at h
    cases hinsert : table.insert (tombstone ids now) with
    | none =>
      rw [hinsert] at h
      cases h
    | some t =>
      rw [hinsert] at h
      cases h
      exact ⟨_, Rewrites.insert hinsert read.symm, .buried operation⟩
  | some r =>
    simp only [endSession] at h
    split at h
    · cases h
    rename_i hown
    rw [not_not] at hown
    split at h
    · rename_i hrevoked
      cases h
      refine ⟨_, Rewrites.refl _ _, ?_⟩
      rw [← read]
      exact .again r operation hown hrevoked
    · cases hupdate : table.update (revoke ids now) with
      | none =>
        rw [hupdate] at h
        cases h
      | some result =>
        rw [hupdate] at h
        cases h
        exact ⟨_, Rewrites.update hupdate (fun _ => rfl) (fun _ => rfl) read.symm,
          .revoked r operation hown⟩

theorem perform_effect (h : perform request ids table row now = .ok (table', reply))
    (read : row = table.find ConsoleSessionRow.sessionId ids.sessionId) :
    ∃ after, Rewrites table table' ids.sessionId after ∧ Effect request ids now row after := by
  simp only [perform] at h
  split at h
  · split at h
    · rename_i hoperation
      exact access_effect h hoperation read
    · rename_i hoperation
      exact access_effect h hoperation read
    · rename_i hoperation
      exact endSession_effect h hoperation read
  · cases h

end Calls

/-! ## The log of accepted calls -/

/-- The row of a session after the calls of the log, the latest first. -/
def rowOf (sessionId : JsString) : List Accepted → Option ConsoleSessionRow
  | [] => none
  | c :: older => if c.ids.sessionId = sessionId then c.after else rowOf sessionId older

def Accepted.on (c : Accepted) (sessionId : JsString) : Prop := c.ids.sessionId = sessionId

/-- How an accepted call continues the log. -/
structure Link (older : List Accepted) (c : Accepted) : Prop where
  identified : ids c.request.identity = some c.ids
  before : c.before = rowOf c.ids.sessionId older
  effect : Effect c.request c.ids c.now c.before c.after
  later : ∀ d ∈ older, d.on c.ids.sessionId → d.now ≤ c.now

def Chained : List Accepted → Prop
  | [] => True
  | c :: older => Link older c ∧ Chained older

/-- The two calls were accepted one after the other, with the others in between. -/
def Between (log : List Accepted) (e : Accepted) (mid : List Accepted) (f : Accepted) : Prop :=
  ∃ later older, log = later ++ f :: (mid ++ e :: older)

/-- What the row of a session says of its calls. -/
structure Tells (log : List Accepted) (sessionId : JsString) (row : ConsoleSessionRow) : Prop where
  own : ∀ d ∈ log, d.on sessionId → d.ids.subject = row.subject
  live : row.revokedAt = none → ∀ d ∈ log, d.on sessionId → d.request.operation ≠ .ending
  deadline : ∃ d ∈ log, d.on sessionId ∧ row.idleExpiresAt ≤ d.now + idleSeconds * 1000

section Log

variable {log older later mid : List Accepted} {c d e f : Accepted} {sessionId : JsString}
  {row row' : ConsoleSessionRow}

theorem Chained.right (h : Chained (later ++ older)) : Chained older := by
  induction later with
  | nil => exact h
  | cons c later ih => exact ih h.2

theorem rowOf_other (h : ¬ c.on sessionId) : rowOf sessionId (c :: older) = rowOf sessionId older :=
  if_neg h

theorem rowOf_self : rowOf c.ids.sessionId (c :: older) = c.after := if_pos rfl

/-- No accepted call leaves a session without a row. -/
theorem Effect.some_after {request : Request} {ids : Ids} {now : Int}
    {before after : Option ConsoleSessionRow} (h : Effect request ids now before after) :
    ∃ row, after = some row := by
  cases h <;> exact ⟨_, rfl⟩

theorem rowOf_none (h : Chained log) (none : rowOf sessionId log = none) :
    ∀ d ∈ log, ¬ d.on sessionId := by
  induction log with
  | nil =>
    intro d hd
    cases hd
  | cons c older ih =>
    by_cases hc : c.on sessionId
    · obtain rfl : c.ids.sessionId = sessionId := hc
      obtain ⟨row, hrow⟩ := h.1.effect.some_after
      rw [rowOf_self, hrow] at none
      cases none
    · rw [rowOf_other hc] at none
      intro d hd
      rcases mem_cons.mp hd with rfl | hd
      · exact hc
      · exact ih h.2 none d hd

/-- A call of another session says nothing of this one. -/
theorem Tells.skip (h : Tells older sessionId row) (hc : ¬ c.on sessionId) :
    Tells (c :: older) sessionId row where
  own d hd hon := by
    rcases mem_cons.mp hd with rfl | hd
    · exact absurd hon hc
    · exact h.own d hd hon
  live hlive d hd hon := by
    rcases mem_cons.mp hd with rfl | hd
    · exact absurd hon hc
    · exact h.live hlive d hd hon
  deadline := by
    obtain ⟨d, hd, hon, hle⟩ := h.deadline
    exact ⟨d, mem_cons_of_mem _ hd, hon, hle⟩

/-- The first call of a session tells all there is. -/
theorem Tells.first (absent : ∀ d ∈ older, ¬ d.on c.ids.sessionId)
    (own : c.ids.subject = row.subject)
    (live : row.revokedAt = none → c.request.operation ≠ .ending)
    (deadline : row.idleExpiresAt ≤ c.now + idleSeconds * 1000) :
    Tells (c :: older) c.ids.sessionId row where
  own d hd hon := by
    rcases mem_cons.mp hd with rfl | hd
    · exact own
    · exact absurd hon (absent d hd)
  live hlive d hd hon := by
    rcases mem_cons.mp hd with rfl | hd
    · exact live hlive
    · exact absurd hon (absent d hd)
  deadline := ⟨c, mem_cons_self, rfl, deadline⟩

/-- A further call of the session, under the same subject. -/
theorem Tells.next (h : Tells older c.ids.sessionId row) (own : row.subject = c.ids.subject)
    (subject : row'.subject = row.subject)
    (live : row'.revokedAt = none → row.revokedAt = none ∧ c.request.operation ≠ .ending)
    (deadline : row'.idleExpiresAt = row.idleExpiresAt ∨
      row'.idleExpiresAt = c.now + idleSeconds * 1000) :
    Tells (c :: older) c.ids.sessionId row' where
  own d hd hon := by
    rcases mem_cons.mp hd with rfl | hd
    · rw [subject, own]
    · rw [subject, h.own d hd hon]
  live hlive d hd hon := by
    rcases mem_cons.mp hd with rfl | hd
    · exact (live hlive).2
    · exact h.live (live hlive).1 d hd hon
  deadline := by
    rcases deadline with hsame | hmoved
    · obtain ⟨d, hd, hon, hle⟩ := h.deadline
      exact ⟨d, mem_cons_of_mem _ hd, hon, by omega⟩
    · exact ⟨c, mem_cons_self, rfl, by omega⟩

theorem Link.tells (link : Link older c) (chained : Chained older)
    (told : ∀ row, rowOf c.ids.sessionId older = some row → Tells older c.ids.sessionId row)
    (after : c.after = some row) : Tells (c :: older) c.ids.sessionId row := by
  have hbefore := link.before
  have heffect := link.effect
  cases hrow : rowOf c.ids.sessionId older with
  | none =>
    have habsent := rowOf_none chained hrow
    rw [hbefore, hrow, after] at heffect
    cases heffect with
    | started authenticatedAt access authenticated past fresh =>
      refine .first habsent rfl (fun _ => access) ?_
      simp only [startedRow]
      omega
    | buried ending =>
      refine .first habsent rfl (fun hlive => nomatch hlive) ?_
      simp only [tombstone]
      omega
  | some r =>
    have htold := told r hrow
    rw [hbefore, hrow, after] at heffect
    cases heffect with
    | checked _ check own live ahead =>
      exact htold.next own rfl (fun h => ⟨h, by simp [check]⟩) (.inl rfl)
    | extended _ activity own live ahead =>
      exact htold.next own rfl (fun h => ⟨h, by simp [activity]⟩) (.inr rfl)
    | revoked _ ending own =>
      exact htold.next own rfl (fun h => nomatch h) (.inl rfl)
    | again _ ending own revoked =>
      exact htold.next own rfl (fun h => absurd h revoked) (.inl rfl)

theorem Chained.tells (h : Chained log) : ∀ row, rowOf sessionId log = some row →
    Tells log sessionId row := by
  induction log with
  | nil =>
    intro row hrow
    cases hrow
  | cons c older ih =>
    intro row hrow
    by_cases hc : c.on sessionId
    · obtain rfl : c.ids.sessionId = sessionId := hc
      rw [rowOf_self] at hrow
      exact h.1.tells h.2 (ih h.2) hrow
    · rw [rowOf_other hc] at hrow
      exact (ih h.2 row hrow).skip hc

/-- Who makes an accepted call on a session that is there. -/
theorem Link.found (link : Link older c) (before : c.before = some row) :
    row.subject = c.ids.subject ∧ (c.request.operation ≠ .ending →
      row.revokedAt = none ∧ c.now < row.idleExpiresAt) := by
  have heffect := link.effect
  rw [before] at heffect
  generalize c.after = after at heffect
  cases heffect with
  | checked _ check own live ahead => exact ⟨own, fun _ => ⟨live, ahead⟩⟩
  | extended _ activity own live ahead => exact ⟨own, fun _ => ⟨live, ahead⟩⟩
  | revoked _ ending own => exact ⟨own, fun h => absurd ending h⟩
  | again _ ending own revoked => exact ⟨own, fun h => absurd ending h⟩

/-- An accepted call moves the deadline only as an activity, to an hour after it. -/
theorem Link.moves (link : Link older c) (before : c.before = some row) :
    ∃ row', c.after = some row' ∧ (row'.idleExpiresAt = row.idleExpiresAt ∨
      c.request.operation = .activity ∧ c.now < row.idleExpiresAt ∧
        row'.idleExpiresAt = c.now + idleSeconds * 1000) := by
  have heffect := link.effect
  rw [before] at heffect
  generalize c.after = after at heffect
  cases heffect with
  | checked _ check own live ahead => exact ⟨_, rfl, .inl rfl⟩
  | extended _ activity own live ahead => exact ⟨_, rfl, .inr ⟨activity, ahead, rfl⟩⟩
  | revoked _ ending own => exact ⟨_, rfl, .inl rfl⟩
  | again _ ending own revoked => exact ⟨_, rfl, .inl rfl⟩

/-- From one row of a session to a later one, the deadline grows by activities only. -/
theorem Chained.deadline (h : Chained (mid ++ e :: older)) (after : e.after = some row) :
    ∃ row', rowOf e.ids.sessionId (mid ++ e :: older) = some row' ∧
      row.idleExpiresAt ≤ row'.idleExpiresAt ∧ (row'.idleExpiresAt = row.idleExpiresAt ∨
        ∃ a ∈ mid, a.on e.ids.sessionId ∧ a.request.operation = .activity ∧
          a.now < row.idleExpiresAt) := by
  induction mid with
  | nil => exact ⟨row, by rw [nil_append, rowOf_self, after], by omega, .inl rfl⟩
  | cons c mid ih =>
    obtain ⟨hlink, hchained⟩ : Link (mid ++ e :: older) c ∧ Chained (mid ++ e :: older) := h
    obtain ⟨row', hrow', hle, hsince⟩ := ih hchained
    have hearlier : row'.idleExpiresAt = row.idleExpiresAt ∨
        ∃ a ∈ c :: mid, a.on e.ids.sessionId ∧ a.request.operation = .activity ∧
          a.now < row.idleExpiresAt := by
      rcases hsince with hsame | ⟨a, ha, hactive⟩
      · exact .inl hsame
      · exact .inr ⟨a, mem_cons_of_mem _ ha, hactive⟩
    by_cases hc : c.on e.ids.sessionId
    · have hon : c.ids.sessionId = e.ids.sessionId := hc
      have hbefore : c.before = some row' := by rw [hlink.before, hon, hrow']
      obtain ⟨row'', hafter, hmoves⟩ := hlink.moves hbefore
      refine ⟨row'', ?_, ?_⟩
      · rw [← hon, cons_append, rowOf_self, hafter]
      rcases hmoves with hsame | ⟨hactivity, hahead, hmoved⟩
      · rw [hsame]
        exact ⟨hle, hearlier⟩
      · constructor
        · obtain ⟨d, hd, hdon, hdeadline⟩ := (hchained.tells row' hrow').deadline
          have hlater := hlink.later d hd (hon.symm ▸ hdon)
          omega
        · right
          rcases hsince with hstill | ⟨a, ha, hactive⟩
          · exact ⟨c, mem_cons_self, hc, hactivity, by omega⟩
          · exact ⟨a, mem_cons_of_mem _ ha, hactive⟩
    · refine ⟨row', ?_, hle, hearlier⟩
      rw [cons_append, rowOf_other hc, hrow']

theorem Between.chained (h : Between log e mid f) (chained : Chained log) :
    ∃ older, Chained (f :: (mid ++ e :: older)) := by
  obtain ⟨later, older, rfl⟩ := h
  exact ⟨older, chained.right⟩

variable (h : Chained log)
  (between : Between log e mid f)
  (same : f.ids.sessionId = e.ids.sessionId)

include h between same in
/-- Once the end of a session is accepted, no check or activity of it is. -/
theorem Chained.ended (ending : e.request.operation = .ending) :
    f.request.operation = .ending := by
  obtain ⟨older, hlink, hchained⟩ := between.chained h
  have hmem : e ∈ mid ++ e :: older := by simp
  by_contra haccess
  cases hrow : rowOf f.ids.sessionId (mid ++ e :: older) with
  | none => exact rowOf_none hchained hrow e hmem same.symm
  | some row =>
    have hbefore : f.before = some row := by rw [hlink.before, hrow]
    have hlive := ((hlink.found hbefore).2 haccess).1
    exact (hchained.tells row hrow).live hlive e hmem same.symm ending

include h between same in
/-- Past a deadline a check or an activity needs an activity that was in time. -/
theorem Chained.idle (after : e.after = some row)
    (access : f.request.operation ≠ .ending) :
    f.now < row.idleExpiresAt ∨ ∃ a ∈ mid, a.on e.ids.sessionId ∧
      a.request.operation = .activity ∧ a.now < row.idleExpiresAt := by
  obtain ⟨older, hlink, hchained⟩ := between.chained h
  obtain ⟨row', hrow', _, hsince⟩ := hchained.deadline after
  have hbefore : f.before = some row' := by rw [hlink.before, same, hrow']
  have hahead := ((hlink.found hbefore).2 access).2
  rcases hsince with hsame | hactive
  · exact .inl (by omega)
  · exact .inr hactive

include h between same in
theorem Chained.monotone (earlier : e.after = some row)
    (after : f.after = some row') : row.idleExpiresAt ≤ row'.idleExpiresAt := by
  obtain ⟨older, hchained⟩ := between.chained h
  obtain ⟨row'', hrow'', hle, _⟩ := @Chained.deadline older (f :: mid) e row hchained earlier
  rw [← same, cons_append, rowOf_self, after] at hrow''
  cases hrow''
  exact hle

/-- All calls on a session have the subject of its row. -/
theorem Chained.subject (h : Chained log) (he : e ∈ log) (hf : f ∈ log)
    (same : f.ids.sessionId = e.ids.sessionId) : f.ids.subject = e.ids.subject := by
  cases hrow : rowOf e.ids.sessionId log with
  | none => exact absurd rfl (rowOf_none h hrow e he)
  | some row =>
    have htells := h.tells row hrow
    exact (htells.own f hf same).trans (htells.own e he rfl).symm

/-- A session starts within the hour of its authentication, as the first call on its id. -/
theorem Chained.start (h : Chained (later ++ c :: older)) (absent : c.before = none)
    (access : c.request.operation ≠ .ending) :
    (∃ authenticatedAt, c.request.identity.authenticatedAt = some authenticatedAt ∧
      authenticatedAt ≤ c.now ∧ c.now < authenticatedAt + idleSeconds * 1000) ∧
      ∀ d ∈ older, d.ids.sessionId ≠ c.ids.sessionId := by
  obtain ⟨hlink, hchained⟩ := h.right
  constructor
  · have heffect := hlink.effect
    rw [absent] at heffect
    generalize c.after = after at heffect
    cases heffect with
    | started authenticatedAt _ authenticated past fresh =>
      exact ⟨authenticatedAt, authenticated, past, fresh⟩
    | buried ending => exact absurd ending access
  · have hrow : rowOf c.ids.sessionId older = none := hlink.before.symm.trans absent
    exact rowOf_none hchained hrow

end Log

/-! ## Every interleaving -/

/-- The table and the clock of the database are what the log says. -/
structure Recorded (db : Db) : Prop where
  chained : Chained db.log
  rows : ∀ sessionId, db.find sessionId = rowOf sessionId db.log
  clock : ∀ d ∈ db.log, d.now ≤ db.now

/-- A call that holds the lock of its session. -/
def Locks (hash : JsString → Int) (held : List (Int × Mode)) (request : Request) (i : Ids) : Prop :=
  ids request.identity = some i ∧ (hash (lockText i.sessionId), .exclusive) ∈ held

/-- What a call may rely on in its phase. -/
def Knows (hash : JsString → Int) (db : Db) (_ : Nat) (s : Session Int Phase) : Prop :=
  match s.phase with
  | .locked request i => Locks hash s.held request i
  | .read request i row => Locks hash s.held request i ∧ row = db.find i.sessionId
  | .sampled request i row now => Locks hash s.held request i ∧ row = db.find i.sessionId ∧
    (∀ d ∈ db.log, d.on i.sessionId → d.now ≤ now) ∧ now ≤ db.now
  | .done request (.ok reply) => ∃ c ∈ db.log, c.request = request ∧ c.reply = reply
  | _ => True

/-- What the commit of a session does to the database. -/
inductive Commits (hash : JsString → Int) (db : Db) (held : List (Int × Mode)) : Db → Phase → Prop
  | refused (request : Request) (failure : Failure) :
      Commits hash db held db (.done request (.error failure))
  | accepted (c : Accepted) (table : Sessions) (locks : Locks hash held c.request c.ids)
      (link : Link db.log c) (past : c.now ≤ db.now)
      (rewrites : Rewrites db.table table c.ids.sessionId c.after) :
      Commits hash db held { db with table, log := c :: db.log } (.done c.request (.ok c.reply))
  | ticked (n : Nat) : Commits hash db held { db with now := db.now + n } .ticked

section Sessions

variable {hash : JsString → Int} {db db' : Db} {i x : Nat} {held : List (Int × Mode)}
  {phase next : Phase} {write : Nat → Nat → Db → Option (Db × Phase)} {t u : Session Int Phase}

variable {request : Request}

theorem finish_commits {ids : Ids} {row : Option ConsoleSessionRow} {now : Int}
    (recorded : Recorded db) (knows : Knows hash db i ⟨.sampled request ids row now, held⟩) :
    Commits hash db held (finish request ids row now db).1
      (finish request ids row now db).2 := by
  obtain ⟨hlocks, hread, hlater, hpast⟩ := knows
  cases hperform : perform request ids db.table row now with
  | error failure =>
    simp only [finish, hperform]
    exact .refused request failure
  | ok result =>
    obtain ⟨table, reply⟩ := result
    obtain ⟨after, hrewrites, heffect⟩ := perform_effect hperform hread
    simp only [finish, hperform, hrewrites.1]
    exact .accepted ⟨request, ids, now, row, after, reply⟩ table hlocks
      ⟨hlocks.1, hread.trans (recorded.rows _), heffect, hlater⟩ hpast hrewrites

theorem commit_cases (hmove : move hash phase = .commit write)
    (hwrite : write i x db = some (db', next)) (recorded : Recorded db)
    (knows : Knows hash db i ⟨phase, held⟩) : Commits hash db held db' next := by
  cases phase with
  | sampled request ids row now =>
    cases hmove
    have hfinish := finish_commits recorded knows
    rw [Option.some.inj hwrite] at hfinish
    exact hfinish
  | tick =>
    cases hmove
    cases hwrite
    exact .ticked x
  | arrived request =>
    simp only [move] at hmove
    split at hmove <;> cases hmove
  | _ => cases hmove

theorem Commits.recorded (h : Commits hash db held db' next) (recorded : Recorded db) :
    Recorded db' := by
  cases h with
  | refused request failure => exact recorded
  | accepted c table locks link past rewrites =>
    refine ⟨⟨link, recorded.chained⟩, ?_, ?_⟩
    · intro sessionId
      by_cases hc : c.on sessionId
      · obtain rfl : c.ids.sessionId = sessionId := hc
        exact rewrites.1.trans rowOf_self.symm
      · exact (rewrites.2 sessionId (Ne.symm hc)).trans
          ((recorded.rows sessionId).trans (rowOf_other hc).symm)
    · exact forall_mem_cons.mpr ⟨past, recorded.clock⟩
  | ticked n =>
    refine ⟨recorded.chained, recorded.rows, ?_⟩
    intro d hd
    have := recorded.clock d hd
    simp only
    omega

theorem Commits.knows (h : Commits hash db held db' next) : Knows hash db' i ⟨next, []⟩ := by
  cases h with
  | refused request failure => trivial
  | accepted c table locks link past rewrites => exact ⟨c, mem_cons_self, rfl, rfl⟩
  | ticked n => trivial

/-- What a commit of another session leaves to a call that holds the lock of its own. -/
structure Kept (db db' : Db) (sessionId : JsString) : Prop where
  row : db'.find sessionId = db.find sessionId
  log : ∀ d ∈ db'.log, d.on sessionId → d ∈ db.log
  clock : db.now ≤ db'.now

theorem Commits.kept (h : Commits hash db t.held db' next) (apart : Apart t u) {ids : Ids}
    (locks : Locks hash u.held request ids) : Kept db db' ids.sessionId := by
  cases h with
  | refused request failure => exact ⟨rfl, fun _ hd _ => hd, by omega⟩
  | accepted c table own link past rewrites =>
    have hother : c.ids.sessionId ≠ ids.sessionId := by
      intro heq
      have hheld := own.2
      rw [heq] at hheld
      exact apart.exclusive hheld locks.2
    refine ⟨rewrites.2 _ hother.symm, ?_, by simp⟩
    intro d hd hon
    rcases mem_cons.mp hd with rfl | hd
    · exact absurd hon hother
    · exact hd
  | ticked n =>
    refine ⟨rfl, fun _ hd _ => hd, ?_⟩
    simp only
    omega

theorem Commits.log (h : Commits hash db held db' next) : ∀ c ∈ db.log, c ∈ db'.log := by
  intro c hc
  cases h with
  | accepted => exact mem_cons_of_mem _ hc
  | _ => exact hc

theorem Commits.stable (h : Commits hash db t.held db' next) (apart : Apart t u)
    (knows : Knows hash db i u) : Knows hash db' i u := by
  obtain ⟨phase, uheld⟩ := u
  cases phase with
  | locked request ids => exact knows
  | read request ids row =>
    obtain ⟨hlocks, hrow⟩ := knows
    exact ⟨hlocks, hrow.trans (h.kept apart hlocks).row.symm⟩
  | sampled request ids row now =>
    obtain ⟨hlocks, hrow, hlater, hpast⟩ := knows
    have hkept := h.kept apart hlocks
    exact ⟨hlocks, hrow.trans hkept.row.symm, fun d hd hon => hlater d (hkept.log d hd hon) hon,
      hpast.trans hkept.clock⟩
  | done request outcome =>
    cases outcome with
    | error failure => trivial
    | ok reply =>
      obtain ⟨c, hc, hreply⟩ := knows
      exact ⟨c, h.log c hc, hreply⟩
  | _ => trivial

theorem discipline (hash : JsString → Int) :
    Discipline (program hash) 0 Recorded (Knows hash) where
  start {db i p} _ _ hstarts := by
    cases p with
    | arrived request => trivial
    | tick => trivial
    | _ => cases hstarts
  acquire {db i t lock mode next} _ _ hmove := by
    obtain ⟨phase, held⟩ := t
    cases phase with
    | arrived request =>
      simp only [program, move] at hmove
      split at hmove
      · cases hmove
      · rename_i ids hids
        cases hmove
        exact ⟨hids, mem_cons_self⟩
    | _ => cases hmove
  observe {db i t next} recorded knows hmove := by
    obtain ⟨phase, held⟩ := t
    cases phase with
    | arrived request =>
      simp only [program, move] at hmove
      split at hmove
      · cases hmove
        trivial
      · cases hmove
    | locked request ids =>
      cases hmove
      exact ⟨knows, rfl⟩
    | read request ids row =>
      cases hmove
      exact ⟨knows.1, knows.2, fun d hd _ => recorded.clock d hd, by simp⟩
    | _ => cases hmove
  commit {db i t write x db' p} recorded knows hmove hwrite := by
    have hcommit := commit_cases hmove hwrite recorded knows
    exact ⟨hcommit.recorded recorded, hcommit.knows⟩
  stable {db i t write x db' p j u} recorded knows hmove hwrite _ hother hapart :=
    (commit_cases hmove hwrite recorded knows).stable hapart hother
  abort {db i t} _ knows := by
    obtain ⟨phase, held⟩ := t
    cases phase with
    | done request outcome =>
      cases outcome with
      | error failure => trivial
      | ok reply => exact knows
    | _ => trivial

end Sessions

/-- What the accepted calls of a log say of the sessions that they are on. -/
structure NotRevived (log : List Accepted) : Prop where
  ended : ∀ e mid f, Between log e mid f → f.ids.sessionId = e.ids.sessionId →
    e.request.operation = .ending → f.request.operation = .ending
  idle : ∀ e mid f row, Between log e mid f → f.ids.sessionId = e.ids.sessionId →
    e.after = some row → f.request.operation ≠ .ending →
    f.now < row.idleExpiresAt ∨ ∃ a ∈ mid, a.on e.ids.sessionId ∧
      a.request.operation = .activity ∧ a.now < row.idleExpiresAt
  subject : ∀ e ∈ log, ∀ f ∈ log, f.ids.sessionId = e.ids.sessionId →
    f.ids.subject = e.ids.subject
  monotone : ∀ e mid f row row', Between log e mid f → f.ids.sessionId = e.ids.sessionId →
    e.after = some row → f.after = some row' → row.idleExpiresAt ≤ row'.idleExpiresAt
  moves : ∀ c ∈ log, ∀ row, c.before = some row → ∃ row', c.after = some row' ∧
    (row'.idleExpiresAt = row.idleExpiresAt ∨ c.request.operation = .activity ∧
      c.now < row.idleExpiresAt ∧ row'.idleExpiresAt = c.now + idleSeconds * 1000)
  start : ∀ later c older, log = later ++ c :: older → c.before = none →
    c.request.operation ≠ .ending →
    (∃ authenticatedAt : Int, c.request.identity.authenticatedAt = some authenticatedAt ∧
      authenticatedAt ≤ c.now ∧ c.now < authenticatedAt + idleSeconds * 1000) ∧
      ∀ d ∈ older, d.ids.sessionId ≠ c.ids.sessionId

/-- What the log is of the calls that returned and of the table. -/
structure Logged (s : System) : Prop where
  returned : ∀ t ∈ s.sessions, ∀ request reply, t.phase = .done request (.ok reply) →
    ∃ c ∈ s.db.log, c.request = request ∧ c.reply = reply
  calls : ∀ later c older, s.db.log = later ++ c :: older →
    ids c.request.identity = some c.ids ∧ c.before = rowOf c.ids.sessionId older ∧
      ∀ d ∈ older, d.ids.sessionId = c.ids.sessionId → d.now ≤ c.now
  table : ∀ sessionId, s.db.find sessionId = rowOf sessionId s.db.log

variable {log : List Accepted}

theorem Chained.link {later older : List Accepted} {c : Accepted} (h : Chained log)
    (split : log = later ++ c :: older) : Link older c := by
  subst split
  exact h.right.1

theorem Chained.notRevived (h : Chained log) : NotRevived log where
  ended _ _ _ between same ending := h.ended between same ending
  idle _ _ _ _ between same after access := h.idle between same after access
  subject _ he _ hf same := h.subject he hf same
  monotone _ _ _ _ _ between same earlier after := h.monotone between same earlier after
  moves c hc row before := by
    obtain ⟨later, older, hsplit⟩ := append_of_mem hc
    exact (h.link hsplit).moves before
  start _ _ _ split absent access := by
    subst split
    exact h.start absent access

/-- In every interleaving of checks, activities and ends, no session is revived. -/
theorem sessions_not_revived (hash : JsString → Int) {now : Int} {as : List (Action Phase Nat)}
    {s : System} (hrun : Runs.run (step (program hash)) (initial now) as = some s) :
    NotRevived s.db.log ∧ Logged s := by
  have hrecorded : Recorded (initial now).db :=
    ⟨trivial, fun _ => rfl, fun d hd => nomatch hd⟩
  have hholds := run_holds (discipline hash) (holds_initial hrecorded) hrun
  have hchained := hholds.store.chained
  refine ⟨hchained.notRevived, ?_, ?_, hholds.store.rows⟩
  · intro t ht request reply hphase
    obtain ⟨i, hi⟩ := List.mem_iff_getElem?.mp ht
    have hknown := hholds.known i t hi
    simpa only [Knows, hphase] using hknown
  · intro later c older hsplit
    have hlink := hchained.link hsplit
    exact ⟨hlink.identified, hlink.before, hlink.later⟩

/-- A check or an activity of a session that was used before comes within an hour of another
accepted call of it. -/
def Attended (log : List Accepted) : Prop :=
  ∀ (later older : List Accepted) (c : Accepted), log = later ++ c :: older →
    c.request.operation ≠ .ending → (∀ d ∈ older, d.ids.sessionId ≠ c.ids.sessionId) ∨
    ∃ d ∈ older, d.ids.sessionId = c.ids.sessionId ∧ c.now < d.now + idleSeconds * 1000

theorem Chained.attended (h : Chained log) : Attended log := by
  rintro later older c rfl access
  obtain ⟨hlink, hchained⟩ := h.right
  cases hrow : rowOf c.ids.sessionId older with
  | none => exact .inl (rowOf_none hchained hrow)
  | some row =>
    obtain ⟨d, hd, hon, hdeadline⟩ := (hchained.tells row hrow).deadline
    have := ((hlink.found (hlink.before.trans hrow)).2 access).2
    exact .inr ⟨d, hd, hon, by omega⟩

/-- In every interleaving, an hour without a call ends a session. -/
theorem sessions_attended (hash : JsString → Int) {now : Int} {as : List (Action Phase Nat)}
    {s : System} (hrun : Runs.run (step (program hash)) (initial now) as = some s) :
    Attended s.db.log := by
  have hrecorded : Recorded (initial now).db := ⟨trivial, fun _ => rfl, fun _ hd => nomatch hd⟩
  exact (run_holds (discipline hash) (holds_initial hrecorded) hrun).store.chained.attended

/-- A check, a second use, an end and a check that comes too late, each to its end. -/
def sampleRun : List (Action Phase Nat) :=
  let identity : AuthenticatedIdentity :=
    { subject := js "0c1d2e3f-0000-4000-8000-00000000000A"
      sessionId := some (js "0c1d2e3f-0000-4000-8000-00000000000b")
      authenticatedAt := some 1000 }
  let call (i : Nat) (operation : Operation) : List (Action Phase Nat) :=
    [.start (.arrived ⟨operation, identity⟩), .advance i 0, .advance i 0, .advance i 0,
      .advance i 0]
  call 0 .check ++ [.start .tick, .advance 1 60000] ++ call 2 .activity ++ call 3 .ending ++
    call 4 .check

theorem sampleRun_not_revived : ∃ s, Runs.run (step (program fun _ => 0)) (initial 2000) sampleRun =
    some s ∧ NotRevived s.db.log ∧ Logged s := by
  have hsome : (Runs.run (step (program fun _ => 0)) (initial 2000) sampleRun).isSome = true := by
    decide +kernel
  obtain ⟨s, hs⟩ := isSome_iff_exists.mp hsome
  exact ⟨s, hs, sessions_not_revived (fun _ => 0) hs⟩

theorem sampleRun_attended : ∃ s, Runs.run (step (program fun _ => 0)) (initial 2000) sampleRun =
    some s ∧ Attended s.db.log := by
  obtain ⟨s, hs⟩ := isSome_iff_exists.mp (show (Runs.run (step (program fun _ => 0)) (initial 2000)
    sampleRun).isSome = true by decide +kernel)
  exact ⟨s, hs, sessions_attended (fun _ => 0) hs⟩

/-- Of the four calls three are accepted. -/
example : (Runs.run (step (program fun _ => 0)) (initial 2000) sampleRun).map
    (fun s => s.db.log.map fun c => c.request.operation) = some [.ending, .activity, .check] := by
  decide +kernel

end ConsoleSession
