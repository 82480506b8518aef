import HawkView.Lib.Runs
import HawkView.Lib.Traverse
import HawkView.RiskyUsers.NativePublication

/-!
# What publishing does to a finding

Evidence of a finding only moves on. A finding that was closed opens again with
evidence that is strictly later, and an open one is resolved only by a complete
assessment of the newest window that has no evidence of it left.
-/

namespace NativePublication

open Json EvaluationContract Compose RunRecord Traverse List Option

variable {rt : Runtime}

/-! ## The upsert -/

/-- What rows of a transaction do to the finding of a key. -/
structure Advances (input : PersistRunInput) (rows : List PublicationRow) (key : Key)
    (f f' : Standing) : Prop where
  same : f'.key = f.key
  observed : f.observedAt ≤ f'.observedAt
  state : f'.state = f.state ∨ f'.state = .opened ∧ f.observedAt < f'.observedAt
  shown : f'.observedAt ≠ f.observedAt →
    ∃ row ∈ rows, (input.scope, row.pair.dedupeKey) = key ∧ row.observedAt = f'.observedAt

theorem Advances.refl (input : PersistRunInput) (rows : List PublicationRow) (key : Key)
    (f : Standing) : Advances input rows key f f where
  same := rfl
  observed := Int.le_refl _
  state := .inl rfl
  shown := fun h => absurd rfl h

variable {input : PersistRunInput} {rows : List PublicationRow} {key : Key} {f g : Standing}

theorem Advances.trans {h : Standing} (hfg : Advances input rows key f g)
    (hgh : Advances input rows key g h) :
    Advances input rows key f h where
  same := hgh.same.trans hfg.same
  observed := Int.le_trans hfg.observed hgh.observed
  state := by
    have hf := hfg.observed
    have hg := hgh.observed
    rcases hgh.state with hsame | ⟨hopened, hlater⟩
    · rcases hfg.state with hfirst | ⟨hfirst, hearlier⟩
      · exact .inl (hsame.trans hfirst)
      · exact .inr ⟨hsame.trans hfirst, by omega⟩
    · exact .inr ⟨hopened, by omega⟩
  shown := by
    intro hne
    by_cases hlast : h.observedAt = g.observedAt
    · rw [hlast] at hne ⊢
      exact hfg.shown hne
    · exact hgh.shown hlast

/-- No finding is deleted, and each one advances. -/
def Carries (input : PersistRunInput) (rows : List PublicationRow)
    (t t' : Sql.Table standingSchema) : Prop :=
  ∀ key f, t.find Standing.key key = some f →
    ∃ f', t'.find Standing.key key = some f' ∧ Advances input rows key f f'

theorem Carries.refl (input : PersistRunInput) (rows : List PublicationRow)
    (t : Sql.Table standingSchema) : Carries input rows t t :=
  fun key f h => ⟨f, h, .refl input rows key f⟩

theorem Carries.trans {t u v : Sql.Table standingSchema} (htu : Carries input rows t u)
    (huv : Carries input rows u v) : Carries input rows t v := by
  intro key f hf
  obtain ⟨g, hg, hfg⟩ := htu key f hf
  obtain ⟨h, hh, hgh⟩ := huv key g hg
  exact ⟨h, hh, hfg.trans hgh⟩

theorem onConflict_key (input : PersistRunInput) (p : Proposed) :
    (onConflict input p).KeepsKey Standing.key := fun _ => rfl

variable {p : Proposed}

theorem onConflict_advances (hp : p.row ∈ rows) (f : Standing) :
    Advances input rows f.key f ((onConflict input p).on f) := by
  apply Sql.Update.on_cases
  · intro happlies
    simp only [onConflict, Bool.and_eq_true, beq_iff_eq, decide_eq_true_eq] at happlies
    obtain ⟨⟨⟨⟨hkey, _⟩, _⟩, _⟩, hobserved⟩ := happlies
    refine ⟨rfl, hobserved, ?_, ?_⟩
    · by_cases hlater : f.observedAt < p.row.observedAt
      · exact .inr ⟨if_pos hlater, hlater⟩
      · exact .inl (if_neg hlater)
    · intro _
      exact ⟨p.row, hp, hkey.symm, rfl⟩
  · exact .refl input rows f.key f

theorem upsertOne_carries (hp : p.row ∈ rows) {s s' : Upserting}
    (h : upsertOne input s p = some s') :
    Carries input rows s.findings s'.findings := by
  simp only [upsertOne] at h
  split at h
  · cases h
  · split at h
    · obtain ⟨t, ht, rfl⟩ := map_eq_some_iff.mp h
      intro key f hf
      refine ⟨f, ?_, .refl input rows key f⟩
      rw [Sql.Table.find_insert ht, hf]
      rfl
    · obtain ⟨⟨t, n⟩, ht, rfl⟩ := map_eq_some_iff.mp h
      intro key f hf
      refine ⟨(onConflict input p).on f, ?_, ?_⟩
      · rw [Sql.Table.find_update (onConflict_key input p) ht, hf]
        rfl
      · rw [← Sql.Table.find_key hf]
        exact onConflict_advances hp f

variable {batch : List Proposed}

theorem upsertStanding_carries (hbatch : ∀ p ∈ batch, p.row ∈ rows)
    {t t' : Sql.Table standingSchema} (h : upsertStanding input t batch = some t') :
    Carries input rows t t' := by
  obtain ⟨s, hs, rfl⟩ := map_eq_some_iff.mp h
  have hall := Runs.foldlM_carries
    (P := fun (as : List Proposed) (s : Upserting) => (∀ p ∈ as, p.row ∈ rows) →
      Carries input rows t s.findings) (fun _ => Carries.refl input rows t) ?_ hs
  · exact hall hbatch
  · intro as p u v ih hu has
    have hleft := ih fun q hq => has q (mem_append_left _ hq)
    exact hleft.trans (upsertOne_carries (has p (by simp)) hu)

variable {runId : Id} {db' : Db}

theorem writeBatch_carries (hbatch : ∀ p ∈ batch, p.row ∈ rows) {db : Db}
    (h : writeBatch input runId db batch = some db') :
    db'.runs = db.runs ∧ Carries input rows db.findings db'.findings := by
  simp only [writeBatch, bind, bind_eq_some_iff, Option.some.injEq] at h
  obtain ⟨matched, _, findings, hfindings, rfl⟩ := h
  exact ⟨rfl, upsertStanding_carries hbatch hfindings⟩

theorem mem_batches {all : List Proposed} (h : batch ∈ batches all) :
    ∀ p ∈ batch, p ∈ all := by
  obtain ⟨i, _, rfl⟩ := List.mem_map.mp h
  intro p hp
  exact mem_of_mem_drop (mem_of_mem_take hp)

variable {draws : Draws}

theorem mem_proposals (h : p ∈ proposals draws rows) : p.row ∈ rows := by
  obtain ⟨entry, hentry, rfl⟩ := List.mem_map.mp h
  exact fst_mem_of_mem_zipIdx hentry

theorem writeRows_carries {db : Db} (h : writeRows input draws db rows = some db') :
    db'.runs = db.runs ∧ Carries input rows db.findings db'.findings := by
  have hall := Runs.foldlM_carries
    (P := fun (as : List (List Proposed)) (u : Db) => (∀ batch ∈ as, ∀ p ∈ batch, p.row ∈ rows) →
      u.runs = db.runs ∧ Carries input rows db.findings u.findings)
    (fun _ => ⟨rfl, Carries.refl input rows db.findings⟩) ?_ h
  · apply hall
    intro batch hbatch p hp
    exact mem_proposals (mem_batches hbatch p hp)
  · intro as batch u v ih hv has
    obtain ⟨hruns, hcarries⟩ := ih fun b hb => has b (mem_append_left _ hb)
    obtain ⟨hruns', hcarries'⟩ := writeBatch_carries (has batch (by simp)) hv
    exact ⟨hruns'.trans hruns, hcarries.trans hcarries'⟩

/-! ## What ends a finding -/

theorem orRefused_ok {α : Type} {o : Option α} {a : α} : orRefused o = .ok a ↔ o = some a := by
  cases o <;> simp [orRefused]

theorem updateFindings_finding {db : Db} {u : Sql.Update Standing}
    (keeps : u.KeepsKey Standing.key) (h : updateFindings db u = some db') :
    db'.runs = db.runs ∧ ∀ key, db'.finding key = (db.finding key).map u.on := by
  obtain ⟨⟨t, n⟩, ht, rfl⟩ := map_eq_some_iff.mp h
  exact ⟨rfl, fun key => Sql.Table.find_update keeps ht⟩

/-- What the end of the transaction makes of a finding. -/
def settled (call : Call) (rows : List PublicationRow) (f : Standing) : Standing :=
  if mayResolveNativeAbsence call.assessment then
    (resolveUpdate call.input rows).on ((expireUpdate call.input).on f)
  else (expireUpdate call.input).on f

variable {call : Call}

theorem publishRows_finding {db : Db} (h : publishRows rt db call = .ok db') :
    ∃ rows, nativePublicationRows rt call.assessment call.input call.draws.runId = .ok rows ∧
      db'.runs = db.runs ∧ ∀ key f, db.finding key = some f →
        ∃ g, Advances call.input rows key f g ∧ db'.finding key = some (settled call rows g) := by
  simp only [publishRows] at h
  obtain ⟨rows, hrows, h⟩ := bind_ok.mp h
  obtain ⟨written, hwritten, h⟩ := bind_ok.mp h
  obtain ⟨expired, hexpired, h⟩ := bind_ok.mp h
  obtain ⟨hruns, hcarries⟩ := writeRows_carries (orRefused_ok.mp hwritten)
  obtain ⟨hruns', hexpire⟩ :=
    updateFindings_finding (u := expireUpdate call.input) (fun _ => rfl) (orRefused_ok.mp hexpired)
  refine ⟨rows, hrows, ?_⟩
  simp only [settled]
  split at h
  · rename_i hmay
    obtain ⟨hruns'', hresolve⟩ := updateFindings_finding
      (u := resolveUpdate call.input rows) (fun _ => rfl) (orRefused_ok.mp h)
    refine ⟨hruns''.trans (hruns'.trans hruns), fun key f hf => ?_⟩
    obtain ⟨g, hg, hadvances⟩ := hcarries key f hf
    refine ⟨g, hadvances, ?_⟩
    have hwritten' : written.finding key = some g := hg
    rw [hresolve, hexpire, hwritten', if_pos hmay]
    rfl
  · rename_i hmay
    cases h
    refine ⟨hruns'.trans hruns, fun key f hf => ?_⟩
    obtain ⟨g, hg, hadvances⟩ := hcarries key f hf
    refine ⟨g, hadvances, ?_⟩
    have hwritten' : written.finding key = some g := hg
    rw [hexpire, hwritten', if_neg hmay]
    rfl

theorem expire_on (input : PersistRunInput) (f : Standing) :
    ((expireUpdate input).on f).observedAt = f.observedAt ∧
      ((expireUpdate input).on f = f ∨
        f.state = .opened ∧ ((expireUpdate input).on f).state = .expired) := by
  apply Sql.Update.on_cases (P := fun s => s.observedAt = f.observedAt ∧
    (s = f ∨ f.state = .opened ∧ s.state = .expired))
  · intro happlies
    simp only [expireUpdate, Bool.and_eq_true, beq_iff_eq] at happlies
    exact ⟨rfl, .inr ⟨happlies.1.2, rfl⟩⟩
  · exact ⟨rfl, .inl rfl⟩

theorem resolve_on (input : PersistRunInput) (rows : List PublicationRow) (f : Standing) :
    ((resolveUpdate input rows).on f).observedAt = f.observedAt ∧
      ((resolveUpdate input rows).on f = f ∨
        f.state = .opened ∧ ((resolveUpdate input rows).on f).state = .resolved ∧
          f.scope = input.scope ∧ ∀ row ∈ rows, row.pair.dedupeKey ≠ f.dedupeKey) := by
  apply Sql.Update.on_cases (P := fun s => s.observedAt = f.observedAt ∧
    (s = f ∨ f.state = .opened ∧ s.state = .resolved ∧ f.scope = input.scope ∧
      ∀ row ∈ rows, row.pair.dedupeKey ≠ f.dedupeKey))
  · intro happlies
    simp only [resolveUpdate, Bool.and_eq_true, beq_iff_eq, Bool.not_eq_true',
      List.contains_eq_mem, decide_eq_false_iff_not, List.mem_map, not_exists, not_and]
      at happlies
    exact ⟨rfl, .inr ⟨happlies.1.1.2, rfl, happlies.1.1.1.1, happlies.2⟩⟩
  · exact ⟨rfl, .inl rfl⟩

/-- The end of the transaction only closes findings that are open. -/
theorem settled_cases (call : Call) (rows : List PublicationRow) (f : Standing) :
    (settled call rows f).observedAt = f.observedAt ∧
      (settled call rows f = f ∨ f.state = .opened ∧
        ((settled call rows f).state = .expired ∨ (settled call rows f).state = .resolved ∧
          mayResolveNativeAbsence call.assessment = true ∧ f.scope = call.input.scope ∧
            ∀ row ∈ rows, row.pair.dedupeKey ≠ f.dedupeKey)) := by
  obtain ⟨hobserved, hexpire⟩ := expire_on call.input f
  by_cases hmay : mayResolveNativeAbsence call.assessment = true
  · obtain ⟨hobserved', hresolve⟩ := resolve_on call.input rows ((expireUpdate call.input).on f)
    rw [settled, if_pos hmay]
    refine ⟨hobserved'.trans hobserved, ?_⟩
    rcases hexpire with hsame | ⟨hopened, hexpired⟩
    · rw [hsame] at hresolve ⊢
      rcases hresolve with hkept | ⟨hopened, hresolved, hscope, hrows⟩
      · exact .inl hkept
      · exact .inr ⟨hopened, .inr ⟨hresolved, hmay, hscope, hrows⟩⟩
    · rcases hresolve with hkept | ⟨hstill, _⟩
      · rw [hkept]
        exact .inr ⟨hopened, .inl hexpired⟩
      · rw [hexpired] at hstill
        cases hstill
  · rw [settled, if_neg hmay]
    refine ⟨hobserved, ?_⟩
    rcases hexpire with hsame | ⟨hopened, hexpired⟩
    · exact .inl hsame
    · exact .inr ⟨hopened, .inl hexpired⟩

/-! ## One transaction -/

/-- A run of this engine ends its window at this time. -/
def WindowEnds (db : Db) (scope : Scope) (t : Int) : Prop :=
  ∃ r ∈ db.runs.rows, r.scope = scope ∧ r.status = .completedEvaluationCore ∧ r.windowEnd = t

variable {scope : Scope} {t : Int}

theorem mem_windowEnds {db : Db} :
    t ∈ (db.runs.rows.filter fun r => r.scope == scope && r.status == .completedEvaluationCore).map
      EvaluationRun.windowEnd ↔ WindowEnds db scope t := by
  simp [WindowEnds, and_assoc]

theorem olderThan_latest {db : Db} :
    olderThan (latestWindowEnd db scope) t = true ↔
      ∃ newest, WindowEnds db scope newest ∧ t < newest := by
  simp only [olderThan, latestWindowEnd]
  constructor
  · intro h
    split at h
    · rename_i newest hnewest
      have hmem := (List.max?_eq_some_iff.mp hnewest).1
      exact ⟨newest, mem_windowEnds.mp hmem, of_decide_eq_true h⟩
    · cases h
  · rintro ⟨later, hlater, hlt⟩
    have hmem := mem_windowEnds.mpr hlater
    split
    · rename_i newest hnewest
      have hle := (List.max?_eq_some_iff.mp hnewest).2 later hmem
      exact decide_eq_true (by omega)
    · rename_i hnone
      rw [List.max?_eq_none_iff] at hnone
      rw [hnone] at hmem
      cases hmem

/-- The run of the transaction is there, and every run that was there still is. -/
structure Grows (db : Db) (call : Call) (after : Db) : Prop where
  kept : ∀ scope t, WindowEnds db scope t → WindowEnds after scope t
  own : WindowEnds after call.input.scope call.input.windowEnd

variable {after : Db}

theorem markRun_grows {db mid : Db} {runs : Sql.Table runSchema} {findings : Json}
    (hinsert : db.runs.insert (persistedRun rt call.assessment call.input call.draws.runId) =
      some runs)
    (hmid : mid.runs = runs) (h : markRun mid call.draws.runId findings = some after) :
    Grows db call after ∧ after.findings = mid.findings := by
  obtain ⟨⟨t, n⟩, ht, rfl⟩ := map_eq_some_iff.mp h
  have hrows := Sql.Table.update_rows ht
  have hinserted := Sql.Table.insert_rows hinsert
  have hstill (r : EvaluationRun) (hr : r ∈ runs.rows)
      (hstatus : r.status = .completedEvaluationCore) :
      WindowEnds { mid with runs := t } r.scope r.windowEnd := by
    refine ⟨(markUpdate call.draws.runId findings).on r, ?_, ?_⟩
    · rw [← hmid] at hr
      exact hrows ▸ mem_map_of_mem hr
    · apply Sql.Update.on_cases
        (P := fun s : EvaluationRun => s.scope = r.scope ∧
          s.status = .completedEvaluationCore ∧ s.windowEnd = r.windowEnd)
      · exact fun _ => ⟨rfl, hstatus, rfl⟩
      · exact ⟨rfl, hstatus, rfl⟩
  refine ⟨⟨?_, ?_⟩, rfl⟩
  · rintro scope t ⟨r, hr, rfl, hstatus, rfl⟩
    exact hstill r (by rw [hinserted]; exact mem_append_left _ hr) hstatus
  · exact hstill (persistedRun rt call.assessment call.input call.draws.runId)
      (by rw [hinserted]; simp) rfl

/-- What a transaction that writes a run does. -/
inductive Wrote (rt : Runtime) (db : Db) (call : Call) (after : Db) : Publication → Prop
  | older (newest : Int) (window : WindowEnds db call.input.scope newest)
      (later : call.input.windowEnd < newest) (grows : Grows db call after)
      (findings : after.findings = db.findings) :
      Wrote rt db call after .olderWindowNotPublished
  | published (rows : List PublicationRow)
      (newest : ∀ t, WindowEnds db call.input.scope t → t ≤ call.input.windowEnd)
      (grows : Grows db call after)
      (given : nativePublicationRows rt call.assessment call.input call.draws.runId = .ok rows)
      (findings : ∀ key f, db.finding key = some f →
        ∃ g, Advances call.input rows key f g ∧ after.finding key = some (settled call rows g)) :
      Wrote rt db call after .published

variable {publication : Publication}

theorem persistAndPublish_wrote {db : Db}
    (h : persistAndPublish rt db call = .ok (after, publication)) :
    Wrote rt db call after publication := by
  simp only [persistAndPublish] at h
  obtain ⟨runs, hruns, h⟩ := bind_ok.mp h
  have hinsert := orRefused_ok.mp hruns
  by_cases holder : olderThan (latestWindowEnd db call.input.scope) call.input.windowEnd = true
  · simp only [if_pos holder, reduceCtorEq, if_false] at h
    obtain ⟨mid, hmid, h⟩ := bind_ok.mp h
    obtain ⟨marked, hmarked, h⟩ := bind_ok.mp h
    cases h
    cases hmid
    obtain ⟨newest, hwindow, hlater⟩ := olderThan_latest.mp holder
    obtain ⟨hgrows, hfindings⟩ := markRun_grows hinsert rfl (orRefused_ok.mp hmarked)
    exact .older newest hwindow hlater hgrows hfindings
  · simp only [if_neg holder, if_true] at h
    obtain ⟨mid, hmid, h⟩ := bind_ok.mp h
    obtain ⟨marked, hmarked, h⟩ := bind_ok.mp h
    cases h
    obtain ⟨rows, hrows, hsame, hfinding⟩ := publishRows_finding hmid
    obtain ⟨hgrows, hfindings⟩ := markRun_grows hinsert hsame (orRefused_ok.mp hmarked)
    refine .published rows ?_ hgrows hrows ?_
    · intro t ht
      have hnot : ¬ call.input.windowEnd < t :=
        fun hlt => holder (olderThan_latest.mpr ⟨t, ht, hlt⟩)
      omega
    · intro key f hf
      obtain ⟨g, hadvances, hg⟩ := hfinding key f hf
      refine ⟨g, hadvances, ?_⟩
      rw [Db.finding, hfindings]
      exact hg

/-- The transaction commits, having written a run. -/
def Writes (rt : Runtime) (db : Db) (call : Call) (publication : Publication) : Prop :=
  call.commits = true ∧
    db.runs.find EvaluationRun.key (call.input.scope, runKeyFor rt call.input) = none ∧
    ∃ after id, publishNativeAssessment rt db call = .ok (after, id, publication)

theorem step_wrote {db : Db} (h : Writes rt db call publication) :
    Wrote rt db call (step rt db call) publication := by
  obtain ⟨hcommits, hfresh, after, id, hpublish⟩ := h
  rw [step, hpublish]
  simp only [hcommits, if_true]
  simp only [publishNativeAssessment, hfresh] at hpublish
  split at hpublish
  · cases hpublish
  · cases hpersist : persistAndPublish rt db call with
    | error e =>
      rw [hpersist] at hpublish
      cases hpublish
    | ok r =>
      rw [hpersist] at hpublish
      cases hpublish
      exact persistAndPublish_wrote hpersist

/-- A transaction writes a run, or it changes nothing. -/
theorem step_cases (rt : Runtime) (db : Db) (call : Call) :
    (∃ publication, Writes rt db call publication) ∨ step rt db call = db := by
  cases hpublish : publishNativeAssessment rt db call with
  | error e =>
    right
    rw [step, hpublish]
  | ok r =>
    obtain ⟨after, id, publication⟩ := r
    by_cases hcommits : call.commits = true
    · cases hfind : db.runs.find EvaluationRun.key (call.input.scope, runKeyFor rt call.input) with
      | none => exact .inl ⟨publication, hcommits, hfind, after, id, hpublish⟩
      | some existing =>
        right
        rw [step, hpublish]
        simp only [hcommits, if_true]
        simp only [publishNativeAssessment, hfind] at hpublish
        split at hpublish
        · cases hpublish
        · cases hprior : priorPublication existing.evaluationFindings with
          | error e =>
            rw [hprior] at hpublish
            cases hpublish
          | ok p =>
            rw [hprior] at hpublish
            cases hpublish
            rfl
    · right
      rw [step, hpublish]
      simp [hcommits]

theorem Advances.reopened (h : Advances call.input rows key f g) (closed : f.state ≠ .opened)
    (opened : (settled call rows g).state = .opened) :
    f.observedAt < (settled call rows g).observedAt := by
  obtain ⟨_, hsettled⟩ := settled_cases call rows g
  rcases hsettled with hkept | ⟨_, hexpired | ⟨hresolved, _⟩⟩
  · rw [hkept] at opened ⊢
    rcases h.state with hstate | ⟨_, hlater⟩
    · exact absurd (hstate.symm.trans opened) closed
    · exact hlater
  · rw [hexpired] at opened
    cases opened
  · rw [hresolved] at opened
    cases opened

theorem Advances.resolved (h : Advances call.input rows key f g) (opened : f.state = .opened)
    (resolved : (settled call rows g).state = .resolved) :
    mayResolveNativeAbsence call.assessment = true ∧ f.key.1 = call.input.scope ∧
      ∀ row ∈ rows, (call.input.scope, row.pair.dedupeKey) ≠ f.key := by
  obtain ⟨_, hsettled⟩ := settled_cases call rows g
  rcases hsettled with hkept | ⟨_, hexpired | ⟨_, hmay, hscope, hrows⟩⟩
  · rw [hkept] at resolved
    rcases h.state with hstate | ⟨hopened, _⟩
    · rw [hstate, opened] at resolved
      cases resolved
    · rw [hopened] at resolved
      cases resolved
  · rw [hexpired] at resolved
    cases resolved
  · rw [← h.same]
    refine ⟨hmay, hscope, fun row hrow hkey => hrows row hrow ?_⟩
    exact congrArg Prod.snd hkey

/-! ## What an assessment shows -/

theorem observation_window {signal : FindingSignal} (h : observation rt input signal = .ok t) :
    input.windowStart ≤ t ∧ t ≤ input.windowEnd := by
  simp only [observation] at h
  split at h
  · split at h
    · split at h
      · cases h
      · rename_i hwindow
        cases h
        omega
    · cases h
  · cases h

variable {finding : Finding}

/-- Evidence that counts is inside the window. -/
theorem observedAtOf_window (h : observedAtOf rt input finding = .ok t) :
    input.windowStart ≤ t ∧ t ≤ input.windowEnd := by
  obtain ⟨times, htimes, h⟩ := bind_ok.mp h
  split at h
  · rename_i newest hnewest
    cases h
    have hmem := (List.max?_eq_some_iff.mp hnewest).1
    obtain ⟨signal, _, hsignal⟩ := mem_source (except_iff.mp htimes) hmem
    exact observation_window hsignal
  · cases h

/-- The evidence of a finding no longer counts when its run is completed. -/
def Lapsed (rt : Runtime) (input : PersistRunInput) (finding : Finding) : Prop :=
  ∃ t, observedAtOf rt input finding = .ok t ∧
    min input.expiresAt (t + runRetentionMs) ≤ input.completedAt

/-- The assessment has evidence of the finding of a key at this time. -/
def Shows (rt : Runtime) (call : Call) (key : Key) (t : Int) : Prop :=
  ∃ finding ∈ call.assessment.findings.items,
    (call.input.scope, dedupeKeyOf rt call.input.scope finding) = key ∧
      observedAtOf rt call.input finding = .ok t

theorem publicationRow_ok {row : PublicationRow}
    (h : publicationRow rt input runId finding = .ok row) :
    row.pair.dedupeKey = dedupeKeyOf rt input.scope finding ∧
      observedAtOf rt input finding = .ok row.observedAt ∧
        row.expiresAt = min input.expiresAt (row.observedAt + runRetentionMs) := by
  simp only [publicationRow] at h
  split at h
  · cases hobserved : observedAtOf rt input finding with
    | error e =>
      rw [hobserved] at h
      cases h
    | ok t =>
      rw [hobserved] at h
      cases h
      exact ⟨rfl, rfl, rfl⟩
  · cases h

theorem nativePublicationRows_ok
    (h : nativePublicationRows rt call.assessment call.input call.draws.runId = .ok rows) :
    (∀ row ∈ rows, Shows rt call (call.input.scope, row.pair.dedupeKey) row.observedAt) ∧
      ∀ finding ∈ call.assessment.findings.items,
        (∃ row ∈ rows, row.pair.dedupeKey = dedupeKeyOf rt call.input.scope finding) ∨
          Lapsed rt call.input finding := by
  simp only [nativePublicationRows] at h
  cases hall : call.assessment.findings.items.mapM
      (publicationRow rt call.input call.draws.runId) with
  | error e =>
    rw [hall] at h
    cases h
  | ok all =>
    rw [hall] at h
    cases h
    have heach := except_iff.mp hall
    constructor
    · intro row hrow
      obtain ⟨finding, hfinding, hok⟩ := mem_source heach (mem_of_mem_filter hrow)
      obtain ⟨hkey, hobserved, _⟩ := publicationRow_ok hok
      exact ⟨finding, hfinding, by rw [hkey], hobserved⟩
    · intro finding hfinding
      obtain ⟨row, hrow, hok⟩ := mem_target heach hfinding
      obtain ⟨hkey, hobserved, hexpires⟩ := publicationRow_ok hok
      by_cases hcounts : call.input.completedAt < row.expiresAt
      · exact .inl ⟨row, mem_filter.mpr ⟨hrow, decide_eq_true hcounts⟩, hkey⟩
      · exact .inr ⟨row.observedAt, hobserved, by omega⟩

/-! ## The laws of one transaction -/

/-- What a transaction may do to the findings. -/
structure StepLaws (rt : Runtime) (db : Db) (call : Call) (after : Db) : Prop where
  kept : ∀ key f, db.finding key = some f →
    ∃ f', after.finding key = some f' ∧ f.observedAt ≤ f'.observedAt
  shown : ∀ key f f', db.finding key = some f → after.finding key = some f' →
    f'.observedAt ≠ f.observedAt → Shows rt call key f'.observedAt
  reopened : ∀ key f f', db.finding key = some f → after.finding key = some f' →
    f.state ≠ .opened → f'.state = .opened → f.observedAt < f'.observedAt
  resolved : ∀ key f f', db.finding key = some f → after.finding key = some f' →
    f.state = .opened → f'.state = .resolved →
      Writes rt db call .published ∧ FindingSet.complete call.assessment.findings = true ∧
        call.assessment.claim.isPermitted = true ∧
        (∀ finding ∈ call.assessment.findings.items,
          (call.input.scope, dedupeKeyOf rt call.input.scope finding) = key →
            Lapsed rt call.input finding) ∧
        key.1 = call.input.scope ∧
        ∀ t, WindowEnds db call.input.scope t → t ≤ call.input.windowEnd
  replayed : (db.runs.find EvaluationRun.key
    (call.input.scope, runKeyFor rt call.input)).isSome = true → after = db
  older : (∃ newest, WindowEnds db call.input.scope newest ∧ call.input.windowEnd < newest) →
    after.findings = db.findings

theorem StepLaws.unchanged (rt : Runtime) (db : Db) (call : Call) : StepLaws rt db call db where
  kept := fun key f hf => ⟨f, hf, Int.le_refl _⟩
  shown := by
    intro key f f' hf hf' hne
    rw [hf] at hf'
    cases hf'
    exact absurd rfl hne
  reopened := by
    intro key f f' hf hf' hclosed hopened
    rw [hf] at hf'
    cases hf'
    exact absurd hopened hclosed
  resolved := by
    intro key f f' hf hf' hopened hresolved
    rw [hf] at hf'
    cases hf'
    rw [hopened] at hresolved
    cases hresolved
  replayed := fun _ => rfl
  older := fun _ => rfl

/-- A table of findings that stays as it is keeps all the laws. -/
theorem StepLaws.sameFindings {db : Db} (same : after.findings = db.findings)
    (fresh : db.runs.find EvaluationRun.key (call.input.scope, runKeyFor rt call.input) = none) :
    StepLaws rt db call after := by
  have hfinding : after.finding = db.finding := by
    funext key
    rw [Db.finding, same]
    rfl
  have hlaws := StepLaws.unchanged rt db call
  refine ⟨?_, ?_, ?_, ?_, ?_, fun _ => same⟩
  · rw [hfinding]
    exact hlaws.kept
  · rw [hfinding]
    exact hlaws.shown
  · rw [hfinding]
    exact hlaws.reopened
  · rw [hfinding]
    exact hlaws.resolved
  · rw [fresh]
    intro h
    cases h

theorem step_laws (rt : Runtime) (db : Db) (call : Call) :
    StepLaws rt db call (step rt db call) := by
  rcases step_cases rt db call with ⟨publication, hwrites⟩ | hsame
  · have hwrote := step_wrote hwrites
    have hfresh := hwrites.2.1
    cases hwrote with
    | older newest window later grows findings => exact .sameFindings findings hfresh
    | published rows newest grows given findings =>
      obtain ⟨hshows, hcontained⟩ := nativePublicationRows_ok given
      refine ⟨?_, ?_, ?_, ?_, ?_, ?_⟩
      · intro key f hf
        obtain ⟨g, hadvances, hafter⟩ := findings key f hf
        have hobserved := hadvances.observed
        have hsettled := (settled_cases call rows g).1
        exact ⟨_, hafter, by omega⟩
      · intro key f f' hf hf' hne
        obtain ⟨g, hadvances, hafter⟩ := findings key f hf
        obtain rfl := Option.some.inj (hafter.symm.trans hf')
        have hsettled := (settled_cases call rows g).1
        rw [hsettled] at hne ⊢
        obtain ⟨row, hrow, rfl, htime⟩ := hadvances.shown hne
        rw [← htime]
        exact hshows row hrow
      · intro key f f' hf hf' hclosed hopened
        obtain ⟨g, hadvances, hafter⟩ := findings key f hf
        obtain rfl := Option.some.inj (hafter.symm.trans hf')
        exact hadvances.reopened hclosed hopened
      · intro key f f' hf hf' hopened hresolved
        obtain ⟨g, hadvances, hafter⟩ := findings key f hf
        obtain rfl := Option.some.inj (hafter.symm.trans hf')
        obtain ⟨hmay, hscope, hrows⟩ := hadvances.resolved hopened hresolved
        rw [Sql.Table.find_key hf] at hscope hrows
        obtain ⟨hcomplete, hpermitted⟩ := Bool.and_eq_true_iff.mp hmay
        refine ⟨hwrites, hcomplete, hpermitted, ?_, hscope, newest⟩
        intro finding hfinding hkey
        rcases hcontained finding hfinding with ⟨row, hrow, hrowkey⟩ | hlapsed
        · exact absurd (by rw [hrowkey, hkey]) (hrows row hrow)
        · exact hlapsed
      · rw [hfresh]
        intro h
        cases h
      · rintro ⟨later, hlater, hlt⟩
        have hle := newest later hlater
        omega
  · rw [hsame]
    exact .unchanged rt db call

/-! ## Any sequence of transactions -/

/-- The database after the transactions, one after another. -/
def publications (rt : Runtime) (db : Db) (calls : List Call) : Db := calls.foldl (step rt) db

theorem windowEnds_step {db : Db} (h : WindowEnds db scope t) (call : Call) :
    WindowEnds (step rt db call) scope t := by
  rcases step_cases rt db call with ⟨publication, hwrites⟩ | hsame
  · cases step_wrote hwrites with
    | older newest window later grows findings => exact grows.kept scope t h
    | published rows newest grows given findings => exact grows.kept scope t h
  · rw [hsame]
    exact h

theorem windowEnds_publications (calls : List Call) {db : Db} (h : WindowEnds db scope t) :
    WindowEnds (publications rt db calls) scope t := by
  induction calls generalizing db with
  | nil => exact h
  | cons call rest ih => exact ih (windowEnds_step h call)

theorem windowEnds_own {db : Db} (h : Writes rt db call publication) :
    WindowEnds (step rt db call) call.input.scope call.input.windowEnd := by
  cases step_wrote h with
  | older newest window later grows findings => exact grows.own
  | published rows newest grows given findings => exact grows.own

/-- The finding of a key, as any number of transactions leave it. -/
theorem finding_publications (calls : List Call) {db : Db} (h : db.finding key = some f) :
    ∃ f', (publications rt db calls).finding key = some f' ∧ f.observedAt ≤ f'.observedAt ∧
      (f.state ≠ .opened → f'.state = .opened → f.observedAt < f'.observedAt) := by
  induction calls generalizing db f with
  | nil => exact ⟨f, h, Int.le_refl _, fun hclosed hopened => absurd hopened hclosed⟩
  | cons call rest ih =>
    have hlaws := step_laws rt db call
    obtain ⟨g, hg, hobserved⟩ := hlaws.kept key f h
    obtain ⟨f', hf', hobserved', hreopened⟩ := ih hg
    refine ⟨f', hf', by omega, fun hclosed hopened => ?_⟩
    by_cases hbetween : g.state = .opened
    · have hlater := hlaws.reopened key f g h hg hclosed hbetween
      omega
    · have hlater := hreopened hbetween hopened
      omega

/-- What holds along every sequence of transactions. -/
structure Laws (rt : Runtime) (db : Db) (calls : List Call) : Prop where
  each : ∀ first call rest, calls = first ++ call :: rest →
    StepLaws rt (publications rt db first) call (publications rt db (first ++ [call]))
  newest : ∀ first earlier middle call rest publication,
    calls = first ++ earlier :: middle ++ call :: rest →
    Writes rt (publications rt db first) earlier publication →
    Writes rt (publications rt db (first ++ earlier :: middle)) call .published →
    earlier.input.scope = call.input.scope → earlier.input.windowEnd ≤ call.input.windowEnd
  moved : ∀ first middle rest key f, calls = first ++ middle ++ rest →
    (publications rt db first).finding key = some f →
    ∃ f', (publications rt db (first ++ middle)).finding key = some f' ∧
      f.observedAt ≤ f'.observedAt ∧
      (f.state ≠ .opened → f'.state = .opened → f.observedAt < f'.observedAt)
  standing : ∀ call ∈ calls, call.input.completedAt < call.input.expiresAt →
    call.input.completedAt < call.input.windowStart + runRetentionMs →
    ∀ finding, ¬ Lapsed rt call.input finding

theorem publication_laws (rt : Runtime) (db : Db) (calls : List Call) : Laws rt db calls where
  each := by
    intro first call rest _
    have hlast : publications rt db (first ++ [call]) = step rt (publications rt db first) call := by
      rw [publications, foldl_append]
      rfl
    rw [hlast]
    exact step_laws rt _ call
  newest := by
    intro first earlier middle call rest publication _ hearlier hcall hscope
    have hbefore : publications rt db (first ++ earlier :: middle) =
        publications rt (step rt (publications rt db first) earlier) middle := by
      rw [publications, foldl_append]
      rfl
    rw [hbefore] at hcall
    have hown := @windowEnds_publications rt _ _ middle _ (windowEnds_own hearlier)
    rw [hscope] at hown
    cases step_wrote hcall with
    | published rows newest grows given findings => exact newest _ hown
  moved := by
    intro first middle rest key f _ hf
    have hsplit : publications rt db (first ++ middle) =
        publications rt (publications rt db first) middle := foldl_append
    rw [hsplit]
    exact finding_publications middle hf

  standing := by
    rintro call _ hexpires hretention finding ⟨t, hobserved, hlapsed⟩
    have hwindow := observedAtOf_window hobserved
    omega

/-! A window that is longer than the retention has evidence that no longer counts. -/

def sampleRuntime : Runtime := ⟨List.reverse, IsoTime.utcTime⟩

def sampleDb : Db := ⟨.empty, .empty, .empty⟩

def sampleScope : Scope := ⟨js "organization", js "tenant"⟩

def sampleFinding (time : JsString) : Finding where
  detectorId := js "repeated-credential-failure"
  subject := .directoryUser (js "user") (.unavailable (js "none"))
  firstSignal := ⟨⟨js "lockout", .ofNat 1, some ⟨time, .eventOccurred⟩, none⟩, false⟩
  restSignals := []

/-- A complete assessment of the days from the start of 2026, with one finding. -/
def sampleCall (run : JsString) (days : Nat) (time : JsString) : Call where
  scopeRows := ⟨false, true, true, true⟩
  assessment := ⟨[], ⟨[sampleFinding time], []⟩, .exact 1 ⟨[], [], [], []⟩, .permitted⟩
  input := ⟨sampleScope, 1767225600000, 1767225600000 + days * 86400000, 1,
    1767225600000 + days * 86400000 + runRetentionMs, 1767225600000 + days * 86400000, []⟩
  draws := ⟨run, fun i => run ++ JsString.decimal i, fun i => run ++ js "f" ++ JsString.decimal i⟩
  commits := true

def sampleKey : Key := (sampleScope, dedupeKeyOf sampleRuntime sampleScope (sampleFinding []))

def stateAfter (calls : List Call) : Option FindingState :=
  ((publications sampleRuntime sampleDb calls).finding sampleKey).map Standing.state

theorem contained_finding_resolved :
    stateAfter [sampleCall (js "a") 10 (js "2026-01-11T00:00:00.000Z")] = some .opened ∧
    stateAfter [sampleCall (js "a") 10 (js "2026-01-11T00:00:00.000Z"),
      sampleCall (js "b") 95 (js "2026-01-02T00:00:00.000Z")] = some .resolved := by
  decide +kernel

end NativePublication
