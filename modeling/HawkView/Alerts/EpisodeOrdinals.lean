import HawkView.Alerts.ReconciliationSound
import Mathlib.Data.List.Dedup

/-!
# Ordinals name bursts

The pass over the incidents numbers the rows of a bucket by the episode that
holds their time. The counts of a bucket and the ordinals of its rows come from
the same spans, so every check of the report on itself is silent.
-/

namespace EpisodeOrdinals

open AlertEpisode Reconciliation ReconciliationSound List Option

/-! ## What the report says of one incident -/

/-- The mapping puts the row into the incident. -/
def Joins (report : ReconciliationReport) (key : JsString) (row : ExistingAlertRow) : Prop :=
  ∃ entry ∈ report.mapping, entry.notificationId = row.id ∧ entry.incidentKey = some key

/-- The times of two events are no further apart than the quiet interval. -/
def WithinQuiet (r s : ExistingAlertRow) : Prop :=
  ∃ t u, r.occurredAt = some t ∧ s.occurredAt = some u ∧ (t - u).natAbs ≤ quietMs

/-- A chain of rows of the incident, each within the quiet interval of the next. -/
def Chained (rows : List ExistingAlertRow) (key : JsString) :
    ExistingAlertRow → ExistingAlertRow → Prop :=
  Relation.ReflTransGen fun r s =>
    (r ∈ rows ∧ Joins (reconcile rows) key r) ∧ (s ∈ rows ∧ Joins (reconcile rows) key s) ∧
      WithinQuiet r s

def Ordinal (report : ReconciliationReport) (row : ExistingAlertRow) (n : Nat) : Prop :=
  report.episodeByRow.get? row.id = some (some n)

structure Numbered (rows : List ExistingAlertRow) (key : JsString) : Prop where
  bursts : (∀ x ∈ rows, Joins (reconcile rows) key x → x.occurredAt.isSome) →
    ∀ r ∈ rows, ∀ s ∈ rows, Joins (reconcile rows) key r → Joins (reconcile rows) key s →
      ∃ m n, Ordinal (reconcile rows) r m ∧ Ordinal (reconcile rows) s n ∧
        (m = n ↔ Chained rows key r s)
  ordered : ∀ r ∈ rows, ∀ s ∈ rows,
    Joins (reconcile rows) key r → Joins (reconcile rows) key s →
      ∀ m n t u, Ordinal (reconcile rows) r m → Ordinal (reconcile rows) s n →
        r.occurredAt = some t → s.occurredAt = some u → t ≤ u → m ≤ n
  timeless : ∀ x ∈ rows, Joins (reconcile rows) key x → x.occurredAt = none →
    ∀ r ∈ rows, Joins (reconcile rows) key r →
      (r = x ∧ r.occurrenceCount = 1 ∧ Ordinal (reconcile rows) r 1) ∨
        (reconcile rows).episodeByRow.get? r.id = some none

/-! ## One bucket -/

/-- The ordinal that a bucket gives to an entry. -/
def ordinalOf (bucket : Bucket) (entry : BucketEntry) : Option Nat :=
  if bucket.events = 1 then some 1
  else if bucket.missing > 0 then none
  else ordinalIn (episodesOf bucket.times quietMs) entry.at

structure Sound (bucket : Bucket) : Prop where
  distinct : (bucket.entries.map BucketEntry.id).Nodup
  times : bucket.times = bucket.entries.filterMap BucketEntry.at
  missing : bucket.missing = 0 ↔ ∀ entry ∈ bucket.entries, entry.at.isSome
  single : bucket.standingAlone = true → ∃ entry, bucket.entries = [entry]

variable {times : List Int} {spans : List EpisodeSpan} {q : Nat}

section

variable (splits : (quiet q).Splits times (spans.map EpisodeSpan.asSpan))
include splits

theorem ordinalIn_of_holds
    {t : Int} (mem : t ∈ times) {i : Nat} {s : EpisodeSpan} (hs : spans[i]? = some s)
    (held : s.asSpan.Holds t) :
    ordinalIn spans (some t) = some (i + 1) := by
  have hmap : (spans.map EpisodeSpan.asSpan)[i]? = some s.asSpan := by simp [hs]
  obtain ⟨hlt, hget⟩ := List.getElem?_eq_some_iff.mp hs
  have hfind : (spans.findIdx? fun span =>
      decide (span.firstEventAt ≤ t) && decide (t ≤ span.lastEventAt)) = some i := by
    rw [List.findIdx?_eq_some_iff_getElem]
    refine ⟨hlt, ?_, ?_⟩
    · rw [hget]
      simpa using held
    · intro j hj hheld
      have hjget : spans[j]? = some spans[j] := by simp
      have hjmap : (spans.map EpisodeSpan.asSpan)[j]? = some spans[j].asSpan := by
        rw [getElem?_map, hjget, map_some]
      have hij := splits.index_unique hjmap hmap mem (by simpa using hheld) held
      omega
  simp [ordinalIn, hfind]

theorem ordinalIn_mem {t : Int}
    (mem : t ∈ times) :
    ∃ i s, spans[i]? = some s ∧ s.asSpan.Holds t ∧ ordinalIn spans (some t) = some (i + 1) := by
  obtain ⟨_, hs, held⟩ := splits.inside t mem
  obtain ⟨s, hmem, rfl⟩ := List.mem_map.mp hs
  obtain ⟨i, hi⟩ := List.mem_iff_getElem?.mp hmem
  exact ⟨i, s, hi, held, ordinalIn_of_holds splits mem hi held⟩

/-- The ordinals of a list of instants are those of all its spans. -/
theorem length_ordinals :
    (times.filterMap fun t => ordinalIn spans (some t)).dedup.length = spans.length := by
  have hperm : (times.filterMap fun t => ordinalIn spans (some t)).dedup.Perm
      (List.range' 1 spans.length) := by
    rw [perm_ext_iff_of_nodup (nodup_dedup _) nodup_range']
    intro n
    rw [mem_dedup, mem_filterMap, mem_range'_1]
    constructor
    · rintro ⟨t, ht, hn⟩
      obtain ⟨i, s, hi, _, hord⟩ := ordinalIn_mem splits ht
      rw [hord, Option.some.injEq] at hn
      have := (List.getElem?_eq_some_iff.mp hi).1
      omega
    · rintro ⟨hone, hlt⟩
      obtain ⟨i, rfl⟩ : ∃ i, n = i + 1 := ⟨n - 1, by omega⟩
      have hlt' : i < spans.length := by omega
      have hi : spans[i]? = some spans[i] := by simp
      obtain ⟨hstart, hordered⟩ := splits.started spans[i].asSpan
        (mem_map_of_mem (getElem_mem _))
      exact ⟨_, hstart, ordinalIn_of_holds splits hstart hi ⟨le_rfl, hordered⟩⟩
  rw [hperm.length_eq, length_range']

end

variable {ordinal : BucketEntry → Option Nat}

theorem get?_number {entries : List BucketEntry} (distinct : (entries.map BucketEntry.id).Nodup)
    {entry : BucketEntry} (mem : entry ∈ entries) (m : JsMap JsString (Option Nat)) :
    (number ordinal entries m).get? entry.id = some (ordinal entry) := by
  induction entries generalizing m with
  | nil => cases mem
  | cons first rest ih =>
    rw [map_cons, nodup_cons] at distinct
    rcases mem_cons.mp mem with rfl | hrest
    · have hfresh : entry.id ∉ ((rest.map fun e => (e.id, ordinal e)).map Prod.fst) := by
        rw [List.map_map]
        exact distinct.1
      have hkeep := JsMap.get?_foldl_set hfresh (m.set entry.id (ordinal entry))
      rw [foldl_map] at hkeep
      exact hkeep.trans (by rw [JsMap.get?_set, if_pos rfl])
    · exact ih distinct.2 hrest _

variable {bucket : Bucket}

/-- The ordinals of a bucket whose rows all carry their time are as many as its episodes. -/
theorem distinct_eq_gained (sound : Sound bucket) (m : JsMap JsString (Option Nat))
    (timed : bucket.missing = 0) :
    let spans := episodesOf bucket.times quietMs
    let episodeByRow := number (fun entry => ordinalIn spans entry.at) bucket.entries m
    (bucket.entries.filterMap fun entry =>
      (episodeByRow.get? entry.id).join).dedup.length = spans.length := by
  intro spans episodeByRow
  have hget : (bucket.entries.filterMap fun entry => (episodeByRow.get? entry.id).join) =
      bucket.times.filterMap fun t => ordinalIn spans (some t) := by
    rw [sound.times, filterMap_filterMap]
    apply filterMap_congr
    intro entry hentry
    rw [get?_number sound.distinct hentry, join_some]
    obtain ⟨t, ht⟩ := isSome_iff_exists.mp (sound.missing.mp timed entry hentry)
    rw [ht, bind_some]
  rw [hget]
  exact length_ordinals (episodesOf_splits bucket.times quietMs)

/-! ## All the buckets -/

structure Tallied (buckets : List Bucket) (tally : Tally) : Prop where
  counted : tally.episodesAttributed + tally.episodesStandingAlone = tally.episodesCounted
  audit : tally.episodesAttributedAudit + tally.episodesStandingAloneAudit =
    tally.episodesCountedAudit
  unrecoverable : tally.unrecoverableAttributed + tally.unrecoverableStandingAlone =
    tally.unrecoverable
  standing : tally.episodesStandingAlone + tally.unrecoverableStandingAlone =
    (buckets.map fun b => if b.standingAlone then 1 else 0).sum
  agree : tally.ordinalDisagreements = []
  ordinals : tally.episodeByRow = .ofList (buckets.flatMap fun bucket =>
    bucket.entries.map fun entry => (entry.id, ordinalOf bucket entry))

/-- A bucket that stands alone and keeps its time has one episode. -/
theorem gained_standing (sound : Sound bucket) (timed : bucket.missing = 0)
    (alone : bucket.standingAlone = true) : (episodesOf bucket.times quietMs).length = 1 := by
  obtain ⟨entry, hentry⟩ := sound.single alone
  obtain ⟨t, ht⟩ := isSome_iff_exists.mp
    (sound.missing.mp timed entry (by rw [hentry]; exact mem_singleton_self _))
  rw [sound.times, hentry, filterMap_cons, ht]
  rfl

variable {buckets : List Bucket} {tally : Tally}

theorem episodeByRow_append (h : Tallied buckets tally)
    (same : ∀ entry, ordinalOf bucket entry = ordinal entry) :
    number ordinal bucket.entries tally.episodeByRow =
      .ofList ((buckets ++ [bucket]).flatMap fun bucket =>
        bucket.entries.map fun entry => (entry.id, ordinalOf bucket entry)) := by
  obtain rfl : ordinalOf bucket = ordinal := funext same
  rw [flatMap_append, JsMap.ofList, foldl_append, ← JsMap.ofList, ← h.ordinals,
    flatMap_singleton, foldl_map, number]

theorem gain_tallied (h : Tallied buckets tally) {gained : Nat}
    (standing : bucket.standingAlone = true → gained = 1)
    {episodeByRow : JsMap JsString (Option Nat)}
    (ordinals : episodeByRow = .ofList ((buckets ++ [bucket]).flatMap fun bucket =>
      bucket.entries.map fun entry => (entry.id, ordinalOf bucket entry))) :
    Tallied (buckets ++ [bucket])
      ({ tally with episodeByRow := episodeByRow }.gain bucket gained) := by
  obtain ⟨hcounted, haudit, hunrecoverable, hstanding, hagree, _⟩ := h
  cases halone : bucket.standingAlone with
  | true =>
    have hgained := standing halone
    constructor <;> simp only [Tally.gain, halone, if_true, map_append, map_cons,
      map_nil, sum_append, sum_cons, sum_nil] <;> omega
  | false =>
    constructor <;> simp only [Tally.gain, halone, Bool.false_eq_true, if_false,
      map_append, map_cons, map_nil, sum_append, sum_cons,
      sum_nil] <;> omega

theorem read_tallied (h : Tallied buckets tally) (sound : Sound bucket) :
    Tallied (buckets ++ [bucket]) (tally.read quietMs bucket) := by
  unfold Tally.read
  by_cases hone : bucket.events = 1
  · rw [if_pos hone]
    refine gain_tallied h (fun _ => rfl) (episodeByRow_append h ?_)
    intro entry
    rw [ordinalOf, if_pos hone]
  · rw [if_neg hone]
    by_cases hmissing : bucket.missing > 0
    · rw [if_pos hmissing]
      have hnone : ∀ entry, ordinalOf bucket entry = (fun _ => none) entry := by
        intro entry
        rw [ordinalOf, if_neg hone, if_pos hmissing]
      have hordinals := episodeByRow_append h hnone
      obtain ⟨hcounted, haudit, hunrecoverable, hstanding, hagree, _⟩ := h
      constructor
      · exact hcounted
      · exact haudit
      · simp only
        split <;> omega
      · simp only [map_append, map_cons, map_nil, sum_append, sum_cons,
          sum_nil]
        split <;> omega
      · exact hagree
      · exact hordinals
    · rw [if_neg hmissing]
      have htimed : bucket.missing = 0 := by omega
      have hdistinct := distinct_eq_gained sound tally.episodeByRow htimed
      simp only at hdistinct
      simp only [hdistinct, ne_eq, not_true_eq_false, if_false]
      refine gain_tallied h (gained_standing sound htimed) (episodeByRow_append h ?_)
      intro entry
      rw [ordinalOf, if_neg hone, if_neg hmissing]

theorem tallied (sound : ∀ bucket ∈ buckets, Sound bucket) :
    Tallied buckets (buckets.foldl (Tally.read quietMs) .start) := by
  revert sound
  refine Runs.foldl_carries (P := fun buckets tally =>
    (∀ bucket ∈ buckets, Sound bucket) → Tallied buckets tally) ?_ ?_ buckets
  · intro _
    exact ⟨rfl, rfl, rfl, rfl, rfl, rfl⟩
  · intro buckets bucket tally h sound
    exact read_tallied (h fun b hb => sound b (mem_append_left _ hb)) (sound bucket (by simp))

variable {rows : List ExistingAlertRow} {row : ExistingAlertRow}

theorem bucket_of_mem (hrow : row ∈ rows) :
    ∃ bucket, bucketOf (rows.filter fun other => rowKey other = rowKey row) = some bucket ∧
      ⟨row.id, row.occurredAt⟩ ∈ bucket.entries := by
  have hmem : row ∈ rows.filter fun other => rowKey other = rowKey row := by simp [hrow]
  cases hbucket : bucketOf (rows.filter fun other => rowKey other = rowKey row) with
  | none =>
    cases hfilter : rows.filter fun other => rowKey other = rowKey row with
    | nil => rw [hfilter] at hmem; cases hmem
    | cons first rest => rw [hfilter] at hbucket; cases hbucket
  | some bucket =>
    obtain ⟨_, _, _, filled⟩ := bucketOf_fills hbucket
    refine ⟨bucket, rfl, ?_⟩
    rw [filled.entries]
    exact mem_map_of_mem (f := fun r : ExistingAlertRow => (⟨r.id, r.occurredAt⟩ : BucketEntry))
      hmem

section Report

variable {rows : List ExistingAlertRow} (distinct : (rows.map ExistingAlertRow.id).Nodup)
include distinct

variable {key : JsString} {bucket : Bucket}

theorem bucket_sound (h : bucketOf (rows.filter fun row => rowKey row = key) = some bucket) :
    Sound bucket := by
  obtain ⟨first, rest, hrows, filled⟩ := bucketOf_fills h
  have hids : ((rows.filter fun row => rowKey row = key).map ExistingAlertRow.id).Nodup :=
    distinct.sublist (filter_sublist.map _)
  constructor
  · rw [filled.entries, List.map_map]
    exact hids
  · rw [filled.entries, filled.times, filterMap_map]
    rfl
  · rw [filled.missing, filled.entries, List.forall_mem_map]
  · intro hstanding
    rw [filled.standingAlone] at hstanding
    have hall : ∀ row ∈ first :: rest, rowKey row = key := by
      rw [← hrows]
      intro row hrow
      simpa using (mem_filter.mp hrow).2
    have hrest : rest = [] := by
      rw [eq_nil_iff_forall_not_mem]
      intro other hother
      have hkey : rowKey other = rowKey first :=
        (hall other (by simp [hother])).trans (hall first (by simp)).symm
      rw [hrows, map_cons, nodup_cons] at hids
      exact hids.1 (rowKey_alone hstanding hkey ▸ mem_map_of_mem hother)
    rw [filled.entries, hrows, hrest]
    exact ⟨_, rfl⟩

theorem bucket_mem (h : bucket ∈ (rows.foldl Bound.read .start).rowsByIncident.values) :
    ∃ key, bucketOf (rows.filter fun row => rowKey row = key) = some bucket := by
  obtain ⟨⟨key, b⟩, hmem, rfl⟩ := List.mem_map.mp h
  refine ⟨key, ?_⟩
  rw [← (bucketed distinct).bucket]
  exact JsMap.get?_eq_some.mpr hmem

theorem report_tallied :
    Tallied (rows.foldl Bound.read .start).rowsByIncident.values
      ((rows.foldl Bound.read .start).rowsByIncident.values.foldl (Tally.read quietMs) .start) := by
  apply tallied
  intro bucket hbucket
  obtain ⟨key, hkey⟩ := bucket_mem distinct hbucket
  exact bucket_sound distinct hkey

variable {row : ExistingAlertRow}

/-- A row has the ordinal that the bucket of its key gives it. -/
theorem episodeByRow_eq (hrow : row ∈ rows)
    (hbucket : bucketOf (rows.filter fun other => rowKey other = rowKey row) = some bucket) :
    (reconcile rows).episodeByRow.get? row.id =
      some (ordinalOf bucket ⟨row.id, row.occurredAt⟩) := by
  change (_ : Tally).episodeByRow.get? row.id = _
  rw [(report_tallied distinct).ordinals]
  apply JsMap.get?_ofList_only
  · obtain ⟨b, hb, hentry⟩ := bucket_of_mem hrow
    obtain rfl : b = bucket := Option.some.inj (hb.symm.trans hbucket)
    rw [← (bucketed distinct).bucket, JsMap.get?_eq_some] at hb
    refine mem_flatMap.mpr ⟨b, List.mem_map.mpr ⟨_, hb, rfl⟩, ?_⟩
    exact List.mem_map.mpr ⟨_, hentry, rfl⟩
  · intro w hw
    obtain ⟨b, hb, hentry⟩ := mem_flatMap.mp hw
    obtain ⟨entry, hentry, hpair⟩ := List.mem_map.mp hentry
    obtain ⟨key, hkey⟩ := bucket_mem distinct hb
    obtain ⟨_, _, _, filled⟩ := bucketOf_fills hkey
    rw [filled.entries, List.mem_map] at hentry
    obtain ⟨other, hother, rfl⟩ := hentry
    rw [mem_filter, decide_eq_true_eq] at hother
    obtain ⟨hid, rfl⟩ := Prod.mk.inj hpair
    obtain rfl : other = row := inj_on_of_nodup_map distinct hother.1 hrow hid
    obtain rfl : key = rowKey other := hother.2.symm
    obtain rfl : b = bucket := Option.some.inj (hkey.symm.trans hbucket)
    rfl

/-! ## The checks -/

omit distinct in
theorem adds_eq_nil {parts : List (JsString × Nat)} {whole : Nat}
    (h : (parts.map Prod.snd).sum = whole) (wholeLabel : JsString) :
    adds parts whole wholeLabel = [] := if_pos h

omit distinct in
theorem atMost_eq_nil {narrower wider : Nat} (h : narrower ≤ wider)
    (narrowerLabel widerLabel : JsString) :
    atMost narrower wider narrowerLabel widerLabel = [] := if_pos h

omit distinct in
theorem forall₂_mapping (rows : List ExistingAlertRow) :
    Forall₂ MapsTo rows (reconcile rows).mapping := (mappedFrom rows).entries

omit distinct in
theorem map_mapping {β : Type} {f : ExistingAlertRow → β} {g : MappingEntry → β}
    (same : ∀ row entry, MapsTo row entry → g entry = f row) (rows : List ExistingAlertRow) :
    (reconcile rows).mapping.map g = rows.map f := by
  have h := forall₂_mapping rows
  generalize (reconcile rows).mapping = mapping at h
  induction h with
  | nil => rfl
  | cons hhead _ ih => rw [map_cons, map_cons, same _ _ hhead, ih]

theorem duplicates_eq : (duplicates rows).2 = .empty := by
  have hseen := Runs.foldl_carries (P := fun rows (sets : JsSet JsString × JsSet JsString) =>
    (rows.map ExistingAlertRow.id).Nodup → sets.2 = .empty ∧
      ∀ id, id ∈ sets.1.elements → id ∈ rows.map ExistingAlertRow.id)
    (s := (.empty, .empty)) (f := fun sets row => (sets.1.add row.id,
      if sets.1.has row.id then sets.2.add row.id else sets.2)) ?_ ?_ rows
  · exact (hseen distinct).1
  · exact fun _ => ⟨rfl, fun _ h => absurd h not_mem_nil⟩
  · intro rows row sets h hids
    rw [map_append, nodup_append] at hids
    obtain ⟨hempty, hmem⟩ := h hids.1
    have hnew : ¬ sets.1.has row.id = true :=
      fun hold => hids.2.2 _ (hmem _ (JsSet.has_iff.mp hold)) _ (by simp) rfl
    refine ⟨(if_neg hnew).trans hempty, ?_⟩
    intro id hid
    rw [map_append, mem_append]
    rcases JsSet.mem_add.mp hid with rfl | hold
    · exact .inr (by simp)
    · exact .inl (hmem _ hold)

theorem checks_silent :
    (reconcile rows).invariants = ⟨[], [], [], [], [], [], [], []⟩ := by
  have hcounted := counted rows
  have hmapped := mappedFrom rows
  have hbound := bucketed distinct
  have htally := report_tallied distinct
  have hids := map_mapping (fun row entry h => h.notificationId) rows
  have hoccurrences := map_mapping (fun row entry h => h.occurrenceCount) rows
  have hvalues : ((rows.foldl Bound.read .start).rowsByIncident.values.map fun b =>
      if b.standingAlone then 1 else 0) =
        (rows.foldl Bound.read .start).rowsByIncident.entries.map standing := List.map_map
  have hstanding := htally.standing
  rw [hvalues, ← hbound.standing] at hstanding
  simp only [reconcile, Invariants.mk.injEq]
  refine ⟨?_, ?_, ?_, ?_, ?_, htally.agree, ?_, ?_⟩
  · have hnone : ((rows.map ExistingAlertRow.id).filter fun id =>
        !((reconcile rows).mapping.map MappingEntry.notificationId).contains id) = [] := by
      rw [hids, filter_eq_nil_iff]
      intro id hid
      simp [hid]
    exact congrArg sortTexts hnone
  · rw [duplicates_eq distinct]
    rfl
  · refine append_eq_nil_iff.mpr ⟨adds_eq_nil ?_ _, adds_eq_nil ?_ _⟩
    · rw [map_singleton, sum_singleton, hcounted.occurrences]
      exact congrArg List.sum hoccurrences
    · rw [map_singleton, sum_singleton, hcounted.occurrences]
  · exact adds_eq_nil (by simpa using hcounted.times) _
  · refine append_eq_nil_iff.mpr ⟨append_eq_nil_iff.mpr
      ⟨append_eq_nil_iff.mpr ⟨adds_eq_nil ?_ _, adds_eq_nil ?_ _⟩, adds_eq_nil ?_ _⟩,
      adds_eq_nil ?_ _⟩
    · simpa using htally.counted
    · simpa using htally.audit
    · simpa using hstanding
    · simpa using htally.unrecoverable
  · exact append_eq_nil_iff.mpr
      ⟨atMost_eq_nil (JsSet.size_le hbound.audit) _ _,
        atMost_eq_nil (JsSet.size_le hbound.auditTarget) _ _⟩
  · refine append_eq_nil_iff.mpr ⟨adds_eq_nil ?_ _, adds_eq_nil ?_ _⟩
    · simpa using hmapped.typed
    · simpa using hmapped.resolved

/-! ## The ordinals -/

theorem joins_iff (hrow : row ∈ rows) (key : JsString) :
    Joins (reconcile rows) key row ↔ declaredKey row = some key := by
  have h := forall₂_mapping rows
  constructor
  · rintro ⟨entry, hentry, hid, hkey⟩
    obtain ⟨i, hi, rfl⟩ := getElem_of_mem hentry
    have hmaps := h.get (by rw [h.length_eq]; exact hi) hi
    have hsame := inj_on_of_nodup_map distinct (get_mem _ _) hrow
      (hmaps.notificationId.symm.trans hid)
    rw [← hsame, ← hmaps.incidentKey]
    exact hkey
  · intro hkey
    obtain ⟨i, hi, rfl⟩ := getElem_of_mem hrow
    have hmaps := h.get hi (by rw [← h.length_eq]; exact hi)
    exact ⟨_, get_mem _ _, hmaps.notificationId, hmaps.incidentKey.trans hkey⟩

/-- The rows of an incident are those kept under its key. -/
theorem joins_iff_rowKey {other : ExistingAlertRow} (hrow : row ∈ rows) (hother : other ∈ rows)
    (hjoins : Joins (reconcile rows) key other) :
    Joins (reconcile rows) key row ↔ rowKey row = key := by
  rw [joins_iff distinct hrow]
  exact ⟨rowKey_of_declaredKey, declaredKey_of_rowKey ((joins_iff distinct hother key).mp hjoins)⟩

end Report

/-- The bucket of an incident, in terms of the rows that join it. -/
structure Holds (rows : List ExistingAlertRow) (key : JsString) (bucket : Bucket) : Prop where
  ordinal : ∀ r ∈ rows, Joins (reconcile rows) key r →
    (reconcile rows).episodeByRow.get? r.id = some (ordinalOf bucket ⟨r.id, r.occurredAt⟩)
  times : ∀ t, t ∈ bucket.times ↔
    ∃ r ∈ rows, Joins (reconcile rows) key r ∧ r.occurredAt = some t
  missing : bucket.missing = 0 ↔
    ∀ r ∈ rows, Joins (reconcile rows) key r → r.occurredAt.isSome
  single : bucket.events = 1 → ∀ r ∈ rows, Joins (reconcile rows) key r →
    r.occurrenceCount = 1 ∧ ∀ s ∈ rows, Joins (reconcile rows) key s → s = r

/-- Rows that each stand for an event, and for one event together, are one row. -/
theorem single_of_sum {l : List ExistingAlertRow} (positive : ∀ r ∈ l, 1 ≤ r.occurrenceCount)
    (h : (l.map ExistingAlertRow.occurrenceCount).sum = 1) {r : ExistingAlertRow} (hr : r ∈ l) :
    r.occurrenceCount = 1 ∧ ∀ s ∈ l, s = r := by
  match l with
  | [] => cases hr
  | [a] =>
    rw [mem_singleton] at hr
    subst hr
    refine ⟨by simpa using h, ?_⟩
    intro s hs
    exact mem_singleton.mp hs
  | a :: b :: rest =>
    have ha := positive a (by simp)
    have hb := positive b (by simp)
    simp only [map_cons, sum_cons] at h
    omega

theorem incident_holds (distinct : (rows.map ExistingAlertRow.id).Nodup)
    (positive : ∀ r ∈ rows, 1 ≤ r.occurrenceCount) {key : JsString} (hrow : row ∈ rows)
    (hjoins : Joins (reconcile rows) key row) :
    ∃ bucket, Holds rows key bucket := by
  have hiff : ∀ r ∈ rows, Joins (reconcile rows) key r ↔ rowKey r = key :=
    fun r hr => joins_iff_rowKey distinct hr hrow hjoins
  obtain ⟨bucket, hbucket, -⟩ := bucket_of_mem hrow
  rw [(hiff row hrow).mp hjoins] at hbucket
  obtain ⟨_, _, _, filled⟩ := bucketOf_fills hbucket
  refine ⟨bucket, ?_, ?_, ?_, ?_⟩
  · intro r hr hr'
    apply episodeByRow_eq distinct hr
    rw [(hiff r hr).mp hr', hbucket]
  · intro t
    rw [filled.times, mem_filterMap]
    constructor
    · rintro ⟨r, hr, ht⟩
      rw [mem_filter, decide_eq_true_eq] at hr
      exact ⟨r, hr.1, (hiff r hr.1).mpr hr.2, ht⟩
    · rintro ⟨r, hr, hr', ht⟩
      exact ⟨r, by simpa using ⟨hr, (hiff r hr).mp hr'⟩, ht⟩
  · rw [filled.missing]
    simp only [mem_filter, decide_eq_true_eq, and_imp]
    exact forall₂_congr fun r hr => imp_congr_left (hiff r hr).symm
  · intro hone r hr hr'
    rw [filled.events] at hone
    have hmem : ∀ s ∈ rows, Joins (reconcile rows) key s →
        s ∈ rows.filter fun s => rowKey s = key :=
      fun s hs hs' => by simpa using ⟨hs, (hiff s hs).mp hs'⟩
    have honly := single_of_sum (fun s hs => positive s (mem_of_mem_filter hs)) hone
      (hmem r hr hr')
    exact ⟨honly.1, fun s hs hs' => honly.2 s (hmem s hs hs')⟩

section Incident

variable {rows : List ExistingAlertRow} {key : JsString} {bucket : Bucket}
  (held : Holds rows key bucket)
include held

variable {r : ExistingAlertRow}

theorem linked_iff {s : ExistingAlertRow} (hr : r ∈ rows) (hs : s ∈ rows)
    (hr' : Joins (reconcile rows) key r) (hs' : Joins (reconcile rows) key s) {t u : Int}
    (ht : r.occurredAt = some t) (hu : s.occurredAt = some u) :
    (quiet quietMs).Linked bucket.times t u ↔ Chained rows key r s := by
  constructor
  · intro h
    induction h generalizing s with
    | refl =>
      refine .single ⟨⟨hr, hr'⟩, ⟨hs, hs'⟩, t, t, ht, hu, ?_⟩
      simp
    | @tail v u _ near ih =>
      obtain ⟨x, hx, hx', hv⟩ := (held.times v).mp near.1
      refine .tail (ih hx hx' hv) ⟨⟨hx, hx'⟩, ⟨hs, hs'⟩, v, u, hv, hu, ?_⟩
      have hle : v ≤ u + quietMs := near.2.2.1
      have hge : u ≤ v + quietMs := near.2.2.2
      omega
  · intro h
    induction h generalizing u with
    | refl =>
      obtain rfl : t = u := Option.some.inj (ht.symm.trans hu)
      exact .refl
    | @tail x s _ step ih =>
      obtain ⟨⟨hx, hx'⟩, ⟨hs, hs'⟩, v, w, hv, hw, hgap⟩ := step
      obtain rfl : w = u := Option.some.inj (hw.symm.trans hu)
      refine .tail (ih hx hx' hv) ⟨?_, ?_, ?_, ?_⟩
      · exact (held.times v).mpr ⟨x, hx, hx', hv⟩
      · exact (held.times w).mpr ⟨s, hs, hs', hw⟩
      · change v ≤ w + quietMs
        omega
      · change w ≤ v + quietMs
        omega

theorem ordinal_timed (hr : r ∈ rows) (hr' : Joins (reconcile rows) key r)
    (events : bucket.events ≠ 1) {n : Nat} :
    Ordinal (reconcile rows) r n ↔ bucket.missing = 0 ∧
      ordinalIn (episodesOf bucket.times quietMs) r.occurredAt = some n := by
  rw [Ordinal, held.ordinal r hr hr', Option.some.injEq, ordinalOf, if_neg events]
  by_cases hmissing : bucket.missing > 0
  · have hne : bucket.missing ≠ 0 := by omega
    simp [hmissing, hne]
  · have hzero : bucket.missing = 0 := by omega
    simp [hzero]

theorem ordinal_single (hr : r ∈ rows) (hr' : Joins (reconcile rows) key r)
    (events : bucket.events = 1) :
    Ordinal (reconcile rows) r 1 := by
  rw [Ordinal, held.ordinal r hr hr', ordinalOf, if_pos events]

/-- The span behind an ordinal. -/
theorem span_of_ordinal (hr : r ∈ rows) (hr' : Joins (reconcile rows) key r)
    (events : bucket.events ≠ 1) (timed : bucket.missing = 0) {t : Int}
    (ht : r.occurredAt = some t) :
    ∃ i s, ((episodesOf bucket.times quietMs).map EpisodeSpan.asSpan)[i]? = some s ∧
      s.Holds t ∧ ∀ n, Ordinal (reconcile rows) r n ↔ n = i + 1 := by
  have hmem := (held.times t).mpr ⟨r, hr, hr', ht⟩
  obtain ⟨i, s, hi, hs, hord⟩ := ordinalIn_mem (episodesOf_splits bucket.times quietMs) hmem
  refine ⟨i, s.asSpan, by rw [getElem?_map, hi, map_some], hs, ?_⟩
  intro n
  rw [ordinal_timed held hr hr' events, ht, hord, Option.some.injEq]
  constructor
  · rintro ⟨_, rfl⟩
    rfl
  · rintro rfl
    exact ⟨timed, rfl⟩

theorem numbered : Numbered rows key := by
  have hsplits := episodesOf_splits bucket.times quietMs
  constructor
  · intro htimed r hr s hs hr' hs'
    by_cases hone : bucket.events = 1
    · have hsingle := ordinal_single held hr hr' hone
      obtain rfl : s = r := (held.single hone r hr hr').2 s hs hs'
      exact ⟨1, 1, hsingle, hsingle, fun _ => .refl, fun _ => rfl⟩
    · have hmissing := held.missing.mpr htimed
      obtain ⟨t, ht⟩ := isSome_iff_exists.mp (htimed r hr hr')
      obtain ⟨u, hu⟩ := isSome_iff_exists.mp (htimed s hs hs')
      obtain ⟨i, a, hi, hat, hord⟩ := span_of_ordinal held hr hr' hone hmissing ht
      obtain ⟨j, b, hj, hbu, hord'⟩ := span_of_ordinal held hs hs' hone hmissing hu
      refine ⟨i + 1, j + 1, (hord _).mpr rfl, (hord' _).mpr rfl, ?_⟩
      rw [← linked_iff held hr hs hr' hs' ht hu, Nat.add_right_cancel_iff]
      exact hsplits.index_eq_iff hi hj ((held.times t).mpr ⟨r, hr, hr', ht⟩)
        ((held.times u).mpr ⟨s, hs, hs', hu⟩) hat hbu
  · intro r hr s hs hr' hs' m n t u hm hn ht hu hle
    by_cases hone : bucket.events = 1
    · obtain rfl : s = r := (held.single hone r hr hr').2 s hs hs'
      have hmn := hm.symm.trans hn
      simp only [Option.some.injEq] at hmn
      omega
    · have hmissing := ((ordinal_timed held hr hr' hone).mp hm).1
      obtain ⟨i, a, hi, hat, hord⟩ := span_of_ordinal held hr hr' hone hmissing ht
      obtain ⟨j, b, hj, hbu, hord'⟩ := span_of_ordinal held hs hs' hone hmissing hu
      have hij := hsplits.index_mono hi hj hat hbu hle
      rw [(hord m).mp hm, (hord' n).mp hn]
      omega
  · intro x hx hx' hnone r hr hr'
    by_cases hone : bucket.events = 1
    · have honly := held.single hone r hr hr'
      exact .inl ⟨(honly.2 x hx hx').symm, honly.1, ordinal_single held hr hr' hone⟩
    · right
      have hmissing : bucket.missing > 0 := by
        by_contra hzero
        have htimed := held.missing.mp (by omega) x hx hx'
        rw [hnone] at htimed
        cases htimed
      rw [held.ordinal r hr hr', ordinalOf, if_neg hone, if_pos hmissing]

end Incident

/-! ## The report -/

/-- Notices of one collector, the first two an hour apart, the next ten days later and the last
without its time. -/
def collectorRows : List ExistingAlertRow :=
  [(js "a", some 0), (js "b", some 3600000), (js "c", some 864000000), (js "d", none)].map
    fun (id, occurredAt) =>
      { id
        organizationId := js "o"
        customerTenantId := some (js "t1")
        dedupeKey := js "tenant:t1:sync:SIGN_INS"
        occurrenceCount := 1
        occurredAt
        audit := none }

/-- Same ordinal and chain, with and without counting the ordinal of no one as an ordinal. -/
def NumbersEveryBurst (same : ReconciliationReport → ExistingAlertRow → ExistingAlertRow → Prop)
    (rows : List ExistingAlertRow) : Prop :=
  ∀ key, ∀ r ∈ rows, ∀ s ∈ rows, Joins (reconcile rows) key r → Joins (reconcile rows) key s →
    (same (reconcile rows) r s ↔ Chained rows key r s)

/-- The incident of the notices. -/
def collectorKey : JsString :=
  IncidentKey.joinUnambiguously [js "hawkview-alert-incident/v1",
    js "monitoring.collector_failing", js "o", js "t1", js "COLLECTOR", js "SIGN_INS"]

theorem collectorRows_join (i : Nat) (h : i < collectorRows.length) :
    Joins (reconcile collectorRows) collectorKey collectorRows[i] := by
  have hall : ∀ r ∈ collectorRows, ∃ entry ∈ (reconcile collectorRows).mapping,
      entry.notificationId = r.id ∧ entry.incidentKey = some collectorKey := by decide +kernel
  exact hall _ (getElem_mem h)

/-- No chain leads out of the first hour. -/
theorem chain_stays {s : ExistingAlertRow}
    (h : Chained collectorRows collectorKey collectorRows[0] s) :
    s.occurredAt = some 0 ∨ s.occurredAt = some 3600000 := by
  induction h with
  | refl => exact .inl rfl
  | @tail x s _ step ih =>
    obtain ⟨_, ⟨hs, _⟩, t, u, ht, hu, hgap⟩ := step
    have hle : u ≤ 3600000 + 86400000 := by
      have hquiet : quietMs = 86400000 := by decide
      rw [ht, Option.some.injEq, Option.some.injEq] at ih
      omega
    have hcases : ∀ r ∈ collectorRows, r.occurredAt = some 0 ∨ r.occurredAt = some 3600000 ∨
        r.occurredAt = some 864000000 ∨ r.occurredAt = none := by decide
    rcases hcases s hs with hzero | hhour | hlate | hnone
    · exact .inl hzero
    · exact .inr hhour
    · rw [hlate, Option.some.injEq] at hu
      omega
    · rw [hnone] at hu
      cases hu

end EpisodeOrdinals
