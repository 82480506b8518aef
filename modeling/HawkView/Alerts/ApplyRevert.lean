import HawkView.Alerts.ApplyMapping

/-!
# What an apply and its revert leave

A mapping that agrees with the table is accepted, any other yields no writes. An
accepted one is undone by the revert of its receipt, whatever the other fields of
the rows have become, and a second apply finds nothing left to write.
-/

namespace ApplyRevert

open ApplyMapping List Option

/-- The rows of the table, whose primary key is `id`. -/
structure Table where
  rows : StoredSnapshot
  unique : (rows.map StoredRow.id).Nodup

/-- What an entry says of the rows. -/
def Fits (rows : StoredSnapshot) : MappingDecision → Prop
  | .exclude entry => ∀ row ∈ rows, row.id = entry.notificationId → row.incidentKey = none
  | .write entry => ∃ row ∈ rows, row.id = entry.notificationId ∧
      digestOf row = entry.observed ∧
      (row.incidentKey = none ∨
        row.incidentKey = some entry.incidentKey ∧ row.episode = entry.episode)

/-- The mapping decides once about every row, and every decision fits. -/
structure Agrees (rows : StoredSnapshot) (mapping : Mapping) : Prop where
  once : (mapping.map MappingDecision.notificationId).Nodup
  decided : ∀ row ∈ rows, row.id ∈ mapping.map MappingDecision.notificationId
  fits : ∀ entry ∈ mapping, Fits rows entry

def writesOf : ApplyDecision → List Write
  | .proceed run => run.writes
  | .refuse _ => []

/-! ## Rows by their id -/

variable {rows : StoredSnapshot} {id : JsString}

section

variable (unique : (rows.map StoredRow.id).Nodup)
include unique

theorem byId_eq_some {row : StoredRow} :
    (byId rows).get? id = some row ↔ row ∈ rows ∧ row.id = id := by
  rw [byId, JsMap.get?_ofList_map unique, Option.map_id', DistinctKeys.find_some unique]

theorem byId_eq_none :
    (byId rows).get? id = none ↔ ∀ row ∈ rows, row.id ≠ id := by
  rw [← not_iff_not, ← ne_eq, ne_none_iff_exists']
  simp only [byId_eq_some unique, not_forall, not_not, exists_prop]

/-! ## One entry -/

/-- How the verdict on an entry comes about. -/
theorem judge_cases (entry : MappingDecision) :
    (∃ d, judge (byId rows) entry = .differs d ∧ ¬ Fits rows entry) ∨
    (∃ e, entry = .exclude e ∧ judge (byId rows) entry = .leaves e ∧ Fits rows entry) ∨
    (∃ e, ∃ row ∈ rows, entry = .write e ∧ row.id = e.notificationId ∧
      row.incidentKey = some e.incidentKey ∧ judge (byId rows) entry = .applied row.id ∧
      Fits rows entry) ∨
    (∃ e, ∃ row ∈ rows, entry = .write e ∧ row.id = e.notificationId ∧ row.incidentKey = none ∧
      judge (byId rows) entry = .writes (writeOf row e) ∧ Fits rows entry) := by
  cases entry with
  | exclude e =>
    cases hrow : (byId rows).get? e.notificationId with
    | none =>
      refine .inr (.inl ⟨e, rfl, by simp [judge, hrow], ?_⟩)
      intro row hmem hid
      exact absurd hid ((byId_eq_none unique).mp hrow row hmem)
    | some held =>
      obtain ⟨hmem, hid⟩ := (byId_eq_some unique).mp hrow
      cases hkey : held.incidentKey with
      | none =>
        refine .inr (.inl ⟨e, rfl, by simp [judge, hrow, hkey], ?_⟩)
        intro row hrow' hid'
        have hsame := inj_on_of_nodup_map unique hrow' hmem (hid'.trans hid.symm)
        rw [hsame, hkey]
      | some key =>
        refine .inl ⟨_, by simp [judge, hrow, hkey]; rfl, ?_⟩
        intro hfits
        rw [hfits held hmem hid] at hkey
        cases hkey
  | write e =>
    cases hrow : (byId rows).get? e.notificationId with
    | none =>
      refine .inl ⟨_, by simp [judge, hrow]; rfl, ?_⟩
      rintro ⟨row, hmem, hid, _⟩
      exact (byId_eq_none unique).mp hrow row hmem hid
    | some row =>
      obtain ⟨hmem, hid⟩ := (byId_eq_some unique).mp hrow
      have honly : ∀ r ∈ rows, r.id = e.notificationId → r = row := by
        intro r hr hid'
        exact inj_on_of_nodup_map unique hr hmem (hid'.trans hid.symm)
      by_cases hdigest : digestOf row = e.observed
      · cases hkey : row.incidentKey with
        | none =>
          refine .inr (.inr (.inr ⟨e, row, hmem, rfl, hid, hkey, ?_, ?_⟩))
          · simp [judge, hrow, hdigest, hkey]
          · exact ⟨row, hmem, hid, hdigest, .inl hkey⟩
        | some key =>
          by_cases hsame : key = e.incidentKey ∧ row.episode = e.episode
          · have hheld : row.incidentKey = some e.incidentKey := by rw [hkey, hsame.1]
            refine .inr (.inr (.inl ⟨e, row, hmem, rfl, hid, hheld, ?_, ?_⟩))
            · simp [judge, hrow, hdigest, hkey, hsame]
            · exact ⟨row, hmem, hid, hdigest, .inr ⟨hheld, hsame.2⟩⟩
          · refine .inl ⟨_, by simp [judge, hrow, hdigest, hkey, hsame]; rfl, ?_⟩
            rintro ⟨r, hr, hid', _, hnone | hheld⟩
            · rw [honly r hr hid', hkey] at hnone
              cases hnone
            · rw [honly r hr hid', hkey, Option.some.injEq] at hheld
              exact hsame hheld
      · refine .inl ⟨_, by simp [judge, hrow, hdigest]; rfl, ?_⟩
        rintro ⟨r, hr, hid', hobserved, _⟩
        rw [honly r hr hid'] at hobserved
        exact hdigest hobserved

end

/-! ## The loop -/

theorem push_seen (s : Loop) (v : Verdict) : (s.push v).seen = s.seen := by
  cases v <;> rfl

def write? : Verdict → Option Write
  | .writes w => some w
  | _ => none

theorem push_writes (s : Loop) (v : Verdict) :
    (s.push v).writes = s.writes ++ (write? v).toList := by
  cases v <;> simp [Loop.push, write?]

/-- What was found to differ stays found. -/
theorem push_differences (s : Loop) (v : Verdict) :
    (s.push v).differences = [] ↔ s.differences = [] ∧ ∀ d, v ≠ .differs d := by
  cases v <;> simp [Loop.push]

variable {entry : MappingDecision}

theorem examine_fresh {rows : JsMap JsString StoredRow} {s : Loop}
    (fresh : entry.notificationId ∉ s.seen) :
    examine rows s entry =
      { s with seen := entry.notificationId :: s.seen }.push (judge rows entry) :=
  if_neg fresh

theorem loop_differences {rows : JsMap JsString StoredRow} (mapping : Mapping) (s : Loop) :
    (mapping.foldl (examine rows) s).differences = [] ↔
      s.differences = [] ∧ (mapping.map MappingDecision.notificationId).Nodup ∧
        (∀ e ∈ mapping, e.notificationId ∉ s.seen) ∧
        ∀ e ∈ mapping, ∀ d, judge rows e ≠ .differs d := by
  induction mapping generalizing s with
  | nil => simp
  | cons entry mapping ih =>
    rw [foldl_cons, ih]
    by_cases hseen : entry.notificationId ∈ s.seen
    · simp [examine, hseen]
    · rw [examine_fresh hseen, push_differences, push_seen, map_cons, nodup_cons,
        List.forall_mem_cons, List.forall_mem_cons]
      simp only [mem_cons, not_or, List.mem_map, not_exists, not_and]
      constructor
      · rintro ⟨⟨hdifferences, hjudge⟩, hnodup, hfresh, hrest⟩
        exact ⟨hdifferences, ⟨fun e he => (hfresh e he).1, hnodup⟩,
          ⟨hseen, fun e he => (hfresh e he).2⟩, hjudge, hrest⟩
      · rintro ⟨hdifferences, ⟨hne, hnodup⟩, ⟨_, hfresh⟩, hjudge, hrest⟩
        exact ⟨⟨hdifferences, hjudge⟩, hnodup, fun e he => ⟨hne e he, hfresh e he⟩, hrest⟩

variable {mapping : Mapping}

theorem loop_writes (rows : JsMap JsString StoredRow) (s : Loop)
    (once : (mapping.map MappingDecision.notificationId).Nodup)
    (fresh : ∀ e ∈ mapping, e.notificationId ∉ s.seen) :
    (mapping.foldl (examine rows) s).writes =
      s.writes ++ mapping.filterMap fun e => write? (judge rows e) := by
  induction mapping generalizing s with
  | nil => simp
  | cons entry mapping ih =>
    rw [map_cons, nodup_cons] at once
    rw [List.forall_mem_cons] at fresh
    rw [foldl_cons, examine_fresh fresh.1, ih _ once.2, push_writes, append_assoc]
    · cases hverdict : write? (judge rows entry) with
      | none => simp [hverdict]
      | some w => simp [hverdict]
    · intro e he
      rw [push_seen, mem_cons, not_or]
      refine ⟨?_, fresh.2 e he⟩
      intro hid
      exact once.1 (List.mem_map.mpr ⟨e, he, hid⟩)

/-! ## Validation -/

section Validation

variable (localeCompare : JsString → JsString → Int)

theorem sorted_eq_nil {differences : List Difference} :
    sorted localeCompare differences = [] ↔ differences = [] := by
  rw [← length_eq_zero_iff, ← length_eq_zero_iff, sorted, length_insertionSort]

variable {t : Table}

theorem fits_of_judge {entry : MappingDecision} :
    (∀ d, judge (byId t.rows) entry ≠ .differs d) ↔ Fits t.rows entry := by
  rcases judge_cases t.unique entry with
    ⟨d, hverdict, hnot⟩ | ⟨e, _, hverdict, hfits⟩ | ⟨e, row, _, _, _, _, hverdict, hfits⟩ |
      ⟨e, row, _, _, _, _, hverdict, hfits⟩
  · simp [hverdict, hnot]
  · simp [hverdict, hfits]
  · simp [hverdict, hfits]
  · simp [hverdict, hfits]

/-- The differences of an entry and the rows that no entry names. -/
theorem differences_eq_nil (t : Table) (mapping : Mapping) :
    (mapping.foldl (examine (byId t.rows)) {}).differences ++
      (t.rows.filter fun row => row.id ∉ mapping.map MappingDecision.notificationId).map
        (fun row => Difference.rowUnexpected row.id) = [] ↔ Agrees t.rows mapping := by
  rw [append_eq_nil_iff, loop_differences, map_eq_nil_iff, filter_eq_nil_iff]
  simp only [fits_of_judge, true_and, not_mem_nil, not_false_eq_true, implies_true,
    decide_eq_true_eq, not_not]
  constructor
  · rintro ⟨⟨hnodup, hfits⟩, hdecided⟩
    exact ⟨hnodup, hdecided, hfits⟩
  · rintro ⟨hnodup, hdecided, hfits⟩
    exact ⟨⟨hnodup, hfits⟩, hdecided⟩

variable {mapping : Mapping}

theorem validateApply_agrees (h : Agrees t.rows mapping) :
    ∃ run, validateApply localeCompare t.rows mapping = .proceed run ∧
      run.writes = mapping.filterMap fun e => write? (judge (byId t.rows) e) := by
  have hnil := (differences_eq_nil t mapping).mpr h
  have hwrites := loop_writes (byId t.rows) {} h.once (by simp)
  refine ⟨_, if_neg ?_, hwrites⟩
  rw [length_pos_iff, not_not]
  exact hnil

/-- Every difference that is found refuses the run. -/
theorem validateApply_differs (h : ¬ Agrees t.rows mapping) :
    ∃ differences, differences ≠ [] ∧
      validateApply localeCompare t.rows mapping = .refuse differences := by
  have hne := mt (differences_eq_nil t mapping).mp h
  refine ⟨_, mt (sorted_eq_nil localeCompare).mp hne, if_pos ?_⟩
  rw [length_pos_iff]
  exact hne

/-- A run that was checked against a table. -/
structure Accepted (t : Table) (mapping : Mapping) (run : ValidatedRun) : Prop where
  agrees : Agrees t.rows mapping
  writes : run.writes = mapping.filterMap fun e => write? (judge (byId t.rows) e)

theorem accepted {run : ValidatedRun}
    (h : validateApply localeCompare t.rows mapping = .proceed run) : Accepted t mapping run := by
  by_cases hagrees : Agrees t.rows mapping
  · obtain ⟨run', hrun', hwrites⟩ := validateApply_agrees localeCompare hagrees
    rw [hrun', ApplyDecision.proceed.injEq] at h
    exact ⟨hagrees, h ▸ hwrites⟩
  · obtain ⟨differences, _, hrefuse⟩ := validateApply_differs localeCompare hagrees
    rw [hrefuse] at h
    cases h

end Validation

/-! ## The writes of a run -/

variable {t : Table}

theorem write?_judge {w : Write} :
    write? (judge (byId t.rows) entry) = some w → ∃ e, ∃ row ∈ t.rows, entry = .write e ∧
      row.id = e.notificationId ∧ row.incidentKey = none ∧ w = writeOf row e := by
  intro h
  rcases judge_cases t.unique entry with
    ⟨d, hverdict, _⟩ | ⟨e, _, hverdict, _⟩ | ⟨e, row, _, _, _, _, hverdict, _⟩ |
      ⟨e, row, hrow, hentry, hid, hkey, hverdict, _⟩
  · rw [hverdict] at h
    cases h
  · rw [hverdict] at h
    cases h
  · rw [hverdict] at h
    cases h
  · rw [hverdict] at h
    cases h
    exact ⟨e, row, hrow, hentry, hid, hkey, rfl⟩

section Writes

variable {t : Table} {mapping : Mapping} {run : ValidatedRun}

/-- The rows of the mapping that have no key yet are written. -/
theorem Accepted.mem_writes (h : Accepted t mapping run) {w : Write} :
    w ∈ run.writes ↔ ∃ e, ∃ row ∈ t.rows, .write e ∈ mapping ∧ row.id = e.notificationId ∧
      row.incidentKey = none ∧ w = writeOf row e := by
  rw [h.writes, mem_filterMap]
  constructor
  · rintro ⟨entry, hentry, hw⟩
    obtain ⟨e, row, hrow, rfl, hid, hkey, rfl⟩ := write?_judge hw
    exact ⟨e, row, hrow, hentry, hid, hkey, rfl⟩
  · rintro ⟨e, row, hrow, hentry, hid, hkey, rfl⟩
    refine ⟨.write e, hentry, ?_⟩
    rcases judge_cases t.unique (.write e) with
      ⟨d, _, hnot⟩ | ⟨e', hne, _, _⟩ | ⟨e', row', hrow', heq, hid', hheld, _, _⟩ |
        ⟨e', row', hrow', heq, hid', _, hverdict, _⟩
    · exact absurd (h.agrees.fits _ hentry) hnot
    · cases hne
    · cases heq
      have hsame := inj_on_of_nodup_map t.unique hrow hrow' (hid.trans hid'.symm)
      rw [hsame, hheld] at hkey
      cases hkey
    · cases heq
      have hsame := inj_on_of_nodup_map t.unique hrow hrow' (hid.trans hid'.symm)
      rw [hverdict, hsame]
      rfl

theorem Accepted.writes_once (h : Accepted t mapping run) :
    (run.writes.map Write.notificationId).Nodup := by
  rw [h.writes]
  refine h.agrees.once.sublist (DistinctKeys.sublist_filterMap ?_ mapping)
  intro entry w hw
  obtain ⟨e, row, _, rfl, hid, _, rfl⟩ := write?_judge hw
  exact hid

/-- What the run writes for an id. -/
def written (run : ValidatedRun) (id : JsString) : Option Keying :=
  ((JsMap.ofList (run.writes.map fun write => (write.notificationId, write))).get? id).map
    fun write => write.next.keying

theorem applyValidated_after (rows : StoredSnapshot) (run : ValidatedRun)
    (runId appliedAt : JsString) :
    (applyValidated rows run runId appliedAt).after = keying.patch (written run) rows := by
  apply map_congr_left
  intro row _
  unfold KeyedPart.patchRow written
  cases hget : (JsMap.ofList (run.writes.map fun write => (write.notificationId, write))).get?
      row.id with
  | none => simp [keying, hget]
  | some write => simp [keying, hget]

variable {id : JsString}

section

variable (h : Accepted t mapping run)
include h

theorem Accepted.get?_writes {w : Write} :
    (JsMap.ofList (run.writes.map fun write => (write.notificationId, write))).get? id = some w ↔
      w ∈ run.writes ∧ w.notificationId = id := by
  rw [JsMap.get?_ofList_map h.writes_once, Option.map_id', DistinctKeys.find_some h.writes_once]

theorem Accepted.written_eq_some {p : Keying} :
    written run id = some p ↔
      ∃ w ∈ run.writes, w.notificationId = id ∧ w.next.keying = p := by
  simp only [written, map_eq_some_iff, h.get?_writes, and_assoc]

/-- An id is left alone unless an entry writes its row. -/
theorem Accepted.written_eq_none
    (free : ∀ e, ∀ row ∈ t.rows, .write e ∈ mapping → row.id = e.notificationId →
      row.incidentKey = none → row.id ≠ id) :
    written run id = none := by
  by_contra hsome
  obtain ⟨p, hp⟩ := ne_none_iff_exists'.mp hsome
  obtain ⟨w, hw, hid, _⟩ := h.written_eq_some.mp hp
  obtain ⟨e, row, hrow, hentry, hsame, hkey, rfl⟩ := h.mem_writes.mp hw
  exact free e row hrow hentry hsame hkey hid

/-- After the apply every row that was to be written has its key. -/
theorem Accepted.keyed {e : MappingEntry} {row : StoredRow}
    (hentry : .write e ∈ mapping) (hrow : row ∈ t.rows) (hid : row.id = e.notificationId) :
    keying.part (keying.patchRow (written run) row) = ⟨some e.incidentKey, e.episode⟩ := by
  cases hkey : row.incidentKey with
  | none =>
    have hmem : writeOf row e ∈ run.writes :=
      h.mem_writes.mpr ⟨e, row, hrow, hentry, hid, hkey, rfl⟩
    have hwritten : written run row.id = some ⟨some e.incidentKey, e.episode⟩ :=
      h.written_eq_some.mpr ⟨_, hmem, rfl, rfl⟩
    rw [KeyedPart.patchRow_some hwritten, KeyedPart.part_place]
  | some key =>
    obtain ⟨row', hrow', hid', _, hnone | hheld⟩ := h.agrees.fits _ hentry
    · have hsame := inj_on_of_nodup_map t.unique hrow hrow' (hid.trans hid'.symm)
      rw [← hsame, hkey] at hnone
      cases hnone
    · have hsame := inj_on_of_nodup_map t.unique hrow hrow' (hid.trans hid'.symm)
      have hwritten : written run row.id = none := by
        apply h.written_eq_none
        intro e' r hr _ _ hnone hids
        rw [inj_on_of_nodup_map t.unique hr hrow hids, hkey] at hnone
        cases hnone
      rw [KeyedPart.patchRow_none hwritten, hsame]
      simp only [keying, hheld.1, hheld.2]

end

def Table.patch (t : Table) (f : JsString → Option Keying) : Table where
  rows := keying.patch f t.rows
  unique := by
    have hkeys : (keying.patch f t.rows).map StoredRow.id = t.rows.map StoredRow.id :=
      KeyedPart.keys_patch (L := keying) t.rows
    rw [hkeys]
    exact t.unique

/-- The table after the apply. -/
def appliedTable (t : Table) (run : ValidatedRun) : Table := t.patch (written run)

theorem digestOf_patchRow (f : JsString → Option Keying) (row : StoredRow) :
    digestOf (keying.patchRow f row) = digestOf row := by
  unfold KeyedPart.patchRow
  split <;> rfl

theorem id_patchRow (f : JsString → Option Keying) (row : StoredRow) :
    (keying.patchRow f row).id = row.id :=
  KeyedPart.key_patchRow (L := keying) row

theorem watched_patch (t : Table) (f : JsString → Option Keying) :
    watchedFieldsDisturbedBetween t.rows (t.patch f).rows = [] := by
  unfold watchedFieldsDisturbedBetween
  rw [map_eq_nil_iff, filter_eq_nil_iff]
  intro row hrow
  have hnow : (byId (t.patch f).rows).get? row.id = some (keying.patchRow f row) :=
    (byId_eq_some (t.patch f).unique).mpr ⟨mem_map_of_mem hrow, id_patchRow f row⟩
  have hwatched : watchedOf (keying.patchRow f row) = watchedOf row := by
    unfold KeyedPart.patchRow
    split <;> rfl
  simp [hnow, hwatched]

/-- The mapping agrees with what its apply left. -/
theorem Accepted.agrees_after (h : Accepted t mapping run) :
    Agrees (appliedTable t run).rows mapping where
  once := h.agrees.once
  decided := by
    intro row hrow
    obtain ⟨r, hr, rfl⟩ := List.mem_map.mp hrow
    rw [id_patchRow]
    exact h.agrees.decided r hr
  fits := by
    intro entry hentry
    cases entry with
    | exclude e =>
      intro row hrow hid
      obtain ⟨r, hr, rfl⟩ := List.mem_map.mp hrow
      rw [id_patchRow] at hid
      have hwritten : written run r.id = none := by
        apply h.written_eq_none
        intro e' r' _ hentry' hid' _ hids
        have hclash := inj_on_of_nodup_map h.agrees.once hentry hentry'
          (hid.symm.trans (hids.symm.trans hid'))
        cases hclash
      rw [KeyedPart.patchRow_none hwritten]
      exact h.agrees.fits _ hentry r hr hid
    | write e =>
      obtain ⟨row, hrow, hid, hdigest, _⟩ := h.agrees.fits _ hentry
      have hkeyed := h.keyed hentry hrow hid
      simp only [keying, Keying.mk.injEq] at hkeyed
      refine ⟨_, mem_map_of_mem hrow, ?_, ?_, .inr hkeyed⟩
      · rw [id_patchRow, hid]
      · rw [digestOf_patchRow, hdigest]

/-- The keys and episodes of some rows are those of a table, whatever the rest of
the rows. Rows may be gone and others may have come. -/
def KeepsKeys (rows later : StoredSnapshot) : Prop :=
  ∀ row ∈ rows, ∀ now ∈ later, now.id = row.id →
    now.incidentKey = row.incidentKey ∧ now.episode = row.episode

theorem keepsKeys_self (t : Table) : KeepsKeys t.rows t.rows := by
  intro row hrow now hnow hid
  rw [inj_on_of_nodup_map t.unique hnow hrow hid]
  exact ⟨rfl, rfl⟩

/-- Nothing is left to write as long as the keys are there. -/
theorem Accepted.writes_later (h : Accepted t mapping run) {later : Table}
    (kept : KeepsKeys (appliedTable t run).rows later.rows)
    (localeCompare : JsString → JsString → Int) :
    writesOf (validateApply localeCompare later.rows mapping) = [] := by
  cases hdecision : validateApply localeCompare later.rows mapping with
  | refuse differences => rfl
  | proceed again =>
    have haccepted := accepted localeCompare hdecision
    rw [writesOf, eq_nil_iff_forall_not_mem]
    intro w hw
    obtain ⟨e, now, hnow, hentry, hid, hnone, _⟩ := haccepted.mem_writes.mp hw
    obtain ⟨row, hrow, hid', _⟩ := h.agrees.fits _ hentry
    have hkeyed := h.keyed hentry hrow hid'
    simp only [keying, Keying.mk.injEq] at hkeyed
    have hsame := kept _ (mem_map_of_mem hrow) now hnow
      (by rw [id_patchRow, hid, hid'])
    have hheld := hsame.1.trans hkeyed.1
    rw [hnone] at hheld
    cases hheld

end Writes

/-! ## The revert -/

theorem recheck_eq_inr {entry : Change} :
    recheck (byId t.rows) entry = .inr id ↔ ∃ row ∈ t.rows, row.id = entry.notificationId ∧
      row.incidentKey = some entry.written.incidentKey ∧ row.episode = entry.written.episode ∧
      id = row.id := by
  unfold recheck
  cases hget : (byId t.rows).get? entry.notificationId with
  | none =>
    simp only [reduceCtorEq, false_iff, not_exists, not_and]
    intro row hrow hid
    exact absurd hid ((byId_eq_none t.unique).mp hget row hrow)
  | some held =>
    obtain ⟨hheld, hheldId⟩ := (byId_eq_some t.unique).mp hget
    constructor
    · intro h
      by_cases hmoved : held.incidentKey ≠ some entry.written.incidentKey ∨
          held.episode ≠ entry.written.episode
      · simp [hmoved] at h
      · simp only [hmoved, if_false, Sum.inr.injEq] at h
        simp only [not_or, not_not] at hmoved
        exact ⟨held, hheld, hheldId, hmoved.1, hmoved.2, h.symm⟩
    · rintro ⟨row, hrow, hid, hkey, hepisode, rfl⟩
      have hsame := inj_on_of_nodup_map t.unique hrow hheld (hid.trans hheldId.symm)
      rw [← hsame]
      simp [hkey, hepisode]

section Revert

variable (localeCompare : JsString → JsString → Int)

variable {receipt : ApplyReceipt} {id : JsString}

theorem mem_revert_rows {t : Table} :
    id ∈ (validateRevert localeCompare t.rows receipt).rows ↔
      ∃ entry ∈ receipt.changed, entry.notificationId = id ∧ ∃ row ∈ t.rows, row.id = id ∧
        row.incidentKey = some entry.written.incidentKey ∧
        row.episode = entry.written.episode := by
  simp only [validateRevert, mem_filterMap, List.mem_map, Sum.getRight?_eq_some_iff,
    exists_exists_and_eq_and, recheck_eq_inr]
  constructor
  · rintro ⟨entry, hentry, row, hrow, hid, hkey, hepisode, rfl⟩
    exact ⟨entry, hentry, hid.symm, row, hrow, rfl, hkey, hepisode⟩
  · rintro ⟨entry, hentry, rfl, row, hrow, hid, hkey, hepisode⟩
    exact ⟨entry, hentry, row, hrow, hid, hkey, hepisode, hid.symm⟩

theorem revert_refused {t : Table}
    (h : ∀ entry ∈ receipt.changed, ∃ id, recheck (byId t.rows) entry = .inr id) :
    (validateRevert localeCompare t.rows receipt).refused = [] := by
  simp only [validateRevert, sorted_eq_nil, filterMap_map, filterMap_eq_nil_iff]
  intro entry hentry
  obtain ⟨id, hid⟩ := h entry hentry
  simp [hid]

/-- What the revert puts back for an id. -/
def restored (receipt : ApplyReceipt) (decision : RevertDecision) (id : JsString) :
    Option Keying :=
  if id ∉ decision.rows then none
  else (JsMap.ofList (receipt.changed.map fun entry =>
    (entry.notificationId, entry.previous))).get? id

theorem revertValidated_after (rows : StoredSnapshot) (receipt : ApplyReceipt)
    (decision : RevertDecision) (revertedAt : JsString) :
    (revertValidated rows receipt decision revertedAt).after =
      keying.patch (restored receipt decision) rows := by
  apply map_congr_left
  intro row _
  unfold KeyedPart.patchRow restored
  by_cases hrows : row.id ∈ decision.rows
  · cases hget : (JsMap.ofList (receipt.changed.map fun entry =>
        (entry.notificationId, entry.previous))).get? row.id with
    | none => simp [keying, hrows, hget]
    | some previous => simp [keying, hrows, hget]
  · simp [keying, hrows]

/-! ## The apply undone -/

/-- The row with the incident key and the episode that it had before. -/
def putBack (before : StoredSnapshot) (now : StoredRow) : StoredRow :=
  match before.find? fun row => row.id = now.id with
  | none => now
  | some row => { now with incidentKey := row.incidentKey, episode := row.episode }

variable {t : Table} {mapping : Mapping} {run : ValidatedRun}

variable {runId appliedAt : JsString}

theorem restored_fresh (h : Accepted t mapping run) {decision : RevertDecision}
    (fresh : written run id = none) :
    restored (applyValidated t.rows run runId appliedAt).receipt decision id = none := by
  unfold restored
  by_cases hrows : id ∈ decision.rows
  · rw [if_neg (not_not.mpr hrows)]
    apply JsMap.get?_ofList_eq_none
    simp only [applyValidated, List.map_map, List.mem_map, not_exists, not_and]
    intro w hw hid
    have hsome := h.written_eq_some.mpr ⟨w, hw, hid, rfl⟩
    rw [fresh] at hsome
    cases hsome
  · rw [if_pos hrows]

variable {later : Table}

/-- The receipt has of each written row what the row held before. -/
theorem restored_written (h : Accepted t mapping run)
    (kept : KeepsKeys (appliedTable t run).rows later.rows) {row now : StoredRow}
    (hrow : row ∈ t.rows) (hnow : now ∈ later.rows) (hid : now.id = row.id) :
    restored (applyValidated t.rows run runId appliedAt).receipt
      (validateRevert localeCompare later.rows
        (applyValidated t.rows run runId appliedAt).receipt) row.id =
      (written run row.id).map fun _ => keying.part row := by
  cases hwritten : written run row.id with
  | none => exact restored_fresh h hwritten
  | some p =>
    obtain ⟨w, hw, hwid, rfl⟩ := h.written_eq_some.mp hwritten
    obtain ⟨e, r, hr, _, _, _, rfl⟩ := h.mem_writes.mp hw
    have hsame := inj_on_of_nodup_map t.unique hr hrow hwid
    subst hsame
    have hkept := kept _ (mem_map_of_mem hrow) now hnow (by rw [id_patchRow, hid])
    rw [KeyedPart.patchRow_some hwritten] at hkept
    have happroved : r.id ∈ (validateRevert localeCompare later.rows
        (applyValidated t.rows run runId appliedAt).receipt).rows := by
      rw [mem_revert_rows]
      exact ⟨_, mem_map_of_mem hw, rfl, now, hnow, hid, hkept.1, hkept.2⟩
    rw [restored, if_neg (not_not.mpr happroved), map_some]
    apply JsMap.get?_ofList
    · simp only [applyValidated, List.map_map]
      exact h.writes_once
    · simp only [applyValidated, List.map_map]
      exact List.mem_map.mpr ⟨_, hw, rfl⟩

theorem reverted_rows (h : Accepted t mapping run) {revertedAt : JsString}
    (kept : KeepsKeys (appliedTable t run).rows later.rows) :
    (revertValidated later.rows (applyValidated t.rows run runId appliedAt).receipt
      (validateRevert localeCompare later.rows
        (applyValidated t.rows run runId appliedAt).receipt) revertedAt).after =
      later.rows.map (putBack t.rows) := by
  rw [revertValidated_after]
  apply map_congr_left
  intro now hnow
  unfold putBack
  cases hfind : t.rows.find? fun row => row.id = now.id with
  | none =>
    rw [DistinctKeys.find_none] at hfind
    apply KeyedPart.patchRow_none
    apply restored_fresh h
    apply h.written_eq_none
    intro e r hr _ _ _
    exact hfind r hr
  | some row =>
    obtain ⟨hrow, hid⟩ := (DistinctKeys.find_some t.unique).mp hfind
    have hkept := kept _ (mem_map_of_mem hrow) now hnow (by rw [id_patchRow, hid])
    have hpart : keying.part now = keying.part (keying.patchRow (written run) row) := by
      simp only [keying, Keying.mk.injEq]
      exact hkept
    exact KeyedPart.patchRow_back (L := keying) hid.symm hpart
      (restored_written localeCompare h kept hrow hnow hid.symm)

/-- Nothing is refused while the written rows are there. -/
theorem reverted_all (h : Accepted t mapping run)
    (kept : KeepsKeys (appliedTable t run).rows later.rows)
    (there : ∀ row ∈ t.rows, ∃ now ∈ later.rows, now.id = row.id) :
    (validateRevert localeCompare later.rows
      (applyValidated t.rows run runId appliedAt).receipt).refused = [] := by
  apply revert_refused
  intro entry hentry
  obtain ⟨w, hw, rfl⟩ := List.mem_map.mp hentry
  obtain ⟨e, row, hrow, hmapped, hid, _, rfl⟩ := h.mem_writes.mp hw
  obtain ⟨now, hnow, hnowId⟩ := there row hrow
  have hkept := kept _ (mem_map_of_mem hrow) now hnow (by rw [id_patchRow, hnowId])
  have hkeyed := h.keyed hmapped hrow hid
  simp only [keying, Keying.mk.injEq] at hkeyed
  refine ⟨now.id, recheck_eq_inr.mpr ⟨now, hnow, hnowId, ?_, ?_, rfl⟩⟩
  · exact hkept.1.trans hkeyed.1
  · exact hkept.2.trans hkeyed.2

end Revert

/-- What an accepted run is: its rows are written in two columns, its revert puts
these back into any later rows that kept them, and it leaves nothing to write. -/
structure Reversible (localeCompare : JsString → JsString → Int) (t : Table) (mapping : Mapping)
    (run : ValidatedRun) : Prop where
  frame : ∀ runId appliedAt,
    List.Forall₂ keying.SameRest t.rows (applyValidated t.rows run runId appliedAt).after ∧
      watchedFieldsDisturbedBetween t.rows (applyValidated t.rows run runId appliedAt).after = []
  undone : ∀ runId appliedAt revertedAt (later : Table),
    KeepsKeys (applyValidated t.rows run runId appliedAt).after later.rows →
    (revertValidated later.rows (applyValidated t.rows run runId appliedAt).receipt
      (validateRevert localeCompare later.rows
        (applyValidated t.rows run runId appliedAt).receipt) revertedAt).after =
      later.rows.map (putBack t.rows)
  complete : ∀ runId appliedAt (later : Table),
    KeepsKeys (applyValidated t.rows run runId appliedAt).after later.rows →
    (∀ row ∈ t.rows, ∃ now ∈ later.rows, now.id = row.id) →
    (validateRevert localeCompare later.rows
      (applyValidated t.rows run runId appliedAt).receipt).refused = []
  again : ∀ runId appliedAt, ∃ second,
    validateApply localeCompare (applyValidated t.rows run runId appliedAt).after mapping =
      .proceed second ∧ second.writes = []
  settled : ∀ runId appliedAt (later : Table),
    KeepsKeys (applyValidated t.rows run runId appliedAt).after later.rows →
    writesOf (validateApply localeCompare later.rows mapping) = []

theorem Accepted.reversible {run : ValidatedRun} (h : Accepted t mapping run)
    (localeCompare : JsString → JsString → Int) :
    Reversible localeCompare t mapping run where
  frame := by
    intro runId appliedAt
    rw [applyValidated_after]
    refine ⟨?_, watched_patch t (written run)⟩
    rw [KeyedPart.patch, forall₂_map_right_iff, forall₂_same]
    intro row _
    exact KeyedPart.sameRest_patchRow row
  undone := by
    intro runId appliedAt revertedAt later kept
    rw [applyValidated_after] at kept
    exact reverted_rows localeCompare h kept
  complete := by
    intro runId appliedAt later kept there
    rw [applyValidated_after] at kept
    exact reverted_all localeCompare h kept there
  again := by
    intro runId appliedAt
    rw [applyValidated_after]
    obtain ⟨second, hsecond, _⟩ := validateApply_agrees localeCompare h.agrees_after
    have hnone := h.writes_later (keepsKeys_self (appliedTable t run)) localeCompare
    rw [hsecond] at hnone
    exact ⟨second, hsecond, hnone⟩
  settled := by
    intro runId appliedAt later kept
    rw [applyValidated_after] at kept
    exact h.writes_later kept localeCompare

/-- A mapping that agrees with the table proceeds to a run that can be undone and
repeated, any other is refused and writes nothing. -/
theorem apply_reversible (localeCompare : JsString → JsString → Int) (t : Table)
    (mapping : Mapping) :
    (Agrees t.rows mapping ∧ ∃ run, validateApply localeCompare t.rows mapping = .proceed run ∧
      Reversible localeCompare t mapping run) ∨
    (¬ Agrees t.rows mapping ∧ ∃ differences, differences ≠ [] ∧
      validateApply localeCompare t.rows mapping = .refuse differences) := by
  by_cases h : Agrees t.rows mapping
  · obtain ⟨run, hrun, _⟩ := validateApply_agrees localeCompare h
    exact .inl ⟨h, run, hrun, (accepted localeCompare hrun).reversible localeCompare⟩
  · exact .inr ⟨h, validateApply_differs localeCompare h⟩

end ApplyRevert
