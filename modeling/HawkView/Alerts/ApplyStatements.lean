import HawkView.Alerts.ApplyRevert

/-!
# The two statements

The apply and the revert run as one conditional update each, in a transaction
that is rolled back unless it counts as many rows as expected. The update of the
apply does what `applyValidated` does. That of the revert sets both columns to
null, which is what `revertValidated` does only where nothing was there before.
-/

namespace ApplyStatements

open ApplyMapping ApplyRevert SqlWhere List Option

/-- A row of the `VALUES` list, with what the statement sets from it and what it
asks of a notification beside the id. -/
structure Value where
  id : JsString
  set : Keying
  guard : Condition StoredRow

structure BulkStatement where
  values : List Value
  expectedRowCount : Nat

def applyValue (write : Write) : Value where
  id := write.notificationId
  set := write.next.keying
  guard := allOf [
    isNull StoredRow.incidentKey,
    equals (fun n => some n.dedupeKey) write.expectedDedupeKey,
    equals (fun n => some n.occurrenceCount) write.expectedOccurrenceCount]

def applyStatement (run : ValidatedRun) : BulkStatement where
  values := run.writes.map applyValue
  expectedRowCount := run.writes.length

def revertValue (entry : Change) : Value where
  id := entry.notificationId
  set := ⟨none, none⟩
  guard := allOf [
    equals StoredRow.incidentKey entry.written.incidentKey,
    notDistinct StoredRow.episode entry.written.episode]

/-- The changes of the receipt that the decision approved. -/
def approved (receipt : ApplyReceipt) (decision : RevertDecision) : List Change :=
  receipt.changed.filter fun entry => entry.notificationId ∈ decision.rows

def revertStatement (receipt : ApplyReceipt) (decision : RevertDecision) : BulkStatement where
  values := (approved receipt decision).map revertValue
  expectedRowCount := ((approved receipt decision).map revertValue).length

/-! ## Execution -/

/-- `uuid` is the cast of a text, `takes` what the two columns have room for, and
`choose` the row that an update takes where several join. -/
structure Postgres where
  uuid : JsString → Option JsString
  takes : JsString → Option Nat → Bool
  choose : KeyedPart.Choice Value

def Postgres.admits (db : Postgres) (p : Keying) : Bool :=
  match p.incidentKey with
  | none => true
  | some key => db.takes key p.episode

/-- The condition that joins a value to a notification. -/
def joinsOn (v : Value) : Condition StoredRow :=
  allOf [equals (fun n => some n.id) v.id, v.guard]

/-- The rows after the statement and their number, unless it fails. -/
def executeRaw (db : Postgres) (st : BulkStatement) (rows : StoredSnapshot) :
    Option (StoredSnapshot × Nat) := do
  if st.values = [] then none
  let values ← st.values.mapM fun v => (db.uuid v.id).map fun id => { v with id := id }
  let write := KeyedPart.updateRow db.choose joinsOn (fun v => keying.place v.set) values
  let written := KeyedPart.affected joinsOn values rows
  if written.all fun n => db.admits (keying.part (write n)) then
    some (rows.map write, written.length)
  else none

/-- The transaction of the runner. -/
def execute (db : Postgres) (st : BulkStatement) (rows : StoredSnapshot) : StoredSnapshot :=
  match executeRaw db st rows with
  | none => rows
  | some (after, count) => if count = st.expectedRowCount then after else rows

/-- A table whose ids are read back from a column of UUIDs. -/
structure Stored (db : Postgres) extends Table where
  canonical : ∀ row ∈ rows, db.uuid row.id = some row.id

/-! ## What a transaction leaves -/

@[simp] theorem selects_joinsOn {v : Value} {row : StoredRow} :
    Selects (joinsOn v) row ↔ row.id = v.id ∧ Selects v.guard row := by
  simp [joinsOn]

/-- Each value has an id of its own and a row that it joins. -/
structure Complete (st : BulkStatement) (rows : StoredSnapshot) : Prop where
  once : (st.values.map Value.id).Nodup
  joined : ∀ v ∈ st.values, ∃ row ∈ rows, Selects (joinsOn v) row

/-- A statement that expects all of its values to be written. -/
structure Whole (db : Postgres) (st : BulkStatement) : Prop where
  expected : st.expectedRowCount = st.values.length
  canonical : ∀ v ∈ st.values, db.uuid v.id = some v.id

def setFor (st : BulkStatement) (id : JsString) : Option Keying :=
  (st.values.find? fun v => v.id = id).map Value.set

section Transaction

variable {db : Postgres} {st : BulkStatement}

variable {vs : List Value}

theorem cast_values (canonical : ∀ v ∈ vs, db.uuid v.id = some v.id) :
    (vs.mapM fun v => (db.uuid v.id).map fun id => { v with id := id }) = some vs := by
  induction vs with
  | nil => rfl
  | cons v vs ih =>
    rw [forall_mem_cons] at canonical
    simp [mapM_cons, canonical.1, ih canonical.2]

theorem affected_complete (h : Whole db st) (t : Table) :
    (KeyedPart.affected joinsOn st.values t.rows).length = st.expectedRowCount ↔
      Complete st t.rows := by
  have hjoined : ∀ v ∈ st.values, ∀ row ∈ t.rows, Selects (joinsOn v) row →
      keying.key row = v.id := by
    intro v _ row _ hselects
    exact (selects_joinsOn.mp hselects).1
  rw [h.expected, KeyedPart.affected_all (L := keying) t.unique hjoined]
  constructor
  · rintro ⟨honce, hall⟩
    exact ⟨honce, hall⟩
  · rintro ⟨honce, hall⟩
    exact ⟨honce, hall⟩

/-- The transaction is rolled back, or each value has set its row. -/
theorem execute_cases (h : Whole db st) (t : Table) :
    execute db st t.rows = t.rows ∨
      Complete st t.rows ∧ execute db st t.rows = keying.patch (setFor st) t.rows := by
  unfold execute executeRaw
  by_cases hempty : st.values = []
  · simp [hempty]
  · simp only [hempty, if_false, cast_values h.canonical, bind_eq_bind, bind_some]
    split
    next => exact .inl rfl
    next after count hresult =>
      split_ifs with hcount
      · right
        split at hresult
        next =>
          cases hresult
          have hcomplete := (affected_complete h t).mp hcount
          refine ⟨hcomplete, ?_⟩
          apply KeyedPart.map_updateRow (L := keying) db.choose Value.set t.unique _
            hcomplete.once hcomplete.joined
          intro v _ row _ hselects
          exact (selects_joinsOn.mp hselects).1
        next => cases hresult
      · exact .inl rfl

/-- A row that is written has what some value sets. -/
theorem part_updateRow (db : Postgres) {rows : StoredSnapshot} {row : StoredRow}
    (h : row ∈ KeyedPart.affected joinsOn vs rows) :
    ∃ v ∈ vs, keying.part (KeyedPart.updateRow db.choose joinsOn (fun v => keying.place v.set) vs
      row) = v.set := by
  obtain ⟨_, v, hv, hselects⟩ := KeyedPart.mem_affected.mp h
  have hsome : KeyedPart.joins joinsOn vs row ≠ [] :=
    ne_nil_of_mem (KeyedPart.mem_joins.mpr ⟨hv, hselects⟩)
  rw [KeyedPart.updateRow, dif_neg hsome]
  obtain ⟨chosen, hchosen⟩ := db.choose _ hsome
  exact ⟨chosen, (KeyedPart.mem_joins.mp hchosen).1, rfl⟩

theorem execute_complete (h : Whole db st) (t : Table) (complete : Complete st t.rows)
    (admitted : ∀ v ∈ st.values, db.admits v.set = true) :
    execute db st t.rows = keying.patch (setFor st) t.rows := by
  by_cases hempty : st.values = []
  · rw [KeyedPart.patch_eq_self (by simp [setFor, hempty]), execute, executeRaw, if_pos hempty]
    rfl
  · have hall : ((KeyedPart.affected joinsOn st.values t.rows).all fun row =>
        db.admits (keying.part (KeyedPart.updateRow db.choose joinsOn
          (fun v => keying.place v.set) st.values row))) = true := by
      rw [List.all_eq_true]
      intro row hrow
      obtain ⟨v, hv, hpart⟩ := part_updateRow db hrow
      rw [hpart]
      exact admitted v hv
    have hcount := (affected_complete h t).mpr complete
    simp only [execute, executeRaw, hempty, if_false, cast_values h.canonical,
      bind_eq_bind, bind_some, hall, if_true, hcount]
    apply KeyedPart.map_updateRow (L := keying) db.choose Value.set t.unique _
      complete.once complete.joined
    intro v _ row _ hselects
    exact (selects_joinsOn.mp hselects).1

end Transaction

/-! ## The apply -/

section Apply

variable {db : Postgres} {run : ValidatedRun}

theorem setFor_applyStatement (once : ((applyStatement run).values.map Value.id).Nodup) :
    setFor (applyStatement run) = written run := by
  have hunique : (run.writes.map Write.notificationId).Nodup := by
    rw [applyStatement, List.map_map] at once
    exact once
  funext id
  rw [written, JsMap.get?_ofList_map hunique, setFor, applyStatement, find?_map,
    Option.map_map, Option.map_map]
  rfl

theorem whole_applyStatement {t : Stored db} {mapping : Mapping}
    (h : Accepted t.toTable mapping run) : Whole db (applyStatement run) where
  expected := by rw [applyStatement, length_map]
  canonical := by
    intro v hv
    obtain ⟨w, hw, rfl⟩ := mem_map.mp hv
    obtain ⟨e, row, hrow, _, _, _, rfl⟩ := h.mem_writes.mp hw
    exact t.canonical row hrow

end Apply

/-! ## The revert -/

section Revert

variable {db : Postgres} (localeCompare : JsString → JsString → Int) {receipt : ApplyReceipt}
  {decision : RevertDecision}

theorem mem_approved {entry : Change} :
    entry ∈ approved receipt decision ↔
      entry ∈ receipt.changed ∧ entry.notificationId ∈ decision.rows := by
  rw [approved, mem_filter, decide_eq_true_eq]

/-- The approved rows are once each as the receipt says they were written. -/
structure StillWritten (rows : StoredSnapshot) (receipt : ApplyReceipt)
    (decision : RevertDecision) : Prop where
  once : ((approved receipt decision).map Change.notificationId).Nodup
  written : ∀ entry ∈ approved receipt decision, ∃ row ∈ rows, row.id = entry.notificationId ∧
    row.incidentKey = some entry.written.incidentKey ∧ row.episode = entry.written.episode

theorem complete_revertStatement {rows : StoredSnapshot} :
    Complete (revertStatement receipt decision) rows ↔ StillWritten rows receipt decision := by
  have hids : (revertStatement receipt decision).values.map Value.id =
      (approved receipt decision).map Change.notificationId := by
    rw [revertStatement, List.map_map]
    rfl
  have hjoins : ∀ entry row, Selects (joinsOn (revertValue entry)) row ↔
      row.id = entry.notificationId ∧ row.incidentKey = some entry.written.incidentKey ∧
        row.episode = entry.written.episode := by
    intro entry row
    simp [revertValue]
  constructor
  · rintro ⟨honce, hjoined⟩
    refine ⟨hids ▸ honce, ?_⟩
    intro entry hentry
    obtain ⟨row, hrow, hselects⟩ := hjoined _ (mem_map_of_mem hentry)
    exact ⟨row, hrow, (hjoins entry row).mp hselects⟩
  · rintro ⟨honce, hwritten⟩
    refine ⟨hids ▸ honce, ?_⟩
    intro v hv
    obtain ⟨entry, hentry, rfl⟩ := mem_map.mp hv
    obtain ⟨row, hrow, hheld⟩ := hwritten entry hentry
    exact ⟨row, hrow, (hjoins entry row).mpr hheld⟩

theorem whole_revertStatement (t : Stored db) (receipt : ApplyReceipt) :
    Whole db (revertStatement receipt (validateRevert localeCompare t.rows receipt)) where
  expected := rfl
  canonical := by
    intro v hv
    obtain ⟨entry, hentry, rfl⟩ := mem_map.mp hv
    obtain ⟨_, _, _, row, hrow, hid, _⟩ :=
      (mem_revert_rows localeCompare).mp (mem_approved.mp hentry).2
    have hcanonical := t.canonical row hrow
    rwa [hid] at hcanonical

theorem setFor_revertStatement (receipt : ApplyReceipt) (decision : RevertDecision)
    (id : JsString) :
    setFor (revertStatement receipt decision) id =
      ((approved receipt decision).find? fun entry => entry.notificationId = id).map
        fun _ => ⟨none, none⟩ := by
  rw [setFor, revertStatement, find?_map, Option.map_map]
  rfl

/-- Where the approved ids are distinct, each is restored from its own change. -/
theorem restored_approved (once : ((approved receipt decision).map Change.notificationId).Nodup)
    (listed : ∀ id ∈ decision.rows, ∃ entry ∈ receipt.changed, entry.notificationId = id)
    (id : JsString) :
    restored receipt decision id =
      ((approved receipt decision).find? fun entry => entry.notificationId = id).map
        Change.previous := by
  cases hfind : (approved receipt decision).find? fun entry => entry.notificationId = id with
  | none =>
    rw [DistinctKeys.find_none] at hfind
    rw [restored, if_pos]
    · rfl
    · intro hrows
      obtain ⟨entry, hentry, hid⟩ := listed id hrows
      exact hfind entry (mem_approved.mpr ⟨hentry, hid ▸ hrows⟩) hid
  | some entry =>
    obtain ⟨happroved, hid⟩ := (DistinctKeys.find_some once).mp hfind
    obtain ⟨hchanged, hrows⟩ := mem_approved.mp happroved
    rw [hid] at hrows
    rw [restored, if_neg (not_not.mpr hrows)]
    apply JsMap.get?_ofList_only
    · exact mem_map.mpr ⟨entry, hchanged, by rw [hid]⟩
    · intro previous hmem
      obtain ⟨other, hother, heq⟩ := mem_map.mp hmem
      cases heq
      have hsame := inj_on_of_nodup_map once (mem_approved.mpr ⟨hother, hrows⟩) happroved
        hid.symm
      rw [hsame]

/-- Before the apply the approved rows had no incident key and no episode. -/
def NothingBefore (receipt : ApplyReceipt) (decision : RevertDecision) : Prop :=
  ∀ entry ∈ approved receipt decision, entry.previous = ⟨none, none⟩

/-- Where every approved row is written, the two reverts agree if and only if there
was nothing before. -/
theorem patches_agree {t : Table} (still : StillWritten t.rows receipt decision)
    (listed : ∀ id ∈ decision.rows, ∃ entry ∈ receipt.changed, entry.notificationId = id) :
    keying.patch (setFor (revertStatement receipt decision)) t.rows =
      keying.patch (restored receipt decision) t.rows ↔ NothingBefore receipt decision := by
  have hset := setFor_revertStatement receipt decision
  have hrestored := restored_approved still.once listed
  rw [KeyedPart.patch_eq_iff]
  · constructor
    · intro hall entry hentry
      obtain ⟨row, hrow, hid, _⟩ := still.written entry hentry
      have hrow' := hall row hrow
      have hfind := (DistinctKeys.find_some still.once).mpr ⟨hentry, hid.symm⟩
      rw [hset, hrestored, show keying.key row = row.id from rfl, hfind, map_some,
        map_some, Option.some.injEq] at hrow'
      exact hrow'.symm
    · intro hnothing row _
      rw [hset, hrestored]
      cases hfind : (approved receipt decision).find? fun e =>
          e.notificationId = keying.key row with
      | none => rfl
      | some e =>
        rw [map_some, map_some, hnothing e (mem_of_find?_eq_some hfind)]
  · intro row _
    rw [hset, hrestored, isSome_map, isSome_map]

/-- A row that is written does not keep its key under the statement. -/
theorem patch_changes {t : Table} (still : StillWritten t.rows receipt decision)
    (h : keying.patch (setFor (revertStatement receipt decision)) t.rows = t.rows) :
    approved receipt decision = [] := by
  rw [eq_nil_iff_forall_not_mem]
  intro entry hentry
  obtain ⟨row, hrow, hid, hkey, _⟩ := still.written entry hentry
  have hrow' : keying.patchRow (setFor (revertStatement receipt decision)) row = row := by
    rw [KeyedPart.patch] at h
    conv_rhs at h => rw [← map_id t.rows]
    exact List.map_inj_left.mp h row hrow
  unfold KeyedPart.patchRow at hrow'
  have hfind := (DistinctKeys.find_some still.once).mpr ⟨hentry, hid.symm⟩
  rw [setFor_revertStatement, show keying.key row = row.id from rfl, hfind] at hrow'
  have hgone : row.incidentKey = none := (congrArg StoredRow.incidentKey hrow').symm
  rw [hkey] at hgone
  cases hgone

end Revert

/-! ## Both statements -/

/-- A transaction changes nothing, or what the function of the model changes. -/
def Leaves (before executed modelled : StoredSnapshot) : Prop :=
  executed = before ∨ executed = modelled

instance (before executed modelled : StoredSnapshot) :
    Decidable (Leaves before executed modelled) :=
  inferInstanceAs (Decidable (_ ∨ _))

variable {db : Postgres}

theorem apply_leaves {localeCompare : JsString → JsString → Int} (seen now : Stored db)
    {mapping : Mapping} {run : ValidatedRun}
    (h : validateApply localeCompare seen.rows mapping = .proceed run)
    (runId appliedAt : JsString) :
    Leaves now.rows (execute db (applyStatement run) now.rows)
      (applyValidated now.rows run runId appliedAt).after := by
  have haccepted := accepted localeCompare (t := seen.toTable) h
  rcases execute_cases (whole_applyStatement haccepted) now.toTable with hsame | ⟨hall, hpatch⟩
  · exact .inl hsame
  · right
    rw [hpatch, setFor_applyStatement hall.once, applyValidated_after]

theorem revert_leaves (localeCompare : JsString → JsString → Int) (seen now : Stored db)
    (receipt : ApplyReceipt) (revertedAt : JsString) :
    Leaves now.rows
      (execute db (revertStatement receipt (validateRevert localeCompare seen.rows receipt))
        now.rows)
      (revertValidated now.rows receipt (validateRevert localeCompare seen.rows receipt)
        revertedAt).after ↔
    NothingBefore receipt (validateRevert localeCompare seen.rows receipt) ∨
      ¬ StillWritten now.rows receipt (validateRevert localeCompare seen.rows receipt) := by
  have hlisted : ∀ id ∈ (validateRevert localeCompare seen.rows receipt).rows,
      ∃ entry ∈ receipt.changed, entry.notificationId = id := by
    intro id hid
    obtain ⟨entry, hentry, hsame, _⟩ :=
      (mem_revert_rows (t := seen.toTable) localeCompare).mp hid
    exact ⟨entry, hentry, hsame⟩
  have hwhole := whole_revertStatement localeCompare seen receipt
  generalize validateRevert localeCompare seen.rows receipt = decision at hlisted hwhole ⊢
  rw [revertValidated_after]
  by_cases hstill : StillWritten now.rows receipt decision
  · have hexecute := execute_complete hwhole now.toTable
      (complete_revertStatement.mpr hstill) (by
        intro v hv
        obtain ⟨entry, _, rfl⟩ := mem_map.mp hv
        rfl)
    have hagree := patches_agree (t := now.toTable) hstill hlisted
    rw [Leaves, hexecute, hagree]
    constructor
    · rintro (hsame | hnothing)
      · left
        intro entry hentry
        rw [patch_changes (t := now.toTable) hstill hsame] at hentry
        cases hentry
      · exact .inl hnothing
    · rintro (hnothing | hnot)
      · exact .inr hnothing
      · exact absurd hstill hnot
  · rcases execute_cases hwhole now.toTable with hsame | ⟨hall, _⟩
    · exact iff_of_true (.inl hsame) (.inr hstill)
    · exact absurd (complete_revertStatement.mp hall) hstill

/-- The apply always does what its function does. The revert does if and only if
nothing was there before, or it is rolled back. -/
theorem statements_leave (db : Postgres) (localeCompare : JsString → JsString → Int)
    (seen now : Stored db) :
    (∀ (mapping : Mapping) (run : ValidatedRun) (runId appliedAt : JsString),
      validateApply localeCompare seen.rows mapping = .proceed run →
      Leaves now.rows (execute db (applyStatement run) now.rows)
        (applyValidated now.rows run runId appliedAt).after) ∧
    ∀ (receipt : ApplyReceipt) (decision : RevertDecision) (revertedAt : JsString),
      decision = validateRevert localeCompare seen.rows receipt →
      (Leaves now.rows (execute db (revertStatement receipt decision) now.rows)
          (revertValidated now.rows receipt decision revertedAt).after ↔
        NothingBefore receipt decision ∨ ¬ StillWritten now.rows receipt decision) := by
  constructor
  · intro mapping run runId appliedAt h
    exact apply_leaves seen now h runId appliedAt
  · rintro receipt decision revertedAt rfl
    exact revert_leaves localeCompare seen now receipt revertedAt

/-! ## An episode without a key -/

def samplePostgres : Postgres where
  uuid text :=
    let lower := JsString.lowerLatin text
    if isUuid lower then some lower else none
  takes key _ := key.length ≤ 400
  choose vs h := ⟨vs.head h, head_mem h⟩

def sampleRow : StoredRow where
  occurrenceCount := 4
  resolvedAt := none
  lastOccurredAt := js "2026-09-12T00:00:00.000Z"
  id := js "11111111-1111-4111-8111-111111111111"
  organizationId := js "0a000000-0000-4000-8000-000000000001"
  dedupeKey := js "tenant:1:initial-sync"
  incidentKey := none
  episode := some 3

def sampleMapping : Mapping :=
  [.write ⟨sampleRow.id, js "incident", some 1, digestOf sampleRow⟩]

def sampleRun : ValidatedRun := ⟨[writeOf sampleRow ⟨sampleRow.id, js "incident", some 1,
  digestOf sampleRow⟩], [], []⟩

def sampleReceipt : ApplyReceipt :=
  (applyValidated [sampleRow] sampleRun (js "run") (js "2026-09-12T01:00:00.000Z")).receipt

def keyedRow : StoredRow := sampleRow.withKeying ⟨some (js "incident"), some 1⟩

def unicode (left right : JsString) : Int := if left ≤ right then 0 else 1

def sampleStored : Stored samplePostgres where
  rows := [sampleRow]
  unique := nodup_singleton _
  canonical := by decide +kernel

theorem statements_leave_sample :
    Leaves [sampleRow] (execute samplePostgres (applyStatement sampleRun) [sampleRow])
      (applyValidated [sampleRow] sampleRun (js "run") (js "2026-09-12T01:00:00.000Z")).after :=
  (statements_leave samplePostgres unicode sampleStored sampleStored).1 sampleMapping sampleRun
    (js "run") (js "2026-09-12T01:00:00.000Z") (by decide +kernel)

/-- The apply records that the row had episode 3. The statement of the revert sets
it to null, `revertValidated` to 3. -/
theorem revert_drops_episode :
    validateApply unicode [sampleRow] sampleMapping = .proceed sampleRun ∧
    execute samplePostgres (applyStatement sampleRun) [sampleRow] = [keyedRow] ∧
    execute samplePostgres
        (revertStatement sampleReceipt (validateRevert unicode [keyedRow] sampleReceipt))
        [keyedRow] = [sampleRow.withKeying ⟨none, none⟩] ∧
    (revertValidated [keyedRow] sampleReceipt (validateRevert unicode [keyedRow] sampleReceipt)
        (js "2026-09-12T02:00:00.000Z")).after = [sampleRow] ∧
    ¬ Leaves [keyedRow]
      (execute samplePostgres
        (revertStatement sampleReceipt (validateRevert unicode [keyedRow] sampleReceipt))
        [keyedRow])
      (revertValidated [keyedRow] sampleReceipt
        (validateRevert unicode [keyedRow] sampleReceipt) (js "2026-09-12T02:00:00.000Z")).after := by
  decide +kernel

end ApplyStatements
