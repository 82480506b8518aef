import HawkView.Lib.JsonSize
import HawkView.RiskyUsers.FleetExact
import HawkView.RiskyUsers.RecordRoundTrip

/-!
# A worse reading is not exact

Taking rows away, gating tenants, capping the scope and ageing clocks that are in
order never make a fleet exact.
-/

namespace FleetSummary

open List Option

open Json RunRecord Traverse
open ChangeEvidence (Date)

/-! ## Older clocks -/

/-- A clock that is not younger, or whatever was there before. -/
def Older (value value' : Option JsString) : Prop :=
  value' = value ∨ ∃ t t', utcClock value = some t ∧ utcClock value' = some t' ∧ t' ≤ t

variable {value value' : Option JsString}

theorem Older.clock (h : Older value value') {t' : Int} (ht' : utcClock value' = some t') :
    ∃ t, utcClock value = some t ∧ t' ≤ t := by
  rcases h with rfl | ⟨t, u, ht, hu, hle⟩
  · exact ⟨t', ht', Int.le_refl _⟩
  · rw [hu] at ht'
    cases ht'
    exact ⟨t, ht, hle⟩

/-- Entries of the same names whose values are related. -/
def Entrywise (R : JsString → Json → Json → Prop) (entries others : Fields) : Prop :=
  List.Forall₂ (fun e f => e.1 = f.1 ∧ R e.1 e.2 f.2) entries others

variable {entries others : Fields}

theorem Entrywise.lookup {R : JsString → Json → Json → Prop} (h : Entrywise R entries others)
    (name : JsString) :
    entries.lookup name = none ∧ others.lookup name = none ∨
      ∃ v w, entries.lookup name = some v ∧ others.lookup name = some w ∧ R name v w := by
  induction h with
  | nil => exact .inl ⟨rfl, rfl⟩
  | @cons e f _ _ he _ ih =>
    obtain ⟨key, v⟩ := e
    obtain ⟨other, w⟩ := f
    obtain ⟨rfl, hR⟩ := he
    by_cases hname : name = key
    · subst hname
      exact .inr ⟨v, w, by simp, by simp, hR⟩
    · have hne : (name == key) = false := beq_false_of_ne hname
      simpa [lookup_cons, hne] using ih

/-- The value of a source's clock, or any value that is left as it is. -/
def AgedField (name : JsString) (v w : Json) : Prop :=
  w = v ∨ name = js "lastSuccessfulCollectionAt" ∧
    ∃ s t, v = .string s ∧ w = .string t ∧ Older (some s) (some t)

def AgedSource (v w : Json) : Prop :=
  w = v ∨ ∃ entries others, v = .object entries ∧ w = .object others ∧
    Entrywise AgedField entries others

def AgedPart (name : JsString) (v w : Json) : Prop :=
  w = v ∨ name = js "sources" ∧ ∃ items others, v = .array items ∧ w = .array others ∧
    List.Forall₂ AgedSource items others

/-- The document of the findings with older clocks of its sources. -/
def AgedFindings (v w : Option Json) : Prop :=
  w = v ∨ ∃ entries others, v = some (.object entries) ∧ w = some (.object others) ∧
    Entrywise AgedPart entries others

/-- The row with older clocks. -/
structure AgedRow (row row' : BatchRow) : Prop where
  key : row'.key = row.key
  coverage : row'.evaluationCoverage = row.evaluationCoverage
  findings : AgedFindings row.evaluationFindings row'.evaluationFindings
  completedAt : Older row.completedAt row'.completedAt
  windowStart : Older row.windowStart row'.windowStart
  windowEnd : Older row.windowEnd row'.windowEnd
  expiresAt : Older row.expiresAt row'.expiresAt
  transferred : row'.readLimitExceeded = row.readLimitExceeded
  status : row'.collectorStatus = row.collectorStatus
  collected : Older row.collectorLastSuccessfulAt row'.collectorLastSuccessfulAt

/-! ## The document is read as before -/

theorem older_respelled {s t : JsString} (h : Older (some s) (some t)) :
    Respelled (quote s) (quote t) := by
  rcases h with heq | ⟨_, _, hs, ht, _⟩
  · cases heq
    exact .refl _
  · simp only [utcClock, bind_some] at hs ht
    split at hs
    · rename_i hcs
      split at ht
      · rename_i hct
        exact respelled_quote (IsoTime.canonical_plain hs hcs) (IsoTime.canonical_plain ht hct)
          (hcs.trans hct.symm)
      · cases ht
    · cases hs

theorem respelled_source {v w : Json} (h : AgedSource v w) :
    Respelled (stringify v) (stringify w) := by
  rcases h with rfl | ⟨entries, others, rfl, rfl, hentries⟩
  · exact .refl _
  · apply respelled_entries
    refine hentries.imp fun e f he => ⟨he.1, ?_⟩
    rcases he.2 with hsame | ⟨_, s, t, hs, ht, holder⟩
    · rw [hsame]
      exact .refl _
    · rw [hs, ht]
      exact older_respelled holder

theorem respelled_part (h : Entrywise AgedPart entries others) :
    Respelled (stringify (.object entries)) (stringify (.object others)) := by
  apply respelled_entries
  refine h.imp fun e f he => ⟨he.1, ?_⟩
  rcases he.2 with hsame | ⟨_, items, more, hitems, hmore, hsources⟩
  · rw [hsame]
    exact .refl _
  · rw [hitems, hmore]
    exact respelled_items (hsources.imp fun v w => respelled_source)

/-- Two values that spend the same. -/
def SpendsAlike (v w : Json) : Prop :=
  ∀ depth budget, safeDocument depth v budget = safeDocument depth w budget

variable {items : List Json}

theorem spends_items {others : List Json} (h : Forall₂ SpendsAlike items others)
    (depth budget : Nat) : safeItems depth items budget = safeItems depth others budget := by
  induction h generalizing budget with
  | nil => rfl
  | cons hv _ ih => simp only [safeItems, hv depth budget, ih]

theorem spends_entries
    (h : Forall₂ (fun e f => e.1 = f.1 ∧ SpendsAlike e.2 f.2) entries others)
    (depth budget : Nat) : safeEntries depth entries budget = safeEntries depth others budget := by
  induction h generalizing budget with
  | nil => rfl
  | @cons e f _ _ he _ ih =>
    obtain ⟨name, v⟩ := e
    obtain ⟨other, w⟩ := f
    obtain ⟨rfl, hv⟩ := he
    simp only [safeEntries, hv depth budget, ih]

theorem spends_source {v w : Json} (h : AgedSource v w) : SpendsAlike v w := by
  rcases h with rfl | ⟨entries, others, rfl, rfl, hentries⟩
  · exact fun _ _ => rfl
  · intro depth budget
    have heach := spends_entries (hentries.imp fun e f he => by
      refine ⟨he.1, ?_⟩
      rcases he.2 with hsame | ⟨_, s, t, hs, ht, _⟩
      · rw [hsame]
        exact fun _ _ => rfl
      · rw [hs, ht]
        exact fun _ _ => by simp only [safeDocument])
    simp only [safeDocument, heach]

section

variable (h : Entrywise AgedPart entries others)
include h

theorem spends_part :
    SpendsAlike (.object entries) (.object others) := by
  intro depth budget
  have heach := spends_entries (h.imp fun e f he => by
    refine ⟨he.1, ?_⟩
    rcases he.2 with hsame | ⟨_, items, more, hitems, hmore, hsources⟩
    · rw [hsame]
      exact fun _ _ => rfl
    · rw [hitems, hmore]
      intro depth budget
      simp only [safeDocument, spends_items (hsources.imp fun v w => spends_source)])
  simp only [safeDocument, heach]

/-- A part that is not the sources is the same. -/
theorem part_same {name : JsString}
    (other : name ≠ js "sources") :
    others.lookup name = entries.lookup name := by
  rcases h.lookup name with ⟨hnone, hnone'⟩ | ⟨v, w, hv, hw, hsame | ⟨heq, _⟩⟩
  · rw [hnone, hnone']
  · rw [hv, hw, hsame]
  · exact absurd heq other

theorem part_sources :
    Forall₂ AgedSource ((itemsOf (entries.lookup (js "sources"))).getD [])
      ((itemsOf (others.lookup (js "sources"))).getD []) := by
  rcases h.lookup (js "sources") with ⟨hnone, hnone'⟩ | ⟨v, w, hv, hw, hsame | ⟨_, items, more, hitems,
    hmore, hsources⟩⟩
  · rw [hnone, hnone']
    exact .nil
  · rw [hv, hw, hsame, forall₂_same]
    exact fun _ _ => .inl rfl
  · rw [hv, hw, hitems, hmore]
    exact hsources

end

variable {v w : Option Json}

theorem aged_verdict (h : AgedFindings v w) :
    validVerdict w = validVerdict v := by
  rcases h with rfl | ⟨entries, others, rfl, rfl, hparts⟩
  · rfl
  · simp only [validVerdict, fieldsOf, any_some,
      part_same hparts (by decide : js "count" ≠ js "sources"),
      part_same hparts (by decide : js "claim" ≠ js "sources")]

theorem aged_safe (h : AgedFindings v w) :
    isSafeDocument w = isSafeDocument v := by
  rcases h with rfl | ⟨entries, others, rfl, rfl, hparts⟩
  · rfl
  · simp only [isSafeDocument, any_some, spends_part hparts 0 50000]

variable {row row' : BatchRow}

theorem aged_size (h : AgedRow row row') : sizeOf row' = sizeOf row := by
  rw [sizeOf, sizeOf, h.coverage]
  rcases h.findings with heq | ⟨entries, others, hv, hw, hparts⟩
  · rw [heq]
  · rw [hv, hw]
    simp only [bind, bind_some, (respelled_part hparts).byteLength]

/-- What is read of the findings, which differ in their sources. -/
theorem aged_decoded (h : AgedFindings v w) {stored' : StoredFindings}
    (hw : decodeRunFindings w = .ok stored') :
    ∃ sources, decodeRunFindings v = .ok { stored' with sources := sources } ∧
      Forall₂ AgedSource sources stored'.sources := by
  rcases h with rfl | ⟨entries, others, rfl, rfl, hparts⟩
  · refine ⟨stored'.sources, hw, ?_⟩
    rw [forall₂_same]
    exact fun _ _ => .inl rfl
  · obtain ⟨_, stored, items, version, list, each, count, claim, complete, sources⟩ :=
      decodeRunFindings_ok.mp hw
    have hsame (name : JsString) (h : name ≠ js "sources") := part_same hparts h
    rw [hsame (js "version") (by decide)] at version
    rw [hsame (js "items") (by decide)] at list
    rw [hsame (js "count") (by decide)] at count
    rw [hsame (js "claim") (by decide)] at claim
    rw [hsame (js "complete") (by decide)] at complete
    refine ⟨(itemsOf (entries.lookup (js "sources"))).getD [], ?_, ?_⟩
    · exact decodeRunFindings_ok.mpr ⟨entries, _, items, version, list, each, count, claim,
        complete, rfl⟩
    · rw [sources]
      exact part_sources hparts

/-! ## What was fresh was fresher -/

/-- No clock of a row is ahead of the one that bounds it. -/
structure InOrder (row : BatchRow) (now : Int) : Prop where
  window : ∀ t u, utcClock row.windowStart = some t → utcClock row.windowEnd = some u → t ≤ u
  closed : ∀ t u, utcClock row.windowEnd = some t → utcClock row.completedAt = some u → t ≤ u
  completed : ∀ t, utcClock row.completedAt = some t → t ≤ now
  collected : ∀ t, utcClock row.collectorLastSuccessfulAt = some t → t ≤ now
  sources : ∀ stored, decodeRunFindings row.evaluationFindings = .ok stored →
    ∀ source, .object source ∈ stored.sources → ∀ t u,
      utcClock (textOf (source.lookup (js "lastSuccessfulCollectionAt"))) = some t →
      utcClock row.completedAt = some u → t ≤ u

theorem Entrywise.agedField (h : Entrywise AgedField entries others) :
    (∀ name, name ≠ js "lastSuccessfulCollectionAt" → others.lookup name = entries.lookup name) ∧
      Older (textOf (entries.lookup (js "lastSuccessfulCollectionAt")))
        (textOf (others.lookup (js "lastSuccessfulCollectionAt"))) := by
  constructor
  · intro name hname
    rcases h.lookup name with ⟨hnone, hnone'⟩ | ⟨v, w, hv, hw, hsame | ⟨heq, _⟩⟩
    · rw [hnone, hnone']
    · rw [hv, hw, hsame]
    · exact absurd heq hname
  · rcases h.lookup (js "lastSuccessfulCollectionAt") with ⟨hnone, hnone'⟩ |
      ⟨v, w, hv, hw, hsame | ⟨_, s, t, hs, ht, holder⟩⟩
    · rw [hnone, hnone']
      exact .inl rfl
    · rw [hv, hw, hsame]
      exact .inl rfl
    · rw [hv, hw, hs, ht]
      exact holder

/-- A record of a stream and its older copy. -/
def AgedRecord (entries others : Fields) : Prop :=
  Entrywise AgedField entries others ∨ others = entries

theorem sourcesOf_aged {others : List Json} (h : Forall₂ AgedSource items others)
    (stream : JsString) :
    Forall₂ AgedRecord
      ((items.filterMap fun source => fieldsOf (some source)).filter fun source =>
        textOf (source.lookup (js "source")) == some stream)
      ((others.filterMap fun source => fieldsOf (some source)).filter fun source =>
        textOf (source.lookup (js "source")) == some stream) := by
  induction h with
  | nil => exact .nil
  | @cons v w _ _ hv _ ih =>
    have hrecord : ∀ {entries others : Fields}, AgedRecord entries others →
        textOf (others.lookup (js "source")) = textOf (entries.lookup (js "source")) := by
      rintro entries others (hentries | rfl)
      · rw [hentries.agedField.1 (js "source") (by decide)]
      · rfl
    have hboth : fieldsOf (some v) = none ∧ fieldsOf (some w) = none ∨
        ∃ entries others, fieldsOf (some v) = some entries ∧ fieldsOf (some w) = some others ∧
          AgedRecord entries others := by
      rcases hv with rfl | ⟨entries, others, rfl, rfl, hentries⟩
      · cases hfields : fieldsOf (some w) with
        | none => exact .inl ⟨rfl, rfl⟩
        | some entries => exact .inr ⟨entries, entries, rfl, rfl, .inr rfl⟩
      · exact .inr ⟨entries, others, rfl, rfl, .inl hentries⟩
    rcases hboth with ⟨hv, hw⟩ | ⟨entries, others, hv, hw, haged⟩
    · simpa only [filterMap_cons, hv, hw] using ih
    · simp only [filterMap_cons, hv, hw, filter_cons, hrecord haged]
      split
      · exact .cons haged ih
      · exact ih

variable {source source' : Fields}

theorem AgedRecord.status (h : AgedRecord source source') :
    textOf (source'.lookup (js "status")) = textOf (source.lookup (js "status")) := by
  rcases h with hentries | rfl
  · rw [hentries.agedField.1 (js "status") (by decide)]
  · rfl

theorem AgedRecord.older (h : AgedRecord source source') :
    Older (textOf (source.lookup (js "lastSuccessfulCollectionAt")))
      (textOf (source'.lookup (js "lastSuccessfulCollectionAt"))) := by
  rcases h with hentries | rfl
  · exact hentries.agedField.2
  · exact .inl rfl

variable {now now' : Int}

/-- A clock was recent before it aged, where it was not ahead. -/
theorem Recent.aged {bound bound' : Int} (h : Recent value' bound' now')
    (older : Older value value') (later : now ≤ now')
    (order : ∀ t, utcClock value = some t → t ≤ bound) : Recent value bound now := by
  obtain ⟨t', ht', _, hage⟩ := h
  obtain ⟨t, ht, hle⟩ := older.clock ht'
  exact ⟨t, ht, order t ht, by omega⟩

variable {stream : JsString}

theorem mem_sourcesOf {run : Run} (h : source ∈ sourcesOf run stream) :
    .object source ∈ run.sources := by
  obtain ⟨v, hv, hfields⟩ := mem_filterMap.mp (mem_of_mem_filter h)
  obtain rfl := Option.some.inj (fieldsOf_some.mp hfields)
  exact hv

variable {run' : Run}

theorem FreshSource.aged {run : Run} (h : FreshSource run' now' stream)
    (aged : Forall₂ AgedSource run.sources run'.sources) (later : now ≤ now')
    (order : ∀ source, .object source ∈ run.sources → ∀ t,
      utcClock (textOf (source.lookup (js "lastSuccessfulCollectionAt"))) = some t →
        t ≤ run.completedAt) :
    FreshSource run now stream := by
  obtain ⟨hknown, source', hsource', hfresh⟩ := h
  have hrecords := sourcesOf_aged aged stream
  change Forall₂ AgedRecord (sourcesOf run stream) (sourcesOf run' stream) at hrecords
  rw [hsource'] at hrecords
  obtain ⟨source, hrecord, hsource⟩ : ∃ source, AgedRecord source source' ∧
      sourcesOf run stream = [source] := by
    cases hlist : sourcesOf run stream with
    | nil =>
      rw [hlist] at hrecords
      cases hrecords
    | cons source rest =>
      rw [hlist] at hrecords
      rcases hrecords with _ | ⟨hrecord, hrest⟩
      cases hrest
      exact ⟨source, hrecord, rfl⟩
  refine ⟨hknown, source, hsource, ?_, ?_⟩
  · apply hfresh.success.aged hrecord.older later
    exact order source (mem_sourcesOf (hsource ▸ mem_cons_self))
  · rw [← hrecord.status]
    exact hfresh.status

/-- A run with all its clocks older has a full basis only if it had one. -/
theorem FullBasis.aged (h : FullBasis row' now' run') (aged : AgedRow row row')
    (order : InOrder row now) (later : now ≤ now') :
    ∃ run, FullBasis row now run ∧ run.count = run'.count := by
  obtain ⟨completedAt, hcompleted, hcompleted'⟩ := aged.completedAt.clock h.completedAt
  obtain ⟨windowStart, hstart, _⟩ := aged.windowStart.clock h.windowStart
  obtain ⟨windowEnd, hend, hend'⟩ := aged.windowEnd.clock h.windowEnd
  obtain ⟨t', ht', hcurrent⟩ := h.current
  obtain ⟨t, ht, hle⟩ := aged.expiresAt.clock ht'
  obtain ⟨_, _, _, _, _, hcoverage, hfindings⟩ := decodeNativeRunRow_ok.mp h.decoded
  obtain ⟨sources, hdecoded, hsources⟩ :=
    aged_decoded aged.findings (decodeRunFindings_ok.mpr hfindings)
  rw [aged.coverage] at hcoverage
  have horder : ∀ source, .object source ∈ sources → ∀ t,
      utcClock (textOf (source.lookup (js "lastSuccessfulCollectionAt"))) = some t →
        t ≤ completedAt :=
    fun source hsource t ht => order.sources _ hdecoded source hsource t completedAt ht hcompleted
  obtain ⟨size, hsize, hlimit⟩ := h.size
  obtain ⟨status, hstatus, hsettled⟩ := h.collector.status
  refine ⟨⟨{ run'.toStoredFindings with sources := sources }, run'.streams, completedAt,
    windowStart, windowEnd⟩, ?_, rfl⟩
  have hwindow := order.window windowStart windowEnd hstart hend
  have hclosed := order.closed windowEnd completedAt hend hcompleted
  have hnow := order.completed completedAt hcompleted
  have hage := h.completed
  have hwindowAge := h.window
  exact {
    current := ⟨t, ht, by omega⟩
    transferred := aged.transferred ▸ h.transferred
    completedAt := hcompleted
    windowStart := hstart
    windowEnd := hend
    ordered := ⟨hwindow, hclosed, hnow⟩
    size := ⟨size, (aged_size aged) ▸ hsize, hlimit⟩
    safeCoverage := aged.coverage ▸ h.safeCoverage
    safeFindings := (aged_safe aged.findings) ▸ h.safeFindings
    verdict := (aged_verdict aged.findings) ▸ h.verdict
    decoded := decodeNativeRunRow_ok.mpr ⟨_, _, rfl, rfl, rfl, hcoverage,
      decodeRunFindings_ok.mp hdecoded⟩
    counted := h.counted
    completed := by show now - completedAt ≤ agingMs; omega
    window := by show now - windowEnd ≤ agingMs; omega
    sources := fun entry hentry => (h.sources entry hentry).aged hsources later horder
    collector := ⟨h.collector.success.aged aged.collected later order.collected,
      status, aged.status ▸ hstatus, hsettled⟩
    exact := h.exact
    whole := h.whole
    permitted := h.permitted
    nothingUncovered := h.nothingUncovered
    somethingCovered := h.somethingCovered
    somethingAsked := h.somethingAsked
    someStream := h.someStream }

/-! ## A worse reading -/

/-- What a summary is made from. -/
structure Reading where
  read : List BatchRow
  scope : SummaryScope
  now : Date

def Reading.summary (a : Reading) : Except Failure Summary :=
  readNativeRiskSummary a.read a.scope (some a.now)

/-- The same tenant, perhaps gated. -/
structure Gated (t t' : ScopeTenant) : Prop where
  id : t'.id = t.id
  organizationId : t'.organizationId = t.organizationId
  gate : t'.gate = t.gate ∨ t'.gate ≠ none

/-- Some rows are gone, some tenants gated, the scope is capped, and clocks that are in order
have aged. -/
structure Degraded (a b : Reading) : Prop where
  total : JsNumber.lt b.scope.totalTenants a.scope.totalTenants = false
  tenants : ∃ kept : List ScopeTenant, kept.Sublist a.scope.tenants ∧
    List.Forall₂ Gated kept b.scope.tenants
  rows : ∀ row' ∈ b.read, ∃ row ∈ a.read, row' = row ∧ b.now = a.now ∨
    AgedRow row row' ∧ InOrder row a.now.val
  clock : a.now.val ≤ b.now.val

variable {a b : Reading}

theorem ExactNumber.degraded (h : Degraded a b) {t t' : ScopeTenant} {n : Nat} (same : Gated t t')
    (exact : ExactNumber b.read b.now.val t' n) :
    ∃ n, ExactNumber a.read a.now.val t n := by
  obtain ⟨hgate, row', hrow', hkey, run', hbasis, hvalue⟩ := exact
  have hopen : t.gate = none := by
    rcases same.gate with heq | hne
    · rw [← heq, hgate]
    · exact absurd hgate hne
  have htenant : t'.key = t.key := by
    rw [ScopeTenant.key, ScopeTenant.key, same.id, same.organizationId]
  obtain ⟨row, hrow, ⟨rfl, hnow⟩ | ⟨haged, horder⟩⟩ := h.rows row' hrow'
  · rw [hnow] at hbasis
    exact ⟨n, hopen, row', hrow, hkey.trans htenant, run', hbasis, hvalue⟩
  · obtain ⟨run, hrun, hcount⟩ := hbasis.aged haged horder h.clock
    refine ⟨n, hopen, row, hrow, ?_, run, hrun, ?_⟩
    · rw [← haged.key, hkey, htenant]
    · rw [hcount]
      exact hvalue

variable {s : Summary}

theorem scope_valid {read : List BatchRow} {scope : SummaryScope} {now : Date}
    (h : readNativeRiskSummary read scope (some now) = .ok s) :
    ∃ q : ℚ, scope.totalTenants = .finite q ∧ (scope.tenants.length : ℚ) ≤ q := by
  simp only [readNativeRiskSummary] at h
  split at h
  · cases h
  · rename_i hvalid
    simp only [validSummaryScope, Bool.not_eq_true', Bool.not_eq_false, Bool.and_eq_true]
      at hvalid
    obtain ⟨⟨⟨hsafe, hlength⟩, _⟩, _⟩ := hvalid
    cases htotal : scope.totalTenants with
    | finite q =>
      rw [htotal] at hlength
      refine ⟨q, rfl, ?_⟩
      simpa [JsNumber.lt, JsNumber.ofNat] using hlength
    | infinite negative =>
      rw [htotal] at hsafe
      cases hsafe
    | nan =>
      rw [htotal] at hsafe
      cases hsafe

/-- A worse reading is exact only if the better one is. -/
theorem exact_of_degraded {s' : Summary} (ha : a.summary = .ok s) (hb : b.summary = .ok s')
    (h : Degraded a b) (exact : s'.fleet.accuracy = .exact) :
    s.fleet.accuracy = .exact := by
  have hscope := (fleet_laws hb).exact.mp exact
  obtain ⟨kept, hkept, hgated⟩ := h.tenants
  obtain ⟨q, hq, hlength⟩ := scope_valid ha
  have hcount := hgated.length_eq
  have htotal : (a.scope.tenants.length : ℚ) = q ∧ kept.length = a.scope.tenants.length := by
    have hle := hkept.length_le
    have henumerated := hscope.enumerated
    have hnot := h.total
    rw [hq, ← henumerated] at hnot
    simp only [JsNumber.lt, JsNumber.ofNat, decide_eq_false_iff_not, not_lt] at hnot
    rw [← hcount] at hnot
    have hback : a.scope.tenants.length ≤ kept.length := by
      exact_mod_cast hlength.trans hnot
    have hsame : kept.length = a.scope.tenants.length := by omega
    rw [hsame] at hnot
    exact ⟨le_antisymm hlength hnot, hsame⟩
  obtain rfl := hkept.eq_of_length htotal.2
  refine (fleet_laws ha).exact.mpr ⟨?_, ?_, fun t ht => ?_⟩
  · rw [hq, ← htotal.1]
    rfl
  · intro hnil
    apply hscope.nonempty
    rw [hnil] at hgated
    exact forall₂_nil_left_iff.mp hgated
  · obtain ⟨t', ht', hsame⟩ := mem_target hgated ht
    obtain ⟨n, hn⟩ := hscope.exact t' ht'
    exact ExactNumber.degraded h hsame hn

/-- What a reader of a summary may rely on. -/
structure Trustworthy : Prop where
  laws : ∀ (a : Reading) (s : Summary), a.summary = .ok s →
    FleetLaws a.read a.scope a.now.val s
  degraded : ∀ (a b : Reading) (s s' : Summary), a.summary = .ok s → b.summary = .ok s' →
    Degraded a b → s.fleet.accuracy ≠ .exact → s'.fleet.accuracy ≠ .exact

theorem summary_trustworthy : Trustworthy where
  laws := fun _ _ h => fleet_laws h
  degraded := fun _ _ _ _ ha hb h hne hexact => hne (exact_of_degraded ha hb h hexact)

/-! A run that is completed ahead of its reader's clock is not read, until the clock has moved on. -/

def oneStream : List StreamCoverage :=
  [⟨js "GRAPH_SIGN_INS", ⟨.declared (js "interactive"), 1, [], [], [], []⟩⟩]

def noOne : StoredFindings where
  findings := []
  count := countFields (.exact 0 ⟨[js "interactive"], [], [js "lockouts"], []⟩)
  claim := claimFields .permitted
  complete := true
  sources := [SourceCollection.json ⟨js "GRAPH_SIGN_INS", js "SUCCESS",
    some (js "2026-01-01T00:20:00.000Z")⟩]

def aheadRow : BatchRow where
  organizationId := js "o"
  customerTenantId := js "t"
  evaluationCoverage := some (runCoverageJson oneStream)
  evaluationFindings := some (noOne.json (some (.array [])))
  completedAt := some (js "2026-01-01T01:00:00.000Z")
  windowStart := some (js "2025-12-02T01:00:00.000Z")
  windowEnd := some (js "2026-01-01T01:00:00.000Z")
  expiresAt := some (js "2026-04-01T01:00:00.000Z")
  readLimitExceeded := false
  collectorStatus := some (js "IDLE")
  collectorLastSuccessfulAt := some (js "2026-01-01T00:20:00.000Z")

/-- Half past midnight, and an hour later. -/
def aheadReading (later : Bool) : Reading where
  read := [aheadRow]
  scope := ⟨.ofNat 1, [⟨js "t", js "o", none⟩]⟩
  now := if later then ⟨1767231000000, by decide⟩ else ⟨1767227400000, by decide⟩

theorem ageing_makes_exact :
    (aheadReading false).summary.toOption.map (fun s => (s.fleet.accuracy, s.tenants.map
      TenantSummary.limitations)) = some (.notAvailable, [[.invalidRun]]) ∧
    (aheadReading true).summary.toOption.map (fun s => (s.fleet.accuracy, s.tenants.map
      TenantSummary.limitations)) = some (.exact, [[]]) := by
  decide +kernel

end FleetSummary
