import HawkView.RiskyUsers.AssessTenant
import HawkView.RiskyUsers.RunRecord

/-!
# The record of a run is read back whole

What is written under names that are not blank is read back as it was. Whatever is
read at all is read again from its own writing, and every part that is looked at
was there.
-/

namespace RunRecord

open Json EvaluationContract Compose AssessTenant Traverse Option

/-! ## Reading one part -/

section Parts

variable {raw v : Option Json} {fields : Fields} {version s : JsString}

theorem envelope_ok : envelope version raw = .ok fields ↔
    raw = some (.object fields) ∧ textOf (fields.lookup (js "version")) = some version := by
  cases raw with
  | none => simp [envelope]
  | some v =>
    cases v with
    | object entries =>
      simp only [envelope]
      split
      · rename_i h
        simp only [Except.ok.injEq, Option.some.injEq, Json.object.injEq]
        constructor
        · rintro rfl
          exact ⟨rfl, h⟩
        · exact fun h => h.1
      · rename_i h
        simp only [reduceCtorEq, Option.some.injEq, Json.object.injEq, false_iff, not_and]
        rintro rfl
        exact h
    | _ => simp [envelope]

theorem orMalformed_ok {α : Type} {o : Option α} {a : α} : orMalformed o = .ok a ↔ o = some a := by
  cases o <;> simp [orMalformed]

theorem fieldsOf_some : fieldsOf v = some fields ↔ v = some (.object fields) := by
  cases v with
  | none => simp [fieldsOf]
  | some w => cases w <;> simp [fieldsOf]

theorem itemsOf_some {items : List Json} : itemsOf v = some items ↔ v = some (.array items) := by
  cases v with
  | none => simp [itemsOf]
  | some w => cases w <;> simp [itemsOf]

theorem textOf_some : textOf v = some s ↔ v = some (.string s) := by
  cases v with
  | none => simp [textOf]
  | some w => cases w <;> simp [textOf]

theorem boolOf_some {b : Bool} : boolOf v = some b ↔ v = some (.bool b) := by
  cases v with
  | none => simp [boolOf]
  | some w => cases w <;> simp [boolOf]

theorem namedText_some : namedText v = some s ↔
    v = some (.string s) ∧ JsString.blank s = false := by
  simp [namedText, filter_eq_some_iff, textOf_some]

theorem countOf_some {n : Nat} : countOf v = some n ↔
    ∃ text : NumberText, v = some (.number text) ∧ text.value = some (n : ℚ) := by
  constructor
  · intro h
    obtain ⟨x, hx, hcount⟩ := bind_eq_some_iff.mp h
    cases v with
    | none => cases hx
    | some w =>
      cases w with
      | number text =>
        obtain ⟨q, hq, rfl⟩ := map_eq_some_iff.mp hx
        simp only at hcount
        split at hcount
        · rename_i hwhole
          cases hcount
          refine ⟨text, rfl, ?_⟩
          rw [hq, ← Rat.coe_int_num_of_den_eq_one hwhole.1]
          have hnum : 0 ≤ q.num := Rat.num_nonneg.mpr hwhole.2
          have hint : ((q.num.toNat : Nat) : Int) = q.num := by omega
          rw [← Int.cast_natCast, Rat.num_intCast, hint]
        · cases hcount
      | _ => cases hx
  · rintro ⟨text, rfl, hvalue⟩
    simp [countOf, numberOf, hvalue]

end Parts

/-! ## Coverage -/

theorem collectionScope_json {scope : CollectionScope}
    (named : ∀ asked, scope = .declared asked → JsString.blank asked = false) :
    collectionScope (some (collectionScopeJson scope)) = some scope := by
  cases scope with
  | declared asked =>
    have hnamed : namedText (some (.string asked)) = some asked :=
      namedText_some.mpr ⟨rfl, named asked rfl⟩
    show (namedText (some (.string asked))).map CollectionScope.declared = _
    rw [hnamed, map_some]
  | undeclared => rfl

theorem reasonCounts_json {counts : Counts} (named : ∀ e ∈ counts, JsString.blank e.1 = false) :
    reasonCounts (some (countsJson counts)) = some counts := by
  apply Traverse.option_map
  intro e he
  simp only [reasonCount, named e he, Bool.false_eq_true, if_false, countOf_ofCount,
    map_some]

theorem decodeCoverage_encode {coverage : Coverage} (named : Named coverage) :
    decodeCoverage (some (encodeCoverage coverage)) = .ok coverage := by
  rw [decodeCoverage, bind_ok]
  refine ⟨_, envelope_ok.mpr ⟨rfl, rfl⟩, orMalformed_ok.mpr ?_⟩
  have hscope := collectionScope_json named.asked
  have hdoesNotApply := reasonCounts_json named.doesNotApply
  have hnotYetCited := reasonCounts_json named.notYetCited
  have hunknown := reasonCounts_json named.unknown
  have hunprocessable := reasonCounts_json named.unprocessable
  show (do
    let scope ← collectionScope (some (collectionScopeJson coverage.collectionScope))
    let doesNotApply ← reasonCounts (some (countsJson coverage.doesNotApply))
    let notYetCited ← reasonCounts (some (countsJson coverage.notYetCited))
    let unknown ← reasonCounts (some (countsJson coverage.unknown))
    let unprocessable ← reasonCounts (some (countsJson coverage.unprocessable))
    let applies ← countOf (some (ofCount coverage.applies))
    some (⟨scope, applies, doesNotApply, notYetCited, unknown, unprocessable⟩ : Coverage)) = _
  rw [hscope, hdoesNotApply, hnotYetCited, hunknown, hunprocessable, countOf_ofCount]
  rfl

theorem decodeStream_json {entry : StreamCoverage} (stream : JsString.blank entry.stream = false)
    (named : Named entry.coverage) : decodeStream entry.json = .ok entry := by
  have hstream : namedText (some (.string entry.stream)) = some entry.stream :=
    namedText_some.mpr ⟨rfl, stream⟩
  have hcoverage := decodeCoverage_encode named
  simp only [decodeStream, StreamCoverage.json, fieldsOf, bind_some]
  rw [show List.lookup (js "stream") [(js "stream", Json.string entry.stream),
    (js "coverage", encodeCoverage entry.coverage)] = some (.string entry.stream) from rfl, hstream]
  show (decodeCoverage (some (encodeCoverage entry.coverage))).map _ = _
  rw [hcoverage]
  rfl

/-- Streams under names that are not blank. -/
def AllNamed (streams : List StreamCoverage) : Prop :=
  ∀ entry ∈ streams, JsString.blank entry.stream = false ∧ Named entry.coverage

theorem decodeRunCoverage_json {streams : List StreamCoverage} (named : AllNamed streams) :
    decodeRunCoverage (some (runCoverageJson streams)) = .ok streams := by
  rw [decodeRunCoverage, bind_ok]
  refine ⟨_, envelope_ok.mpr ⟨rfl, rfl⟩, ?_⟩
  rw [bind_ok]
  refine ⟨_, orMalformed_ok.mpr rfl, ?_⟩
  apply Traverse.except_map
  intro entry hentry
  exact decodeStream_json (named entry hentry).1 (named entry hentry).2

/-! ## Findings -/

/-- A signal that is read back. -/
structure Legible (signal : FindingSignal) : Prop where
  named : JsString.blank signal.signal = false
  count : signal.count.IsCount
  latest : ∀ recency, signal.latest = some recency → recency.at₀ ≠ []

theorem readRecency_json {latest : Option SignalRecency}
    (h : ∀ recency, latest = some recency → recency.at₀ ≠ []) :
    readRecency (some (recencyJson latest)) = some latest := by
  cases latest with
  | none => rfl
  | some recency =>
    have hat : (some recency.at₀).filter (· ≠ []) = some recency.at₀ := by
      simp [filter_eq_some_iff, h recency rfl]
    have hkind : readKind (recencyKindText recency.kind) = some recency.kind := by
      cases recency.kind <;> decide
    show (do
      let at₀ ← (some recency.at₀).filter (· ≠ [])
      let kind ← readKind (recencyKindText recency.kind)
      some (some (⟨at₀, kind⟩ : SignalRecency))) = _
    rw [hat, hkind]
    rfl

variable {signal : FindingSignal}

theorem readSignal_json (h : Legible signal) :
    readSignal (signalJson signal) = some (storedSignal signal) := by
  obtain ⟨n, hn⟩ := h.count
  have hname : namedText (some (.string signal.signal)) = some signal.signal :=
    namedText_some.mpr ⟨rfl, h.named⟩
  have hcount : countOf (some (ofNumber signal.count)) = some n := by
    rw [hn, ofNumber_ofNat, countOf_ofCount]
  have hlatest := readRecency_json h.latest
  show (do
    let name ← namedText (some (.string signal.signal))
    let count ← countOf (some (ofNumber signal.count))
    let capped ← boolOf (some (.bool signal.capped))
    let latest ← readRecency (some (recencyJson signal.latest))
    some (⟨⟨name, .ofNat count, latest, none⟩, capped⟩ : FindingSignal)) = _
  rw [hname, hcount, hlatest, storedSignal, hn]
  rfl

/-- A finding whose signals are read back. -/
def StoredFinding.Legible (finding : StoredFinding) : Prop :=
  ∀ signal ∈ finding.firstSignal :: finding.restSignals,
    RunRecord.Legible signal ∧ signal.sourceEvent = none

theorem readFinding_json {finding : StoredFinding} (h : finding.Legible) :
    readFinding finding.json = some finding := by
  have hsignals : ((finding.firstSignal :: finding.restSignals).map signalJson).mapM readSignal =
      some (finding.firstSignal :: finding.restSignals) := by
    apply Traverse.option_map
    intro signal hsignal
    obtain ⟨hlegible, hnone⟩ := h signal hsignal
    rw [readSignal_json hlegible, storedSignal, ← hnone]
  show (((finding.firstSignal :: finding.restSignals).map signalJson).mapM readSignal).bind _ = _
  rw [hsignals]
  rfl

theorem decodeRunFindings_json {stored : StoredFindings}
    (h : ∀ finding ∈ stored.findings, finding.Legible) (because : Option Json) :
    decodeRunFindings (some (stored.json because)) = .ok stored := by
  have hfindings : (stored.findings.map StoredFinding.json).mapM readFinding =
      some stored.findings :=
    Traverse.option_map fun finding hfinding => readFinding_json (h finding hfinding)
  rw [decodeRunFindings, bind_ok]
  cases because with
  | none =>
    refine ⟨_, envelope_ok.mpr ⟨rfl, rfl⟩, orMalformed_ok.mpr ?_⟩
    show ((stored.findings.map StoredFinding.json).mapM readFinding).bind _ = _
    rw [hfindings]
    rfl
  | some gaps =>
    refine ⟨_, envelope_ok.mpr ⟨rfl, rfl⟩, orMalformed_ok.mpr ?_⟩
    show ((stored.findings.map StoredFinding.json).mapM readFinding).bind _ = _
    rw [hfindings]
    rfl

theorem legible_stored (h : Legible signal) :
    Legible (storedSignal signal) := ⟨h.named, h.count, h.latest⟩

/-! ## What is read was there -/

/-- The counts of an object, under names that are not blank. -/
inductive CountsRecord : Option Json → Counts → Prop
  | mk (entries : Fields) (counts : Counts)
      (each : List.Forall₂ (fun e c => e.1 = c.1 ∧ JsString.blank c.1 = false ∧
        ∃ text : NumberText, e.2 = .number text ∧ text.value = some (c.2 : ℚ)) entries counts) :
      CountsRecord (some (.object entries)) counts

inductive ScopeRecord : Option Json → CollectionScope → Prop
  | declared (fields : Fields) (asked : JsString)
      (flag : fields.lookup (js "declared") = some (.bool true))
      (told : fields.lookup (js "asked") = some (.string asked))
      (filled : JsString.blank asked = false) :
      ScopeRecord (some (.object fields)) (.declared asked)
  | undeclared (fields : Fields) (flag : fields.lookup (js "declared") = some (.bool false)) :
      ScopeRecord (some (.object fields)) .undeclared

inductive CoverageRecord : Option Json → Coverage → Prop
  | mk (fields : Fields) (coverage : Coverage) (applies : NumberText)
      (version : fields.lookup (js "version") = some (.string coverageRecordVersion))
      (scope : ScopeRecord (fields.lookup (js "collectionScope")) coverage.collectionScope)
      (number : fields.lookup (js "applies") = some (.number applies))
      (whole : applies.value = some (coverage.applies : ℚ))
      (doesNotApply : CountsRecord (fields.lookup (js "doesNotApply")) coverage.doesNotApply)
      (notYetCited : CountsRecord (fields.lookup (js "notYetCited")) coverage.notYetCited)
      (unknown : CountsRecord (fields.lookup (js "unknown")) coverage.unknown)
      (unprocessable : CountsRecord (fields.lookup (js "unprocessable")) coverage.unprocessable) :
      CoverageRecord (some (.object fields)) coverage

inductive StreamRecord : Json → StreamCoverage → Prop
  | mk (fields : Fields) (entry : StreamCoverage)
      (stream : fields.lookup (js "stream") = some (.string entry.stream))
      (filled : JsString.blank entry.stream = false)
      (coverage : CoverageRecord (fields.lookup (js "coverage")) entry.coverage) :
      StreamRecord (.object fields) entry

inductive RunCoverageRecord : Option Json → List StreamCoverage → Prop
  | mk (fields : Fields) (entries : List Json) (streams : List StreamCoverage)
      (version : fields.lookup (js "version") = some (.string runCoverageVersion))
      (list : fields.lookup (js "streams") = some (.array entries))
      (each : List.Forall₂ StreamRecord entries streams) :
      RunCoverageRecord (some (.object fields)) streams

/-- The time of a signal; one that is missing or `null` is none. -/
inductive RecencyRecord : Option Json → Option SignalRecency → Prop
  | missing : RecencyRecord none none
  | null : RecencyRecord (some .null) none
  | told (fields : Fields) (recency : SignalRecency)
      (time : fields.lookup (js "at") = some (.string recency.at₀)) (filled : recency.at₀ ≠ [])
      (kind : fields.lookup (js "kind") = some (.string (recencyKindText recency.kind))) :
      RecencyRecord (some (.object fields)) (some recency)

inductive SignalRecord : Json → FindingSignal → Prop
  | mk (fields : Fields) (signal : FindingSignal) (number : NumberText) (n : Nat)
      (name : fields.lookup (js "signal") = some (.string signal.signal))
      (filled : JsString.blank signal.signal = false)
      (count : fields.lookup (js "count") = some (.number number))
      (whole : number.value = some (n : ℚ)) (value : signal.count = .ofNat n)
      (capped : fields.lookup (js "capped") = some (.bool signal.capped))
      (latest : RecencyRecord (fields.lookup (js "latest")) signal.latest)
      (reference : signal.sourceEvent = none) : SignalRecord (.object fields) signal

inductive FindingRecord : Json → StoredFinding → Prop
  | mk (fields : Fields) (finding : StoredFinding) (signals : List Json)
      (detectorId : fields.lookup (js "detectorId") = some (.string finding.detectorId))
      (subject : fields.lookup (js "subject") = some (.object finding.subject))
      (list : fields.lookup (js "signals") = some (.array signals))
      (each : List.Forall₂ SignalRecord signals (finding.firstSignal :: finding.restSignals)) :
      FindingRecord (.object fields) finding

/-- The sources are those of a list, and there are none where there is no list. -/
inductive FindingsRecord : Option Json → StoredFindings → Prop
  | mk (fields : Fields) (stored : StoredFindings) (items : List Json)
      (version : fields.lookup (js "version") = some (.string runFindingsVersion))
      (list : fields.lookup (js "items") = some (.array items))
      (each : List.Forall₂ FindingRecord items stored.findings)
      (count : fields.lookup (js "count") = some (.object stored.count))
      (claim : fields.lookup (js "claim") = some (.object stored.claim))
      (complete : fields.lookup (js "complete") = some (.bool stored.complete))
      (sources : stored.sources = (itemsOf (fields.lookup (js "sources"))).getD []) :
      FindingsRecord (some (.object fields)) stored

/-- A completed run with both of its records. -/
inductive RowRecord : Option RunRow → Run → Prop
  | mk (row : RunRow) (run : Run) (completed : row.completedAt = some run.completedAt)
      (start : row.windowStart = run.windowStart) (stop : row.windowEnd = run.windowEnd)
      (coverage : RunCoverageRecord row.evaluationCoverage run.streams)
      (findings : FindingsRecord row.evaluationFindings run.toStoredFindings) :
      RowRecord (some row) run

section Records

variable {raw : Option Json} {item : Json}

theorem reasonCounts_some {counts : Counts} :
    reasonCounts raw = some counts ↔ CountsRecord raw counts := by
  have hcount (e : JsString × Json) (c : JsString × Nat) : reasonCount e = some c ↔
      e.1 = c.1 ∧ JsString.blank c.1 = false ∧
        ∃ text : NumberText, e.2 = .number text ∧ text.value = some (c.2 : ℚ) := by
    obtain ⟨name, v⟩ := e
    obtain ⟨name', n⟩ := c
    simp only [reasonCount]
    constructor
    · intro h
      split at h
      · cases h
      · rename_i hblank
        obtain ⟨m, hm, heq⟩ := map_eq_some_iff.mp h
        cases heq
        obtain ⟨text, htext, hvalue⟩ := countOf_some.mp hm
        exact ⟨rfl, Bool.not_eq_true _ ▸ hblank, text, Option.some.inj htext, hvalue⟩
    · rintro ⟨rfl, hblank, text, rfl, hvalue⟩
      rw [if_neg (by simp [hblank]), countOf_some.mpr ⟨text, rfl, hvalue⟩, map_some]
  rw [reasonCounts, bind_eq_some_iff]
  constructor
  · rintro ⟨entries, hentries, hcounts⟩
    rw [fieldsOf_some.mp hentries]
    exact ⟨entries, counts, (Traverse.option_iff.mp hcounts).imp fun e c => (hcount e c).mp⟩
  · rintro ⟨entries, counts, each⟩
    exact ⟨entries, rfl, Traverse.option_iff.mpr (each.imp fun e c => (hcount e c).mpr)⟩

theorem collectionScope_some {scope : CollectionScope} :
    collectionScope raw = some scope ↔ ScopeRecord raw scope := by
  rw [collectionScope, bind_eq_some_iff]
  constructor
  · rintro ⟨fields, hfields, h⟩
    rw [fieldsOf_some.mp hfields]
    split at h
    · rename_i hflag
      cases h
      exact .undeclared fields (boolOf_some.mp hflag)
    · rename_i hflag
      obtain ⟨asked, hasked, rfl⟩ := map_eq_some_iff.mp h
      obtain ⟨htold, hfilled⟩ := namedText_some.mp hasked
      exact .declared fields asked (boolOf_some.mp hflag) htold hfilled
    · cases h
  · rintro (⟨fields, asked, flag, told, filled⟩ | ⟨fields, flag⟩)
    · refine ⟨fields, rfl, ?_⟩
      rw [boolOf_some.mpr flag, namedText_some.mpr ⟨told, filled⟩]
      rfl
    · refine ⟨fields, rfl, ?_⟩
      rw [boolOf_some.mpr flag]

theorem decodeCoverage_ok {coverage : Coverage} :
    decodeCoverage raw = .ok coverage ↔ CoverageRecord raw coverage := by
  rw [decodeCoverage, bind_ok]
  constructor
  · rintro ⟨fields, hfields, h⟩
    obtain ⟨rfl, hversion⟩ := envelope_ok.mp hfields
    have hcoverage := orMalformed_ok.mp h
    simp only [coverageOf, bind, bind_eq_some_iff, Option.some.injEq,
      collectionScope_some, reasonCounts_some, countOf_some] at hcoverage
    obtain ⟨_, hscope, _, hdoesNotApply, _, hnotYetCited, _, hunknown, _, hunprocessable, _,
      ⟨applies, hnumber, hwhole⟩, rfl⟩ := hcoverage
    exact ⟨fields, _, applies, textOf_some.mp hversion, hscope, hnumber, hwhole, hdoesNotApply,
      hnotYetCited, hunknown, hunprocessable⟩
  · rintro ⟨fields, coverage, applies, version, scope, number, whole, doesNotApply, notYetCited,
      unknown, unprocessable⟩
    refine ⟨fields, envelope_ok.mpr ⟨rfl, textOf_some.mpr version⟩, orMalformed_ok.mpr ?_⟩
    simp only [coverageOf, bind, bind_eq_some_iff, Option.some.injEq,
      collectionScope_some, reasonCounts_some, countOf_some]
    exact ⟨_, scope, _, doesNotApply, _, notYetCited, _, unknown, _, unprocessable, _,
      ⟨applies, number, whole⟩, rfl⟩

theorem decodeStream_ok {entry : StreamCoverage} :
    decodeStream item = .ok entry ↔ StreamRecord item entry := by
  constructor
  · intro h
    simp only [decodeStream] at h
    split at h
    · rename_i stream fields hfields
      simp only [bind_eq_some_iff, map_eq_some_iff, Prod.mk.injEq] at hfields
      obtain ⟨_, hitem, _, hstream, rfl, rfl⟩ := hfields
      obtain rfl := Option.some.inj (fieldsOf_some.mp hitem)
      obtain ⟨htold, hfilled⟩ := namedText_some.mp hstream
      cases hcoverage : decodeCoverage (List.lookup (js "coverage") _) with
      | error reason =>
        rw [hcoverage] at h
        cases h
      | ok coverage =>
        rw [hcoverage] at h
        cases h
        exact ⟨_, ⟨_, coverage⟩, htold, hfilled, decodeCoverage_ok.mp hcoverage⟩
    · cases h
  · rintro ⟨fields, entry, stream, filled, coverage⟩
    simp only [decodeStream, fieldsOf, bind_some, namedText_some.mpr ⟨stream, filled⟩,
      map_some, decodeCoverage_ok.mpr coverage]
    rfl

theorem decodeRunCoverage_ok {streams : List StreamCoverage} :
    decodeRunCoverage raw = .ok streams ↔ RunCoverageRecord raw streams := by
  rw [decodeRunCoverage, bind_ok]
  constructor
  · rintro ⟨fields, hfields, h⟩
    obtain ⟨rfl, hversion⟩ := envelope_ok.mp hfields
    obtain ⟨entries, hentries, heach⟩ := bind_ok.mp h
    exact ⟨fields, entries, streams, textOf_some.mp hversion,
      itemsOf_some.mp (orMalformed_ok.mp hentries),
      (Traverse.except_iff.mp heach).imp fun _ _ => decodeStream_ok.mp⟩
  · rintro ⟨fields, entries, streams, version, list, each⟩
    refine ⟨fields, envelope_ok.mpr ⟨rfl, textOf_some.mpr version⟩, bind_ok.mpr ?_⟩
    exact ⟨entries, orMalformed_ok.mpr (itemsOf_some.mpr list),
      Traverse.except_iff.mpr (each.imp fun _ _ => decodeStream_ok.mpr)⟩

theorem readKind_some {s : JsString} {kind : RecencyKind} :
    readKind s = some kind ↔ s = recencyKindText kind := by
  simp only [readKind]
  constructor
  · intro h
    split at h
    · rename_i heq
      cases h
      exact heq
    · split at h
      · rename_i heq
        cases h
        exact heq
      · cases h
  · rintro rfl
    cases kind <;> decide

theorem readRecency_some {latest : Option SignalRecency} :
    readRecency raw = some latest ↔ RecencyRecord raw latest := by
  constructor
  · intro h
    cases raw with
    | none =>
      cases h
      exact .missing
    | some v =>
      cases v with
      | null =>
        cases h
        exact .null
      | object fields =>
        simp only [readRecency, bind, bind_eq_some_iff, filter_eq_some_iff,
          Option.some.injEq, textOf_some, readKind_some] at h
        obtain ⟨at₀, ⟨htime, hfilled⟩, kind, ⟨_, hkind, rfl⟩, rfl⟩ := h
        exact .told fields ⟨at₀, kind⟩ htime (of_decide_eq_true hfilled) hkind
      | _ => cases h
  · rintro (_ | _ | ⟨fields, recency, time, filled, kind⟩)
    · rfl
    · rfl
    · simp only [readRecency, bind, bind_eq_some_iff, filter_eq_some_iff,
        Option.some.injEq, textOf_some, readKind_some]
      exact ⟨_, ⟨time, decide_eq_true filled⟩, _, ⟨_, kind, rfl⟩, rfl⟩

theorem readSignal_some {signal : FindingSignal} :
    readSignal item = some signal ↔ SignalRecord item signal := by
  simp only [readSignal, bind, bind_eq_some_iff, fieldsOf_some, namedText_some,
    countOf_some, boolOf_some, readRecency_some, Option.some.injEq]
  constructor
  · rintro ⟨fields, rfl, name, ⟨hname, hfilled⟩, n, ⟨number, hcount, hwhole⟩, capped, hcapped,
      latest, hlatest, rfl⟩
    exact ⟨fields, _, number, n, hname, hfilled, hcount, hwhole, rfl, hcapped, hlatest, rfl⟩
  · rintro ⟨fields, ⟨⟨name, count, latest, reference⟩, capped⟩, number, n, hname, filled, hcount,
      whole, rfl, hcapped, hlatest, rfl⟩
    exact ⟨fields, rfl, name, ⟨hname, filled⟩, n, ⟨number, hcount, whole⟩, capped, hcapped, latest,
      hlatest, rfl⟩

theorem readFinding_some {finding : StoredFinding} :
    readFinding item = some finding ↔ FindingRecord item finding := by
  simp only [readFinding, bind, bind_eq_some_iff, fieldsOf_some, textOf_some, itemsOf_some,
    Traverse.option_iff, readSignal_some]
  constructor
  · rintro ⟨fields, hitem, detectorId, hdetectorId, subject, hsubject, signals,
      ⟨list, hlist, heach⟩, h⟩
    obtain rfl := Option.some.inj hitem
    cases signals with
    | nil => cases h
    | cons first rest =>
      cases h
      exact ⟨fields, _, list, hdetectorId, hsubject, hlist, heach⟩
  · rintro ⟨fields, finding, signals, detectorId, subject, list, each⟩
    exact ⟨fields, rfl, _, detectorId, _, subject, _, ⟨signals, list, each⟩, rfl⟩

theorem decodeRunFindings_ok {stored : StoredFindings} :
    decodeRunFindings raw = .ok stored ↔ FindingsRecord raw stored := by
  rw [decodeRunFindings, bind_ok]
  simp only [orMalformed_ok, findingsOf, bind, bind_eq_some_iff, fieldsOf_some, boolOf_some,
    itemsOf_some, Traverse.option_iff, readFinding_some, Option.some.injEq]
  constructor
  · rintro ⟨fields, hfields, findings, ⟨items, hitems, heach⟩, count, hcount, claim, hclaim,
      complete, hcomplete, rfl⟩
    obtain ⟨rfl, hversion⟩ := envelope_ok.mp hfields
    exact ⟨fields, _, items, textOf_some.mp hversion, hitems, heach, hcount, hclaim, hcomplete, rfl⟩
  · rintro ⟨fields, stored, items, version, list, each, count, claim, complete, sources⟩
    refine ⟨fields, envelope_ok.mpr ⟨rfl, textOf_some.mpr version⟩, _, ⟨items, list, each⟩, _, count,
      _, claim, _, complete, ?_⟩
    rw [← sources]

theorem mapError_ok {ε ε' α : Type} {x : Except ε α} {f : ε → ε'} {a : α} :
    x.mapError f = .ok a ↔ x = .ok a := by
  cases x <;> simp [Except.mapError]

/-- A row is read back exactly when every part that is looked at stands in it. -/
theorem decodeNativeRunRow_ok {stored : Option RunRow} {run : Run} :
    decodeNativeRunRow stored = .ok run ↔ RowRecord stored run := by
  constructor
  · intro h
    simp only [decodeNativeRunRow] at h
    split at h
    · cases h
    · rename_i row completedAt hrow
      obtain ⟨_, rfl, hcompleted⟩ := bind_eq_some_iff.mp hrow
      obtain ⟨t, ht, heq⟩ := map_eq_some_iff.mp hcompleted
      cases heq
      obtain ⟨streams, hstreams, h⟩ := bind_ok.mp h
      obtain ⟨findings, hfindings, h⟩ := bind_ok.mp h
      cases h
      exact ⟨_, _, ht, rfl, rfl, decodeRunCoverage_ok.mp (mapError_ok.mp hstreams),
        decodeRunFindings_ok.mp (mapError_ok.mp hfindings)⟩
  · rintro ⟨row, run, completed, start, stop, coverage, findings⟩
    simp only [decodeNativeRunRow, completed, bind_some, map_some]
    apply bind_ok.mpr
    refine ⟨_, mapError_ok.mpr (decodeRunCoverage_ok.mpr coverage), bind_ok.mpr ?_⟩
    refine ⟨_, mapError_ok.mpr (decodeRunFindings_ok.mpr findings), ?_⟩
    rw [start, stop]

end Records

/-! ## What was read is read again -/

section Again

variable {raw : Option Json} {item : Json}

theorem CountsRecord.named {counts : Counts} (h : CountsRecord raw counts) :
    ∀ e ∈ counts, JsString.blank e.1 = false := by
  obtain ⟨entries, counts, each⟩ := h
  intro e he
  obtain ⟨_, _, _, hblank, _⟩ := Traverse.mem_source each he
  exact hblank

theorem ScopeRecord.named {scope : CollectionScope} (h : ScopeRecord raw scope) :
    ∀ asked, scope = .declared asked → JsString.blank asked = false := by
  rintro asked rfl
  cases h with
  | declared _ _ _ _ filled => exact filled

theorem CoverageRecord.named {coverage : Coverage} (h : CoverageRecord raw coverage) :
    Named coverage := by
  obtain ⟨fields, coverage, _, _, scope, _, _, doesNotApply, notYetCited, unknown,
    unprocessable⟩ := h
  exact ⟨scope.named, doesNotApply.named, notYetCited.named, unknown.named, unprocessable.named⟩

theorem RunCoverageRecord.allNamed {streams : List StreamCoverage}
    (h : RunCoverageRecord raw streams) : AllNamed streams := by
  obtain ⟨fields, entries, streams, _, _, each⟩ := h
  intro entry hentry
  obtain ⟨_, _, _, _, _, filled, coverage⟩ := Traverse.mem_source each hentry
  exact ⟨filled, coverage.named⟩

theorem RecencyRecord.filled {latest : Option SignalRecency} (h : RecencyRecord raw latest) :
    ∀ recency, latest = some recency → recency.at₀ ≠ [] := by
  rintro recency rfl
  cases h with
  | told _ _ _ filled _ => exact filled

theorem SignalRecord.legible {signal : FindingSignal} (h : SignalRecord item signal) :
    RunRecord.Legible signal ∧ signal.sourceEvent = none := by
  obtain ⟨fields, signal, number, n, _, filled, _, _, value, _, latest, reference⟩ := h
  exact ⟨⟨filled, ⟨n, value⟩, latest.filled⟩, reference⟩

theorem FindingsRecord.legible {stored : StoredFindings} (h : FindingsRecord raw stored) :
    ∀ finding ∈ stored.findings, finding.Legible := by
  obtain ⟨fields, stored, items, _, _, each, _⟩ := h
  intro finding hfinding
  obtain ⟨_, _, _, _, signals, _, _, _, heach⟩ := Traverse.mem_source each hfinding
  intro signal hsignal
  obtain ⟨_, _, hrecord⟩ := Traverse.mem_source heach hsignal
  exact hrecord.legible

/-- The row that stores a run. The gaps of its findings are whatever the writer tells. -/
def Run.row (run : Run) (because : Option Json) : RunRow where
  evaluationCoverage := some (runCoverageJson run.streams)
  evaluationFindings := some (run.toStoredFindings.json because)
  completedAt := some run.completedAt
  windowStart := run.windowStart
  windowEnd := run.windowEnd

theorem decode_row {run : Run} (streams : AllNamed run.streams)
    (findings : ∀ finding ∈ run.findings, finding.Legible) (because : Option Json) :
    decodeNativeRunRow (some (run.row because)) = .ok run := by
  have hstreams := decodeRunCoverage_json streams
  have hfindings := decodeRunFindings_json findings because
  exact decodeNativeRunRow_ok.mpr ⟨run.row because, run, rfl, rfl, rfl,
    decodeRunCoverage_ok.mp hstreams, decodeRunFindings_ok.mp hfindings⟩

theorem decode_again {row : Option RunRow} {run : Run} (h : decodeNativeRunRow row = .ok run)
    (because : Option Json) : decodeNativeRunRow (some (run.row because)) = .ok run := by
  obtain ⟨_, _, _, _, _, coverage, findings⟩ := decodeNativeRunRow_ok.mp h
  exact decode_row coverage.allNamed findings.legible because

end Again

/-! ## What the stored objects tell -/

theorem textsJson_injective : Function.Injective textsJson := by
  intro a b h
  simpa [textsJson, Function.Injective.eq_iff (List.map_injective_iff.mpr
    fun _ _ h => Json.string.inj h)] using h

theorem setAsideJson_injective : Function.Injective setAsideJson := by
  rintro ⟨v, r, n⟩ ⟨v', r', n'⟩ h
  simp only [setAsideJson, Json.object.injEq, List.cons.injEq, Prod.mk.injEq, true_and, and_true,
    Json.string.injEq] at h
  obtain ⟨hv, rfl, hn⟩ := h
  obtain rfl := vocabularyText_injective hv
  obtain rfl := ofCount_injective hn
  rfl

theorem notCoveredJson_injective : Function.Injective notCoveredJson := by
  rintro ⟨d, b⟩ ⟨d', b'⟩ h
  simpa [notCoveredJson] using h

theorem countScopeJson_injective : Function.Injective countScopeJson := by
  rintro ⟨asked, setAside, covered, notCovered⟩ ⟨asked', setAside', covered', notCovered'⟩ h
  simp only [countScopeJson, Json.object.injEq, List.cons.injEq, Prod.mk.injEq, true_and, and_true,
    Json.array.injEq] at h
  obtain ⟨hasked, hsetAside, hcovered, hnotCovered⟩ := h
  obtain rfl := textsJson_injective hasked
  obtain rfl := textsJson_injective hcovered
  obtain rfl := List.map_injective_iff.mpr setAsideJson_injective hsetAside
  obtain rfl := List.map_injective_iff.mpr notCoveredJson_injective hnotCovered
  rfl

/-- A count is told apart by its object. -/
theorem countFields_injective : Function.Injective countFields := by
  intro a b h
  cases a <;> cases b <;>
    simp only [countFields, accuracyText, countValue, Count.scope, List.cons.injEq,
      Prod.mk.injEq, true_and, and_true, Json.string.injEq] at h <;>
    first
    | (obtain ⟨h, _⟩ := h; exact absurd h (by decide))
    | (obtain ⟨hvalue, hscope⟩ := h
       rw [ofCount_injective hvalue, countScopeJson_injective hscope])
    | rw [countScopeJson_injective h]

theorem withheldText_injective : Function.Injective withheldText := by
  intro a b h
  cases a <;> cases b <;> first | rfl | exact absurd h (by decide)

theorem withholdingJson_injective : Function.Injective withholdingJson := by
  rintro ⟨s, b⟩ ⟨s', b'⟩ h
  simp only [withholdingJson, Json.object.injEq, List.cons.injEq, Prod.mk.injEq, true_and, and_true,
    Json.string.injEq] at h
  obtain ⟨hstream, hbecause⟩ := h
  obtain rfl := withheldText_injective hbecause
  cases s <;> cases s' <;> simp_all [nullable]

/-- A claim is told apart by its object. -/
theorem claimFields_injective : Function.Injective claimFields := by
  intro a b h
  cases a <;> cases b <;> simp only [claimFields, List.cons.injEq, Prod.mk.injEq, true_and,
    and_true, Json.bool.injEq, Json.array.injEq, reduceCtorEq, and_false] at h ⊢
  rw [List.map_injective_iff.mpr withholdingJson_injective h]

theorem correlationJson_injective : Function.Injective correlationJson := by
  intro a b h
  cases a with
  | available m r =>
    cases b with
    | available m' r' =>
      simp only [correlationJson, Json.object.injEq, List.cons.injEq, Prod.mk.injEq, true_and,
        and_true, Json.string.injEq] at h
      obtain ⟨hm, rfl⟩ := h
      cases m <;> cases m' <;> first | rfl | exact absurd hm (by decide)
    | unavailable w => simp [correlationJson] at h
  | unavailable w =>
    cases b with
    | available m r => simp [correlationJson] at h
    | unavailable w' => simpa [correlationJson] using h

/-- A subject is told apart by its object. -/
theorem subjectFields_injective : Function.Injective subjectFields := by
  intro a b h
  cases a with
  | directoryUser u c =>
    cases b with
    | directoryUser u' c' =>
      simp only [subjectFields, List.cons.injEq, Prod.mk.injEq, true_and, and_true,
        Json.string.injEq] at h
      obtain ⟨rfl, hc⟩ := h
      rw [correlationJson_injective hc]
    | mailbox m k =>
      simp only [subjectFields, List.cons.injEq, Prod.mk.injEq, Json.string.injEq] at h
      exact absurd h.1.2 (by decide)
  | mailbox m k =>
    cases b with
    | directoryUser u c =>
      simp only [subjectFields, List.cons.injEq, Prod.mk.injEq, Json.string.injEq] at h
      exact absurd h.1.2 (by decide)
    | mailbox m' k' =>
      simp only [subjectFields, List.cons.injEq, Prod.mk.injEq, true_and, and_true,
        Json.string.injEq] at h
      obtain ⟨rfl, hk⟩ := h
      cases k <;> cases k' <;> first | rfl | exact absurd hk (by decide)

/-! ## The record of an assessment -/

/-- The row of a run over an assessment. -/
def persistedRow (a : TenantAssessment) (sources : List SourceCollection)
    (completedAt windowStart windowEnd : Int) : RunRow where
  evaluationCoverage := some (encodeRunCoverage a)
  evaluationFindings := some (encodeRunFindings a sources)
  completedAt := some completedAt
  windowStart := windowStart
  windowEnd := windowEnd

/-- What an assessment says, as it is read back. -/
def recordedRun (a : TenantAssessment) (sources : List SourceCollection)
    (completedAt windowStart windowEnd : Int) : Run where
  toStoredFindings := storedFindings a sources
  streams := a.streams.map streamCoverage
  completedAt := completedAt
  windowStart := windowStart
  windowEnd := windowEnd

/-- The record of an assessment whose streams and signals have names is read back whole, a run
that was read is read again, and a run is read only where every part stands in its row. -/
structure RoundTrips : Prop where
  written : ∀ {Event : Type} (eventAt : Event → JsString) (streams : List (ClassifiedStream Event))
    (budget : Budget) (a : TenantAssessment) (sources : List SourceCollection)
    (completedAt windowStart windowEnd : Int),
    assessTenant eventAt streams budget = some a →
    (∀ stream ∈ streams, JsString.blank stream.name = false) →
    (∀ finding ∈ a.findings.items, ∀ signal ∈ finding.firstSignal :: finding.restSignals,
      Legible signal) →
    decodeNativeRunRow (some (persistedRow a sources completedAt windowStart windowEnd)) =
      .ok (recordedRun a sources completedAt windowStart windowEnd)
  counts : Function.Injective countFields
  claims : Function.Injective claimFields
  subjects : Function.Injective subjectFields
  again : ∀ row run because, decodeNativeRunRow row = .ok run →
    decodeNativeRunRow (some (run.row because)) = .ok run
  whole : ∀ row run, decodeNativeRunRow row = .ok run ↔ RowRecord row run

theorem storedFinding_legible {finding : Finding}
    (h : ∀ signal ∈ finding.firstSignal :: finding.restSignals, Legible signal) :
    (storedFinding finding).Legible := by
  have hmap : (storedFinding finding).firstSignal :: (storedFinding finding).restSignals =
      (finding.firstSignal :: finding.restSignals).map storedSignal := rfl
  intro signal hsignal
  rw [hmap] at hsignal
  obtain ⟨given, hgiven, rfl⟩ := List.mem_map.mp hsignal
  exact ⟨legible_stored (h given hgiven), rfl⟩

theorem run_record_round_trips : RoundTrips where
  written := by
    intro Event eventAt streams budget a sources completedAt windowStart windowEnd ha hnames hsignals
    have hstreams : AllNamed (a.streams.map streamCoverage) := by
      intro entry hentry
      obtain ⟨given, hgiven, rfl⟩ := List.mem_map.mp hentry
      obtain ⟨⟨stream, hstream, hname⟩, hnamed⟩ := assessTenant_streams ha given hgiven
      exact ⟨(congrArg JsString.blank hname).trans (hnames stream hstream), hnamed⟩
    have hfindings : ∀ finding ∈ (storedFindings a sources).findings, finding.Legible := by
      intro finding hfinding
      obtain ⟨given, hgiven, rfl⟩ := List.mem_map.mp hfinding
      exact storedFinding_legible (hsignals given hgiven)
    exact @decode_row (recordedRun a sources completedAt windowStart windowEnd) hstreams
      hfindings _
  counts := countFields_injective
  claims := claimFields_injective
  subjects := subjectFields_injective
  again := fun _ _ because h => decode_again h because
  whole := fun _ _ => decodeNativeRunRow_ok

/-! Neither a stream nor a signal without a name is read back, and of the count and the claim
nothing is looked at. -/

def namelessSignal : Detector JsString where
  id := js "nameless"
  monotonic := true
  run := fun events => some (.ran (.ofNat events.length) []
    [⟨js "nameless", .mailbox (js "m") .unresolved, ⟨[], .ofNat 1, none, none⟩, []⟩])

def noReasons {vocabulary : List JsString} : ReasonCounts vocabulary := ⟨[], nofun⟩

def oneEvent : NormalizationBatch JsString where
  applies := [js "2026-05-01T00:00:00.000Z"]
  counts := ⟨1, noReasons, noReasons, noReasons, noReasons, noReasons⟩

/-- The absence that a row is read as. -/
def absence (row : RunRow) : Option Absent :=
  match decodeNativeRunRow (some row) with
  | .error because => some because
  | .ok _ => none

def hollowFindings : Json :=
  .object [(js "version", .string runFindingsVersion), (js "items", .array []),
    (js "count", .object []), (js "claim", .object []), (js "complete", .bool true)]

def hollowRow : RunRow where
  evaluationCoverage := some (runCoverageJson [])
  evaluationFindings := some hollowFindings
  completedAt := some 0
  windowStart := 0
  windowEnd := 0

theorem run_record_limits :
    (assessTenant id ([.unread [] .neverCollected] : List (ClassifiedStream JsString))
      ⟨.ofNat 0⟩).map (fun a => absence (persistedRow a [] 0 0 0)) =
        some (some .coverageUnreadable) ∧
    (assessTenant id [.read (js "GRAPH_SIGN_INS") oneEvent ⟨true, js "all"⟩ [namelessSignal] 1]
      ⟨.ofNat 10⟩).map (fun a => absence (persistedRow a [] 0 0 0)) =
        some (some .findingsUnreadable) ∧
    decodeNativeRunRow (some hollowRow) = .ok ⟨⟨[], [], [], true, []⟩, [], 0, 0, 0⟩ :=
  ⟨by decide +kernel, by decide +kernel, rfl⟩

end RunRecord
