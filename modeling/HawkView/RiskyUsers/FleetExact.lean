import HawkView.Lib.Traverse
import HawkView.RiskyUsers.FleetSummary

/-!
# What an exact fleet rests on

A fleet is exact only where every tenant of the scope has a run that is current,
readable, exact, whole and fresh. Any other number is a positive lower bound.
-/

namespace FleetSummary

open List Option

open Json RunRecord Traverse
open ChangeEvidence (Date)

/-! ## Reasons -/

variable {reasons : List Reason}

theorem mem_unique {reason : Reason} :
    reason ∈ unique reasons ↔ reason ∈ reasons := by
  rw [unique, (mergeSort_perm _ _).mem_iff, JsSet.mem_ofList]

theorem unique_eq_nil : unique reasons = [] ↔ reasons = [] := by
  simp only [eq_nil_iff_forall_not_mem, mem_unique]

/-! ## Freshness -/

/-- A clock that is not ahead of its bound and at most two hours old. -/
def Recent (value : Option JsString) (bound now : Int) : Prop :=
  ∃ t, utcClock value = some t ∧ t ≤ bound ∧ now - t ≤ agingMs

structure FreshRecord (run : Run) (now : Int) (source : Fields) : Prop where
  success : Recent (textOf (source.lookup (js "lastSuccessfulCollectionAt"))) run.completedAt now
  status : textOf (source.lookup (js "status")) = some (js "SUCCESS") ∨
    textOf (source.lookup (js "status")) = some (js "EMPTY")

/-- The one record of a known stream is fresh. -/
def FreshSource (run : Run) (now : Int) (stream : JsString) : Prop :=
  stream ∈ knownStreams ∧ ∃ source, sourcesOf run stream = [source] ∧ FreshRecord run now source

structure FreshCollector (row : BatchRow) (now : Int) : Prop where
  success : Recent row.collectorLastSuccessfulAt now now
  status : ∃ status, row.collectorStatus = some status ∧
    status ∈ [js "IDLE", js "RUNNING", js "SUCCEEDED"]

variable {now : Int}

theorem not_stale {clock : Int} : stale now clock = false ↔ now - clock ≤ agingMs := by
  simp [stale]

theorem successReasons_nil {value : Option JsString} {bound : Int} :
    successReasons value bound now = [] ↔ Recent value bound now := by
  cases hclock : utcClock value with
  | none => simp [successReasons, Recent, hclock]
  | some t =>
    simp only [successReasons, Recent, hclock, Option.some.injEq, exists_eq_left']
    split
    · simp only [reduceCtorEq, false_iff, not_and]
      omega
    · rw [← not_stale]
      split
      · rename_i hstale
        simp [hstale]
      · rename_i hfresh
        simp only [Bool.not_eq_true] at hfresh
        simp only [hfresh, and_true, true_iff]
        omega

variable {run : Run}

theorem sourceReasons_nil {source : Fields} :
    sourceReasons run now source = [] ↔ FreshRecord run now source := by
  rw [sourceReasons, append_eq_nil_iff, successReasons_nil]
  constructor
  · rintro ⟨hsuccess, hstatus⟩
    refine ⟨hsuccess, ?_⟩
    split at hstatus
    · cases hstatus
    · rename_i status htext
      split at hstatus
      · cases hstatus
      · split at hstatus
        · rename_i hmem
          simpa [htext] using hmem
        · cases hstatus
  · rintro ⟨hsuccess, hstatus⟩
    refine ⟨hsuccess, ?_⟩
    rcases hstatus with hstatus | hstatus <;> rw [hstatus] <;> decide

theorem streamReasons_nil {stream : JsString} :
    streamReasons run now stream = [] ↔ FreshSource run now stream := by
  simp only [streamReasons, FreshSource]
  by_cases hknown : knownStreams.contains stream = true
  · rw [if_pos hknown]
    have hmem : stream ∈ knownStreams := by simpa using hknown
    match hsources : sourcesOf run stream with
    | [] => simp [hmem]
    | [source] => simp [hmem, sourceReasons_nil]
    | _ :: _ :: _ => simp [hmem]
  · rw [if_neg hknown]
    have hmem : stream ∉ knownStreams := by simpa using hknown
    simp [hmem]

variable {row : BatchRow}

theorem collectorReasons_nil :
    collectorReasons row now = [] ↔ FreshCollector row now := by
  rw [collectorReasons, append_eq_nil_iff, successReasons_nil]
  constructor
  · rintro ⟨hsuccess, hstatus⟩
    refine ⟨hsuccess, ?_⟩
    split at hstatus
    · cases hstatus
    · rename_i status htext
      split at hstatus
      · rename_i hmem
        exact ⟨status, htext, contains_iff_mem.mp hmem⟩
      · cases hstatus
  · rintro ⟨hsuccess, status, htext, hmem⟩
    refine ⟨hsuccess, ?_⟩
    rw [htext]
    exact if_pos (contains_iff_mem.mpr hmem)

/-- All the clocks that a run is judged by are fresh. -/
structure Fresh (run : Run) (row : BatchRow) (now : Int) : Prop where
  completed : now - run.completedAt ≤ agingMs
  window : now - run.windowEnd ≤ agingMs
  sources : ∀ entry ∈ run.streams, FreshSource run now entry.stream
  collector : FreshCollector row now

theorem freshnessReasons_nil :
    freshnessReasons run row now = [] ↔ Fresh run row now := by
  rw [freshnessReasons, unique_eq_nil, append_eq_nil_iff, append_eq_nil_iff,
    flatMap_eq_nil_iff, collectorReasons_nil]
  simp only [streamReasons_nil]
  constructor
  · rintro ⟨⟨hstale, hsources⟩, hcollector⟩
    split at hstale
    · cases hstale
    · rename_i hnot
      simp only [Bool.or_eq_true, not_or, Bool.not_eq_true, not_stale] at hnot
      exact ⟨hnot.1, hnot.2, hsources, hcollector⟩
  · rintro ⟨hcompleted, hwindow, hsources, hcollector⟩
    refine ⟨⟨?_, hsources⟩, hcollector⟩
    rw [not_stale.mpr hcompleted, not_stale.mpr hwindow]
    rfl

/-! ## A run that is read -/

/-- Current, in order, within the limits and decodable. -/
structure Readable (row : BatchRow) (now : Int) (run : Run) : Prop where
  current : ∃ t, utcClock row.expiresAt = some t ∧ now < t
  transferred : row.readLimitExceeded = false
  completedAt : utcClock row.completedAt = some run.completedAt
  windowStart : utcClock row.windowStart = some run.windowStart
  windowEnd : utcClock row.windowEnd = some run.windowEnd
  ordered : run.windowStart ≤ run.windowEnd ∧ run.windowEnd ≤ run.completedAt ∧
    run.completedAt ≤ now
  size : ∃ size, sizeOf row = some size ∧ size ≤ runBytes
  safeCoverage : isSafeDocument row.evaluationCoverage = true
  safeFindings : isSafeDocument row.evaluationFindings = true
  verdict : validVerdict row.evaluationFindings = true
  decoded : decodeNativeRunRow (some ⟨row.evaluationCoverage, row.evaluationFindings,
    some run.completedAt, run.windowStart, run.windowEnd⟩) = .ok run
  counted : isNotAvailable run.count = true ∨ integer (run.count.lookup (js "value")) = true

theorem clocksOf_some {clocks : Clocks} :
    clocksOf row now = some clocks ↔ utcClock row.completedAt = some clocks.completedAt ∧
      utcClock row.windowStart = some clocks.windowStart ∧
      utcClock row.windowEnd = some clocks.windowEnd ∧ (utcClock row.expiresAt).isSome = true ∧
      clocks.windowStart ≤ clocks.windowEnd ∧ clocks.windowEnd ≤ clocks.completedAt ∧
      clocks.completedAt ≤ now := by
  simp only [clocksOf, bind, bind_eq_some_iff, isSome_iff_exists]
  constructor
  · rintro ⟨completedAt, hcompleted, start, hstart, stop, hstop, expires, hexpires, h⟩
    split at h
    · cases h
    · cases h
      rename_i hordered
      simp only [not_or, Int.not_lt] at hordered
      exact ⟨hcompleted, hstart, hstop, ⟨expires, hexpires⟩, hordered⟩
  · rintro ⟨hcompleted, hstart, hstop, ⟨expires, hexpires⟩, hwindow, hend, hnow⟩
    refine ⟨_, hcompleted, _, hstart, _, hstop, _, hexpires, ?_⟩
    rw [if_neg (by omega)]

/-- The clocks of a run that is decoded are those of its row. -/
theorem decoded_clocks {coverage findings : Option Json} {completedAt windowStart windowEnd : Int}
    (h : decodeNativeRunRow (some ⟨coverage, findings, some completedAt, windowStart,
      windowEnd⟩) = .ok run) :
    run.completedAt = completedAt ∧ run.windowStart = windowStart ∧ run.windowEnd = windowEnd := by
  simp only [decodeNativeRunRow, bind_some, map_some] at h
  obtain ⟨streams, _, h⟩ := bind_ok.mp h
  obtain ⟨stored, _, h⟩ := bind_ok.mp h
  cases h
  exact ⟨rfl, rfl, rfl⟩

theorem readRun_ok :
    readRun row now = .ok run ↔ Readable row now run := by
  simp only [readRun]
  constructor
  · intro h
    split at h
    · cases h
    rename_i hcurrent
    split at h
    · cases h
    rename_i htransferred
    split at h
    · cases h
    · cases h
    rename_i clocks size hclocks hsize
    split at h
    · cases h
    rename_i hlimit
    split at h
    · cases h
    rename_i hsafe
    split at h
    · cases h
    rename_i decoded hdecoded
    split at h
    · cases h
    rename_i hcounted
    cases h
    obtain ⟨hcompleted, hstart, hstop, hexpires, hordered⟩ := clocksOf_some.mp hclocks
    obtain ⟨t, ht⟩ := isSome_iff_exists.mp hexpires
    obtain ⟨hc, hs, he⟩ := decoded_clocks hdecoded
    simp only [Bool.or_eq_true, Bool.not_eq_true', not_or, Bool.not_eq_false] at hsafe
    refine ⟨⟨t, ht, ?_⟩, by simpa using htransferred, hc ▸ hcompleted, hs ▸ hstart, he ▸ hstop, ?_,
      ⟨size, hsize, by omega⟩, hsafe.1.1, hsafe.1.2, hsafe.2, ?_, ?_⟩
    · simp only [ht, any_some, decide_eq_true_eq] at hcurrent
      omega
    · rw [hc, hs, he]
      exact hordered
    · rw [hc, hs, he]
      exact hdecoded
    · simp only [Bool.and_eq_true, Bool.not_eq_true', not_and, Bool.not_eq_false] at hcounted
      cases hna : isNotAvailable run.count with
      | true => exact .inl rfl
      | false => exact .inr (hcounted hna)
  · intro h
    obtain ⟨t, ht, hnow⟩ := h.current
    obtain ⟨size, hsize, hlimit⟩ := h.size
    have hclocks : clocksOf row now = some ⟨run.completedAt, run.windowStart, run.windowEnd⟩ :=
      clocksOf_some.mpr ⟨h.completedAt, h.windowStart, h.windowEnd, by simp [ht], h.ordered⟩
    rw [if_neg (by simp only [ht, any_some, decide_eq_true_eq]; omega),
      if_neg (by simp [h.transferred]), hclocks, hsize]
    simp only
    rw [if_neg (by omega),
      if_neg (by simp [h.safeCoverage, h.safeFindings, h.verdict]), h.decoded]
    simp only
    rw [if_neg]
    rcases h.counted with hcounted | hcounted <;> simp [hcounted]

/-! ## One tenant -/

/-- What the number of a tenant rests on where it is exact. -/
structure FullBasis (row : BatchRow) (now : Int) (run : Run) : Prop extends
    Readable row now run, Fresh run row now where
  exact : accuracyOf run.count = some (js "EXACT")
  whole : run.complete = true
  permitted : boolOf (run.claim.lookup (js "permitted")) = some true
  nothingUncovered : scopeLength run.count (js "notCovered") = 0
  somethingCovered : 0 < scopeLength run.count (js "covered")
  somethingAsked : 0 < scopeLength run.count (js "evidenceRequested")
  someStream : run.streams ≠ []

theorem isComplete_iff : isComplete run = true ↔
    accuracyOf run.count = some (js "EXACT") ∧ run.complete = true ∧
      boolOf (run.claim.lookup (js "permitted")) = some true ∧
      scopeLength run.count (js "notCovered") = 0 ∧ run.streams ≠ [] ∧
      0 < scopeLength run.count (js "covered") ∧
      0 < scopeLength run.count (js "evidenceRequested") := by
  simp [isComplete, and_assoc]

variable {count : Fields}

/-- An exact count is there. -/
theorem exact_available (h : accuracyOf count = some (js "EXACT")) :
    isNotAvailable count = false := by
  rw [isNotAvailable, h]
  decide

variable {tenant : ScopeTenant}

theorem assessed_complete :
    (assessed tenant row run now).complete = true ↔
      isComplete run = true ∧ Fresh run row now := by
  rw [← freshnessReasons_nil]
  simp only [assessed]
  by_cases hna : isNotAvailable run.count = true
  · rw [if_pos hna]
    constructor
    · intro h
      cases h
    · rintro ⟨hcomplete, _⟩
      rw [exact_available (isComplete_iff.mp hcomplete).1] at hna
      cases hna
  · rw [if_neg hna]
    by_cases hboth : (isComplete run && (freshnessReasons run row now).isEmpty) = true
    · rw [if_pos hboth]
      simpa using hboth
    · rw [if_neg hboth]
      simpa using hboth

theorem assessed_exact (h : (assessed tenant row run now).complete = true) :
    (assessed tenant row run now).distinctUserCount = some (valueOf run.count) := by
  obtain ⟨hcomplete, hfresh⟩ := assessed_complete.mp h
  have hna := exact_available (isComplete_iff.mp hcomplete).1
  simp [assessed, hna, hcomplete, freshnessReasons_nil.mpr hfresh]

/-- A number that is not exact is positive, and it is the number of the run. -/
theorem assessed_positive {n : Nat} (h : (assessed tenant row run now).complete = false)
    (hn : (assessed tenant row run now).distinctUserCount = some n) :
    0 < n ∧ n = valueOf run.count := by
  simp only [assessed] at h hn
  split at h
  · rename_i hna
    rw [if_pos hna] at hn
    cases hn
  · rename_i hna
    split at h
    · cases h
    · rename_i hboth
      rw [if_neg hna, if_neg hboth] at hn
      simp only at hn
      split at hn
      · cases hn
        exact ⟨by assumption, rfl⟩
      · cases hn

/-! ## The rows of a fleet -/

structure Indexed (pairs : List JsString) (rows : List BatchRow) (m : JsMap JsString BatchRow) :
    Prop where
  asked : ∀ row ∈ rows, row.key ∈ pairs
  found : ∀ key row, m.get? key = some row ↔ row ∈ rows ∧ row.key = key

variable {pairs : List JsString} {m : JsMap JsString BatchRow}

theorem indexRow_ok {before : JsMap JsString BatchRow} (h : indexRow pairs before row = .ok m) :
    row.key ∈ pairs ∧ before.get? row.key = none ∧ m = before.set row.key row := by
  simp only [indexRow] at h
  split at h
  · cases h
  · rename_i hfresh
    cases h
    simpa using hfresh

theorem indexRows_ok {rows : List BatchRow} (h : indexRows pairs rows = .ok m) :
    Indexed pairs rows m := by
  induction rows using reverseRecOn generalizing m with
  | nil =>
    cases h
    exact ⟨nofun, fun key row => by simp [JsMap.get?_empty]⟩
  | append_singleton rows row ih =>
    rw [indexRows, foldlM_append] at h
    obtain ⟨before, hbefore, hlast⟩ := bind_ok.mp h
    have hindexed := ih hbefore
    obtain ⟨last, hstep, hend⟩ := bind_ok.mp hlast
    cases hend
    obtain ⟨hasked, hnone, rfl⟩ := indexRow_ok hstep
    have hold : ∀ r ∈ rows, r.key ≠ row.key := by
      intro r hr heq
      rw [(hindexed.found row.key r).mpr ⟨hr, heq⟩] at hnone
      cases hnone
    constructor
    · exact forall_mem_append.mpr ⟨hindexed.asked, forall_mem_singleton.mpr hasked⟩
    · intro key r
      rw [JsMap.get?_set]
      simp only [mem_append, mem_singleton]
      by_cases hkey : row.key = key
      · subst hkey
        rw [if_pos rfl, Option.some.injEq]
        constructor
        · rintro rfl
          exact ⟨.inr rfl, rfl⟩
        · rintro ⟨hr | hr, heq⟩
          · exact absurd heq (hold r hr)
          · exact hr.symm
      · rw [if_neg hkey, hindexed.found key r]
        constructor
        · rintro ⟨hr, heq⟩
          exact ⟨.inl hr, heq⟩
        · rintro ⟨hr | rfl, heq⟩
          · exact ⟨hr, heq⟩
          · exact absurd heq hkey

/-! ## The tenants of a fleet -/

/-- The exact number of a tenant. -/
def ExactNumber (read : List BatchRow) (now : Int) (tenant : ScopeTenant) (n : Nat) : Prop :=
  tenant.gate = none ∧ ∃ row ∈ read, row.key = tenant.key ∧ ∃ run, FullBasis row now run ∧
    countOf (run.count.lookup (js "value")) = some n

/-- What a tenant adds to a number: nothing, or the positive number of its run. -/
def Part (read : List BatchRow) (now : Int) (tenant : ScopeTenant) (n : Nat) : Prop :=
  n = 0 ∨ 0 < n ∧ tenant.gate = none ∧ ∃ row ∈ read, row.key = tenant.key ∧
    ∃ run, Readable row now run ∧ countOf (run.count.lookup (js "value")) = some n

theorem integer_some {value : Option Json} (h : integer value = true) :
    ∃ n, countOf value = some n := by
  cases hcount : countOf value with
  | none => simp [integer, hcount] at h
  | some n => exact ⟨n, rfl⟩

theorem valueOf_exact (h : Readable row now run)
    (exact : accuracyOf run.count = some (js "EXACT")) :
    countOf (run.count.lookup (js "value")) = some (valueOf run.count) := by
  rcases h.counted with hna | hinteger
  · rw [exact_available exact] at hna
    cases hna
  · obtain ⟨n, hn⟩ := integer_some hinteger
    rw [valueOf, hn]
    rfl

theorem valueOf_positive (h : 0 < valueOf count) :
    countOf (count.lookup (js "value")) = some (valueOf count) := by
  cases hcount : countOf (count.lookup (js "value")) with
  | none => simp [valueOf, hcount] at h
  | some n => simp [valueOf, hcount]

section Tenant

variable {pairs : List JsString} {rows : List BatchRow} {m : JsMap JsString BatchRow} {now : Int}
  {tenant : ScopeTenant}

/-- The entry of a tenant whose number is exact. -/
theorem summarize_complete (hm : Indexed pairs rows m)
    (h : (summarizeTenant m now tenant).1.complete = true) :
    ∃ n, (summarizeTenant m now tenant).1.distinctUserCount = some n ∧
      ExactNumber rows now tenant n := by
  cases hgate : tenant.gate with
  | some gate =>
    simp only [summarizeTenant, hgate] at h
    cases h
  | none =>
    cases hrow : m.get? tenant.key with
    | none =>
      simp only [summarizeTenant, hgate, hrow] at h
      cases h
    | some row =>
      cases hrun : readRun row now with
      | error reason =>
        simp only [summarizeTenant, hgate, hrow, hrun] at h
        cases h
      | ok run =>
        simp only [summarizeTenant, hgate, hrow, hrun] at h ⊢
        obtain ⟨hmem, hkey⟩ := (hm.found tenant.key row).mp hrow
        have hreadable := readRun_ok.mp hrun
        obtain ⟨hcomplete, hfresh⟩ := assessed_complete.mp h
        obtain ⟨hexact, hwhole, hpermitted, hnot, hstream, hcovered, hasked⟩ :=
          isComplete_iff.mp hcomplete
        have hbasis : FullBasis row now run :=
          { hreadable, hfresh with
            exact := hexact
            whole := hwhole
            permitted := hpermitted
            nothingUncovered := hnot
            somethingCovered := hcovered
            somethingAsked := hasked
            someStream := hstream }
        exact ⟨_, assessed_exact h, hgate, row, hmem, hkey, run, hbasis,
          valueOf_exact hreadable hexact⟩

theorem complete_summarize (hm : Indexed pairs rows m) {row : BatchRow} {run : Run}
    (gate : tenant.gate = none) (mem : row ∈ rows) (key : row.key = tenant.key)
    (basis : FullBasis row now run) : (summarizeTenant m now tenant).1.complete = true := by
  have hrow := (hm.found tenant.key row).mpr ⟨mem, key⟩
  have hrun := readRun_ok.mpr basis.toReadable
  simp only [summarizeTenant, gate, hrow, hrun]
  exact assessed_complete.mpr ⟨isComplete_iff.mpr ⟨basis.exact, basis.whole, basis.permitted,
    basis.nothingUncovered, basis.someStream, basis.somethingCovered, basis.somethingAsked⟩,
    basis.toFresh⟩

/-- What the entry of a tenant adds. -/
theorem summarize_part (hm : Indexed pairs rows m) :
    Part rows now tenant ((summarizeTenant m now tenant).1.distinctUserCount.getD 0) := by
  cases hgate : tenant.gate with
  | some gate =>
    simp only [summarizeTenant, hgate]
    exact .inl rfl
  | none =>
    cases hrow : m.get? tenant.key with
    | none =>
      simp only [summarizeTenant, hgate, hrow]
      exact .inl rfl
    | some row =>
      cases hrun : readRun row now with
      | error reason =>
        simp only [summarizeTenant, hgate, hrow, hrun]
        exact .inl rfl
      | ok run =>
        simp only [summarizeTenant, hgate, hrow, hrun]
        obtain ⟨hmem, hkey⟩ := (hm.found tenant.key row).mp hrow
        have hpart (n : Nat) (hn : 0 < n) (hvalue : n = valueOf run.count) :
            Part rows now tenant n := by
          refine .inr ⟨hn, hgate, row, hmem, hkey, run, readRun_ok.mp hrun, ?_⟩
          rw [hvalue] at hn ⊢
          exact valueOf_positive hn
        cases hcount : (assessed tenant row run now).distinctUserCount with
        | none => exact .inl rfl
        | some n =>
          show Part rows now tenant n
          cases hcomplete : (assessed tenant row run now).complete with
          | true =>
            rw [assessed_exact hcomplete] at hcount
            cases hcount
            by_cases hzero : valueOf run.count = 0
            · exact .inl hzero
            · exact hpart _ (by omega) rfl
          | false =>
            obtain ⟨hn, hvalue⟩ := assessed_positive hcomplete hcount
            exact hpart n hn hvalue

/-- An entry that is not exact reports no zero. -/
theorem summarize_nonzero (h : (summarizeTenant m now tenant).1.complete = false) :
    (summarizeTenant m now tenant).1.distinctUserCount ≠ some 0 := by
  simp only [summarizeTenant] at h ⊢
  split at h
  · rename_i gate hgate
    simp [unavailable]
  · split at h
    · simp [unavailable]
    · split at h
      · simp [unavailable]
      · intro hzero
        have := (assessed_positive h hzero).1
        omega

end Tenant

/-! ## The fleet -/

variable {scope : SummaryScope} {read : List BatchRow}

theorem queried_all (h : ∃ t ∈ scope.tenants, t.gate = none) : queried scope read = read := by
  obtain ⟨t, ht, hgate⟩ := h
  have hmem : t ∈ eligible scope := mem_filter.mpr ⟨ht, by simp [hgate]⟩
  rw [queried, if_neg]
  rw [List.isEmpty_iff]
  intro hnil
  rw [hnil] at hmem
  cases hmem

theorem mem_queried (h : row ∈ queried scope read) : row ∈ read := by
  rw [queried] at h
  split at h
  · cases h
  · exact h

variable {s : Summary}

/-- The entries of a summary, and the index that they were made from. -/
theorem summary_ok {now : Date} (h : readNativeRiskSummary read scope (some now) = .ok s) :
    ∃ m, Indexed ((eligible scope).map ScopeTenant.key) (queried scope read) m ∧
      s.tenants = scope.tenants.map (fun t => (summarizeTenant m now.val t).1) ∧
      s.fleet = summarizeFleet scope (scope.tenants.map (summarizeTenant m now.val)) := by
  simp only [readNativeRiskSummary] at h
  split at h
  · cases h
  · split at h
    · cases h
    · obtain ⟨m, hm, rfl⟩ := map_ok.mp h
      refine ⟨m, indexRows_ok hm, ?_, rfl⟩
      rw [List.map_map]
      rfl

/-- All of the scope is enumerated, and the number of every tenant is exact. -/
structure ExactScope (read : List BatchRow) (scope : SummaryScope) (now : Int) : Prop where
  enumerated : JsNumber.ofNat scope.tenants.length = scope.totalTenants
  nonempty : scope.tenants ≠ []
  exact : ∀ tenant ∈ scope.tenants, ∃ n, ExactNumber read now tenant n

/-- What the number of a fleet means. -/
structure FleetLaws (read : List BatchRow) (scope : SummaryScope) (now : Int) (s : Summary) :
    Prop where
  exact : s.fleet.accuracy = .exact ↔ ExactScope read scope now
  sum : s.fleet.accuracy = .exact → ∃ numbers,
    List.Forall₂ (ExactNumber read now) scope.tenants numbers ∧
      s.fleet.distinctUserCount = some numbers.sum
  bound : s.fleet.accuracy ≠ .exact → ∀ n, s.fleet.distinctUserCount = some n →
    s.fleet.accuracy = .atLeast ∧ 0 < n ∧
      ∃ parts, List.Forall₂ (Part read now) scope.tenants parts ∧ n = parts.sum
  nonzero : ∀ entry ∈ s.tenants, entry.complete = false → entry.distinctUserCount ≠ some 0

variable {entries : List (TenantSummary × Bool)}

theorem fleet_exact :
    (summarizeFleet scope entries).accuracy = .exact ↔
      JsNumber.ofNat entries.length = scope.totalTenants ∧ entries ≠ [] ∧
        ∀ entry ∈ entries, entry.1.complete = true := by
  simp only [summarizeFleet]
  split
  · rename_i h
    simp only [true_iff]
    simpa [and_assoc] using h
  · rename_i h
    have hnot : (if 0 < (List.map (fun tenant => tenant.distinctUserCount.getD 0)
        (List.map Prod.fst entries)).sum then Accuracy.atLeast else .notAvailable) ≠ .exact := by
      split <;> simp
    simp only [hnot, false_iff]
    simpa [and_assoc] using h

theorem exact_counted (h : (summarizeFleet scope entries).accuracy = .exact) :
    (summarizeFleet scope entries).distinctUserCount ≠ none := by
  simp only [summarizeFleet] at h ⊢
  split at h
  · rename_i hcomplete
    rw [if_pos (.inl hcomplete)]
    exact some_ne_none _
  · split at h <;> cases h

theorem fleet_number {n : Nat} (h : (summarizeFleet scope entries).distinctUserCount = some n) :
    n = (entries.map fun entry => entry.1.distinctUserCount.getD 0).sum ∧
      ((summarizeFleet scope entries).accuracy ≠ .exact →
        0 < n ∧ (summarizeFleet scope entries).accuracy = .atLeast) := by
  have hsum : ((entries.map Prod.fst).map fun tenant : TenantSummary =>
      tenant.distinctUserCount.getD 0) =
      entries.map fun entry => entry.1.distinctUserCount.getD 0 := by
    rw [List.map_map]
    rfl
  simp only [summarizeFleet, hsum] at h ⊢
  split at h
  · rename_i hsome
    cases h
    refine ⟨rfl, fun hne => ?_⟩
    split at hne
    · exact absurd rfl hne
    · rename_i hnot
      have hpos := hsome.resolve_left hnot
      rw [if_neg hnot, if_pos hpos]
      exact ⟨hpos, rfl⟩
  · cases h

theorem fleet_laws {now : Date} (h : readNativeRiskSummary read scope (some now) = .ok s) :
    FleetLaws read scope now.val s := by
  obtain ⟨m, hm, htenants, hfleet⟩ := summary_ok h
  have hentries : s.fleet.accuracy = .exact → ∀ t ∈ scope.tenants,
      (summarizeTenant m now.val t).1.complete = true := by
    intro hexact t ht
    rw [hfleet] at hexact
    exact (fleet_exact.mp hexact).2.2 _ (mem_map_of_mem ht)
  have hnumber : ∀ t n, ExactNumber (queried scope read) now.val t n →
      ExactNumber read now.val t n := by
    rintro t n ⟨hgate, row, hmem, hrest⟩
    exact ⟨hgate, row, mem_queried hmem, hrest⟩
  refine ⟨⟨fun hexact => ?_, fun hscope => ?_⟩, fun hexact => ?_, fun hne n hn => ?_,
    fun entry hentry => ?_⟩
  · have hall := hentries hexact
    rw [hfleet] at hexact
    obtain ⟨hlength, hnonempty, _⟩ := fleet_exact.mp hexact
    rw [length_map] at hlength
    refine ⟨hlength, by simpa using hnonempty, fun t ht => ?_⟩
    obtain ⟨n, _, hn⟩ := summarize_complete hm (hall t ht)
    exact ⟨n, hnumber t n hn⟩
  · rw [hfleet]
    refine fleet_exact.mpr ⟨?_, by simpa using hscope.nonempty, fun entry hentry => ?_⟩
    · rw [length_map]
      exact hscope.enumerated
    · obtain ⟨t, ht, rfl⟩ := mem_map.mp hentry
      obtain ⟨n, hgate, row, hmem, hkey, run, hbasis, _⟩ := hscope.exact t ht
      rw [← @queried_all scope read ⟨t, ht, hgate⟩] at hmem
      exact complete_summarize hm hgate hmem hkey hbasis
  · have hall := hentries hexact
    have heach : ∀ t ∈ scope.tenants, ExactNumber read now.val t
        ((summarizeTenant m now.val t).1.distinctUserCount.getD 0) := by
      intro t ht
      obtain ⟨n, hcount, hn⟩ := summarize_complete hm (hall t ht)
      rw [hcount]
      exact hnumber t n hn
    refine ⟨scope.tenants.map fun t => (summarizeTenant m now.val t).1.distinctUserCount.getD 0,
      ?_, ?_⟩
    · rw [forall₂_map_right_iff, forall₂_same]
      exact heach
    · cases hcount : s.fleet.distinctUserCount with
      | none =>
        rw [hfleet] at hcount hexact
        exact absurd hcount (exact_counted hexact)
      | some n =>
        rw [hfleet] at hcount
        rw [(fleet_number hcount).1, List.map_map]
        rfl
  · rw [hfleet] at hn hne ⊢
    obtain ⟨hsum, hpositive⟩ := fleet_number hn
    obtain ⟨hpos, hatLeast⟩ := hpositive hne
    refine ⟨hatLeast, hpos, _, ?_, hsum⟩
    rw [List.map_map, forall₂_map_right_iff, forall₂_same]
    intro t _
    rcases @summarize_part _ _ _ now.val t hm with hzero | ⟨hn, hgate, row, hmem, hrest⟩
    · exact .inl hzero
    · exact .inr ⟨hn, hgate, row, mem_queried hmem, hrest⟩
  · rw [htenants] at hentry
    obtain ⟨t, _, rfl⟩ := mem_map.mp hentry
    exact summarize_nonzero

end FleetSummary
