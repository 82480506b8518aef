import HawkView.IdentityRisk.AuthenticationWindow

/-!
# What a stored window covers

A window that merging stores is accepted again, lies in the completed collections of its source
since the source last changed, does not go back, and carries the newest event of those
collections.
-/

namespace AuthenticationReadiness

open List Option

open Json IsoTime
open Auth (AuthSource dateParse)

/-! ## Times -/

variable {s : JsString}

theorem iso_iff : iso s = true ↔ (utcTime s).isSome = true ∧ Canonical s := by
  rw [iso, Bool.and_eq_true, decide_eq_true_eq]

theorem utcTime_iso (h : iso s = true) : utcTime s = some (dateParse s) := by
  obtain ⟨t, ht⟩ := isSome_iff_exists.mp (iso_iff.mp h).1
  rw [dateParse, ht, getD_some]

variable {t : JsString}

theorem lt_iff_dateParse (hs : iso s = true) (ht : iso t = true) :
    s < t ↔ dateParse s < dateParse t :=
  lt_iff (utcTime_iso hs) (utcTime_iso ht) (iso_iff.mp hs).2 (iso_iff.mp ht).2

theorem le_iff_dateParse (hs : iso s = true) (ht : iso t = true) :
    s ≤ t ↔ dateParse s ≤ dateParse t := by
  rw [← List.not_lt, lt_iff_dateParse ht hs, not_lt]

theorem iso_toISOString {t : Int} (h : FourDigitYear t) :
    iso (toISOString t) = true ∧ dateParse (toISOString t) = t := by
  obtain ⟨hread, hcanonical⟩ := utcTime_toISOString h
  refine ⟨iso_iff.mpr ⟨by rw [hread]; rfl, hcanonical⟩, ?_⟩
  rw [dateParse, hread, getD_some]

theorem fourDigitYear_iso (h : iso s = true) : FourDigitYear (dateParse s) :=
  fourDigitYear_of_utcTime (utcTime_iso h)

/-! ## Accepted windows -/

/-- The observed fields belong to the version. -/
def Observes (w : AuthenticationWindow) : Prop :=
  match w.schemaVersion with
  | .v1 => w.observedEvents = none ∧ w.latestObservedEventAt = none
  | .v2 => ∃ events latest, w.observedEvents = some events ∧ events < 2 ^ 53 ∧
      w.latestObservedEventAt = some latest ∧ ∀ t, latest = some t → iso t = true

structure Valid (w : AuthenticationWindow) : Prop where
  start : iso w.start = true
  stop : iso w.stop = true
  ordered : w.start ≤ w.stop
  day : dateParse w.stop - dateParse w.start ≤ dayLength
  observes : Observes w

theorem safeCount_ofNat {n : Nat} (h : n < 2 ^ 53) : safeCount (.ofNat n) = some n := by
  have hpos : (0 : ℚ) ≤ (n : ℚ) := Nat.cast_nonneg n
  simp only [JsNumber.ofNat, safeCount, JsNumber.isSafeInteger, hpos]
  simp
  omega

theorem lt_of_safeCount {x : JsNumber} {n : Nat} (h : safeCount x = some n) : n < 2 ^ 53 := by
  cases x with
  | finite q =>
    by_cases hsafe : (JsNumber.finite q).isSafeInteger = true ∧ 0 ≤ q
    · rw [safeCount, if_pos hsafe] at h
      obtain rfl := Option.some.inj h
      have hrange := hsafe.1
      simp only [JsNumber.isSafeInteger, Bool.and_eq_true, decide_eq_true_eq] at hrange
      omega
    · rw [safeCount, if_neg hsafe] at h
      cases h
  | infinite _ => cases h
  | nan => cases h

variable {latest : Option JsString}

theorem latestOf_iso {v : Option Json} (h : latestOf v = some latest) :
    ∀ t, latest = some t → iso t = true := by
  unfold latestOf at h
  split at h
  · cases h
    exact fun t ht => by cases ht
  · split at h
    · rename_i hiso
      cases h
      rintro t ⟨⟩
      exact hiso
    · cases h
  · cases h

variable {w : AuthenticationWindow}

theorem authenticationWindow_valid {v : Json} (h : authenticationWindow v = some w) : Valid w := by
  cases v with
  | object entries =>
    obtain ⟨schemaVersion, _, h⟩ := bind_eq_some_iff.mp h
    obtain ⟨⟨events, latest⟩, hobservation, h⟩ := bind_eq_some_iff.mp h
    obtain ⟨source, _, h⟩ := bind_eq_some_iff.mp h
    obtain ⟨complete, _, h⟩ := bind_eq_some_iff.mp h
    obtain ⟨start, hstart, h⟩ := bind_eq_some_iff.mp h
    obtain ⟨stop, hstop, h⟩ := bind_eq_some_iff.mp h
    split at h
    · rename_i hchecks
      cases h
      refine ⟨(filter_eq_some_iff.mp hstart).2, (filter_eq_some_iff.mp hstop).2,
        hchecks.2.2.1, hchecks.2.2.2, ?_⟩
      cases schemaVersion with
      | v1 =>
        cases hobservation
        exact ⟨rfl, rfl⟩
      | v2 =>
        obtain ⟨n, hn, h⟩ := bind_eq_some_iff.mp hobservation
        obtain ⟨l, hl, h⟩ := bind_eq_some_iff.mp h
        cases h
        obtain ⟨x, _, hx⟩ := bind_eq_some_iff.mp hn
        exact ⟨n, l, rfl, lt_of_safeCount hx, rfl, latestOf_iso hl⟩
    · cases h
  | null => cases h
  | bool b => cases h
  | number n => cases h
  | string s => cases h
  | array items => cases h

theorem latestOf_jsonOption (h : ∀ t, latest = some t → iso t = true) :
    latestOf (some (Auth.jsonOption latest)) = some latest := by
  cases latest with
  | none => rfl
  | some t =>
    show (if iso t then some (some t) else none) = _
    rw [if_pos (h t rfl)]

theorem schema_ofText (schema : AuthWindowSchema) :
    AuthWindowSchema.ofText schema.text = some schema := by
  cases schema <;> decide

theorem source_ofText (source : AuthSource) : AuthSource.ofText source.text = some source := by
  cases source <;> decide

/-- A window is read from its named fields. -/
theorem authenticationWindow_of {entries : List (JsString × Json)} (valid : Valid w)
    (schema : entries.lookup (js "schemaVersion") = some (.string w.schemaVersion.text))
    (source : entries.lookup (js "source") = some (.string w.source.text))
    (start : entries.lookup (js "start") = some (.string w.start))
    (stop : entries.lookup (js "end") = some (.string w.stop))
    (complete : entries.lookup (js "paginationComplete") = some (.bool w.paginationComplete))
    (observation : observationOf entries w.schemaVersion =
      some (w.observedEvents, w.latestObservedEventAt))
    (own : AuthenticationIntegrity.plainEntries entries = true)
    (exactly : joinedKeys (names entries) = w.schemaVersion.keys) :
    authenticationWindow (.object entries) = some w := by
  simp only [authenticationWindow, schema, source, start, stop, complete, textOf, boolOf,
    bind_some, schema_ofText, source_ofText, observation, bind_eq_bind,
    filter_some, valid.start, valid.stop, own, exactly, valid.ordered, valid.day, and_self,
    if_true]
  rfl

/-- What is stored of a valid window is read back as it. -/
theorem authenticationWindow_json (h : Valid w) :
    authenticationWindow w.json = some w := by
  have hobserves := h.observes
  obtain ⟨schemaVersion, source, start, stop, complete, events, latest⟩ := w
  cases schemaVersion with
  | v1 =>
    obtain ⟨hevents, hlatest⟩ := hobserves
    obtain rfl : events = none := hevents
    obtain rfl : latest = none := hlatest
    refine authenticationWindow_of h rfl rfl rfl rfl rfl rfl ?_ ?_
    · exact (by decide +kernel : AuthenticationIntegrity.plainEntries
        ([js "schemaVersion", js "source", js "start", js "end",
          js "paginationComplete"].map fun name => (name, Json.null)) = true)
    · exact (by decide +kernel : joinedKeys [js "schemaVersion", js "source", js "start", js "end",
        js "paginationComplete"] = AuthWindowSchema.v1.keys)
  | v2 =>
    obtain ⟨n, l, hevents, hn, hlatest, hl⟩ := hobserves
    obtain rfl : events = some n := hevents
    obtain rfl : latest = some l := hlatest
    refine authenticationWindow_of h rfl rfl rfl rfl rfl ?_ ?_ ?_
    · show ((numberOf (some (ofCount n))).bind safeCount).bind _ = _
      rw [numberOf_ofCount, bind_some, safeCount_ofNat hn, bind_some]
      show (latestOf (some (Auth.jsonOption l))).bind _ = _
      rw [latestOf_jsonOption hl]
      rfl
    · exact (by decide +kernel : AuthenticationIntegrity.plainEntries
        ([js "schemaVersion", js "source", js "start", js "end", js "paginationComplete",
          js "observedEvents", js "latestObservedEventAt"].map fun name => (name, Json.null)) = true)
    · exact (by decide +kernel : joinedKeys [js "schemaVersion", js "source", js "start", js "end",
        js "paginationComplete", js "observedEvents", js "latestObservedEventAt"] =
          AuthWindowSchema.v2.keys)

/-! ## Collections -/

structure MergeCall where
  source : AuthSource
  start : Option Date
  stop : Option Date
  completedPageChain : Bool
  observed : Observed

def MergeCall.merge (c : MergeCall) (previous : Json) : Except MergeError AuthenticationWindow :=
  mergeAuthenticationWindow previous c.source c.start c.stop c.completedPageChain c.observed

/-- A completed collection, the newest event it observed and what was stored of it. -/
structure Pass where
  source : AuthSource
  window : Option (Int × Int)
  latest : Option JsString
  result : AuthenticationWindow

/-- The stored value and the collections up to it, the newest first. -/
structure History where
  stored : Json
  passes : List Pass

def Pass.first (w : AuthenticationWindow) : Pass where
  source := w.source
  window := if w.paginationComplete then some (dateParse w.start, dateParse w.stop) else none
  latest := carriedLatest (some w)
  result := w

/-- The history of a value that was already stored. -/
def History.first (stored : Json) : History :=
  ⟨stored, ((authenticationWindow stored).map Pass.first).toList⟩

def MergeCall.pass (c : MergeCall) (w : AuthenticationWindow) : Pass where
  source := c.source
  window := c.start.bind fun start => c.stop.map fun stop => (start.val, stop.val)
  latest := c.observed.latestEventAt
  result := w

/-- What was stored stays when merging throws. -/
def collect (h : History) (c : MergeCall) : History :=
  match c.merge h.stored with
  | .ok w => ⟨w.json, c.pass w :: h.passes⟩
  | .error _ => h

/-- The collections of a source since it was last changed. -/
def lane : List Pass → List Pass
  | [] => []
  | p :: older => p :: older.takeWhile fun q => q.source = p.source

/-- Windows that touch make up one span. -/
inductive Spans (windows : List (Int × Int)) : Int → Int → Prop
  | window {a b : Int} (h : (a, b) ∈ windows) : Spans windows a b
  | join {a b c d : Int} (left : Spans windows a b) (right : Spans windows c d) (hcb : c ≤ b)
      (had : a ≤ d) : Spans windows (min a c) (max b d)

/-- The newest of the events, `none` without any. -/
def Newest (events : List JsString) : Option JsString → Prop
  | none => events = []
  | some t => t ∈ events ∧ ∀ u ∈ events, dateParse u ≤ dateParse t

structure Sound (h : History) : Prop where
  accepted : ∀ p ∈ h.passes, authenticationWindow p.result.json = some p.result
  newest : authenticationWindow h.stored = h.passes.head?.map Pass.result
  own : ∀ p ∈ h.passes, p.result.source = p.source
  complete : ∀ p ∈ h.passes, p.result.paginationComplete = p.window.isSome
  covers : ∀ p older, h.passes = p :: older → p.result.paginationComplete = true →
    ∃ a b, Spans ((lane h.passes).filterMap Pass.window) a b ∧
      a ≤ dateParse p.result.start ∧ dateParse p.result.stop ≤ b
  forward : h.passes.Pairwise fun p q => dateParse q.result.stop ≤ dateParse p.result.stop
  latest : ∀ p older, h.passes = p :: older →
    Newest ((lane h.passes).filterMap Pass.latest) (carriedLatest (some p.result))

/-- The bounds of the collections have years of four digits. -/
def InYears (h : History) : Prop :=
  ∀ p ∈ h.passes, ∀ w ∈ p.window, FourDigitYear w.1 ∧ FourDigitYear w.2

instance (h : History) : Decidable (InYears h) :=
  inferInstanceAs (Decidable (∀ p ∈ h.passes, ∀ w ∈ p.window, FourDigitYear w.1 ∧
    FourDigitYear w.2))

/-! ## Spans -/

variable {windows : List (Int × Int)}

theorem Spans.mono {others : List (Int × Int)} (hsub : windows ⊆ others) {a b : Int}
    (h : Spans windows a b) : Spans others a b := by
  induction h with
  | window h => exact .window (hsub h)
  | join _ _ hcb had left right => exact .join left right hcb had

variable {p : Pass}

theorem lane_cons {q : Pass} (older : List Pass) (h : q.source = p.source) :
    lane (p :: q :: older) = p :: lane (q :: older) := by
  have hsame : (fun r : Pass => decide (r.source = p.source)) =
      fun r : Pass => decide (r.source = q.source) := by
    rw [h]
  rw [lane, takeWhile_cons_of_pos (by simpa using h), hsame, lane]

theorem lane_switch {q : Pass} (older : List Pass) (h : q.source ≠ p.source) :
    lane (p :: q :: older) = [p] := by
  rw [lane, takeWhile_cons_of_neg (by simpa using h)]

/-! ## What merging returns -/

/-- What merging returned, with the bounds and the count it read. -/
structure Merged (c : MergeCall) (prior : Option AuthenticationWindow) (w : AuthenticationWindow)
    (start stop : Date) (events : Nat) : Prop where
  hstart : c.start = some start
  hstop : c.stop = some stop
  ordered : start.val ≤ stop.val
  hevents : safeCount c.observed.events = some events
  seen : ∀ t, c.observed.latestEventAt = some t → iso t = true
  forward : ∀ v, prior = some v → dateParse v.stop ≤ stop.val
  result : w =
    { schemaVersion := .v2
      source := c.source
      start := toISOString (max (extendedStart (prior.filter fun v => v.source = c.source)
        start stop) (stop.val - dayLength))
      stop := toISOString stop.val
      paginationComplete := true
      observedEvents := some events
      latestObservedEventAt := some (latestObserved c.observed.latestEventAt
        (carriedLatest (prior.filter fun v => v.source = c.source))) }

variable {c : MergeCall}

theorem merged {previous : Json} (h : c.merge previous = .ok w) :
    ∃ start stop events, Merged c (authenticationWindow previous) w start stop events := by
  unfold MergeCall.merge mergeAuthenticationWindow at h
  split at h
  · rename_i start stop hstart hstop
    split at h
    · cases h
    · rename_i hordered
      split at h
      · cases h
      · rename_i events hevents
        split at h
        · cases h
        · rename_i hseen
          dsimp only at h
          split at h
          · cases h
          · rename_i hforward
            refine ⟨start, stop, events, hstart, hstop, by omega, hevents, ?_, ?_,
              (Except.ok.inj h).symm⟩
            · intro t ht
              simpa [ht] using hseen
            · intro v hv
              simpa [hv] using hforward
  · cases h

variable {prior : Option AuthenticationWindow} {start : Date}

/-- The start that merging stores lies between the starts it read and the end. -/
theorem extendedStart_bounds (stop : Date)
    (hprior : ∀ v, prior = some v → FourDigitYear (dateParse v.start))
    (hyear : FourDigitYear start.val) :
    FourDigitYear (extendedStart prior start stop) ∧
      extendedStart prior start stop ≤ start.val := by
  cases prior with
  | none => exact ⟨hyear, le_rfl⟩
  | some v =>
    obtain ⟨hlow, hhigh⟩ := hprior v rfl
    unfold FourDigitYear at *
    simp only [extendedStart]
    split <;> constructor <;> omega

theorem valid_carried (h : ∀ v, prior = some v → Valid v) (ht : carriedLatest prior = some t) :
    iso t = true := by
  cases prior with
  | none => cases ht
  | some v =>
    have hobserves := (h v rfl).observes
    obtain ⟨schemaVersion, source, start, stop, complete, events, latest⟩ := v
    cases schemaVersion with
    | v1 =>
      obtain ⟨hevents, -⟩ := hobserves
      obtain rfl : events = none := hevents
      cases ht
    | v2 =>
      obtain ⟨n, l, hevents, -, hlatest, hl⟩ := hobserves
      obtain rfl : events = some n := hevents
      obtain rfl : latest = some l := hlatest
      exact hl t ht

variable {observed carried : Option JsString}

theorem iso_latestObserved (hobserved : ∀ t, observed = some t → iso t = true)
    (hcarried : ∀ t, carried = some t → iso t = true)
    (h : latestObserved observed carried = some t) : iso t = true := by
  unfold latestObserved at h
  split at h
  · exact hobserved t h
  · split at h
    · exact hobserved t h
    · exact hcarried t h
  · exact hcarried t h

variable {stop : Date} {events : Nat}

/-- The window that merging returns is valid, with the bounds it was computed from. -/
theorem Merged.valid (h : Merged c prior w start stop events)
    (hprior : ∀ v, prior = some v → Valid v) (hstart : FourDigitYear start.val)
    (hstop : FourDigitYear stop.val) :
    Valid w ∧ dateParse w.start = max (extendedStart (prior.filter fun v => v.source = c.source)
      start stop) (stop.val - dayLength) ∧ dateParse w.stop = stop.val := by
  have hown : ∀ v, prior.filter (fun v => v.source = c.source) = some v → Valid v :=
    fun v hv => hprior v (filter_eq_some_iff.mp hv).1
  obtain ⟨hextended, hle⟩ := extendedStart_bounds stop
    (fun v hv => fourDigitYear_iso (hown v hv).start) hstart
  have hordered := h.ordered
  have hday : (0 : Int) ≤ dayLength := by decide
  have hcut : FourDigitYear (max (extendedStart (prior.filter fun v => v.source = c.source)
      start stop) (stop.val - dayLength)) := by
    unfold FourDigitYear at *
    constructor <;> omega
  obtain ⟨hisoStart, hparseStart⟩ := iso_toISOString hcut
  obtain ⟨hisoStop, hparseStop⟩ := iso_toISOString hstop
  rw [h.result]
  refine ⟨⟨hisoStart, hisoStop, (le_iff_dateParse hisoStart hisoStop).mpr ?_, ?_, ?_⟩,
    hparseStart, hparseStop⟩
  · rw [hparseStart, hparseStop]
    omega
  · simp only [hparseStart, hparseStop]
    omega
  · exact ⟨events, _, rfl, lt_of_safeCount h.hevents, rfl,
      fun t ht => iso_latestObserved h.seen (fun u hu => valid_carried hown hu) ht⟩

/-! ## The newest event -/

theorem newest_latestObserved {events : List JsString}
    (hobserved : ∀ t, observed = some t → iso t = true)
    (hcarried : ∀ t, carried = some t → iso t = true) (h : Newest events carried) :
    Newest (observed.toList ++ events) (latestObserved observed carried) := by
  cases observed with
  | none =>
    cases carried with
    | none => exact h
    | some u => exact h
  | some t =>
    cases carried with
    | none =>
      obtain rfl : events = [] := h
      exact ⟨mem_cons_self, fun u hu => by rw [mem_singleton.mp hu]⟩
    | some u =>
      obtain ⟨hmem, hgreatest⟩ := h
      have horder := lt_iff_dateParse (hcarried u rfl) (hobserved t rfl)
      unfold latestObserved
      simp only
      split
      · rename_i hlt
        refine ⟨mem_cons_self, fun v hv => ?_⟩
        rcases mem_cons.mp hv with rfl | hv
        · exact le_rfl
        · have hparse := horder.mp hlt
          have hle := hgreatest v hv
          omega
      · rename_i hlt
        refine ⟨mem_cons_of_mem t hmem, fun v hv => ?_⟩
        rcases mem_cons.mp hv with rfl | hv
        · exact not_lt.mp fun hparse => hlt (horder.mpr hparse)
        · exact hgreatest v hv

/-! ## Runs -/

variable {h : History}

theorem Sound.valid (sound : Sound h) (hp : p ∈ h.passes) :
    Valid p.result :=
  authenticationWindow_valid (sound.accepted p hp)

theorem sound_first (stored : Json) : Sound (History.first stored) := by
  cases hwindow : authenticationWindow stored with
  | none =>
    have hempty : (History.first stored).passes = [] := by rw [History.first, hwindow]; rfl
    refine ⟨?_, ?_, ?_, ?_, ?_, ?_, ?_⟩
    · simp [hempty]
    · rw [hempty]
      exact hwindow
    · simp [hempty]
    · simp [hempty]
    · simp [hempty]
    · simp [hempty]
    · simp [hempty]
  | some w =>
    have hone : (History.first stored).passes = [Pass.first w] := by
      rw [History.first, hwindow]
      rfl
    have hvalid := authenticationWindow_valid hwindow
    refine ⟨?_, ?_, ?_, ?_, ?_, ?_, ?_⟩
    · rw [hone]
      rintro p hp
      obtain rfl := mem_singleton.mp hp
      exact authenticationWindow_json hvalid
    · rw [hone]
      exact hwindow
    · rw [hone]
      rintro p hp
      obtain rfl := mem_singleton.mp hp
      rfl
    · rw [hone]
      rintro p hp
      obtain rfl := mem_singleton.mp hp
      show w.paginationComplete = (if w.paginationComplete then _ else none).isSome
      cases w.paginationComplete <;> rfl
    · rw [hone]
      rintro p older ⟨⟩ hcomplete
      refine ⟨dateParse w.start, dateParse w.stop, .window ?_, le_rfl, le_rfl⟩
      have hwindow' : (Pass.first w).window = some (dateParse w.start, dateParse w.stop) :=
        if_pos hcomplete
      simp [lane, hwindow']
    · rw [hone]
      exact pairwise_singleton _ _
    · rw [hone]
      rintro p older ⟨⟩
      have hlane : (lane [Pass.first w]).filterMap Pass.latest =
          (carriedLatest (some w)).toList := by
        cases hlatest : carriedLatest (some w) with
        | none => simp [lane, Pass.first, hlatest]
        | some t => simp [lane, Pass.first, hlatest]
      rw [hlane]
      show Newest _ (carriedLatest (some w))
      cases carriedLatest (some w) with
      | none => rfl
      | some t => exact ⟨mem_cons_self, fun u hu => by rw [mem_singleton.mp hu]⟩

/-- The collection of a call lies in its own window. -/
theorem Merged.window (h : Merged c prior w start stop events) :
    (c.pass w).window = some (start.val, stop.val) := by
  simp [MergeCall.pass, h.hstart, h.hstop]

/-- The span of the collections since the source was last changed holds the extended start. -/
theorem spans_extended (p : Pass) (hmem : (start.val, stop.val) ∈ windows)
    (hvalid : Valid p.result)
    (hcovers : p.result.paginationComplete = true → ∃ a b, Spans windows a b ∧
      a ≤ dateParse p.result.start ∧ dateParse p.result.stop ≤ b) :
    ∃ a b, Spans windows a b ∧ a ≤ extendedStart (some p.result) start stop ∧ stop.val ≤ b := by
  have hprior := (le_iff_dateParse hvalid.start hvalid.stop).mp hvalid.ordered
  by_cases hextends : p.result.paginationComplete = true ∧
      start.val ≤ dateParse p.result.stop ∧ dateParse p.result.stop ≤ stop.val
  · obtain ⟨a, b, hspans, ha, hb⟩ := hcovers hextends.1
    refine ⟨_, _, .join hspans (.window hmem) (by omega) (by omega), ?_, le_max_right b _⟩
    simp only [extendedStart, if_pos hextends]
    omega
  · refine ⟨_, _, .window hmem, ?_, le_rfl⟩
    simp only [extendedStart, if_neg hextends, le_refl]

/-- The stored window counts only while the source stays. -/
theorem Sound.lane_next (sound : Sound h) (c : MergeCall) (w : AuthenticationWindow) :
    ((authenticationWindow h.stored).filter (fun v => v.source = c.source) = none ∧
      lane (c.pass w :: h.passes) = [c.pass w]) ∨
    ∃ p older, h.passes = p :: older ∧
      (authenticationWindow h.stored).filter (fun v => v.source = c.source) = some p.result ∧
      lane (c.pass w :: h.passes) = c.pass w :: lane h.passes := by
  have hnewest := sound.newest
  cases hpasses : h.passes with
  | nil =>
    rw [hpasses] at hnewest
    exact .inl ⟨by rw [hnewest]; rfl, rfl⟩
  | cons p older =>
    rw [hpasses] at hnewest
    have hnewest : authenticationWindow h.stored = some p.result := hnewest
    have hown : p.result.source = p.source := sound.own p (hpasses ▸ mem_cons_self)
    by_cases hsame : p.source = c.source
    · refine .inr ⟨p, older, rfl, ?_, lane_cons older hsame⟩
      rw [hnewest, filter_some, if_pos (decide_eq_true (hown.trans hsame))]
    · refine .inl ⟨?_, lane_switch older hsame⟩
      rw [hnewest, filter_some, if_neg]
      simpa [hown] using hsame

theorem Sound.collect (sound : Sound h) (years : InYears (collect h c)) : Sound (collect h c) := by
  unfold AuthenticationReadiness.collect at years ⊢
  split
  · rename_i w hmerge
    rw [hmerge] at years
    obtain ⟨start, stop, events, hmerged⟩ := merged hmerge
    have hwindow := hmerged.window
    obtain ⟨hstart, hstop⟩ := years _ mem_cons_self _ hwindow
    have hprior : ∀ v, authenticationWindow h.stored = some v → Valid v :=
      fun v hv => authenticationWindow_valid hv
    obtain ⟨hvalid, hparseStart, hparseStop⟩ := hmerged.valid hprior hstart hstop
    have hsource : w.source = c.source := by rw [hmerged.result]
    have hlatest : carriedLatest (some w) = latestObserved c.observed.latestEventAt
        (carriedLatest ((authenticationWindow h.stored).filter fun v => v.source = c.source)) := by
      rw [hmerged.result]
      rfl
    have hread := authenticationWindow_json hvalid
    have hnewest := sound.newest
    refine ⟨?_, hread, ?_, ?_, ?_, ?_, ?_⟩
    · rintro p hp
      rcases mem_cons.mp hp with rfl | hp
      · exact hread
      · exact sound.accepted p hp
    · rintro p hp
      rcases mem_cons.mp hp with rfl | hp
      · exact hsource
      · exact sound.own p hp
    · rintro p hp
      rcases mem_cons.mp hp with rfl | hp
      · rw [hwindow]
        show w.paginationComplete = true
        rw [hmerged.result]
      · exact sound.complete p hp
    · rintro p older ⟨⟩ -
      show ∃ a b, Spans _ a b ∧ a ≤ dateParse w.start ∧ dateParse w.stop ≤ b
      rw [hparseStart, hparseStop]
      rcases sound.lane_next c w with ⟨hnone, hlane⟩ | ⟨p, older, hpasses, hsome, hlane⟩
      · rw [hlane, hnone]
        refine ⟨_, _, .window (a := start.val) (b := stop.val) ?_, le_max_left _ _, le_rfl⟩
        rw [filterMap_cons_some hwindow]
        exact mem_cons_self
      · rw [hlane, hsome, filterMap_cons_some hwindow]
        obtain ⟨a, b, hspans, ha, hb⟩ := spans_extended p
          mem_cons_self (sound.valid (hpasses ▸ mem_cons_self))
          fun hcomplete =>
            have ⟨a, b, hspans, hbounds⟩ := sound.covers p older hpasses hcomplete
            ⟨a, b, hspans.mono (subset_cons_self _ _), hbounds⟩
        exact ⟨a, b, hspans, le_trans ha (le_max_left _ _), hb⟩
    · refine pairwise_cons.mpr ⟨fun q hq => ?_, sound.forward⟩
      show dateParse q.result.stop ≤ dateParse w.stop
      rw [hparseStop]
      cases hpasses : h.passes with
      | nil => simp [hpasses] at hq
      | cons p older =>
        rw [hpasses] at hnewest hq
        have hlast : dateParse p.result.stop ≤ stop.val := hmerged.forward _ hnewest
        have hforward := sound.forward
        rw [hpasses] at hforward
        rcases mem_cons.mp hq with rfl | hq
        · exact hlast
        · exact le_trans ((pairwise_cons.mp hforward).1 q hq) hlast
    · rintro p older ⟨⟩
      show Newest _ (carriedLatest (some w))
      rw [hlatest]
      have hevents : ∀ rest, (c.pass w :: rest).filterMap Pass.latest =
          c.observed.latestEventAt.toList ++ rest.filterMap Pass.latest := by
        intro rest
        cases hobserved : c.observed.latestEventAt with
        | none => exact filterMap_cons_none hobserved
        | some t => exact filterMap_cons_some hobserved
      rcases sound.lane_next c w with ⟨hnone, hlane⟩ | ⟨p, older, hpasses, hsome, hlane⟩
      · rw [hlane, hnone, hevents]
        exact newest_latestObserved hmerged.seen (fun t ht => by cases ht) rfl
      · rw [hlane, hsome, hevents]
        refine newest_latestObserved hmerged.seen (fun t ht => valid_carried ?_ ht)
          (sound.latest p older hpasses)
        rintro v ⟨⟩
        exact sound.valid (hpasses ▸ mem_cons_self)
  · exact sound

/-- The collections of a run are those of its beginning and newer ones. -/
theorem passes_collect (h : History) (c : MergeCall) : h.passes <:+ (collect h c).passes := by
  unfold collect
  split
  · exact suffix_cons _ _
  · exact suffix_rfl

/-- What is stored after any run of collections, whichever sources alternate. -/
theorem windows_sound (stored : Json) (calls : List MergeCall)
    (years : InYears (calls.foldl collect (History.first stored))) :
    Sound (calls.foldl collect (History.first stored)) := by
  induction calls using reverseRecOn with
  | nil => exact sound_first stored
  | append_singleton calls c ih =>
    rw [foldl_append] at years ⊢
    refine Sound.collect (ih fun p hp => ?_) years
    exact years p ((passes_collect _ c).subset hp)

/-- A collection of the days up to an instant, without events. -/
def quietCall (source : AuthSource) (start stop : Date) : MergeCall where
  source := source
  start := some start
  stop := some stop
  completedPageChain := true
  observed := ⟨.ofNat 0, none⟩

/-- Two collections of one source and one of the other. -/
theorem windows_sound_switch : Sound ([quietCall .graphSignIns ⟨0, by decide⟩ ⟨3600000, by decide⟩,
    quietCall .graphSignIns ⟨1800000, by decide⟩ ⟨7200000, by decide⟩,
    quietCall .m365AuditSts ⟨7200000, by decide⟩ ⟨9000000, by decide⟩].foldl collect
      (History.first .null)) :=
  windows_sound .null _ (by decide +kernel)

/-- A window that starts with the year 10000 is stored and not accepted again. -/
theorem late_window_unsound :
    ¬ Sound ([quietCall .graphSignIns ⟨253402300800000, by decide⟩
      ⟨253402300800000, by decide⟩].foldl collect (History.first .null)) := by
  intro sound
  exact absurd sound.accepted (by decide +kernel)

end AuthenticationReadiness
