import HawkView.Auth.Evaluate
import HawkView.Lib.Runs

/-!
# The evaluation does not depend on arrival order

What is admitted of a list of events is a matter of which events it holds: the
groups say the same of every arrangement, up to the time an event came in, and
everything after them is computed from the groups and the reasons.
-/

namespace Auth

open IsoTime List Option

/-! ## What a fingerprint says -/

theorem AuthSource.text_injective : Function.Injective AuthSource.text := by
  intro a b
  cases a <;> cases b <;> decide

theorem AuthOutcome.text_injective : Function.Injective AuthOutcome.text := by
  intro a b
  cases a <;> cases b <;> decide

theorem Qualification.text_injective : Function.Injective Qualification.text := by
  intro a b
  cases a <;> cases b <;> decide

theorem MfaFact.text_injective : Function.Injective MfaFact.text := by
  intro a b
  cases a <;> cases b <;> decide

theorem jsonOption_injective : Function.Injective jsonOption := by
  intro a b h
  cases a <;> cases b <;> simp_all [jsonOption]

variable {p : Platform} {c : Context}

/-- Two versions with one fingerprint say the same, up to the text of the time. -/
theorem facts_of_fingerprint (collisionFree : Function.Injective p.sha256) {e f : EventFacts}
    (h : immutableFingerprint p e = immutableFingerprint p f) :
    e.time = f.time ∧ e = { f with eventAt := e.eventAt } := by
  have hfacts := Json.stringify_injective (collisionFree h)
  simp only [immutableFacts, Json.array.injEq, List.cons.injEq, Json.string.injEq,
    Json.number.injEq, and_true] at hfacts
  obtain ⟨horganization, hcustomer, hmicrosoft, hsource, hid, htime, hsubject, happlication,
    houtcome, hcode, hqualification, haddress, hfact, hevidence⟩ := hfacts
  refine ⟨NumberText.ofInt_injective htime, ?_⟩
  have herror : e.errorCode = f.errorCode := by
    cases he : e.errorCode <;> cases hf : f.errorCode <;> rw [he, hf] at hcode
    · cases hcode
    · cases hcode
    · simp only [Json.number.injEq] at hcode
      have := NumberText.ofInt_injective hcode
      simp only [Option.some.injEq]
      omega
  obtain ⟨⟨eo, ec, em⟩, es, ei, ea, esub, eapp, eout, eerr, ⟨eq, ead⟩, ⟨efact, eev⟩⟩ := e
  obtain ⟨⟨fo, fc, fm⟩, fs, fi, fa, fsub, fapp, fout, ferr, ⟨fq, fad⟩, ⟨ffact, fev⟩⟩ := f
  simp only at horganization hcustomer hmicrosoft hid hsubject happlication herror
  simp only [EventFacts.mk.injEq, AuthScope.mk.injEq, ClientSource.mk.injEq, EventMfa.mk.injEq]
  exact ⟨⟨horganization, hcustomer, hmicrosoft⟩, AuthSource.text_injective hsource, hid, trivial,
    hsubject, happlication, AuthOutcome.text_injective houtcome, herror,
    ⟨Qualification.text_injective hqualification, jsonOption_injective haddress⟩,
    MfaFact.text_injective hfact, jsonOption_injective hevidence⟩

/-! ## What a list of events admits -/

def Gate.event : Gate → Option AuthNormalizedEvent
  | .admitted event => some event
  | _ => none

def Gate.isRefused : Gate → Bool
  | .refused _ => true
  | _ => false

def admitted (p : Platform) (c : Context) (events : List Json) : List AuthNormalizedEvent :=
  events.filterMap fun v => (gate p c v).event

/-- The groups after the admission of some events. -/
structure Grouped (p : Platform) (es : List AuthNormalizedEvent) (a : Admission) : Prop where
  group : ∀ id g, a.groups.get? id = some g →
    g.event ∈ es ∧ g.event.eventId = id ∧
    g.fingerprint = immutableFingerprint p g.event.toEventFacts ∧
    (g.conflict = true ↔
      ∃ e ∈ es, e.eventId = id ∧ immutableFingerprint p e.toEventFacts ≠ g.fingerprint)
  present : ∀ e ∈ es, (a.groups.get? e.eventId).isSome
  duplicates : a.duplicateCount + a.groups.entries.length = es.length

theorem length_set_fresh {κ α : Type} [DecidableEq κ] {m : JsMap κ α} {k : κ}
    (fresh : m.get? k = none) (v : α) : (m.set k v).entries.length = m.entries.length + 1 := by
  have h := JsMap.sum_set_fresh (fun _ => 1) fresh v
  simpa using h

theorem length_set_held {κ α : Type} [DecidableEq κ] {m : JsMap κ α} {k : κ} {old : α}
    (held : m.get? k = some old) (v : α) : (m.set k v).entries.length = m.entries.length := by
  have h := JsMap.sum_set_held (fun _ => 1) held v
  simpa using h

/-- The group of an event after one more version of it. -/
theorem meet_spec {existing : Group} {event : AuthNormalizedEvent} {fingerprint : JsString}
    (h : existing.fingerprint = immutableFingerprint p existing.event.toEventFacts)
    (h' : fingerprint = immutableFingerprint p event.toEventFacts) :
    let met := existing.meet fingerprint event
    met.fingerprint = existing.fingerprint ∧
    met.fingerprint = immutableFingerprint p met.event.toEventFacts ∧
    (met.event = existing.event ∨ met.event = event) ∧
    (met.conflict = true ↔ existing.conflict = true ∨ fingerprint ≠ existing.fingerprint) := by
  intro met
  simp only [met, Group.meet]
  split
  · rename_i hne
    exact ⟨rfl, h, .inl rfl, fun _ => .inr (Ne.symm hne), fun _ => rfl⟩
  · rename_i heq
    rw [ne_eq, not_not] at heq
    split
    · refine ⟨rfl, heq.trans h', .inr rfl, ?_⟩
      simp [heq]
    · refine ⟨rfl, h, .inl rfl, ?_⟩
      simp [heq]

theorem admit_grouped {es : List AuthNormalizedEvent} {a : Admission} (h : Grouped p es a)
    (event : AuthNormalizedEvent) : Grouped p (es ++ [event]) (a.receive p event) := by
  unfold Admission.receive
  have hother : ∀ {id : JsString} {fingerprint : JsString}, event.eventId ≠ id →
      ((∃ e ∈ es ++ [event], e.eventId = id ∧
        immutableFingerprint p e.toEventFacts ≠ fingerprint) ↔
      ∃ e ∈ es, e.eventId = id ∧ immutableFingerprint p e.toEventFacts ≠ fingerprint) := by
    intro id fingerprint hid
    simp [or_and_right, exists_or, hid]
  have hpresent : ∀ g, ∀ e ∈ es ++ [event],
      ((a.groups.set event.eventId g).get? e.eventId).isSome := by
    intro g e he
    simp only [JsMap.get?_set]
    by_cases hid : event.eventId = e.eventId
    · rw [if_pos hid]
      rfl
    · rw [if_neg hid]
      rcases mem_append.mp he with hold | hnew
      · exact h.present e hold
      · rw [mem_singleton] at hnew
        exact absurd (by rw [hnew]) hid
  cases hget : a.groups.get? event.eventId with
  | none =>
    have hfresh : ∀ e ∈ es, e.eventId ≠ event.eventId := by
      intro e he heq
      have hsome := h.present e he
      rw [heq, hget] at hsome
      cases hsome
    constructor
    · intro id g hg
      simp only [JsMap.get?_set] at hg
      by_cases hid : event.eventId = id
      · rw [if_pos hid] at hg
        cases hg
        refine ⟨by simp, hid, rfl, ?_⟩
        constructor
        · intro hfalse
          cases hfalse
        · rintro ⟨e, he, heid, hne⟩
          rcases mem_append.mp he with hold | hnew
          · exact absurd (heid.trans hid.symm) (hfresh e hold)
          · rw [mem_singleton] at hnew
            exact absurd (by rw [hnew]) hne
      · rw [if_neg hid] at hg
        obtain ⟨hmem, heid, hfp, hconflict⟩ := h.group id g hg
        exact ⟨mem_append_left _ hmem, heid, hfp, hconflict.trans (hother hid).symm⟩
    · exact hpresent _
    · have hlength := length_set_fresh hget
        ⟨immutableFingerprint p event.toEventFacts, event, false⟩
      have hold := h.duplicates
      simp only [hlength, length_append, length_singleton]
      omega
  | some existing =>
    obtain ⟨hmem, heid, hfp, hconflict⟩ := h.group _ existing hget
    obtain ⟨hsame, hmet, hwhich, hdisputed⟩ := meet_spec hfp
      (rfl : _ = immutableFingerprint p event.toEventFacts)
    simp only
    generalize existing.meet (immutableFingerprint p event.toEventFacts) event = met
      at hsame hmet hwhich hdisputed ⊢
    constructor
    · intro id g hg
      simp only [JsMap.get?_set] at hg
      by_cases hid : event.eventId = id
      · rw [if_pos hid] at hg
        cases hg
        subst hid
        refine ⟨?_, ?_, hmet, ?_⟩
        · rcases hwhich with hold | hnew
          · exact hold ▸ mem_append_left _ hmem
          · exact hnew ▸ by simp
        · rcases hwhich with hold | hnew
          · rw [hold, heid]
          · rw [hnew]
        · rw [hdisputed, hconflict, hsame]
          simp [or_and_right, exists_or]
      · rw [if_neg hid] at hg
        obtain ⟨hmem, heid, hfp, hconflict⟩ := h.group id g hg
        exact ⟨mem_append_left _ hmem, heid, hfp, hconflict.trans (hother hid).symm⟩
    · exact hpresent _
    · have hlength := length_set_held hget met
      have hold := h.duplicates
      simp only [hlength, length_append, length_singleton]
      omega

/-- The admission of a list, in terms of the events that the list holds. -/
structure Reads (p : Platform) (c : Context) (start : JsSet JsString) (events : List Json)
    (a : Admission) : Prop where
  reasons : ∀ r, r ∈ a.reasons.elements ↔
    r ∈ start.elements ∨ ∃ v ∈ events, gate p c v = .refused r
  excluded : a.excludedRows = events.countP fun v => (gate p c v).isRefused
  grouped : Grouped p (admitted p c events) a

theorem reads (p : Platform) (c : Context) (start : JsSet JsString) (events : List Json) :
    Reads p c start events (events.foldl (Admission.read p c) ⟨start, 0, .empty, 0⟩) := by
  apply Runs.foldl_carries
  · refine ⟨by simp, rfl, ?_, ?_, rfl⟩
    · intro id g hg
      cases hg
    · intro e he
      cases he
  · intro events v a h
    have hreasons : ∀ r, (∃ w ∈ events ++ [v], gate p c w = .refused r) ↔
        (∃ w ∈ events, gate p c w = .refused r) ∨ gate p c v = .refused r := by
      intro r
      simp [or_and_right, exists_or]
    have hadmitted : admitted p c (events ++ [v]) =
        admitted p c events ++ (gate p c v).event.toList := by
      cases hevent : (gate p c v).event <;> simp [admitted, hevent]
    unfold Admission.read
    cases hgate : gate p c v with
    | skipped =>
      rw [hgate] at hadmitted
      refine ⟨?_, ?_, ?_⟩
      · intro r
        rw [hreasons, hgate, h.reasons]
        simp
      · simp [h.excluded, hgate, Gate.isRefused]
      · rw [hadmitted]
        simpa [Gate.event] using h.grouped
    | refused reason =>
      rw [hgate] at hadmitted
      refine ⟨?_, ?_, ?_⟩
      · intro r
        rw [hreasons, hgate, JsSet.mem_add, h.reasons, Gate.refused.injEq, eq_comm]
        exact or_comm.trans or_assoc
      · simp [h.excluded, hgate, Gate.isRefused]
      · rw [hadmitted]
        simp only [Gate.event, toList_none, append_nil]
        exact ⟨h.grouped.group, h.grouped.present, h.grouped.duplicates⟩
    | admitted event =>
      rw [hgate] at hadmitted
      have hgrouped := admit_grouped h.grouped event
      have hkeep : (a.receive p event).reasons = a.reasons ∧
          (a.receive p event).excludedRows = a.excludedRows := by
        unfold Admission.receive
        cases a.groups.get? event.eventId <;> exact ⟨rfl, rfl⟩
      refine ⟨?_, ?_, ?_⟩
      · intro r
        rw [hkeep.1, hreasons, hgate, h.reasons]
        simp
      · rw [hkeep.2]
        simp [h.excluded, hgate, Gate.isRefused]
      · rw [hadmitted]
        exact hgrouped

/-! ## Two arrangements -/

variable {s : JsSet JsString}

theorem addIf_elements {condition : Bool} {reason r : JsString} :
    r ∈ (addIf condition reason s).elements ↔ condition = true ∧ r = reason ∨ r ∈ s.elements := by
  cases condition <;> simp [addIf, JsSet.mem_add]

/-- Sets of reasons that hold the same. -/
def SameReasons (s t : JsSet JsString) : Prop := ∀ r, r ∈ s.elements ↔ r ∈ t.elements

variable {t : JsSet JsString}

section

variable (h : SameReasons s t)
include h

theorem SameReasons.addIf (condition : Bool) (reason : JsString) :
    SameReasons (addIf condition reason s) (addIf condition reason t) := by
  intro r
  rw [addIf_elements, addIf_elements, h r]

theorem SameReasons.sorted :
    sorted s.elements = sorted t.elements := sorted_perm (JsSet.elements_perm h)

theorem SameReasons.makeFinding (ruleId : AuthRuleId) :
    makeFinding p c ruleId s.elements = makeFinding p c ruleId t.elements := by
  have hcaveats : Auth.sorted (JsSet.ofList (js "PATTERN_NOT_COMPROMISE_PROOF" ::
      s.elements)).elements = Auth.sorted (JsSet.ofList (js "PATTERN_NOT_COMPROMISE_PROOF" ::
        t.elements)).elements := by
    apply SameReasons.sorted
    intro r
    rw [JsSet.mem_ofList, JsSet.mem_ofList, mem_cons, mem_cons, h r]
  funext evidence expiresAt
  simp only [Auth.makeFinding, hcaveats]

theorem SameReasons.ruleEvaluation (ruleId : AuthRuleId)
    (findings : List AuthFinding) :
    ruleEvaluation ruleId s findings = ruleEvaluation ruleId t findings := by
  simp only [Auth.ruleEvaluation, h.sorted]

/-- The conclusions read a set of reasons in one order. -/
theorem conclude_congr (excludedRows : Nat) (events : List EventFacts)
    (conflicts : List JsString) (duplicateCount : Nat) :
    conclude p c s excludedRows events conflicts duplicateCount =
      conclude p c t excludedRows events conflicts duplicateCount := by
  have hall := ((h.addIf (!conflicts.isEmpty) (js "CONFLICTING_DUPLICATES")).addIf
    (events.isEmpty && (if (!conflicts.isEmpty) = true then excludedRows + conflicts.length
      else excludedRows) == 0 && collectionCovered c.readiness)
    (js "NO_EVIDENCE_IN_WINDOW")).addIf (events.any fun event => event.outcome = .unknown)
      (js "UNKNOWN_OUTCOMES")
  have ha := hall.addIf (decide (c.authorized > c.now - 15 * minute))
    (js "AUTHORIZED_WINDOW_INCOMPLETE")
  have hb := (hall.addIf (decide (c.authorized > c.now - 20 * minute))
    (js "AUTHORIZED_WINDOW_INCOMPLETE")).addIf (events.any fun event =>
      counted event && event.clientSource.qualification ≠ .qualified) (js "INSUFFICIENT_FIELDS")
  simp only [conclude, ha.makeFinding, hb.makeFinding, ha.ruleEvaluation, hb.ruleEvaluation]

end

section Arrangements

variable {es fs : List AuthNormalizedEvent} {a b : Admission}

/-- Groups of the same events hold the same ids. -/
theorem isSome_get? (h : Grouped p es a) (id : JsString) :
    (a.groups.get? id).isSome ↔ ∃ e ∈ es, e.eventId = id := by
  constructor
  · intro hsome
    obtain ⟨g, hg⟩ := Option.isSome_iff_exists.mp hsome
    obtain ⟨hmem, hid, _⟩ := h.group id g hg
    exact ⟨g.event, hmem, hid⟩
  · rintro ⟨e, he, rfl⟩
    exact h.present e he

variable {id : JsString}

/-- A group disputes its event when two versions of it have two fingerprints. -/
theorem conflict_iff (h : Grouped p es a) {g : Group} (hg : a.groups.get? id = some g) :
    g.conflict = true ↔ ∃ e ∈ es, ∃ f ∈ es, e.eventId = id ∧ f.eventId = id ∧
      immutableFingerprint p e.toEventFacts ≠ immutableFingerprint p f.toEventFacts := by
  obtain ⟨hmem, hid, hfp, hconflict⟩ := h.group id g hg
  rw [hconflict]
  constructor
  · rintro ⟨e, he, heid, hne⟩
    exact ⟨e, he, g.event, hmem, heid, hid, hfp ▸ hne⟩
  · rintro ⟨e, he, f, hf, heid, hfid, hne⟩
    by_cases heq : immutableFingerprint p e.toEventFacts = g.fingerprint
    · exact ⟨f, hf, hfid, fun hfeq => hne (heq.trans hfeq.symm)⟩
    · exact ⟨e, he, heid, heq⟩

/-- The arrangements hold the same events, with their times in canonical form. -/
structure Rearranged (p : Platform) (es fs : List AuthNormalizedEvent) (a b : Admission) :
    Prop where
  left : Grouped p es a
  right : Grouped p fs b
  same : ∀ e, e ∈ es ↔ e ∈ fs
  canonical : ∀ e ∈ es, (utcTime e.eventAt).isSome ∧ Canonical e.eventAt

section

variable (h : Rearranged p es fs a b)
include h

theorem Rearranged.symm : Rearranged p fs es b a where
  left := h.right
  right := h.left
  same e := (h.same e).symm
  canonical e he := h.canonical e ((h.same e).mpr he)

theorem Rearranged.get?_isSome (id : JsString) :
    (a.groups.get? id).isSome ↔ (b.groups.get? id).isSome := by
  rw [isSome_get? h.left, isSome_get? h.right]
  simp only [h.same]

/-- The undisputed groups of an id are of one event, as far as it matters. -/
theorem Rearranged.group
    (collisionFree : Function.Injective p.sha256) {g : Group} (hg : a.groups.get? id = some g) :
    ∃ g', b.groups.get? id = some g' ∧ g'.conflict = g.conflict ∧
      (g.conflict = false → g'.event.toEventFacts = g.event.toEventFacts) := by
  obtain ⟨g', hg'⟩ := Option.isSome_iff_exists.mp ((h.get?_isSome id).mp (by rw [hg]; rfl))
  have hconflict : g.conflict = true ↔ g'.conflict = true := by
    rw [conflict_iff h.left hg, conflict_iff h.right hg']
    simp only [h.same]
  refine ⟨g', hg', (Bool.eq_iff_iff.mpr hconflict).symm, ?_⟩
  intro hclear
  obtain ⟨hmem, hid, hfp, hdisputed⟩ := h.left.group id g hg
  obtain ⟨hmem', hid', _, _⟩ := h.right.group id g' hg'
  have hsame : immutableFingerprint p g'.event.toEventFacts =
      immutableFingerprint p g.event.toEventFacts := by
    by_contra hne
    have hfound : g.conflict = true := by
      rw [hdisputed]
      exact ⟨g'.event, (h.same _).mpr hmem', hid', hfp ▸ hne⟩
    rw [hclear] at hfound
    cases hfound
  obtain ⟨htime, hfacts⟩ := facts_of_fingerprint collisionFree hsame
  obtain ⟨hsome, hcanonical⟩ := h.canonical _ hmem
  obtain ⟨hsome', hcanonical'⟩ := h.canonical _ ((h.same _).mpr hmem')
  obtain ⟨t, ht⟩ := Option.isSome_iff_exists.mp hsome
  obtain ⟨t', ht'⟩ := Option.isSome_iff_exists.mp hsome'
  simp only [EventFacts.time, dateParse, ht, ht', getD_some] at htime
  subst htime
  have heq := eq_of_utcTime ht' ht hcanonical' hcanonical
  rw [hfacts, heq]

theorem Rearranged.conflicts
    (collisionFree : Function.Injective p.sha256) : a.conflicts = b.conflicts := by
  have hnodup : ∀ a : Admission,
      ((a.groups.entries.filter fun entry => entry.2.conflict).map Prod.fst).Nodup :=
    fun a => a.groups.unique.sublist (filter_sublist.map _)
  have hsub : ∀ {es fs a b}, Rearranged p es fs a b → ∀ id,
      id ∈ (a.groups.entries.filter fun entry => entry.2.conflict).map Prod.fst →
      id ∈ (b.groups.entries.filter fun entry => entry.2.conflict).map Prod.fst := by
    intro es fs a b h id hmem
    obtain ⟨⟨k, g⟩, hentry, rfl⟩ := List.mem_map.mp hmem
    obtain ⟨hentry, hconflict⟩ := mem_filter.mp hentry
    obtain ⟨g', hg', hsame, _⟩ := h.group collisionFree (JsMap.get?_eq_some.mpr hentry)
    refine List.mem_map.mpr ⟨(k, g'), mem_filter.mpr ⟨JsMap.get?_eq_some.mp hg', ?_⟩, rfl⟩
    exact hsame.trans hconflict
  apply sorted_perm
  rw [perm_ext_iff_of_nodup (hnodup a) (hnodup b)]
  exact fun id => ⟨hsub h id, hsub h.symm id⟩

end

/-- The undisputed events have ids of their own. -/
theorem nodup_events (h : Grouped p es a) :
    (((a.groups.values.filter (!·.conflict)).map fun g => g.event.toEventFacts).map
      EventFacts.eventId).Nodup := by
  have hids : (a.groups.values.map fun g => g.event.eventId) = a.groups.entries.map Prod.fst := by
    rw [JsMap.values, List.map_map]
    apply map_congr_left
    intro entry hentry
    exact (h.group entry.1 entry.2 (JsMap.get?_eq_some.mpr hentry)).2.1
  rw [List.map_map]
  refine List.Nodup.sublist (filter_sublist.map _) ?_
  have hunique := a.groups.unique
  rw [← hids] at hunique
  exact hunique

instance eventOrder_total : Std.Total eventOrder := by
  constructor
  intro x y
  unfold eventOrder
  rcases Int.lt_trichotomy x.time y.time with hlt | heq | hgt
  · exact .inl (.inl hlt)
  · rcases List.le_total x.eventId y.eventId with hle | hge
    · exact .inl (.inr ⟨heq, hle⟩)
    · exact .inr (.inr ⟨heq.symm, hge⟩)
  · exact .inr (.inl hgt)

instance eventOrder_trans : IsTrans EventFacts eventOrder := by
  constructor
  intro x y z hxy hyz
  unfold eventOrder at hxy hyz ⊢
  rcases hxy with hxy | ⟨hxy, hid⟩ <;> rcases hyz with hyz | ⟨hyz, hid'⟩
  · exact .inl (hxy.trans hyz)
  · exact .inl (hyz ▸ hxy)
  · exact .inl (hxy ▸ hyz)
  · exact .inr ⟨hxy.trans hyz, List.le_trans hid hid'⟩

theorem sortEvents_sorted (events : List EventFacts) : (sortEvents events).Pairwise eventOrder :=
  pairwise_insertionSort _ _

theorem sortEvents_perm {l m : List EventFacts} (h : l.Perm m)
    (distinct : (l.map EventFacts.eventId).Nodup) : sortEvents l = sortEvents m := by
  refine StableOrder.insertionSort_perm h fun x hx y hy hxy hyx => ?_
  have hid : x.eventId = y.eventId := by
    unfold eventOrder at hxy hyx
    rcases hxy with hxy | ⟨htime, hle⟩
    · omega
    · rcases hyx with hyx | ⟨_, hge⟩
      · omega
      · exact List.le_antisymm hle hge
  exact inj_on_of_nodup_map distinct hx hy hid

theorem Rearranged.events (h : Rearranged p es fs a b)
    (collisionFree : Function.Injective p.sha256) : a.events = b.events := by
  have hsub : ∀ {es fs a b}, Rearranged p es fs a b → ∀ f,
      f ∈ ((a.groups.values.filter (!·.conflict)).map fun g => g.event.toEventFacts) →
      f ∈ ((b.groups.values.filter (!·.conflict)).map fun g => g.event.toEventFacts) := by
    intro es fs a b h f hf
    obtain ⟨g, hg, rfl⟩ := List.mem_map.mp hf
    obtain ⟨hvalue, hclear⟩ := mem_filter.mp hg
    obtain ⟨⟨id, g⟩, hentry, rfl⟩ := List.mem_map.mp hvalue
    obtain ⟨g', hg', hsame, hfacts⟩ := h.group collisionFree (JsMap.get?_eq_some.mpr hentry)
    rw [Bool.not_eq_true'] at hclear
    have hentry' := JsMap.get?_eq_some.mp hg'
    refine List.mem_map.mpr ⟨g', mem_filter.mpr ⟨List.mem_map.mpr ⟨_, hentry', rfl⟩, ?_⟩,
      hfacts hclear⟩
    rw [hsame, hclear]
    rfl
  refine sortEvents_perm ?_ (nodup_events h.left)
  rw [perm_ext_iff_of_nodup (List.Nodup.of_map _ (nodup_events h.left))
    (List.Nodup.of_map _ (nodup_events h.right))]
  exact fun f => ⟨hsub h f, hsub h.symm f⟩

theorem Rearranged.duplicateCount (h : Rearranged p es fs a b) (perm : es.Perm fs) :
    a.duplicateCount = b.duplicateCount := by
  have hkeys : (a.groups.entries.map Prod.fst).Perm (b.groups.entries.map Prod.fst) := by
    rw [perm_ext_iff_of_nodup a.groups.unique b.groups.unique]
    have hmem : ∀ {m : JsMap JsString Group} {id}, id ∈ m.entries.map Prod.fst ↔
        (m.get? id).isSome := by
      intro m id
      rw [isSome_iff_exists, List.mem_map]
      simp only [JsMap.get?_eq_some]
      constructor
      · rintro ⟨e, he, rfl⟩
        exact ⟨e.2, he⟩
      · rintro ⟨g, hg⟩
        exact ⟨(id, g), hg, rfl⟩
    intro id
    rw [hmem, hmem, h.get?_isSome]
  have hlength := hkeys.length_eq
  have hleft := h.left.duplicates
  have hright := h.right.duplicates
  have hevents := perm.length_eq
  simp only [length_map] at hlength
  omega

end Arrangements

variable {e : AuthNormalizedEvent}

theorem validEvent_eventAt {v : Json} (h : validEvent p v = some e) :
    textMember v "eventAt" = some e.eventAt ∧ (utcTime e.eventAt).isSome := by
  unfold validEvent at h
  iterate 6 obtain ⟨_, _, h⟩ := bind_eq_some_iff.mp h
  obtain ⟨eventAt, heventAt, h⟩ := bind_eq_some_iff.mp h
  iterate 6 obtain ⟨_, _, h⟩ := bind_eq_some_iff.mp h
  split at h
  · cases h
    exact filter_eq_some_iff.mp heventAt
  · cases h

/-- The times of the events are texts as `toISOString` writes them. -/
def CanonicalTimes (events : List Json) : Prop :=
  ∀ v ∈ events, ∀ s, textMember v "eventAt" = some s → (utcTime s).isSome → Canonical s

theorem admitted_canonical {events : List Json} (canonical : CanonicalTimes events)
    (h : e ∈ admitted p c events) :
    (utcTime e.eventAt).isSome ∧ Canonical e.eventAt := by
  obtain ⟨v, hv, hgate⟩ := mem_filterMap.mp h
  have hvalid : validEvent p v = some e := by
    unfold gate at hgate
    simp only at hgate
    split at hgate
    · cases hgate
    · split at hgate
      · cases hgate
      · split at hgate
        · cases hgate
        · split at hgate
          · cases hgate
          · split at hgate
            · cases hgate
            · rename_i hvalid _
              cases hgate
              exact hvalid
  obtain ⟨htext, hsome⟩ := validEvent_eventAt hvalid
  exact ⟨hsome, canonical v hv _ htext hsome⟩

/-- The order in which events arrive changes nothing. -/
theorem evaluate_perm (p : Platform) (collisionFree : Function.Injective p.sha256)
    (input : AuthEvaluationInput) (canonical : CanonicalTimes input.events) (events : List Json)
    (perm : input.events.Perm events) :
    evaluateAuthenticationRules p { input with events } = evaluateAuthenticationRules p input := by
  unfold evaluateAuthenticationRules
  have hcontext : contextOf { input with events } = contextOf input := rfl
  rw [hcontext]
  cases contextOf input with
  | none => rfl
  | some c =>
    simp only [perm.length_eq]
    split
    · rfl
    · cases (textMember input.readiness "state").filter fun s => readinessStates.contains s with
      | none => rfl
      | some state =>
        simp only
        have hleft := reads p c (readinessReasons c state) input.events
        have hright := reads p c (readinessReasons c state) events
        rw [← admitAll] at hleft hright
        have hperm : (admitted p c input.events).Perm (admitted p c events) := perm.filterMap _
        have hsame : Rearranged p (admitted p c input.events) (admitted p c events)
            (admitAll p c state input.events) (admitAll p c state events) :=
          ⟨hleft.grouped, hright.grouped, fun e => hperm.mem_iff,
            fun e he => admitted_canonical canonical he⟩
        have hreasons : SameReasons (admitAll p c state events).reasons
            (admitAll p c state input.events).reasons := by
          intro r
          rw [hright.reasons, hleft.reasons]
          simp only [perm.mem_iff]
        rw [conclude_congr hreasons, hright.excluded, hleft.excluded, perm.countP_eq,
          hsame.events collisionFree, hsame.conflicts collisionFree, hsame.duplicateCount hperm]

/-- A failed sign-in, as it came in at some time. -/
def failedSignIn (ingestedAt : JsString) : Json :=
  .object [
    (js "eventId", .string (js "event-1")),
    (js "organizationId", .string (js "org")),
    (js "customerTenantId", .string (js "customer")),
    (js "microsoftTenantId", .string (js "tenant")),
    (js "source", .string (js "GRAPH_SIGN_INS")),
    (js "eventAt", .string (js "2026-09-10T10:00:00.000Z")),
    (js "ingestedAt", .string ingestedAt),
    (js "subjectRef", .string (js "human")),
    (js "applicationRef", .string (js "app")),
    (js "outcome", .string (js "INVALID_CREDENTIAL")),
    (js "errorCode", .number (.ofInt 50126)),
    (js "clientSource", .object [
      (js "qualification", .string (js "QUALIFIED")),
      (js "address", .string (js "198.51.100.7"))]),
    (js "eventMfa", .object [
      (js "fact", .string (js "NOT_EVIDENCED")),
      (js "evidenceRef", .null)])]

/-- A sign-in, its replay and a record that is no event. -/
def replayedInput : AuthEvaluationInput where
  organizationId := js "org"
  customerTenantId := js "customer"
  microsoftTenantId := js "tenant"
  source := js "GRAPH_SIGN_INS"
  asOf := js "2026-09-10T12:00:00.000Z"
  authorizedFrom := js "2026-09-10T00:00:00.000Z"
  events := [failedSignIn (js "2026-09-10T11:00:00.000Z"), .null,
    failedSignIn (js "2026-09-10T10:30:00.000Z")]
  readiness := .object [
    (js "state", .string (js "READY")),
    (js "paginationComplete", .bool true),
    (js "gapCount", .number (.ofInt 0)),
    (js "capped", .bool false)]

/-- The digest of the sign-in is the one that SHA-256 gives it. -/
def replayPlatform : Platform where
  isIP address := if address = js "198.51.100.7" then 4 else 0
  hostname url := url
  sha256 text :=
    if text = js "[\"org\",\"customer\",\"tenant\",\"GRAPH_SIGN_INS\",\"event-1\"," ++
        js "1789034400000,\"human\",\"app\",\"INVALID_CREDENTIAL\",50126,\"QUALIFIED\"," ++
        js "\"198.51.100.7\",\"NOT_EVIDENCED\",null]" then
      js "f9f0d2cecc0ea4de52065edbb68371aec1813ceac1a2fc7acebee11477e05fad"
    else js "other " ++ text

theorem replayPlatform_collisionFree : Function.Injective replayPlatform.sha256 := by
  have hother : ∀ text, js "f9f0d2cecc0ea4de52065edbb68371aec1813ceac1a2fc7acebee11477e05fad" ≠
      js "other " ++ text := by
    intro text h
    have hhead := congrArg List.head? h
    have hleft : (js "other ").head? = some 0x6F := by decide
    rw [List.head?_append, hleft, some_or] at hhead
    exact absurd hhead (by decide)
  intro s t h
  simp only [replayPlatform] at h
  split at h <;> split at h
  · rename_i hs ht
    exact hs.trans ht.symm
  · exact absurd h (hother _)
  · exact absurd h.symm (hother _)
  · exact append_cancel_left h

theorem evaluate_perm_replay :
    evaluateAuthenticationRules replayPlatform
        { replayedInput with events := replayedInput.events.reverse } =
      evaluateAuthenticationRules replayPlatform replayedInput := by
  apply evaluate_perm replayPlatform replayPlatform_collisionFree replayedInput
  · intro v hv s hs _
    have hall : ∀ v ∈ replayedInput.events,
        textMember v "eventAt" = some (js "2026-09-10T10:00:00.000Z") ∨
          textMember v "eventAt" = none := by
      intro v hv
      simp only [replayedInput, mem_cons, not_mem_nil, or_false] at hv
      rcases hv with rfl | rfl | rfl
      · exact .inl (by decide)
      · exact .inr rfl
      · exact .inl (by decide)
    rcases hall v hv with htime | hnone
    · rw [htime, Option.some.injEq] at hs
      subst hs
      decide
    · rw [hnone] at hs
      cases hs
  · exact (reverse_perm _).symm

end Auth
