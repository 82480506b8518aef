import HawkView.Auth.OrderFree
import HawkView.Lib.Windows

/-!
# Bursts of failures

The findings of rule A for a subject and an application are the components of the sets of ten
failures in fifteen minutes. What a key of events is grouped to, and which findings come from
it, holds for both rules.
-/

namespace Auth

open IsoTime List Option

/-! ## The events of a key -/

theorem get?_grouped (key : EventFacts → JsString) (events : List EventFacts) (k : JsString) :
    ((events.foldl (fun m event => pushTo m (key event) event) .empty).get? k).getD [] =
      events.filter fun event => key event = k := by
  induction events using reverseRecOn with
  | nil => rfl
  | append_singleton events event ih =>
    rw [foldl_append, foldl_cons, foldl_nil, pushTo, JsMap.get?_set,
      filter_append, ← ih]
    by_cases hkey : key event = k
    · subst hkey
      simp
    · simp [hkey]

section Values

variable {m : JsMap JsString (List EventFacts)} {k : JsString}
  {keep : AuthFinding → Bool} {find : List EventFacts → List AuthFinding}

/-- What is kept of all the groups comes from the group of one key. -/
theorem filter_values (none : find [] = [])
    (own : ∀ f ∈ find ((m.get? k).getD []), keep f = true)
    (other : ∀ j v, m.get? j = some v → j ≠ k → ∀ f ∈ find v, keep f = false) :
    (m.values.flatMap find).filter keep = find ((m.get? k).getD []) := by
  have hskip : ∀ es : List (JsString × List EventFacts), (∀ e ∈ es, e ∈ m.entries ∧ e.1 ≠ k) →
      ((es.map Prod.snd).flatMap find).filter keep = [] := by
    intro es hes
    rw [filter_eq_nil_iff]
    intro f hf
    obtain ⟨v, hv, hfound⟩ := mem_flatMap.mp hf
    obtain ⟨⟨j, v⟩, hentry, rfl⟩ := List.mem_map.mp hv
    obtain ⟨hmem, hne⟩ := hes _ hentry
    simp [other j v (JsMap.get?_eq_some.mpr hmem) hne f hfound]
  cases hget : m.get? k with
  | none =>
    rw [getD_none, none]
    apply hskip m.entries
    intro e he
    refine ⟨he, ?_⟩
    rintro rfl
    rw [(JsMap.get?_eq_some (v := e.2)).mpr he] at hget
    cases hget
  | some v =>
    rw [hget, getD_some] at own
    obtain ⟨front, back, hsplit⟩ := append_of_mem (JsMap.get?_eq_some.mp hget)
    have hunique := m.unique
    rw [hsplit, map_append, map_cons, nodup_middle, nodup_cons,
      ← map_append] at hunique
    have hrest : ∀ e ∈ front ++ back, e ∈ m.entries ∧ e.1 ≠ k := by
      intro e he
      refine ⟨?_, fun hkey => hunique.1 (List.mem_map.mpr ⟨e, he, hkey⟩)⟩
      rw [hsplit]
      rcases mem_append.mp he with hfront | hback
      · exact mem_append_left _ hfront
      · exact mem_append_right _ (mem_cons_of_mem _ hback)
    have hfront := hskip front fun e he => hrest e (mem_append_left _ he)
    have hback := hskip back fun e he => hrest e (mem_append_right _ he)
    rw [JsMap.values, hsplit, map_append, map_cons, flatMap_append,
      flatMap_cons, filter_append, filter_append, hfront, hback,
      filter_eq_self.mpr own, nil_append, append_nil, getD_some]

end Values

/-! ## The pointer at the start of a window -/

section Pointer

variable {events : List EventFacts} {bound : Int} {stop start : Nat}

/-- The pointer stops at the first place that is not before the bound. -/
theorem advance_spec (bound : Int) (hstart : start ≤ stop) (hstop : stop ≤ events.length) :
    start ≤ advance events bound stop start ∧ advance events bound stop start ≤ stop ∧
      (∀ i, start ≤ i → i < advance events bound stop start → timeAt events i < bound) ∧
      (advance events bound stop start < stop →
        bound ≤ timeAt events (advance events bound stop start)) := by
  have hplace : ∀ i, start + i < stop →
      ((events.take stop).drop start)[i]? = events[start + i]? := by
    intro i hi
    rw [getElem?_drop, getElem?_take, if_pos hi]
  have hlength : (((events.take stop).drop start).takeWhile
      fun e => decide (e.time < bound)).length ≤ stop - start := by
    have hle := (takeWhile_sublist (l := (events.take stop).drop start)
      fun e => decide (e.time < bound)).length_le
    rw [length_drop, length_take] at hle
    omega
  obtain ⟨hbefore, hends⟩ := Windows.takeWhile_places
    (P := fun e : EventFacts => decide (e.time < bound)) ((events.take stop).drop start)
  unfold advance
  generalize (((events.take stop).drop start).takeWhile
    fun e => decide (e.time < bound)).length = k at hlength hbefore hends
  refine ⟨by omega, by omega, ?_, ?_⟩
  · intro i hi hik
    have hlt : i < events.length := by omega
    have hgot := hplace (i - start) (by omega)
    rw [Nat.add_sub_cancel' hi, getElem?_eq_getElem hlt] at hgot
    have hpass := hbefore (i - start) (by omega) _ hgot
    rw [timeAt, getElem?_eq_getElem hlt]
    exact of_decide_eq_true hpass
  · intro hk
    have hlt : start + k < events.length := by omega
    have hgot := hplace k hk
    rw [getElem?_eq_getElem hlt] at hgot
    have hfail := hends _ hgot
    rw [timeAt, getElem?_eq_getElem hlt]
    exact not_lt.mp (of_decide_eq_false hfail)

/-- The pointer does not remember where it came from, past what is before the bound. -/
theorem advance_eq (hstart : start ≤ stop) (hstop : stop ≤ events.length)
    (before : ∀ i < start, timeAt events i < bound) :
    advance events bound stop start = advance events bound stop 0 := by
  obtain ⟨hge, hle, hold, hends⟩ := advance_spec bound hstart hstop
  obtain ⟨_, hle', hold', hends'⟩ := advance_spec bound (Nat.zero_le stop) hstop
  rcases Nat.lt_trichotomy (advance events bound stop start) (advance events bound stop 0)
    with hlt | heq | hgt
  · have hlast := hends (by omega)
    have hfirst := hold' _ (Nat.zero_le _) hlt
    omega
  · exact heq
  · have hlast := hends' (by omega)
    by_cases hin : start ≤ advance events bound stop 0
    · have hfirst := hold _ hin hgt
      omega
    · have hfirst := before _ (not_le.mp hin)
      omega

end Pointer

/-! ## Rule A -/

def startOf (failures : List EventFacts) (stop : Nat) : Nat :=
  advance failures (timeAt failures stop - 15 * minute) (stop + 1) 0

section RuleA

variable {emit : Emit} {failures : List EventFacts}

theorem timeAt_mono (ordered : failures.Pairwise eventOrder) {i j : Nat} (le : i ≤ j)
    (hj : j < failures.length) : timeAt failures i ≤ timeAt failures j := by
  rcases Nat.lt_or_eq_of_le le with hlt | rfl
  · have hpair := pairwise_iff_getElem.mp ordered i j (by omega) hj hlt
    simp only [timeAt, getElem?_eq_getElem hj, getElem?_eq_getElem (hlt.trans hj),
      map_some, getD_some]
    rcases hpair with hlt | ⟨heq, _⟩
    · exact hlt.le
    · exact heq.le
  · exact le_rfl

theorem sliding (ordered : failures.Pairwise eventOrder) :
    Windows.Sliding failures.length (timeAt failures) (15 * minute) (startOf failures) where
  ordered _ _ le hj := timeAt_mono ordered le hj
  opens e he := by
    obtain ⟨_, hle, hold, hends⟩ := advance_spec (timeAt failures e - 15 * minute)
      (Nat.zero_le (e + 1)) he
    have hstart : startOf failures e ≤ e := by
      by_contra hlt
      have hself := hold e (Nat.zero_le e) (not_le.mp hlt)
      unfold minute at hself
      omega
    exact ⟨hstart, hends (Nat.lt_succ_of_le hstart)⟩
  older e he i hi :=
    (advance_spec (timeAt failures e - 15 * minute) (Nat.zero_le (e + 1)) he).2.2.1
      i (Nat.zero_le i) hi

/-- What a piece is emitted as. -/
def emitA (emit : Emit) (failures : List EventFacts) (piece : Nat × Nat) : List AuthFinding :=
  (emit (Windows.slice failures piece) (timeAt failures (piece.2 - 9) + 15 * minute)).toList

/-- The episode in hand is the last piece; the pieces before it are emitted. -/
def Holds (emit : Emit) (failures : List EventFacts) (s : StateA) (pieces : List (Nat × Nat)) :
    Prop :=
  (pieces = [] ∧ s.episode = none ∧ s.findings = []) ∨
    ∃ front piece, pieces = front ++ [piece] ∧
      s.episode = some ⟨piece.1, piece.2, timeAt failures (piece.2 - 9) + 15 * minute⟩ ∧
      s.findings = front.flatMap (emitA emit failures)

structure Scanned (emit : Emit) (failures : List EventFacts) (k : Nat) (s : StateA)
    (pieces : List (Nat × Nat)) : Prop where
  start_le : s.start ≤ k
  before : ∀ i < s.start, ∀ e, k ≤ e → e < failures.length →
    timeAt failures i < timeAt failures e - 15 * minute
  joined : Windows.Pieces 10 (startOf failures) k pieces
  held : Holds emit failures s pieces

variable {s : StateA} {pieces : List (Nat × Nat)}

theorem Holds.flush (h : Holds emit failures s pieces) :
    s.flush emit failures = pieces.flatMap (emitA emit failures) := by
  rcases h with ⟨rfl, hepisode, hfindings⟩ | ⟨front, piece, rfl, hepisode, hfindings⟩
  · rw [StateA.flush, hepisode, hfindings]
    rfl
  · rw [StateA.flush, hepisode, hfindings, flatMap_append, flatMap_singleton]
    rfl

theorem Scanned.next {k : Nat} (h : Scanned emit failures k s pieces)
    (ordered : failures.Pairwise eventOrder) (hk : k < failures.length) :
    ∃ more, Scanned emit failures (k + 1) (s.next emit failures k) more := by
  have hsliding := sliding ordered
  have hstart : advance failures (timeAt failures k - 15 * minute) (k + 1) s.start =
      startOf failures k :=
    advance_eq (h.start_le.trans (Nat.le_succ k)) hk fun i hi => h.before i hi k le_rfl hk
  have hbegins := (hsliding.opens k hk).1
  have hbefore : ∀ i < startOf failures k, ∀ e, k + 1 ≤ e → e < failures.length →
      timeAt failures i < timeAt failures e - 15 * minute := by
    intro i hi e hle he
    have hold := hsliding.older k hk i hi
    have hmono := timeAt_mono ordered (i := k) (by omega) he
    omega
  simp only [StateA.next, hstart]
  by_cases hsparse : k + 1 - startOf failures k < 10
  · rw [if_pos hsparse]
    refine ⟨pieces, Nat.le_succ_of_le hbegins, hbefore, h.joined.skip ?_, h.held⟩
    unfold Windows.Dense
    omega
  · rw [if_neg hsparse]
    have hdense : Windows.Dense 10 (startOf failures) k := by
      unfold Windows.Dense
      omega
    have hopen : (∀ p ∈ pieces, p.2 < startOf failures k) →
        ∃ more, Scanned emit failures (k + 1) ⟨startOf failures k,
          some ⟨startOf failures k, k, timeAt failures (k - 9) + 15 * minute⟩,
          s.flush emit failures⟩ more := by
      intro hfresh
      refine ⟨pieces ++ [(startOf failures k, k)], Nat.le_succ_of_le hbegins, hbefore,
        h.joined.opens hdense hbegins hfresh, ?_⟩
      exact .inr ⟨pieces, (startOf failures k, k), rfl, rfl, h.held.flush⟩
    rcases h.held with ⟨rfl, hepisode, hfindings⟩ | ⟨front, piece, rfl, hepisode, hfindings⟩
    · rw [hepisode]
      exact hopen fun p hp => absurd hp not_mem_nil
    · have hreach := h.joined.reach hsliding hk (by omega)
      have htenth : piece.2 + 1 - 10 = piece.2 - 9 := by omega
      rw [htenth] at hreach
      rw [hepisode]
      simp only
      by_cases hmeets : startOf failures k ≤ piece.2
      · rw [if_pos (hreach.mpr hmeets)]
        refine ⟨front ++ [(piece.1, k)], Nat.le_succ_of_le hbegins, hbefore,
          h.joined.grows hsliding hk hdense hmeets, ?_⟩
        exact .inr ⟨front, (piece.1, k), rfl, rfl, hfindings⟩
      · rw [if_neg fun hle => hmeets (hreach.mp hle)]
        refine hopen fun p hp => ?_
        have hle := h.joined.last_le hsliding hk.le hp
        omega

/-- Rule A emits the pieces of its failures. -/
theorem ruleA_pieces (emit : Emit) (ordered : failures.Pairwise eventOrder) :
    ∃ pieces, Windows.Pieces 10 (startOf failures) failures.length pieces ∧
      ruleA emit failures = pieces.flatMap (emitA emit failures) := by
  have hrun : ∀ k ≤ failures.length, ∃ pieces, Scanned emit failures k
      ((List.range k).foldl (StateA.next emit failures) ⟨0, none, []⟩) pieces := by
    intro k
    induction k with
    | zero =>
      intro _
      exact ⟨[], le_rfl, fun i hi => absurd hi (Nat.not_lt_zero i), Windows.Pieces.nil,
        .inl ⟨rfl, rfl, rfl⟩⟩
    | succ k ih =>
      intro hk
      obtain ⟨pieces, h⟩ := ih (by omega)
      rw [range_succ, foldl_append]
      exact h.next ordered hk
  obtain ⟨pieces, h⟩ := hrun failures.length le_rfl
  exact ⟨pieces, h.joined, h.held.flush⟩

end RuleA

/-! ## The finding of some evidence -/

section Finding

variable {p : Platform} {c : Context} {ruleId : AuthRuleId} {caveats : List JsString}
  {evidence : List EventFacts} {expiresAt : Int} {f : AuthFinding}

theorem mem_sortEvents {e : EventFacts} : e ∈ sortEvents evidence ↔ e ∈ evidence :=
  (perm_insertionSort eventOrder evidence).mem_iff

theorem makeFinding_isSome (some : evidence ≠ []) :
    (makeFinding p c ruleId caveats evidence expiresAt).isSome := by
  have hsorted : sortEvents evidence ≠ [] := by
    intro h
    have hperm := perm_insertionSort eventOrder evidence
    rw [← sortEvents, h] at hperm
    exact some hperm.symm.eq_nil
  simp [makeFinding, List.head?_eq_some_head hsorted, List.getLast?_eq_some_getLast hsorted]

/-- What a finding says of its evidence. -/
structure Tells (ruleId : AuthRuleId) (evidence : List EventFacts) (expiresAt : Int)
    (f : AuthFinding) : Prop where
  rule : f.ruleId = ruleId
  ids : ∀ id, id ∈ f.evidenceEventIds ↔ ∃ e ∈ evidence, e.eventId = id
  key : ∃ e ∈ evidence, f.subjectRef = e.subjectRef ∧ f.applicationRef = e.applicationRef
  client : ruleId = .ruleB → ∃ e ∈ evidence, f.clientAddress = e.clientSource.address
  expires : f.expiresAt = toISOString expiresAt

theorem makeFinding_tells (h : makeFinding p c ruleId caveats evidence expiresAt = some f) :
    Tells ruleId evidence expiresAt f := by
  obtain ⟨first, hfirst, h⟩ := bind_eq_some_iff.mp h
  obtain ⟨last, hlast, h⟩ := bind_eq_some_iff.mp h
  cases h
  refine ⟨rfl, ?_, ⟨first, mem_sortEvents.mp (List.mem_of_head? hfirst), rfl, rfl⟩, ?_, rfl⟩
  · intro id
    simp only [List.mem_map, mem_sortEvents]
  · intro hrule
    exact ⟨last, mem_sortEvents.mp (mem_of_getLast? hlast), if_pos hrule⟩

theorem makeFinding_made (p : Platform) (c : Context) (ruleId : AuthRuleId)
    (caveats : List JsString) (evidence : List EventFacts) (expiresAt : Int)
    (held : evidence ≠ []) :
    ∃ f, makeFinding p c ruleId caveats evidence expiresAt = some f ∧
      Tells ruleId evidence expiresAt f := by
  obtain ⟨f, hf⟩ := isSome_iff_exists.mp (makeFinding_isSome held)
  exact ⟨f, hf, makeFinding_tells hf⟩

end Finding

/-! ## What an evaluation finds -/

/-- The events that the evaluation of an input rests on. -/
def admittedEvents (p : Platform) (input : AuthEvaluationInput) : List EventFacts :=
  match contextOf input with
  | none => []
  | some c =>
    if input.events.length > maxAuthEvents then []
    else
      match (textMember input.readiness "state").filter fun s => readinessStates.contains s with
      | none => []
      | some state => (admitAll p c state input.events).events

/-- An evaluation either is blocked or concludes from admitted events with ids of their own. -/
theorem evaluate_cases (p : Platform) (input : AuthEvaluationInput) :
    ((evaluateAuthenticationRules p input).findings = [] ∧ admittedEvents p input = []) ∨
    ∃ c reasons excludedRows conflicts duplicateCount,
      evaluateAuthenticationRules p input =
        conclude p c reasons excludedRows (admittedEvents p input) conflicts duplicateCount ∧
      (admittedEvents p input).Pairwise eventOrder ∧
      ((admittedEvents p input).map EventFacts.eventId).Nodup := by
  unfold evaluateAuthenticationRules admittedEvents
  cases contextOf input with
  | none => exact .inl ⟨rfl, rfl⟩
  | some c =>
    simp only
    by_cases hcap : input.events.length > maxAuthEvents
    · rw [if_pos hcap, if_pos hcap]
      exact .inl ⟨rfl, rfl⟩
    · rw [if_neg hcap, if_neg hcap]
      cases (textMember input.readiness "state").filter fun s => readinessStates.contains s with
      | none => exact .inl ⟨rfl, rfl⟩
      | some state =>
        have hgrouped := (reads p c (readinessReasons c state) input.events).grouped
        rw [← admitAll] at hgrouped
        refine .inr ⟨c, _, _, _, _, rfl, sortEvents_sorted _, ?_⟩
        have hperm := (perm_insertionSort eventOrder
          (((admitAll p c state input.events).groups.values.filter (!·.conflict)).map
            fun g => g.event.toEventFacts)).map EventFacts.eventId
        exact hperm.nodup_iff.mpr (nodup_events hgrouped)

/-- The failures of a subject in an application. -/
def failuresOf (events : List EventFacts) (subject application : JsString) : List EventFacts :=
  events.filter fun e => decide (e.outcome = .invalidCredential ∧ e.subjectRef = subject ∧
    e.applicationRef = application)

/-- The findings of rule A for a subject in an application. -/
def foundA (r : AuthEvaluationResult) (subject application : JsString) : List AuthFinding :=
  r.findings.filter fun f => decide (f.ruleId = .ruleA ∧ f.subjectRef = subject ∧
    f.applicationRef = application)

/-- The events that a finding names. -/
def evidenceOf (events : List EventFacts) (f : AuthFinding) : Finset EventFacts :=
  (events.filter fun e => decide (e.eventId ∈ f.evidenceEventIds)).toFinset

/-- Every finding of a state was emitted for some evidence. -/
def Emitted (emit : Emit) (fs : List AuthFinding) : Prop :=
  ∀ f ∈ fs, ∃ evidence expiresAt, emit evidence expiresAt = some f

theorem StateB.flush_emitted {emit : Emit} {s : StateB} (h : Emitted emit s.findings) :
    Emitted emit (s.flush emit) := by
  unfold StateB.flush
  cases s.episode with
  | none => exact h
  | some e =>
    intro f hf
    rcases mem_append.mp hf with hold | hnew
    · exact h f hold
    · exact ⟨_, _, mem_toList.mp hnew⟩

theorem ruleB_emitted (emit : Emit) (values : List EventFacts) :
    Emitted emit (ruleB emit values) := by
  apply StateB.flush_emitted
  induction values using reverseRecOn with
  | nil => exact fun f hf => absurd hf not_mem_nil
  | append_singleton values event ih =>
    rw [foldl_append, foldl_cons, foldl_nil]
    generalize values.foldl (StateB.next emit) ⟨[], 0, none, []⟩ = s at ih ⊢
    unfold StateB.next
    simp only
    split
    · exact ih
    · split
      · cases hepisode : s.episode with
        | none => exact StateB.flush_emitted ih
        | some e =>
          simp only
          split
          · exact StateB.flush_emitted ih
          · exact ih
      · exact ih

section Conclude

variable {p : Platform} {c : Context} {events : List EventFacts}

def userApp (e : EventFacts) : JsString :=
  (Json.array [.string e.subjectRef, .string e.applicationRef]).stringify

theorem userApp_eq_iff {e : EventFacts} {subject application : JsString} :
    userApp e = (Json.array [.string subject, .string application]).stringify ↔
      e.subjectRef = subject ∧ e.applicationRef = application := by
  constructor
  · intro h
    have hkey := Json.stringify_injective h
    simp only [Json.array.injEq, List.cons.injEq, Json.string.injEq, and_true] at hkey
    exact hkey
  · rintro ⟨rfl, rfl⟩
    rfl

theorem byUserApp_group (events : List EventFacts) (k : JsString) :
    ((byUserApp events).get? k).getD [] = (events.filter fun event =>
      event.outcome = .invalidCredential).filter fun event => userApp event = k :=
  get?_grouped userApp _ k

theorem failuresOf_group (events : List EventFacts) (subject application : JsString) :
    ((byUserApp events).get? (Json.array [.string subject,
      .string application]).stringify).getD [] = failuresOf events subject application := by
  rw [byUserApp_group, List.filter_filter, failuresOf]
  apply List.filter_congr
  intro e _
  rw [← Bool.decide_and, decide_eq_decide, userApp_eq_iff]
  exact and_comm

theorem ruleA_tells {caveats : List JsString} {failures : List EventFacts}
    (ordered : failures.Pairwise eventOrder) {f : AuthFinding}
    (h : f ∈ ruleA (makeFinding p c .ruleA caveats) failures) :
    ∃ evidence expiresAt, (∀ e ∈ evidence, e ∈ failures) ∧
      Tells .ruleA evidence expiresAt f := by
  obtain ⟨pieces, _, heq⟩ := ruleA_pieces (makeFinding p c .ruleA caveats) ordered
  rw [heq] at h
  obtain ⟨piece, _, hf⟩ := mem_flatMap.mp h
  refine ⟨_, _, ?_, makeFinding_tells (mem_toList.mp hf)⟩
  intro e he
  obtain ⟨i, _, _, hi⟩ := Windows.mem_slice.mp he
  exact mem_of_getElem? hi

/-- The findings of a pair are those of its own failures. -/
theorem foundA_perm (ordered : events.Pairwise eventOrder) (reasons : JsSet JsString)
    (excludedRows : Nat) (conflicts : List JsString) (duplicateCount : Nat)
    (subject application : JsString) :
    ∃ caveats, (foundA (conclude p c reasons excludedRows events conflicts duplicateCount) subject
        application).Perm
      (ruleA (makeFinding p c .ruleA caveats) (failuresOf events subject application)) := by
  unfold conclude foundA
  simp only
  generalize (addIf _ (js "AUTHORIZED_WINDOW_INCOMPLETE") _).elements = caveats
  refine ⟨caveats, ?_⟩
  refine ((perm_insertionSort _ _).filter _).trans ?_
  rw [filter_append]
  have hB : ∀ caveats, ((byUserAppClient events).values.flatMap
      (ruleB (makeFinding p c .ruleB caveats))).filter (fun f => decide (f.ruleId = .ruleA ∧
        f.subjectRef = subject ∧ f.applicationRef = application)) = [] := by
    intro caveats
    rw [filter_eq_nil_iff]
    intro f hf
    obtain ⟨values, _, hf⟩ := mem_flatMap.mp hf
    obtain ⟨_, _, hmade⟩ := ruleB_emitted _ _ f hf
    have hrule := (makeFinding_tells hmade).rule
    simp [hrule]
  rw [hB, append_nil, ← failuresOf_group]
  rw [filter_values]
  · rfl
  · rw [failuresOf_group]
    intro f hf
    obtain ⟨evidence, _, hsub, htells⟩ := ruleA_tells (ordered.filter _) hf
    obtain ⟨e, he, hsubject, happlication⟩ := htells.key
    have hkey := of_decide_eq_true (mem_filter.mp (hsub e he)).2
    exact decide_eq_true ⟨htells.rule, hsubject.trans hkey.2.1, happlication.trans hkey.2.2⟩
  · intro j v hv hne f hf
    have hgroup := byUserApp_group events j
    rw [hv, getD_some] at hgroup
    subst hgroup
    obtain ⟨evidence, _, hsub, htells⟩ := ruleA_tells ((ordered.filter _).filter _) hf
    obtain ⟨e, he, hsubject, happlication⟩ := htells.key
    have hkey := of_decide_eq_true (mem_filter.mp (hsub e he)).2
    refine decide_eq_false ?_
    rintro ⟨_, hs, ha⟩
    exact hne (hkey.symm.trans (userApp_eq_iff.mpr ⟨hsubject.symm.trans hs,
      happlication.symm.trans ha⟩))

end Conclude

/-! ## Exactness -/

/-- The findings are the components of the bursts, and each expires fifteen minutes after its
tenth-latest failure. -/
structure RuleAExact (failures : List EventFacts) (found : List AuthFinding) : Prop where
  own : ∀ f ∈ found, ∀ id ∈ f.evidenceEventIds, ∃ e ∈ failures, e.eventId = id
  components : Windows.Components EventFacts.time (15 * minute) 10 failures
    (found.map (evidenceOf failures))
  expires : ∀ f ∈ found, ∃ tenth ∈ evidenceOf failures f,
    ((evidenceOf failures f).filter fun e => eventOrder tenth e ∧ e ≠ tenth).card = 9 ∧
      f.expiresAt = toISOString (tenth.time + 15 * minute)

section Exact

variable {failures : List EventFacts} {found : List AuthFinding} {emit : Emit}

theorem ruleAExact_nil : RuleAExact [] [] where
  own _ hf := absurd hf not_mem_nil
  expires _ hf := absurd hf not_mem_nil
  components := by
    refine ⟨?_, List.Pairwise.nil, fun _ hg => absurd hg not_mem_nil,
      fun _ hg => absurd hg not_mem_nil⟩
    intro S burst
    have hcard := burst.enough
    obtain ⟨e, he⟩ := Finset.card_pos.mp (Nat.lt_of_lt_of_le (by omega) hcard)
    exact absurd (burst.among e he) not_mem_nil

theorem evidenceOf_tells (distinct : (failures.map EventFacts.eventId).Nodup)
    {ruleId : AuthRuleId} {evidence : List EventFacts} {expiresAt : Int} {f : AuthFinding}
    (tells : Tells ruleId evidence expiresAt f) (sub : ∀ e ∈ evidence, e ∈ failures) :
    evidenceOf failures f = evidence.toFinset := by
  ext e
  simp only [evidenceOf, List.mem_toFinset, mem_filter, decide_eq_true_eq, tells.ids]
  constructor
  · rintro ⟨he, e', he', hid⟩
    rwa [← List.inj_on_of_nodup_map distinct (sub e' he') he hid]
  · intro he
    exact ⟨sub e he, e, he, rfl⟩

theorem map_flatMap_toList {α β γ : Type*} {g : α → Option β} {h : β → γ} {k : α → γ}
    (l : List α) (made : ∀ x ∈ l, ∃ y, g x = some y ∧ h y = k x) :
    (l.flatMap fun x => (g x).toList).map h = l.map k := by
  induction l with
  | nil => rfl
  | cons x l ih =>
    obtain ⟨y, hy, hk⟩ := made x mem_cons_self
    have hrest := ih fun x' hx' => made x' (mem_cons_of_mem x hx')
    simp only [flatMap_cons, hy, toList_some, singleton_append, map_cons,
      hk, hrest]

/-- The events of a list that come after one of them stand behind it. -/
theorem later_iff (ordered : failures.Pairwise eventOrder)
    (distinct : (failures.map EventFacts.eventId).Nodup) {i j : Nat} {e x : EventFacts}
    (hi : failures[i]? = some e) (hj : failures[j]? = some x) :
    (eventOrder e x ∧ x ≠ e) ↔ i < j := by
  obtain ⟨hilt, rfl⟩ := List.getElem?_eq_some_iff.mp hi
  obtain ⟨hjlt, rfl⟩ := List.getElem?_eq_some_iff.mp hj
  have hpair := pairwise_iff_getElem.mp ordered
  constructor
  · rintro ⟨horder, hne⟩
    rcases Nat.lt_trichotomy i j with hlt | rfl | hgt
    · exact hlt
    · exact absurd rfl hne
    · exfalso
      apply hne
      have hback := hpair j i hjlt hilt hgt
      have hid : failures[j].eventId = failures[i].eventId := by
        unfold eventOrder at horder hback
        rcases horder with hlt | ⟨_, hle⟩ <;> rcases hback with hlt' | ⟨_, hle'⟩
        · omega
        · omega
        · omega
        · exact List.le_antisymm hle' hle
      exact List.inj_on_of_nodup_map distinct (getElem_mem hjlt) (getElem_mem hilt) hid
  · intro hlt
    refine ⟨hpair i j hilt hjlt hlt, ?_⟩
    intro heq
    have hnodup := distinct.of_map
    have hsame := (List.Nodup.getElem_inj_iff hnodup).mp heq
    omega

theorem ruleAExact_of_perm (ordered : failures.Pairwise eventOrder)
    (distinct : (failures.map EventFacts.eventId).Nodup)
    (tells : ∀ evidence expiresAt, evidence ≠ [] →
      ∃ f, emit evidence expiresAt = some f ∧ Tells .ruleA evidence expiresAt f)
    (perm : found.Perm (ruleA emit failures)) : RuleAExact failures found := by
  have hnodup : failures.Nodup := distinct.of_map
  have hsliding := sliding ordered
  obtain ⟨pieces, hpieces, heq⟩ := ruleA_pieces emit ordered
  have hpiece : ∀ p ∈ pieces, ∃ f, emit (Windows.slice failures p)
      (timeAt failures (p.2 - 9) + 15 * minute) = some f ∧
      Tells .ruleA (Windows.slice failures p) (timeAt failures (p.2 - 9) + 15 * minute) f ∧
      evidenceOf failures f = (Windows.slice failures p).toFinset := by
    intro p hp
    have hlast := (hpieces.closed p hp).1
    have hfirst := hpieces.first_le_last hsliding le_rfl hp
    have hsome : Windows.slice failures p ≠ [] := by
      apply ne_nil_of_length_pos
      rw [Windows.length_slice hlast]
      omega
    obtain ⟨f, hf, htells⟩ := tells _ (timeAt failures (p.2 - 9) + 15 * minute) hsome
    refine ⟨f, hf, htells, evidenceOf_tells distinct htells ?_⟩
    intro e he
    obtain ⟨i, _, _, hi⟩ := Windows.mem_slice.mp he
    exact mem_of_getElem? hi
  have hfound : ∀ f ∈ found, ∃ p ∈ pieces, emit (Windows.slice failures p)
      (timeAt failures (p.2 - 9) + 15 * minute) = some f := by
    intro f hf
    have hmem := perm.mem_iff.mp hf
    rw [heq] at hmem
    obtain ⟨p, hp, hmade⟩ := mem_flatMap.mp hmem
    exact ⟨p, hp, mem_toList.mp hmade⟩
  constructor
  · intro f hf id hid
    obtain ⟨p, hp, hmade⟩ := hfound f hf
    obtain ⟨f', hf', htells, _⟩ := hpiece p hp
    obtain rfl := Option.some.inj (hmade.symm.trans hf')
    obtain ⟨e, he, rfl⟩ := (htells.ids id).mp hid
    obtain ⟨i, _, _, hi⟩ := Windows.mem_slice.mp he
    exact ⟨e, mem_of_getElem? hi, rfl⟩
  · refine (hpieces.components hsliding hnodup (by omega)).perm ?_
    have hmap : (ruleA emit failures).map (evidenceOf failures) =
        pieces.map fun p => (Windows.slice failures p).toFinset := by
      rw [heq]
      refine map_flatMap_toList pieces fun p hp => ?_
      obtain ⟨f, hf, _, hevidence⟩ := hpiece p hp
      exact ⟨f, hf, hevidence⟩
    rw [← hmap]
    exact (perm.map _).symm
  · intro f hf
    obtain ⟨p, hp, hmade⟩ := hfound f hf
    obtain ⟨f', hf', htells, hevidence⟩ := hpiece p hp
    obtain rfl := Option.some.inj (hmade.symm.trans hf')
    obtain ⟨hlast, hdense⟩ := hpieces.closed p hp
    have hopens := (hsliding.opens p.2 hlast).1
    obtain ⟨e, hle, _, hfirst⟩ := hpieces.opened p hp
    have hmono := hsliding.start_mono hle hlast
    unfold Windows.Dense at hdense
    have hlt : p.2 - 9 < failures.length := by omega
    have htenth : failures[p.2 - 9]? = some failures[p.2 - 9] := getElem?_eq_getElem hlt
    have hmem : failures[p.2 - 9] ∈ evidenceOf failures f := by
      rw [hevidence, List.mem_toFinset]
      exact Windows.mem_slice.mpr ⟨p.2 - 9, by omega, by omega, htenth⟩
    refine ⟨failures[p.2 - 9], hmem, ?_, ?_⟩
    · have hlater : (evidenceOf failures f).filter
          (fun e => eventOrder failures[p.2 - 9] e ∧ e ≠ failures[p.2 - 9]) =
          (Windows.slice failures (p.2 - 9 + 1, p.2)).toFinset := by
        ext x
        rw [Finset.mem_filter, hevidence, List.mem_toFinset, List.mem_toFinset,
          Windows.mem_slice, Windows.mem_slice]
        constructor
        · rintro ⟨⟨j, _, hj, hx⟩, hafter⟩
          exact ⟨j, (later_iff ordered distinct htenth hx).mp hafter, hj, hx⟩
        · rintro ⟨j, hj, hj', hx⟩
          simp only at hj hj'
          exact ⟨⟨j, by omega, hj', hx⟩, (later_iff ordered distinct htenth hx).mpr hj⟩
      rw [hlater, toFinset_card_of_nodup (Windows.nodup_slice hnodup _),
        Windows.length_slice (p := (p.2 - 9 + 1, p.2)) hlast]
      simp only
      omega
    · rw [htells.expires, timeAt, htenth]
      rfl

end Exact

/-! ## A failure after the expiry -/

def failureAt (id eventAt : JsString) : EventFacts where
  organizationId := js "org"
  customerTenantId := js "customer"
  microsoftTenantId := js "tenant"
  source := .graphSignIns
  eventId := id
  eventAt
  subjectRef := js "human"
  applicationRef := js "app"
  outcome := .invalidCredential
  errorCode := some 50126
  clientSource := ⟨.missing, none⟩
  eventMfa := ⟨.notEvidenced, none⟩

/-- One failure at ten o'clock and nine a minute later. -/
def tenFailures : List EventFacts :=
  failureAt (js "0") (js "2026-09-10T10:00:00.000Z") ::
    ["1", "2", "3", "4", "5", "6", "7", "8", "9"].map fun id =>
      failureAt (js id) (js "2026-09-10T10:01:00.000Z")

def lateFailure : EventFacts := failureAt (js "late") (js "2026-09-10T10:15:30.000Z")

/-- How many failures each finding holds, and when it expires. -/
def foundTimes (events : List EventFacts) : List (Nat × Option Int) :=
  (foundA (conclude replayPlatform
    ⟨⟨js "org", js "customer", js "tenant"⟩, .graphSignIns, js "2026-09-10T12:00:00.000Z",
      1789041600000, 1788998400000, .null⟩ .empty 0 events [] 0) (js "human") (js "app")).map
    fun f => (f.evidenceCount, utcTime f.expiresAt)

/-- The finding of ten failures expires before the failure that still extends it. -/
theorem late_failure_extends :
    (tenFailures ++ [lateFailure]).Pairwise eventOrder ∧
      foundTimes tenFailures = [(10, some 1789035300000)] ∧
      lateFailure.time = 1789035330000 ∧
      foundTimes (tenFailures ++ [lateFailure]) = [(11, some 1789035360000)] := by
  decide +kernel

/-- Rule A finds the components of the bursts of failures of a subject in an application. -/
theorem ruleA_exact (p : Platform) (input : AuthEvaluationInput)
    (subject application : JsString) :
    RuleAExact (failuresOf (admittedEvents p input) subject application)
      (foundA (evaluateAuthenticationRules p input) subject application) := by
  rcases evaluate_cases p input with ⟨hfindings, hevents⟩ | ⟨c, reasons, excludedRows, conflicts,
    duplicateCount, heq, hordered, hdistinct⟩
  · rw [hevents, foundA, hfindings]
    exact ruleAExact_nil
  · rw [heq]
    obtain ⟨caveats, hperm⟩ := foundA_perm (p := p) (c := c) hordered reasons excludedRows
      conflicts duplicateCount subject application
    exact ruleAExact_of_perm (hordered.filter _) (hdistinct.sublist (filter_sublist.map _))
      (makeFinding_made p c .ruleA caveats) hperm

end Auth
