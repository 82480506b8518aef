import HawkView.Auth.FailureBursts
import HawkView.Lib.Traverse

/-!
# Failures before a success

The findings of rule B for a subject, an application and a client address, as a plain
definition: a success qualifies by the failures in the ten minutes before it, and a finding
holds the failures before its successes together with them.
-/

namespace Auth

open IsoTime List

/-! ## The plain definition -/

/-- The failures in the ten minutes strictly before an event. -/
def windowOf (values : List EventFacts) (s : EventFacts) : List EventFacts :=
  values.filter fun e => decide (e.outcome = .invalidCredential ∧
    s.time - 10 * minute ≤ e.time ∧ e.time < s.time)

/-- A success after five failures, the latest at most two minutes before it. -/
def Qualifies (values : List EventFacts) (s : EventFacts) : Prop :=
  s.outcome = .success ∧ 5 ≤ (windowOf values s).length ∧
    ∃ e ∈ windowOf values s, s.time - 2 * minute ≤ e.time

instance (values : List EventFacts) : DecidablePred (Qualifies values) := fun s =>
  inferInstanceAs (Decidable (s.outcome = .success ∧ 5 ≤ (windowOf values s).length ∧
    ∃ e ∈ windowOf values s, s.time - 2 * minute ≤ e.time))

/-- An event of some successes: one of them, or a failure before one of them. -/
def EvidenceOf (values successes : List EventFacts) (e : EventFacts) : Prop :=
  ∃ s ∈ successes, e = s ∨ e ∈ windowOf values s

theorem mem_windowOf {values : List EventFacts} {s e : EventFacts} :
    e ∈ windowOf values s ↔ e ∈ values ∧ e.outcome = .invalidCredential ∧
      s.time - 10 * minute ≤ e.time ∧ e.time < s.time := by
  simp only [windowOf, mem_filter, decide_eq_true_eq]

theorem evidenceOf_append {values front : List EventFacts} {s e : EventFacts} :
    EvidenceOf values (front ++ [s]) e ↔
      EvidenceOf values front e ∨ e = s ∨ e ∈ windowOf values s := by
  simp [EvidenceOf, or_and_right, exists_or]

/-! ## Where a window lies among the failures -/

section Pointer

variable {events : List EventFacts} {bound : Int} {start : Nat}

/-- What is left is strictly before the bound, and what is passed is not. -/
theorem retreat_spec (bound : Int) (hstart : start ≤ events.length) :
    start ≤ retreat events bound start ∧ retreat events bound start ≤ events.length ∧
      (∀ i, retreat events bound start ≤ i → i < events.length → bound ≤ timeAt events i) ∧
      (start < retreat events bound start →
        timeAt events (retreat events bound start - 1) < bound) := by
  have hplace : ∀ i, i < events.length - start →
      (events.drop start).reverse[i]? = events[events.length - 1 - i]? := by
    intro i hi
    rw [List.getElem?_reverse (by rw [length_drop]; exact hi), getElem?_drop,
      length_drop]
    congr 1
    omega
  have hlength : ((events.drop start).reverse.takeWhile
      fun e => decide (e.time ≥ bound)).length ≤ events.length - start := by
    have hle := (takeWhile_sublist (l := (events.drop start).reverse)
      fun e => decide (e.time ≥ bound)).length_le
    rwa [length_reverse, length_drop] at hle
  obtain ⟨hafter, hends⟩ := Windows.takeWhile_places
    (P := fun e : EventFacts => decide (e.time ≥ bound)) (events.drop start).reverse
  unfold retreat
  generalize ((events.drop start).reverse.takeWhile
    fun e => decide (e.time ≥ bound)).length = k at hlength hafter hends
  refine ⟨by omega, by omega, ?_, ?_⟩
  · intro i hi hlt
    have hgot := hplace (events.length - 1 - i) (by omega)
    rw [show events.length - 1 - (events.length - 1 - i) = i by omega,
      getElem?_eq_getElem hlt] at hgot
    have hpass := hafter _ (by omega) _ hgot
    rw [timeAt, getElem?_eq_getElem hlt]
    exact of_decide_eq_true hpass
  · intro hk
    have hlt : events.length - k - 1 < events.length := by omega
    have hgot := hplace k (by omega)
    rw [show events.length - 1 - k = events.length - k - 1 by omega,
      getElem?_eq_getElem hlt] at hgot
    have hfail := hends _ hgot
    rw [timeAt, getElem?_eq_getElem hlt]
    exact not_le.mp (of_decide_eq_false hfail)

/-- Between the two pointers lie the events of the window. -/
structure Between (events : List EventFacts) (time : Int) (start stop : Nat) : Prop where
  start_le : start ≤ stop
  stop_le : stop ≤ events.length
  left : ∀ i < events.length, start ≤ i ↔ time - 10 * minute ≤ timeAt events i
  right : ∀ i < events.length, i < stop ↔ timeAt events i < time

theorem between (ordered : events.Pairwise eventOrder) (time : Int) {held : Nat}
    (hheld : held ≤ events.length)
    (before : ∀ i < held, timeAt events i < time - 10 * minute) :
    Between events time (advance events (time - 10 * minute) events.length held)
      (retreat events time (advance events (time - 10 * minute) events.length held)) := by
  obtain ⟨hge, hle, hold, hends⟩ := advance_spec (time - 10 * minute) hheld le_rfl
  generalize advance events (time - 10 * minute) events.length held = start at hge hle hold hends ⊢
  obtain ⟨hfirst, hlast, hpassed, hkept⟩ := retreat_spec time hle
  generalize retreat events time start = stop at hfirst hlast hpassed hkept ⊢
  have hbefore : ∀ i < start, timeAt events i < time - 10 * minute := by
    intro i hi
    by_cases hin : held ≤ i
    · exact hold i hin hi
    · exact before i (not_le.mp hin)
  refine ⟨hfirst, hlast, ?_, ?_⟩
  · intro i hi
    constructor
    · intro hin
      have hstart := hends (by omega)
      have hmono := timeAt_mono ordered hin hi
      omega
    · intro htime
      by_contra hlt
      have hold' := hbefore i (not_le.mp hlt)
      omega
  · intro i hi
    constructor
    · intro hin
      by_cases hback : start ≤ i
      · have hend := hkept (by omega)
        have hmono := timeAt_mono ordered (i := i) (j := stop - 1) (by omega) (by omega)
        omega
      · have hearly := hbefore i (not_le.mp hback)
        unfold minute at hearly
        omega
    · intro htime
      by_contra hge'
      have hpass := hpassed i (not_lt.mp hge') hi
      omega

/-- The events between the pointers are those of the ten minutes. -/
theorem Between.eq_filter {time : Int} {stop : Nat} (h : Between events time start stop) :
    (events.take stop).drop start =
      events.filter fun e => decide (time - 10 * minute ≤ e.time ∧ e.time < time) := by
  have hin : ∀ i (hi : i < events.length), (start ≤ i ∧ i < stop ↔
      time - 10 * minute ≤ events[i].time ∧ events[i].time < time) := by
    intro i hi
    have hleft := h.left i hi
    have hright := h.right i hi
    rw [timeAt, getElem?_eq_getElem hi, Option.map_some, Option.getD_some] at hleft hright
    rw [hleft, hright]
  have hsplit : events = (events.take stop).take start ++ (events.take stop).drop start ++
      events.drop stop := by
    rw [take_append_drop, take_append_drop]
  have hout : ∀ l : List EventFacts, (∀ e ∈ l, ∃ i, ∃ hi : i < events.length, events[i] = e ∧
      ¬ (start ≤ i ∧ i < stop)) →
      l.filter (fun e => decide (time - 10 * minute ≤ e.time ∧ e.time < time)) = [] := by
    intro l hl
    rw [filter_eq_nil_iff]
    intro e he
    obtain ⟨i, hi, rfl, hnot⟩ := hl e he
    rw [decide_eq_true_eq, ← hin i hi]
    exact hnot
  have hfront := hout ((events.take stop).take start) (by
    intro e he
    obtain ⟨i, hi⟩ := List.mem_iff_getElem?.mp he
    rw [getElem?_take, getElem?_take] at hi
    split at hi
    · split at hi
      · obtain ⟨hlt, rfl⟩ := List.getElem?_eq_some_iff.mp hi
        exact ⟨i, hlt, rfl, by omega⟩
      · cases hi
    · cases hi)
  have hback := hout (events.drop stop) (by
    intro e he
    obtain ⟨i, hi⟩ := List.mem_iff_getElem?.mp he
    rw [getElem?_drop] at hi
    obtain ⟨hlt, rfl⟩ := List.getElem?_eq_some_iff.mp hi
    exact ⟨stop + i, hlt, rfl, by omega⟩)
  have hmiddle : ((events.take stop).drop start).filter
      (fun e => decide (time - 10 * minute ≤ e.time ∧ e.time < time)) =
      (events.take stop).drop start := by
    rw [filter_eq_self]
    intro e he
    obtain ⟨i, hi⟩ := List.mem_iff_getElem?.mp he
    rw [getElem?_drop, getElem?_take] at hi
    split at hi
    · obtain ⟨hlt, rfl⟩ := List.getElem?_eq_some_iff.mp hi
      exact decide_eq_true ((hin _ hlt).mp ⟨by omega, by omega⟩)
    · cases hi
  calc (events.take stop).drop start = [] ++ (events.take stop).drop start ++ [] := by simp
    _ = events.filter fun e => decide (time - 10 * minute ≤ e.time ∧ e.time < time) := by
      conv_rhs => rw [hsplit]
      rw [filter_append, filter_append, hfront, hmiddle, hback]

end Pointer

/-! ## The episodes -/

/-- The failures of the later windows come after the successes of the earlier episodes. -/
def Apart (values : List EventFacts) (a b : List EventFacts) : Prop :=
  ∀ u ∈ a, ∀ w ∈ b, ∀ e ∈ windowOf values w, u.time < e.time

/-- A finding of the evidence of some successes. -/
def Told (values successes : List EventFacts) (f : AuthFinding) : Prop :=
  ∃ evidence expiresAt, (∀ e, e ∈ evidence ↔ EvidenceOf values successes e) ∧
    Tells .ruleB evidence expiresAt f

/-- The successes of the episodes, of what is read of the events. -/
structure Episodes (values done : List EventFacts) (episodes : List (List EventFacts)) :
    Prop where
  flat : episodes.flatten = done.filter fun e => decide (Qualifies values e)
  filled : ∀ episode ∈ episodes, episode ≠ []
  apart : episodes.Pairwise (Apart values)

/-- The episode in hand holds the evidence of its successes, the last of them `last`. -/
structure InHand (values failures front : List EventFacts) (last : EventFacts) (e : EpisodeB) :
    Prop where
  expiry : e.expiry = last.time + 10 * minute
  within : e.admittedFailureEnd ≤ failures.length
  admitted : ∀ i < failures.length, i < e.admittedFailureEnd ↔ timeAt failures i < last.time
  evidence : ∀ id x, e.evidence.get? id = some x ↔
    x.eventId = id ∧ EvidenceOf values (front ++ [last]) x

/-- The findings tell of all the episodes but the one in hand. -/
inductive HoldsB (values : List EventFacts) (s : StateB) : List (List EventFacts) → Prop
  | idle : s.episode = none → s.findings = [] → HoldsB values s []
  | busy {episodes front last e} : s.episode = some e →
      InHand values s.failures front last e → List.Forall₂ (Told values) episodes s.findings →
      HoldsB values s (episodes ++ [front ++ [last]])

structure ScannedB (values done : List EventFacts) (s : StateB)
    (episodes : List (List EventFacts)) : Prop where
  failures : s.failures = done.filter fun e => e.outcome = .invalidCredential
  start_le : s.start ≤ s.failures.length
  before : ∀ i < s.start, ∃ e ∈ done, timeAt s.failures i < e.time - 10 * minute
  split : Episodes values done episodes
  held : HoldsB values s episodes

section Successes

variable {values done : List EventFacts} {episodes : List (List EventFacts)}
  {front : List EventFacts} {last event : EventFacts}

variable {episode : List EventFacts} {u : EventFacts}

theorem Episodes.mem (h : Episodes values done episodes) (hepisode : episode ∈ episodes)
    (hu : u ∈ episode) :
    u ∈ done ∧ Qualifies values u := by
  have hmem : u ∈ episodes.flatten := List.mem_flatten.mpr ⟨episode, hepisode, hu⟩
  rw [h.flat, mem_filter, decide_eq_true_eq] at hmem
  exact hmem

/-- Nothing in the episodes is after the last success. -/
theorem Episodes.le_last (h : Episodes values done (episodes ++ [front ++ [last]]))
    (ordered : done.Pairwise eventOrder) (hepisode : episode ∈ episodes ++ [front ++ [last]])
    (hu : u ∈ episode) :
    u.time ≤ last.time := by
  have hflat := h.flat
  rw [flatten_append, flatten_singleton, ← append_assoc] at hflat
  have hpairs := ordered.filter fun e => decide (Qualifies values e)
  rw [← hflat] at hpairs
  have hmem : u ∈ episodes.flatten ++ front ++ [last] := by
    have hflatten := List.mem_flatten.mpr ⟨episode, hepisode, hu⟩
    rwa [flatten_append, flatten_singleton, ← append_assoc] at hflatten
  rcases mem_append.mp hmem with hold | hlast
  · rcases (pairwise_append.mp hpairs).2.2 u hold last (mem_singleton_self _) with
      hlt | ⟨heq, _⟩
    · exact hlt.le
    · exact heq.le
  · rw [mem_singleton.mp hlast]

theorem Episodes.skip (h : Episodes values done episodes) (not : ¬ Qualifies values event) :
    Episodes values (done ++ [event]) episodes where
  flat := by
    rw [h.flat, filter_append]
    simp [not]
  filled := h.filled
  apart := h.apart

theorem Episodes.opens (h : Episodes values done episodes) (qualifies : Qualifies values event)
    (fresh : ∀ a ∈ episodes, Apart values a [event]) :
    Episodes values (done ++ [event]) (episodes ++ [[event]]) where
  flat := by
    rw [flatten_append, h.flat, filter_append]
    simp [qualifies]
  filled episode hepisode := by
    rcases mem_append.mp hepisode with hold | hnew
    · exact h.filled episode hold
    · rw [mem_singleton.mp hnew]
      exact cons_ne_nil _ _
  apart := by
    refine pairwise_append.mpr ⟨h.apart, pairwise_singleton _ _, ?_⟩
    intro a ha b hb
    rw [mem_singleton.mp hb]
    exact fresh a ha

/-- A failure of the next window is in the window of the last success or after it. -/
theorem Episodes.grows (h : Episodes values done (episodes ++ [front ++ [last]]))
    (qualifies : Qualifies values event) (le : last.time ≤ event.time) :
    Episodes values (done ++ [event]) (episodes ++ [front ++ [last] ++ [event]]) where
  flat := by
    have hflat := h.flat
    rw [flatten_append, flatten_singleton] at hflat
    rw [flatten_append, flatten_singleton, ← append_assoc, hflat,
      filter_append]
    simp [qualifies]
  filled episode hepisode := by
    rcases mem_append.mp hepisode with hold | hnew
    · exact h.filled episode (mem_append_left _ hold)
    · rw [mem_singleton.mp hnew]
      simp
  apart := by
    obtain ⟨hapart, _, hbefore⟩ := pairwise_append.mp h.apart
    refine pairwise_append.mpr ⟨hapart, pairwise_singleton _ _, ?_⟩
    intro a ha b hb u hu w hw e he
    have hlast := hbefore a ha _ (mem_singleton_self _) u hu last (by simp)
    rw [mem_singleton.mp hb] at hw
    rcases mem_append.mp hw with hold | hnew
    · exact hbefore a ha _ (mem_singleton_self _) u hu w hold e he
    · rw [mem_singleton.mp hnew] at he
      obtain ⟨hvalue, houtcome, hopens, _⟩ := mem_windowOf.mp he
      by_cases hearly : e.time < last.time
      · exact hlast e (mem_windowOf.mpr ⟨hvalue, houtcome, by omega, hearly⟩)
      · obtain ⟨_, _, hlatest⟩ := h.mem (u := last) (mem_append_right _
          (mem_singleton_self _)) (by simp)
        obtain ⟨_, x, hx, _⟩ := hlatest
        have hfirst := hlast x hx
        have hclose := (mem_windowOf.mp hx).2.2.2
        omega

end Successes

section RuleB

variable {values : List EventFacts} {emit : Emit}

variable {m : JsMap JsString EventFacts} {P : EventFacts → Prop}

/-- The values of a map under their own ids. -/
theorem mem_values_iff (h : ∀ id x, m.get? id = some x ↔ x.eventId = id ∧ P x) (e : EventFacts) :
    e ∈ m.values ↔ P e := by
  constructor
  · intro he
    obtain ⟨⟨id, x⟩, hentry, rfl⟩ := mem_map.mp he
    exact ((h id x).mp (JsMap.get?_eq_some.mpr hentry)).2
  · intro hP
    exact mem_map.mpr ⟨_, JsMap.get?_eq_some.mp ((h e.eventId e).mpr ⟨rfl, hP⟩), rfl⟩

theorem get?_set_event (distinct : (values.map EventFacts.eventId).Nodup)
    (h : ∀ id x, m.get? id = some x ↔ x.eventId = id ∧ P x) (sub : ∀ x, P x → x ∈ values)
    {event : EventFacts} (mem : event ∈ values) (id : JsString) (x : EventFacts) :
    (m.set event.eventId event).get? id = some x ↔ x.eventId = id ∧ (P x ∨ x = event) := by
  rw [JsMap.get?_set]
  by_cases hid : event.eventId = id
  · rw [if_pos hid]
    constructor
    · intro hsome
      obtain rfl := Option.some.inj hsome
      exact ⟨hid, .inr rfl⟩
    · rintro ⟨hx, hP | rfl⟩
      · rw [inj_on_of_nodup_map distinct (sub x hP) mem (hx.trans hid.symm)]
      · rfl
  · rw [if_neg hid, h]
    constructor
    · rintro ⟨hx, hP⟩
      exact ⟨hx, .inl hP⟩
    · rintro ⟨hx, hP | rfl⟩
      · exact ⟨hx, hP⟩
      · exact absurd hx hid

theorem get?_addEvidence (distinct : (values.map EventFacts.eventId).Nodup)
    (h : ∀ id x, m.get? id = some x ↔ x.eventId = id ∧ P x) (sub : ∀ x, P x → x ∈ values)
    (events : List EventFacts) (mem : ∀ e ∈ events, e ∈ values) :
    ∀ id x, (addEvidence m events).get? id = some x ↔
      x.eventId = id ∧ (P x ∨ x ∈ events) := by
  induction events using reverseRecOn with
  | nil => simpa [addEvidence] using h
  | append_singleton events event ih =>
    intro id x
    have hold := ih fun e he => mem e (mem_append_left _ he)
    have hset := get?_set_event distinct hold
      (fun x hx => hx.elim (sub x) fun hx => mem x (mem_append_left _ hx))
      (mem event (by simp)) id x
    rw [addEvidence, foldl_append]
    rw [addEvidence] at hset
    rw [foldl_cons, foldl_nil, hset, mem_append, mem_singleton, or_assoc]

theorem evidenceOf_mem {successes : List EventFacts} (sub : ∀ s ∈ successes, s ∈ values)
    {e : EventFacts} (h : EvidenceOf values successes e) : e ∈ values := by
  obtain ⟨s, hs, rfl | he⟩ := h
  · exact sub e hs
  · exact (mem_windowOf.mp he).1

/-- A finding is made of all evidence, and tells of it. -/
abbrev EmitsTold (emit : Emit) : Prop := ∀ evidence expiresAt, evidence ≠ [] →
  ∃ f, emit evidence expiresAt = some f ∧ Tells .ruleB evidence expiresAt f

theorem HoldsB.flush {s : StateB} {episodes : List (List EventFacts)}
    (h : HoldsB values s episodes)
    (tells : EmitsTold emit) :
    Forall₂ (Told values) episodes (s.flush emit) := by
  cases h with
  | idle hepisode hfindings =>
    rw [StateB.flush, hepisode, hfindings]
    exact .nil
  | @busy episodes front last e hepisode hand hfindings =>
    have hvalues := mem_values_iff hand.evidence
    have hlast : last ∈ e.evidence.values := (hvalues last).mpr ⟨last, by simp, .inl rfl⟩
    obtain ⟨f, hf, htells⟩ := tells e.evidence.values e.expiry (ne_nil_of_mem hlast)
    rw [StateB.flush, hepisode]
    simp only [hf, Option.toList_some]
    exact rel_append hfindings (.cons ⟨_, _, hvalues, htells⟩ .nil)

section Next

variable {done rest : List EventFacts} {event : EventFacts} {s : StateB}
  {episodes : List (List EventFacts)}

section

variable (ordered : values.Pairwise eventOrder)
include ordered

section

variable (hvalues : values = done ++ event :: rest)
include hvalues

/-- Events that are read in order are not after the next one. -/
theorem time_le
    {e : EventFacts} (he : e ∈ done) : e.time ≤ event.time := by
  subst hvalues
  rcases (pairwise_append.mp ordered).2.2 e he event mem_cons_self with hlt | ⟨heq, _⟩
  · exact hlt.le
  · exact heq.le

theorem le_time
    {e : EventFacts} (he : e ∈ rest) : event.time ≤ e.time := by
  subst hvalues
  rcases rel_of_pairwise_cons (pairwise_append.mp ordered).2.1 he with hlt | ⟨heq, _⟩
  · exact hlt.le
  · exact heq.le

/-- The window of the next event lies in what is read. -/
theorem windowOf_done :
    windowOf values event = (done.filter fun e => e.outcome = .invalidCredential).filter
      fun e => decide (event.time - 10 * minute ≤ e.time ∧ e.time < event.time) := by
  have hlater : (event :: rest).filter (fun e => decide (e.outcome = .invalidCredential ∧
      event.time - 10 * minute ≤ e.time ∧ e.time < event.time)) = [] := by
    rw [filter_eq_nil_iff]
    intro e he
    rw [decide_eq_true_eq]
    rintro ⟨_, _, hlt⟩
    rcases mem_cons.mp he with rfl | hrest
    · omega
    · have hle := le_time ordered hvalues hrest
      omega
  rw [windowOf, hvalues, filter_append, hlater, append_nil, filter_filter]
  apply filter_congr
  intro e _
  rw [← Bool.decide_and, decide_eq_decide, and_comm]

theorem failures_pairwise (h : ScannedB values done s episodes) :
    s.failures.Pairwise eventOrder := by
  rw [h.failures]
  rw [hvalues] at ordered
  exact (pairwise_append.mp ordered).1.filter _

end

end

/-- A failure waits for a success. -/
theorem ScannedB.failure (h : ScannedB values done s episodes)
    (ordered : values.Pairwise eventOrder) (hvalues : values = done ++ event :: rest)
    (houtcome : event.outcome = .invalidCredential) :
    ScannedB values (done ++ [event]) (s.next emit event) episodes := by
  have hnext : s.next emit event = { s with failures := s.failures ++ [event] } := by
    unfold StateB.next
    rw [if_pos houtcome]
  have hnot : ¬ Qualifies values event := by
    rintro ⟨hsuccess, _⟩
    rw [houtcome] at hsuccess
    cases hsuccess
  have hold : ∀ i < s.failures.length,
      timeAt (s.failures ++ [event]) i = timeAt s.failures i := by
    intro i hi
    rw [timeAt, timeAt, getElem?_append_left hi]
  rw [hnext]
  refine ⟨?_, ?_, ?_, ?_, ?_⟩
  · simp [h.failures, houtcome]
  · have hle := h.start_le
    simp only [length_append, length_singleton]
    omega
  · intro i hi
    obtain ⟨e, he, hlt⟩ := h.before i hi
    have hle := h.start_le
    simp only at hi ⊢
    rw [hold i (by omega)]
    exact ⟨e, mem_append_left _ he, hlt⟩
  · exact h.split.skip hnot
  · cases h.held with
    | idle hepisode hfindings => exact .idle hepisode hfindings
    | @busy episodes front last e hepisode hand hfindings =>
      have hlast := (h.split.mem (mem_append_right _ (mem_singleton_self _))
        (u := last) (by simp)).1
      have hle := time_le ordered hvalues hlast
      have hwithin := hand.within
      refine .busy hepisode ⟨hand.expiry, ?_, ?_, hand.evidence⟩ hfindings
      · simp only [length_append]
        omega
      · intro i hi
        simp only [length_append, length_singleton] at hi ⊢
        by_cases hin : i < s.failures.length
        · rw [hold i hin]
          exact hand.admitted i hin
        · obtain rfl : i = s.failures.length := by omega
          rw [timeAt, List.getElem?_concat_length, Option.map_some, Option.getD_some]
          omega

variable {events : List EventFacts} {start stop : Nat}

theorem mem_between {e : EventFacts} :
    e ∈ (events.take stop).drop start ↔ ∃ i, start ≤ i ∧ i < stop ∧ events[i]? = some e := by
  constructor
  · intro he
    obtain ⟨i, hi⟩ := List.mem_iff_getElem?.mp he
    rw [getElem?_drop, getElem?_take] at hi
    split at hi
    · exact ⟨start + i, by omega, by omega, hi⟩
    · cases hi
  · rintro ⟨i, hfirst, hlast, hi⟩
    refine List.mem_iff_getElem?.mpr ⟨i - start, ?_⟩
    rw [getElem?_drop, getElem?_take, if_pos (by omega), Nat.add_sub_cancel' hfirst]
    exact hi

theorem timeAt_get {i : Nat} {e : EventFacts} (h : events[i]? = some e) :
    timeAt events i = e.time := by
  rw [timeAt, h]
  rfl

/-- The events between the pointers decide whether a success qualifies. -/
theorem qualifies_iff (ordered : s.failures.Pairwise eventOrder)
    (between : Between s.failures event.time start stop)
    (hwindow : (s.failures.take stop).drop start = windowOf values event)
    (houtcome : event.outcome = .success) :
    (stop - start ≥ 5 ∧ timeAt s.failures (stop - 1) ≥ event.time - 2 * minute) ↔
      Qualifies values event := by
  have hstop := between.stop_le
  have hlength : (windowOf values event).length = stop - start := by
    rw [← hwindow, length_drop, length_take, Nat.min_eq_left hstop]
  have hplace : ∀ e, e ∈ windowOf values event ↔
      ∃ i, start ≤ i ∧ i < stop ∧ s.failures[i]? = some e := by
    intro e
    rw [← hwindow]
    exact mem_between
  unfold Qualifies
  rw [hlength]
  constructor
  · rintro ⟨hmany, hlatest⟩
    have hlt : stop - 1 < s.failures.length := by omega
    have hgot := getElem?_eq_getElem hlt
    refine ⟨houtcome, hmany, _, (hplace _).mpr ⟨stop - 1, by omega, by omega, hgot⟩, ?_⟩
    rwa [← timeAt_get hgot]
  · rintro ⟨_, hmany, e, he, hlatest⟩
    obtain ⟨i, _, hi, hgot⟩ := (hplace e).mp he
    have hmono := timeAt_mono ordered (i := i) (j := stop - 1) (by omega) (by omega)
    rw [timeAt_get hgot] at hmono
    exact ⟨hmany, by omega⟩

/-- What a success adds to an episode, in hand or new. -/
def admitSuccess (s : StateB) (event : EventFacts) (start stop : Nat) (e : EpisodeB)
    (findings : List AuthFinding) : StateB where
  failures := s.failures
  start
  episode := some
    { evidence := (addEvidence e.evidence
        ((s.failures.take stop).drop (max start e.admittedFailureEnd))).set event.eventId event
      expiry := event.time + 10 * minute
      admittedFailureEnd := stop }
  findings

theorem next_success (houtcome : event.outcome = .success)
    (hstart : advance s.failures (event.time - 10 * minute) s.failures.length s.start = start)
    (hstop : retreat s.failures event.time start = stop) :
    s.next emit event =
      if stop - start ≥ 5 ∧ timeAt s.failures (stop - 1) ≥ event.time - 2 * minute then
        match s.episode with
        | some e =>
          if timeAt s.failures start > e.expiry then
            admitSuccess s event start stop ⟨.empty, event.time + 10 * minute, start⟩
              (s.flush emit)
          else admitSuccess s event start stop e s.findings
        | none => admitSuccess s event start stop ⟨.empty, event.time + 10 * minute, start⟩
            (s.flush emit)
      else { s with start } := by
  subst hstart hstop
  unfold StateB.next
  rw [if_neg (by rw [houtcome]; exact fun h => by cases h)]
  simp only
  split
  · cases s.episode with
    | none => rfl
    | some e =>
      simp only
      split <;> rfl
  · rfl

/-- A success opens an episode, extends the one in hand, or changes nothing. -/
theorem ScannedB.success (h : ScannedB values done s episodes)
    (ordered : values.Pairwise eventOrder)
    (distinct : (values.map EventFacts.eventId).Nodup)
    (tells : EmitsTold emit)
    (hvalues : values = done ++ event :: rest) (houtcome : event.outcome = .success) :
    ∃ more, ScannedB values (done ++ [event]) (s.next emit event) more := by
  have hfailures := failures_pairwise ordered hvalues h
  have hmem : event ∈ values := by
    rw [hvalues]
    simp
  have hbetween := between hfailures event.time h.start_le (by
    intro i hi
    obtain ⟨e, he, hlt⟩ := h.before i hi
    have hle := time_le ordered hvalues he
    omega)
  rw [next_success houtcome rfl rfl]
  generalize advance s.failures (event.time - 10 * minute) s.failures.length s.start = start
    at hbetween ⊢
  generalize retreat s.failures event.time start = stop at hbetween ⊢
  have hwindow : (s.failures.take stop).drop start = windowOf values event := by
    rw [hbetween.eq_filter, windowOf_done ordered hvalues, ← h.failures]
  have hread : s.failures = (done ++ [event]).filter fun e => e.outcome = .invalidCredential := by
    rw [h.failures, filter_append]
    simp [houtcome]
  have hstart : start ≤ s.failures.length := hbetween.start_le.trans hbetween.stop_le
  have hbefore : ∀ i < start, ∃ e ∈ done ++ [event],
      timeAt s.failures i < e.time - 10 * minute := by
    intro i hi
    refine ⟨event, by simp, ?_⟩
    have hleft := hbetween.left i (by omega)
    omega
  by_cases hqualifies : stop - start ≥ 5 ∧
      timeAt s.failures (stop - 1) ≥ event.time - 2 * minute
  · rw [if_pos hqualifies]
    have hevent : Qualifies values event :=
      (qualifies_iff hfailures hbetween hwindow houtcome).mp hqualifies
    have hadmitted : ∀ i < s.failures.length, i < stop ↔ timeAt s.failures i < event.time :=
      hbetween.right
    have hopen : (∀ a ∈ episodes, Apart values a [event]) →
        ∃ more, ScannedB values (done ++ [event]) (admitSuccess s event start stop
          ⟨.empty, event.time + 10 * minute, start⟩ (s.flush emit)) more := by
      intro hfresh
      refine ⟨episodes ++ [[event]], hread, hstart, hbefore, h.split.opens hevent hfresh, ?_⟩
      refine @HoldsB.busy values _ episodes [] event _ rfl
        ⟨rfl, hbetween.stop_le, hadmitted, ?_⟩ (h.held.flush tells)
      intro id x
      have hadded := get?_addEvidence distinct (P := fun _ => False)
        (m := .empty) (by simp) (fun _ hfalse => hfalse.elim) (windowOf values event)
        (fun e he => (mem_windowOf.mp he).1)
      have hset := get?_set_event distinct hadded
        (fun e he => he.elim False.elim fun he => (mem_windowOf.mp he).1) hmem id x
      simp only [max_self, hwindow]
      rw [hset, evidenceOf_append]
      simp [EvidenceOf, or_comm]
    cases hheld : h.held with
    | idle hepisode hfindings =>
      rw [hepisode]
      exact hopen fun a ha => absurd ha not_mem_nil
    | @busy earlier front last e hepisode hand hfindings =>
      have hlast := (h.split.mem (mem_append_right _ (mem_singleton_self _))
        (u := last) (by simp)).1
      have hle := time_le ordered hvalues hlast
      have hsub : ∀ x ∈ s.failures, x ∈ values := by
        intro x hx
        rw [h.failures] at hx
        rw [hvalues]
        exact mem_append_left _ (mem_filter.mp hx).1
      rw [hepisode]
      simp only
      by_cases hgap : timeAt s.failures start > e.expiry
      · rw [if_pos hgap]
        apply hopen
        intro a ha u hu w hw x hx
        have hdone : done.Pairwise eventOrder := by
          rw [hvalues] at ordered
          exact (pairwise_append.mp ordered).1
        have hbound := h.split.le_last hdone ha hu
        rw [mem_singleton.mp hw, ← hwindow, mem_between] at hx
        obtain ⟨i, hi, _, hgot⟩ := hx
        obtain ⟨hlt, _⟩ := List.getElem?_eq_some_iff.mp hgot
        have hmono := timeAt_mono hfailures hi hlt
        rw [timeAt_get hgot] at hmono
        rw [hand.expiry] at hgap
        unfold minute at hgap
        omega
      · rw [if_neg hgap]
        refine ⟨earlier ++ [front ++ [last] ++ [event]], hread, hstart, hbefore,
          h.split.grows hevent hle, ?_⟩
        refine .busy rfl ⟨rfl, hbetween.stop_le, hadmitted, ?_⟩ hfindings
        intro id x
        have hheldSub : ∀ x, EvidenceOf values (front ++ [last]) x → x ∈ values := by
          intro x hx
          refine evidenceOf_mem (fun u hu => ?_) hx
          have hu' := (h.split.mem (mem_append_right _ (mem_singleton_self _)) hu).1
          rw [hvalues]
          exact mem_append_left _ hu'
        have hfresh : ∀ x ∈ (s.failures.take stop).drop (max start e.admittedFailureEnd),
            x ∈ windowOf values event := by
          intro x hx
          rw [← hwindow, mem_between]
          obtain ⟨i, hi, hi', hgot⟩ := mem_between.mp hx
          exact ⟨i, by omega, hi', hgot⟩
        have hwhole : ∀ x ∈ windowOf values event, EvidenceOf values (front ++ [last]) x ∨
            x ∈ (s.failures.take stop).drop (max start e.admittedFailureEnd) := by
          intro x hx
          rw [mem_between]
          rw [← hwindow, mem_between] at hx
          obtain ⟨i, hi, hi', hgot⟩ := hx
          obtain ⟨hlt, _⟩ := List.getElem?_eq_some_iff.mp hgot
          by_cases hin : i < e.admittedFailureEnd
          · left
            have hearly := (hand.admitted i hlt).mp hin
            have hopens := (hbetween.left i hlt).mp hi
            rw [timeAt_get hgot] at hearly hopens
            have hx := mem_of_getElem? hgot
            rw [h.failures, mem_filter, decide_eq_true_eq] at hx
            exact ⟨last, by simp, .inr (mem_windowOf.mpr
              ⟨hsub x (mem_of_getElem? hgot), hx.2, by omega, hearly⟩)⟩
          · exact .inr ⟨i, by omega, hi', hgot⟩
        have hadded := get?_addEvidence distinct hand.evidence hheldSub
          ((s.failures.take stop).drop (max start e.admittedFailureEnd))
          (fun x hx => (mem_windowOf.mp (hfresh x hx)).1)
        have hset := get?_set_event distinct hadded
          (fun x hx => hx.elim (hheldSub x) fun hx => (mem_windowOf.mp (hfresh x hx)).1) hmem id x
        rw [hset, @evidenceOf_append values (front ++ [last]) event]
        refine and_congr_right fun _ => ⟨?_, ?_⟩
        · rintro ((hold | hnew) | heq)
          · exact .inl hold
          · exact .inr (.inr (hfresh x hnew))
          · exact .inr (.inl heq)
        · rintro (hold | heq | hin)
          · exact .inl (.inl hold)
          · exact .inr heq
          · exact .inl (hwhole x hin)
  · rw [if_neg hqualifies]
    have hnot : ¬ Qualifies values event := fun hevent =>
      hqualifies ((qualifies_iff hfailures hbetween hwindow houtcome).mpr hevent)
    refine ⟨episodes, hread, hstart, hbefore, h.split.skip hnot, ?_⟩
    cases h.held with
    | idle hepisode hfindings => exact .idle hepisode hfindings
    | busy hepisode hand hfindings => exact .busy hepisode hand hfindings

end Next

/-- The findings of rule B tell of its episodes. -/
theorem ruleB_episodes (ordered : values.Pairwise eventOrder)
    (distinct : (values.map EventFacts.eventId).Nodup) (outcomes : ∀ e ∈ values, counted e = true)
    (tells : EmitsTold emit) :
    ∃ episodes, Episodes values values episodes ∧
      Forall₂ (Told values) episodes (ruleB emit values) := by
  have hrun : ∀ done rest, values = done ++ rest →
      ∃ episodes, ScannedB values done (done.foldl (StateB.next emit) ⟨[], 0, none, []⟩)
        episodes := by
    intro done
    induction done using reverseRecOn with
    | nil =>
      intro _ _
      refine ⟨[], rfl, le_rfl, fun i hi => absurd hi (Nat.not_lt_zero i),
        ⟨rfl, fun _ h => absurd h not_mem_nil, List.Pairwise.nil⟩, .idle rfl rfl⟩
    | append_singleton done event ih =>
      intro rest hvalues
      rw [append_assoc, singleton_append] at hvalues
      obtain ⟨episodes, h⟩ := ih (event :: rest) hvalues
      rw [foldl_append]
      have hcounted := outcomes event (by rw [hvalues]; simp)
      rcases of_decide_eq_true hcounted with hfailure | hsuccess
      · exact ⟨episodes, h.failure ordered hvalues hfailure⟩
      · exact h.success ordered distinct tells hvalues hsuccess
  obtain ⟨episodes, h⟩ := hrun values [] (append_nil values).symm
  exact ⟨episodes, h.split, h.held.flush tells⟩

end RuleB

/-! ## Exactness -/

/-- The findings hold the qualifying successes, each once, with the failures before them. -/
structure RuleBExact (values : List EventFacts) (found : List AuthFinding) : Prop where
  only : ∀ f ∈ found, ∀ s ∈ values, s.outcome = .success → s.eventId ∈ f.evidenceEventIds →
    Qualifies values s
  placed : ∀ s ∈ values, Qualifies values s → ∃! f, f ∈ found ∧ s.eventId ∈ f.evidenceEventIds
  evidence : ∀ f ∈ found, ∀ id, id ∈ f.evidenceEventIds ↔
    ∃ s ∈ values, Qualifies values s ∧ s.eventId ∈ f.evidenceEventIds ∧
      ∃ e, (e = s ∨ e ∈ windowOf values s) ∧ e.eventId = id
  apart : found.Pairwise fun f g => ∀ id ∈ f.evidenceEventIds, id ∉ g.evidenceEventIds

section Exact

variable {α β : Type} {R : α → β → Prop} {as : List α} {bs : List β}

theorem forall₂_pairwise (h : Forall₂ R as bs) {S : α → α → Prop} {T : β → β → Prop}
    (pairs : as.Pairwise S) (carry : ∀ a b, R a b → ∀ a' b', R a' b' → S a a' → T b b') :
    bs.Pairwise T := by
  induction h with
  | nil => exact List.Pairwise.nil
  | cons hab hrest ih =>
    obtain ⟨hfirst, hpairs⟩ := pairwise_cons.mp pairs
    refine pairwise_cons.mpr ⟨?_, ih hpairs⟩
    intro b' hb'
    obtain ⟨a', ha', hR⟩ := Traverse.mem_source hrest hb'
    exact carry _ _ hab a' b' hR (hfirst a' ha')

variable {values : List EventFacts} {found : List AuthFinding}

/-- Episodes that are apart share no event. -/
theorem not_both {a b : List EventFacts} (apart : Apart values a b)
    (disjoint : List.Disjoint a b) (successes : ∀ u, u ∈ a ∨ u ∈ b → u.outcome = .success)
    {e : EventFacts} (left : EvidenceOf values a e) (right : EvidenceOf values b e) : False := by
  obtain ⟨u, hu, hleft⟩ := left
  obtain ⟨w, hw, hright⟩ := right
  rcases hleft with rfl | hleft <;> rcases hright with rfl | hright
  · exact disjoint hu hw
  · have hfailure := (mem_windowOf.mp hright).2.1
    rw [successes e (.inl hu)] at hfailure
    cases hfailure
  · have hfailure := (mem_windowOf.mp hleft).2.1
    rw [successes e (.inr hw)] at hfailure
    cases hfailure
  · have hlate := apart u hu w hw e hright
    have hearly := (mem_windowOf.mp hleft).2.2.2
    omega

theorem ruleBExact_of_episodes (distinct : (values.map EventFacts.eventId).Nodup)
    {episodes : List (List EventFacts)} (split : Episodes values values episodes)
    {told : List AuthFinding} (tells : Forall₂ (Told values) episodes told)
    (perm : found.Perm told) : RuleBExact values found := by
  have hsame : ∀ {episode f}, episode ∈ episodes → Told values episode f → ∀ e ∈ values,
      e.eventId ∈ f.evidenceEventIds ↔ EvidenceOf values episode e := by
    rintro episode f hepisode ⟨evidence, expiresAt, hevidence, htells⟩ e he
    rw [htells.ids]
    constructor
    · rintro ⟨e', he', hid⟩
      have hheld := (hevidence e').mp he'
      have hmem := evidenceOf_mem (fun u hu => (split.mem hepisode hu).1) hheld
      rwa [← inj_on_of_nodup_map distinct hmem he hid]
    · intro hheld
      exact ⟨e, (hevidence e).mpr hheld, rfl⟩
  have hids : ∀ {episode f}, episode ∈ episodes → Told values episode f → ∀ id,
      id ∈ f.evidenceEventIds ↔ ∃ e, EvidenceOf values episode e ∧ e.eventId = id := by
    rintro episode f hepisode ⟨evidence, expiresAt, hevidence, htells⟩ id
    rw [htells.ids]
    simp only [hevidence]
  have hsuccess : ∀ {episode u}, episode ∈ episodes → u ∈ episode → u.outcome = .success :=
    fun hepisode hu => (split.mem hepisode hu).2.1
  have hepisode : ∀ f ∈ found, ∃ episode ∈ episodes, Told values episode f :=
    fun f hf => Traverse.mem_source tells (perm.mem_iff.mp hf)
  have hdisjoint : episodes.Pairwise List.Disjoint := by
    have hnodup : episodes.flatten.Nodup := by
      rw [split.flat]
      exact distinct.of_map.filter _
    exact (List.nodup_flatten.mp hnodup).2
  have hapart : found.Pairwise fun f g => ∀ id ∈ f.evidenceEventIds, id ∉ g.evidenceEventIds := by
    have hpairs : episodes.Pairwise fun a b => a ∈ episodes ∧ b ∈ episodes ∧
        ∀ e, EvidenceOf values a e → ¬ EvidenceOf values b e := by
      refine (split.apart.and hdisjoint).imp_of_mem ?_
      rintro a b ha hb ⟨happart, hlists⟩
      exact ⟨ha, hb, fun e => not_both happart hlists
        fun u hu => hu.elim (hsuccess ha) (hsuccess hb)⟩
    have hsymm : ∀ {f g : AuthFinding}, (∀ id ∈ f.evidenceEventIds, id ∉ g.evidenceEventIds) →
        ∀ id ∈ g.evidenceEventIds, id ∉ f.evidenceEventIds :=
      fun h id hg hf => h id hf hg
    refine (forall₂_pairwise tells hpairs ?_).perm perm.symm hsymm
    rintro a f hf b g hg ⟨ha, hb, hnot⟩ id hid hid'
    obtain ⟨e, hheld, rfl⟩ := (hids ha hf id).mp hid
    have hmem := evidenceOf_mem (fun u hu => (split.mem ha hu).1) hheld
    exact hnot e hheld ((hsame hb hg e hmem).mp hid')
  have hone : ∀ s ∈ values, Qualifies values s →
      ∃ f ∈ found, s.eventId ∈ f.evidenceEventIds := by
    intro s hs hqualifies
    have hmem : s ∈ episodes.flatten := by
      rw [split.flat, mem_filter, decide_eq_true_eq]
      exact ⟨hs, hqualifies⟩
    obtain ⟨episode, hep, hin⟩ := List.mem_flatten.mp hmem
    obtain ⟨f, hf, htold⟩ := Traverse.mem_target tells hep
    exact ⟨f, perm.mem_iff.mpr hf, (hsame hep htold s hs).mpr ⟨s, hin, .inl rfl⟩⟩
  have honly : ∀ f ∈ found, ∀ s ∈ values, s.outcome = .success →
      s.eventId ∈ f.evidenceEventIds → Qualifies values s := by
    intro f hf s hs houtcome hid
    obtain ⟨episode, hep, htold⟩ := hepisode f hf
    obtain ⟨u, hu, rfl | hin⟩ := (hsame hep htold s hs).mp hid
    · exact (split.mem hep hu).2
    · have hfailure := (mem_windowOf.mp hin).2.1
      rw [houtcome] at hfailure
      cases hfailure
  refine ⟨honly, ?_, ?_, hapart⟩
  · intro s hs hqualifies
    obtain ⟨f, hf, hid⟩ := hone s hs hqualifies
    refine ⟨f, ⟨hf, hid⟩, ?_⟩
    rintro g ⟨hg, hid'⟩
    by_contra hne
    have hsymm : Std.Symm fun f g : AuthFinding =>
        ∀ id ∈ f.evidenceEventIds, id ∉ g.evidenceEventIds :=
      ⟨fun _ _ h id hg hf => h id hf hg⟩
    exact hapart.forall hg hf hne _ hid' hid
  · intro f hf id
    obtain ⟨episode, hep, htold⟩ := hepisode f hf
    rw [hids hep htold]
    constructor
    · rintro ⟨e, ⟨s, hs, he⟩, hid⟩
      obtain ⟨hvalue, hqualifies⟩ := split.mem hep hs
      exact ⟨s, hvalue, hqualifies, (hsame hep htold s hvalue).mpr ⟨s, hs, .inl rfl⟩, e, he, hid⟩
    · rintro ⟨s, hs, hqualifies, hid', e, he, hid⟩
      obtain ⟨u, hu, rfl | hin⟩ := (hsame hep htold s hs).mp hid'
      · exact ⟨e, ⟨s, hu, he⟩, hid⟩
      · have hfailure := (mem_windowOf.mp hin).2.1
        rw [hqualifies.1] at hfailure
        cases hfailure

end Exact

/-! ## What an evaluation finds -/

def userAppClient (e : EventFacts) : JsString :=
  (Json.array [.string e.subjectRef, .string e.applicationRef,
    jsonOption e.clientSource.address]).stringify

/-- The failures and successes of a subject in an application from one qualified client. -/
def clientEvents (events : List EventFacts) (subject application client : JsString) :
    List EventFacts :=
  events.filter fun e => decide (e.clientSource.qualification = .qualified ∧ counted e ∧
    e.subjectRef = subject ∧ e.applicationRef = application ∧
    e.clientSource.address = some client)

/-- The findings of rule B for a subject in an application from one client. -/
def foundB (r : AuthEvaluationResult) (subject application client : JsString) :
    List AuthFinding :=
  r.findings.filter fun f => decide (f.ruleId = .ruleB ∧ f.subjectRef = subject ∧
    f.applicationRef = application ∧ f.clientAddress = some client)

section Conclude

variable {p : Platform} {c : Context} {events : List EventFacts}

theorem userAppClient_eq_iff {e : EventFacts} {subject application client : JsString} :
    userAppClient e =
        (Json.array [.string subject, .string application, .string client]).stringify ↔
      e.subjectRef = subject ∧ e.applicationRef = application ∧
        e.clientSource.address = some client := by
  constructor
  · intro h
    have hkey := Json.stringify_injective h
    simp only [Json.array.injEq, List.cons.injEq, Json.string.injEq, and_true] at hkey
    have hclient : jsonOption e.clientSource.address = jsonOption (some client) := hkey.2.2
    exact ⟨hkey.1, hkey.2.1, jsonOption_injective hclient⟩
  · rintro ⟨rfl, rfl, hclient⟩
    rw [userAppClient, hclient]
    rfl

theorem byUserAppClient_group (events : List EventFacts) (k : JsString) :
    ((byUserAppClient events).get? k).getD [] = (events.filter fun event =>
      event.clientSource.qualification = .qualified && counted event).filter
        fun event => userAppClient event = k :=
  get?_grouped userAppClient _ k

theorem clientEvents_group (events : List EventFacts) (subject application client : JsString) :
    ((byUserAppClient events).get? (Json.array [.string subject, .string application,
      .string client]).stringify).getD [] = clientEvents events subject application client := by
  rw [byUserAppClient_group, filter_filter, clientEvents]
  apply filter_congr
  intro e _
  rw [Bool.eq_iff_iff]
  simp only [Bool.and_eq_true, decide_eq_true_eq, userAppClient_eq_iff]
  tauto

theorem client_of_key {e f : EventFacts} (h : userAppClient e = userAppClient f) :
    e.clientSource.address = f.clientSource.address := by
  have hkey := Json.stringify_injective h
  simp only [Json.array.injEq, List.cons.injEq, and_true] at hkey
  exact jsonOption_injective hkey.2.2

theorem ruleB_tells {caveats : List JsString} {values : List EventFacts}
    (ordered : values.Pairwise eventOrder) (distinct : (values.map EventFacts.eventId).Nodup)
    (outcomes : ∀ e ∈ values, counted e = true) {f : AuthFinding}
    (h : f ∈ ruleB (makeFinding p c .ruleB caveats) values) :
    ∃ evidence expiresAt, (∀ e ∈ evidence, e ∈ values) ∧ Tells .ruleB evidence expiresAt f := by
  obtain ⟨episodes, hsplit, htold⟩ := ruleB_episodes ordered distinct outcomes
    (makeFinding_made p c .ruleB caveats)
  obtain ⟨episode, hep, evidence, expiresAt, hevidence, htells⟩ := Traverse.mem_source htold h
  refine ⟨evidence, expiresAt, ?_, htells⟩
  intro e he
  exact evidenceOf_mem (fun u hu => (hsplit.mem hep hu).1) ((hevidence e).mp he)

/-- The findings of a client are those of its own events. -/
theorem foundB_perm (ordered : events.Pairwise eventOrder)
    (distinct : (events.map EventFacts.eventId).Nodup) (reasons : JsSet JsString)
    (excludedRows : Nat) (conflicts : List JsString) (duplicateCount : Nat)
    (subject application client : JsString) :
    ∃ caveats, (foundB (conclude p c reasons excludedRows events conflicts duplicateCount) subject
        application client).Perm
      (ruleB (makeFinding p c .ruleB caveats) (clientEvents events subject application client)) := by
  unfold conclude foundB
  simp only
  generalize (addIf _ (js "INSUFFICIENT_FIELDS") _).elements = caveats
  refine ⟨caveats, ?_⟩
  refine ((perm_insertionSort _ _).filter _).trans ?_
  rw [filter_append]
  have hA : ∀ caveats, ((byUserApp events).values.flatMap
      (ruleA (makeFinding p c .ruleA caveats))).filter (fun f => decide (f.ruleId = .ruleB ∧
        f.subjectRef = subject ∧ f.applicationRef = application ∧
        f.clientAddress = some client)) = [] := by
    intro caveats
    rw [filter_eq_nil_iff]
    intro f hf
    obtain ⟨values, hvalues, hf⟩ := mem_flatMap.mp hf
    obtain ⟨⟨j, v⟩, hentry, rfl⟩ := mem_map.mp hvalues
    have hgroup := byUserApp_group events j
    rw [JsMap.get?_eq_some.mpr hentry, Option.getD_some] at hgroup
    rw [hgroup] at hf
    obtain ⟨_, _, _, htells⟩ := ruleA_tells ((ordered.filter _).filter _) hf
    simp [htells.rule]
  rw [hA, nil_append, ← clientEvents_group, filter_values]
  · rfl
  · rw [clientEvents_group]
    intro f hf
    obtain ⟨evidence, _, hsub, htells⟩ := ruleB_tells (ordered.filter _)
      (distinct.sublist (filter_sublist.map _))
      (fun e he => (of_decide_eq_true (mem_filter.mp he).2).2.1) hf
    obtain ⟨e, he, hsubject, happlication⟩ := htells.key
    obtain ⟨x, hx, hclient⟩ := htells.client rfl
    have hkey := (of_decide_eq_true (mem_filter.mp (hsub e he)).2).2.2
    have hkey' := (of_decide_eq_true (mem_filter.mp (hsub x hx)).2).2.2
    exact decide_eq_true ⟨htells.rule, hsubject.trans hkey.1, happlication.trans hkey.2.1,
      hclient.trans hkey'.2.2⟩
  · intro j v hv hne f hf
    have hgroup := byUserAppClient_group events j
    rw [hv, Option.getD_some] at hgroup
    subst hgroup
    obtain ⟨evidence, _, hsub, htells⟩ := ruleB_tells ((ordered.filter _).filter _)
      (distinct.sublist ((filter_sublist.trans filter_sublist).map _))
      (fun e he => (Bool.and_eq_true_iff.mp
        (mem_filter.mp (mem_filter.mp he).1).2).2) hf
    obtain ⟨e, he, hsubject, happlication⟩ := htells.key
    obtain ⟨x, hx, hclient⟩ := htells.client rfl
    have hkey := of_decide_eq_true (mem_filter.mp (hsub e he)).2
    have hkey' := of_decide_eq_true (mem_filter.mp (hsub x hx)).2
    refine decide_eq_false ?_
    rintro ⟨_, hs, ha, hc⟩
    refine hne (hkey.symm.trans (userAppClient_eq_iff.mpr ⟨hsubject.symm.trans hs,
      happlication.symm.trans ha, ?_⟩))
    rw [client_of_key (hkey.trans hkey'.symm), ← hclient, hc]

end Conclude

/-- Rule B finds what the plain definition says, for every client of a subject. -/
theorem ruleB_exact (p : Platform) (input : AuthEvaluationInput)
    (subject application client : JsString) :
    RuleBExact (clientEvents (admittedEvents p input) subject application client)
      (foundB (evaluateAuthenticationRules p input) subject application client) := by
  rcases evaluate_cases p input with ⟨hfindings, hevents⟩ | ⟨c, reasons, excludedRows, conflicts,
    duplicateCount, heq, hordered, hdistinct⟩
  · rw [hevents, foundB, hfindings]
    refine ⟨?_, ?_, ?_, List.Pairwise.nil⟩
    · exact fun f hf => absurd hf not_mem_nil
    · exact fun s hs => absurd hs not_mem_nil
    · exact fun f hf => absurd hf not_mem_nil
  · rw [heq]
    obtain ⟨caveats, hperm⟩ := foundB_perm (p := p) (c := c) hordered hdistinct reasons
      excludedRows conflicts duplicateCount subject application client
    have hvalues : ((clientEvents (admittedEvents p input) subject application client).map
        EventFacts.eventId).Nodup := hdistinct.sublist (filter_sublist.map _)
    obtain ⟨episodes, hsplit, htold⟩ := ruleB_episodes (hordered.filter _) hvalues
      (fun e he => (of_decide_eq_true (mem_filter.mp he).2).2.1)
      (makeFinding_made p c .ruleB caveats)
    exact ruleBExact_of_episodes hvalues hsplit htold hperm

end Auth
