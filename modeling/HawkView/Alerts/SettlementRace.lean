import HawkView.Alerts.EmailReconciliation
import HawkView.Lib.StableOrder

/-!
# Webhooks that race the settlement

Events of a message may arrive before its acceptance is settled. The settlement
then reads them at once, and leaves the rows that the same events leave when
they arrive after it, once each and the early ones in order of occurrence.
-/

namespace SettlementRace

open SendTables EmailRegularRelease EmailReleaseStore EmailDelivery EmailReconciliation
open StableOrder List Option

/-! ## Runs -/

/-- One call of `recordEmailProviderEvent`. -/
structure Delivery where
  eventId : JsString
  event : AuthenticEvent
  scans : Scans

/-- A transaction that throws changes nothing. -/
def receive (readTime : JsString → Option Micros) (s : Store) (d : Delivery) : Store :=
  (recordEmailProviderEvent readTime s d.eventId d.event d.scans).getD s

/-- The settlement of an acceptance. -/
structure Acceptance where
  claim : EmailClaim
  providerId : ProviderMessageId
  now : Millis
  clock : Micros

def Acceptance.settle (a : Acceptance) (s : Store) (scans : Scans) : Store :=
  (settleAccepted s a.claim a.providerId a.now a.clock scans).getD s

def interleaved (readTime : JsString → Option Micros) (a : Acceptance) (early : List Delivery)
    (scans : Scans) (late : List Delivery) (s : Store) : Store :=
  late.foldl (receive readTime) (a.settle (early.foldl (receive readTime) s) scans)

/-- The events that are read, in the order in which they came. -/
def rowsOf (readTime : JsString → Option Micros) (ds : List Delivery) : List EventRow :=
  ds.filterMap fun d => eventRow readTime d.eventId d.event

/-- Of the events of one id the first, unless the id was seen before. -/
def onceEach : List JsString → List EventRow → List EventRow
  | _, [] => []
  | seen, e :: es =>
    if e.eventId ∈ seen then onceEach seen es else e :: onceEach (e.eventId :: seen) es

abbrev Arrival := EventRow × Scans

def arrive (s : Store) (a : Arrival) : Store := recordRow s a.1 a.2

/-- The acceptance first, then the events one by one. -/
def settledFirst (a : Acceptance) (scans : Scans) (events : List Arrival) (s : Store) : Store :=
  events.foldl arrive (a.settle s scans)

/-- Nothing is known of a provider id. -/
structure Untouched (s : Store) (p : ProviderMessageId) : Prop where
  envelopes : ∀ v ∈ s.db.envelopes.rows, v.providerId ≠ some p
  events : ∀ e ∈ s.events, e.providerId ≠ p

structure SameRows (s s' : Store) : Prop where
  outcomes : s.outcomes = s'.outcomes
  suppressed : s.suppressed = s'.suppressed

/-! ## What a statement leaves -/

theorem foldl_insertOutcome (rows : List Joined) (outcomes : OutcomeKey → Option OutcomeRow)
    (k : OutcomeKey) : (rows.foldl insertOutcome outcomes) k =
      (outcomes k).or ((rows.find? fun r => r.1.key = k).map fun r =>
        ⟨r.2.messageId, r.1.bounce⟩) := by
  induction rows generalizing outcomes with
  | nil => simp
  | cons r rows ih =>
    rw [foldl_cons, ih, insertOutcome]
    by_cases hk : r.1.key = k
    · subst hk
      cases hold : outcomes r.1.key with
      | none => simp
      | some old => simp [hold]
    · have hk' : k ≠ r.1.key := fun h => hk h.symm
      split_ifs
      · simp [hk]
      · simp [hk, Function.update_of_ne hk']

/-- The envelope that carries a provider id is the only one. -/
theorem link_cases (db : Database) (p : ProviderMessageId) :
    (db.envelopes.rows.filter fun v => v.providerId = some p) = [] ∨
      ∃ v, (db.envelopes.rows.filter fun v => v.providerId = some p) = [v] := by
  have hdistinct := db.envelopes.distinct.filter fun v => decide (v.providerId = some p)
  cases hfilter : db.envelopes.rows.filter fun v => v.providerId = some p with
  | nil => exact .inl rfl
  | cons v rest =>
    cases rest with
    | nil => exact .inr ⟨v, rfl⟩
    | cons w rest =>
      have hv : v ∈ db.envelopes.rows.filter fun v => v.providerId = some p := by
        rw [hfilter]
        simp
      have hw : w ∈ db.envelopes.rows.filter fun v => v.providerId = some p := by
        rw [hfilter]
        simp
      rw [hfilter, pairwise_cons] at hdistinct
      have hclash := hdistinct.1 w (by simp)
      simp only [mem_filter, decide_eq_true_eq] at hv hw
      simp [EnvelopeRow.schema, EnvelopeRow.clash, hv.2, hw.2] at hclash

def eventsOf (s : Store) (p : ProviderMessageId) : List EventRow :=
  s.events.filter fun e => e.providerId = p

variable {s : Store} {p : ProviderMessageId} {v : EnvelopeRow} (scans : Scans)
  (linked : (s.db.envelopes.rows.filter fun v => v.providerId = some p) = [v])
  (free : (s.db.envelopes.rows.filter fun v => v.providerId = some p) = [])

include free in
theorem joined_unlinked : joined s p = [] := by
  rw [joined, flatMap_eq_nil_iff]
  intro e he
  have hp : e.providerId = p := by simpa using (mem_filter.mp he).2
  rw [hp, free]
  rfl

include linked in
theorem joined_linked : joined s p = (eventsOf s p).map fun e => (e, v) := by
  rw [joined, ← flatMap_pure_eq_map, eventsOf]
  apply flatMap_congr
  intro e he
  have hp : e.providerId = p := by simpa using (mem_filter.mp he).2
  rw [hp, linked]
  rfl

/-! ## The earliest event that suppresses -/

/-- What an event does to the suppressed addresses when it alone counts. -/
def suppressBy (v : EnvelopeRow) (suppressed : OperatorAddress → Option SuppressionRow)
    (e : EventRow) : OperatorAddress → Option SuppressionRow :=
  match v.recipientAddress with
  | none => suppressed
  | some address => suppress suppressed (address, e, v)

theorem keepEarliest_single (address : OperatorAddress) (v : EnvelopeRow) (es : List EventRow)
    {m : JsMap OperatorAddress Joined} {best : EventRow} (h : m.entries = [(address, best, v)]) :
    ∃ first ∈ best :: es, (∀ e ∈ best :: es, first.occurredAt ≤ e.occurredAt) ∧
      ((es.map fun e => (address, e, v)).foldl keepEarliest m).entries = [(address, first, v)] := by
  induction es generalizing m best with
  | nil => exact ⟨best, by simp, by simp, h⟩
  | cons e es ih =>
    have hget : m.get? address = some (best, v) := by
      rw [JsMap.get?_eq_some, h]
      simp
    by_cases hlt : e.occurredAt < best.occurredAt
    · have hstep : (keepEarliest m (address, e, v)).entries = [(address, e, v)] := by
        simp [keepEarliest, hget, hlt, JsMap.set, h, JsMap.put]
      obtain ⟨first, hmem, hleast, hentries⟩ := ih hstep
      refine ⟨first, mem_cons_of_mem _ hmem, ?_, hentries⟩
      intro x hx
      rw [mem_cons] at hx
      obtain rfl | hx := hx
      · exact Int.le_trans (hleast e (by simp)) (Int.le_of_lt hlt)
      · exact hleast x hx
    · have hstep : keepEarliest m (address, e, v) = m := by
        simp [keepEarliest, hget, hlt]
      obtain ⟨first, hmem, hleast, hentries⟩ := ih h
      rw [map_cons, foldl_cons, hstep]
      refine ⟨first, ?_, ?_, hentries⟩
      · rw [mem_cons] at hmem
        obtain rfl | hmem := hmem
        · simp
        · exact mem_cons_of_mem _ (mem_cons_of_mem _ hmem)
      · intro x hx
        have hbest := hleast best (by simp)
        rw [mem_cons, mem_cons] at hx
        obtain rfl | rfl | hx := hx
        · exact hbest
        · exact Int.le_trans hbest (Int.not_lt.mp hlt)
        · exact hleast x (mem_cons_of_mem _ hx)

/-- The second statement acts by one event: none that suppresses occurred before it. -/
theorem suppress_earliest (v : EnvelopeRow) (es : List EventRow)
    (suppressed : OperatorAddress → Option SuppressionRow) :
    (∃ first ∈ es, suppresses first = true ∧
      (∀ e ∈ es, suppresses e = true → first.occurredAt ≤ e.occurredAt) ∧
      (earliest (es.map fun e => (e, v))).entries.foldl suppress suppressed =
        suppressBy v suppressed first) ∨
    ((∀ e ∈ es, suppresses e = false) ∧
      (earliest (es.map fun e => (e, v))).entries.foldl suppress suppressed = suppressed) := by
  have hcandidates : (es.map fun e => (e, v)).filterMap candidate =
      match v.recipientAddress with
      | none => []
      | some address => (es.filter suppresses).map fun e => (address, e, v) := by
    induction es with
    | nil => cases v.recipientAddress <;> rfl
    | cons e es ih =>
      rw [map_cons, filterMap_cons, ih, candidate]
      by_cases he : suppresses e = true
      · cases v.recipientAddress <;> simp [he]
      · cases v.recipientAddress <;> simp [he]
  rw [earliest, hcandidates]
  cases hes : es.filter suppresses with
  | nil =>
    refine .inr ⟨?_, ?_⟩
    · intro e he
      have hnone := filter_eq_nil_iff.mp hes e he
      simpa using hnone
    · cases v.recipientAddress <;> rfl
  | cons e rest =>
    have hmem : ∀ x, x ∈ e :: rest ↔ x ∈ es ∧ suppresses x = true := by
      intro x
      rw [← hes, mem_filter]
    have hfirst := fun address => keepEarliest_single address v rest
      (m := JsMap.empty.set address (e, v)) rfl
    cases haddress : v.recipientAddress with
    | none =>
      obtain ⟨first, hin, hleast, _⟩ := hfirst []
      obtain ⟨hes, hsuppresses⟩ := (hmem first).mp hin
      refine .inl ⟨first, hes, hsuppresses, fun x hx hsx => hleast x ((hmem x).mpr ⟨hx, hsx⟩), ?_⟩
      simp [suppressBy, haddress, JsMap.empty]
    | some address =>
      obtain ⟨first, hin, hleast, hentries⟩ := hfirst address
      obtain ⟨hes, hsuppresses⟩ := (hmem first).mp hin
      refine .inl ⟨first, hes, hsuppresses, fun x hx hsx => hleast x ((hmem x).mpr ⟨hx, hsx⟩), ?_⟩
      have hstep : keepEarliest .empty (address, e, v) = JsMap.empty.set address (e, v) := rfl
      simp only [map_cons, foldl_cons, hstep, hentries, foldl_nil, suppressBy,
        haddress]

/-! ## Reconciling -/

section Reconcile

theorem scan_linked (scan : Scan)
    (link : (s.db.envelopes.rows.filter fun v => v.providerId = some p) = [v]) :
    ∃ es : List EventRow, es.Perm (eventsOf s p) ∧
      scan.order (joined s p) = es.map fun e => (e, v) := by
  have hperm := scan.perm (joined s p)
  refine ⟨(scan.order (joined s p)).map Prod.fst, ?_, ?_⟩
  · have hfst : (joined s p).map Prod.fst = eventsOf s p := by
      rw [joined_linked link, List.map_map]
      exact map_id _
    rw [← hfst]
    exact hperm.map Prod.fst
  · rw [List.map_map]
    have hall : ∀ r ∈ scan.order (joined s p), (r.1, v) = r := by
      intro r hr
      have hmem := hperm.mem_iff.mp hr
      rw [joined_linked link, List.mem_map] at hmem
      obtain ⟨e, _, rfl⟩ := hmem
      rfl
    exact ((map_congr_left hall).trans (map_id _)).symm

include linked in
/-- A reconciliation reads the events of the id in two orders. -/
theorem reconcile_linked :
    ∃ es es' : List EventRow, es.Perm (eventsOf s p) ∧ es'.Perm (eventsOf s p) ∧
      reconcileEmailProvider s p scans = { s with
        outcomes := (es.map fun e => (e, v)).foldl insertOutcome s.outcomes
        suppressed := (earliest (es'.map fun e => (e, v))).entries.foldl suppress s.suppressed } := by
  obtain ⟨es, hes, hread⟩ := scan_linked scans.outcomes linked
  obtain ⟨es', hes', hread'⟩ := scan_linked scans.suppressions linked
  refine ⟨es, es', hes, hes', ?_⟩
  rw [reconcileEmailProvider, hread, hread']

include free in
theorem reconcile_unlinked : reconcileEmailProvider s p scans = s := by
  have hread : ∀ scan : Scan, scan.order (joined s p) = [] := by
    intro scan
    have hperm := scan.perm (joined s p)
    rw [joined_unlinked free] at hperm ⊢
    exact hperm.eq_nil
  rw [reconcileEmailProvider, hread, hread]
  rfl

/-- All events of the id are in the outcomes and the suppressed addresses. -/
structure Reconciled (s : Store) (p : ProviderMessageId) (v : EnvelopeRow) : Prop where
  link : (s.db.envelopes.rows.filter fun v => v.providerId = some p) = [v]
  outcomes : ∀ e ∈ eventsOf s p, (s.outcomes e.key).isSome
  suppressed : ∀ address, v.recipientAddress = some address → ∀ e ∈ eventsOf s p,
    suppresses e = true → ∃ row, s.suppressed address = some row ∧
      ∃ c ∈ eventsOf s p, suppresses c = true ∧ c.occurredAt ≤ row.lastSeenAt

theorem insertOutcome_rows (es : List EventRow) (outcomes : OutcomeKey → Option OutcomeRow)
    (k : OutcomeKey) : ((es.map fun e => (e, v)).foldl insertOutcome outcomes) k =
      (outcomes k).or ((es.find? fun e => e.key = k).map fun e => ⟨v.messageId, e.bounce⟩) := by
  rw [foldl_insertOutcome, find?_map, Option.map_map]
  rfl

theorem suppressBy_row {address : OperatorAddress} (haddress : v.recipientAddress = some address)
    (suppressed : OperatorAddress → Option SuppressionRow) (e : EventRow) :
    ∃ row, suppressBy v suppressed e address = some row ∧ e.occurredAt ≤ row.lastSeenAt := by
  simp only [suppressBy, haddress, suppress]
  cases hold : suppressed address with
  | none => exact ⟨_, Function.update_self _ _ _, Int.le_refl _⟩
  | some row => exact ⟨_, Function.update_self _ _ _, Int.le_max_right _ _⟩

include linked in
theorem reconcile_reconciled :
    Reconciled (reconcileEmailProvider s p scans) p v := by
  obtain ⟨es, es', hes, hes', heq⟩ := reconcile_linked scans linked
  rw [heq]
  refine ⟨linked, ?_, ?_⟩
  · intro e he
    have hfound : (es.find? fun x => x.key = e.key).isSome := by
      rw [find?_isSome]
      exact ⟨e, hes.mem_iff.mpr he, by simp⟩
    simp [insertOutcome_rows, hfound]
  · intro address haddress e he hsuppresses
    obtain ⟨first, hfirst, hfirstSuppresses, _, hrow⟩ | ⟨hnone, _⟩ :=
      suppress_earliest v es' s.suppressed
    · obtain ⟨row, hrow', hlast⟩ := suppressBy_row haddress s.suppressed first
      simp only [hrow]
      exact ⟨row, hrow', first, hes'.mem_iff.mp hfirst, hfirstSuppresses, hlast⟩
    · rw [hnone e (hes'.mem_iff.mpr he)] at hsuppresses
      cases hsuppresses

/-- An event that is no earlier than the row was last seen is no news to it. -/
theorem suppressBy_known {suppressed : OperatorAddress → Option SuppressionRow} {e : EventRow}
    (known : ∀ address, v.recipientAddress = some address →
      ∃ row, suppressed address = some row ∧ e.occurredAt ≤ row.lastSeenAt) :
    suppressBy v suppressed e = suppressed := by
  cases haddress : v.recipientAddress with
  | none => simp [suppressBy, haddress]
  | some address =>
    obtain ⟨row, hrow, hlast⟩ := known address haddress
    have hmax : max row.lastSeenAt e.occurredAt = row.lastSeenAt := Int.max_eq_left hlast
    simp only [suppressBy, haddress, suppress, hrow, hmax]
    rw [← hrow]
    exact Function.update_eq_self _ _

theorem Reconciled.known (h : Reconciled s p v) {first : EventRow} (hfirst : first ∈ eventsOf s p)
    (hsuppresses : suppresses first = true)
    (least : ∀ e ∈ eventsOf s p, suppresses e = true → first.occurredAt ≤ e.occurredAt)
    (address : OperatorAddress) (haddress : v.recipientAddress = some address) :
    ∃ row, s.suppressed address = some row ∧ first.occurredAt ≤ row.lastSeenAt := by
  obtain ⟨row, hrow, c, hc, hcs, hlast⟩ := h.suppressed address haddress first hfirst hsuppresses
  exact ⟨row, hrow, Int.le_trans (least c hc hcs) hlast⟩

theorem Reconciled.idle (h : Reconciled s p v) (scans : Scans) :
    reconcileEmailProvider s p scans = s := by
  obtain ⟨es, es', hes, hes', heq⟩ := reconcile_linked scans h.link
  have houtcomes : (es.map fun e => (e, v)).foldl insertOutcome s.outcomes = s.outcomes := by
    funext k
    rw [insertOutcome_rows]
    cases hfound : es.find? fun e => e.key = k with
    | none => simp
    | some e =>
      have hkey : e.key = k := by simpa using find?_some hfound
      have hsome := h.outcomes e (hes.mem_iff.mp (mem_of_find?_eq_some hfound))
      rw [hkey] at hsome
      obtain ⟨row, hrow⟩ := isSome_iff_exists.mp hsome
      simp [hrow]
  have hsuppressed :
      (earliest (es'.map fun e => (e, v))).entries.foldl suppress s.suppressed = s.suppressed := by
    obtain ⟨first, hfirst, hsuppresses, hleast, hrow⟩ | ⟨_, hrow⟩ :=
      suppress_earliest v es' s.suppressed
    · rw [hrow]
      apply suppressBy_known
      apply h.known (hes'.mem_iff.mp hfirst) hsuppresses
      exact fun e he => hleast e (hes'.mem_iff.mpr he)
    · exact hrow
  rw [heq, houtcomes, hsuppressed]

end Reconcile

/-! ## One event more -/

def known (events : List EventRow) (e : EventRow) : Bool := events.any (·.eventId == e.eventId)

/-- What a new event leaves after those before it. -/
def welcome (s : Store) (p : ProviderMessageId) (v : EnvelopeRow) (e : EventRow) : Store :=
  { s with
    events := s.events ++ [e]
    outcomes := insertOutcome s.outcomes (e, v)
    suppressed :=
      if suppresses e && !(eventsOf s p).any suppresses then suppressBy v s.suppressed e
      else s.suppressed }

section Arrive

variable {e : EventRow} {scans : Scans}

include free in
theorem arrive_unlinked (about : e.providerId = p) :
    arrive s (e, scans) = { s with events := insertEvent s.events e } := by
  rw [arrive, recordRow, about]
  exact reconcile_unlinked scans free

theorem arrive_reconciled (scans : Scans) (h : Reconciled s p v) (about : e.providerId = p) :
    Reconciled (arrive s (e, scans)) p v := by
  rw [arrive, recordRow, about]
  exact reconcile_reconciled scans h.link

theorem arrive_known (h : Reconciled s p v) (about : e.providerId = p)
    (old : known s.events e = true) : arrive s (e, scans) = s := by
  have hsame : insertEvent s.events e = s.events := if_pos old
  rw [arrive, recordRow, about, hsame]
  exact h.idle scans

variable {es : List EventRow}

theorem outcomes_welcome (h : Reconciled s p v) (perm : es.Perm (eventsOf s p ++ [e])) :
    (es.map fun e => (e, v)).foldl insertOutcome s.outcomes = insertOutcome s.outcomes (e, v) := by
  funext k
  have hone := insertOutcome_rows (v := v) [e] s.outcomes k
  rw [map_cons, map_nil, foldl_cons, foldl_nil] at hone
  rw [hone, insertOutcome_rows]
  cases hold : s.outcomes k with
  | some row => simp
  | none =>
    have hnone : ∀ x ∈ eventsOf s p, x.key ≠ k := by
      rintro x hx rfl
      have hsome := h.outcomes x hx
      rw [hold] at hsome
      cases hsome
    congr 2
    by_cases hk : e.key = k
    · obtain ⟨x, hx⟩ : ∃ x, es.find? (fun e => e.key = k) = some x := by
        rw [← isSome_iff_exists, find?_isSome]
        exact ⟨e, perm.mem_iff.mpr (by simp), by simpa using hk⟩
      have hxk : x.key = k := by simpa using find?_some hx
      have hmem := perm.mem_iff.mp (mem_of_find?_eq_some hx)
      rw [mem_append, mem_singleton] at hmem
      obtain hmem | rfl := hmem
      · exact absurd hxk (hnone x hmem)
      · simp [hx, hk]
    · have hmissing : es.find? (fun e => e.key = k) = none := by
        rw [find?_eq_none]
        intro x hx
        have hmem := perm.mem_iff.mp hx
        rw [mem_append, mem_singleton] at hmem
        obtain hmem | rfl := hmem
        · simpa using hnone x hmem
        · simpa using hk
      simp [hmissing, hk]

theorem suppressed_welcome (h : Reconciled s p v) (perm : es.Perm (eventsOf s p ++ [e])) :
    (earliest (es.map fun e => (e, v))).entries.foldl suppress s.suppressed =
      if suppresses e && !(eventsOf s p).any suppresses then suppressBy v s.suppressed e
      else s.suppressed := by
  have hmem : ∀ x, x ∈ es ↔ x ∈ eventsOf s p ∨ x = e := by
    intro x
    rw [perm.mem_iff, mem_append, mem_singleton]
  obtain ⟨first, hfirst, hsuppresses, hleast, hrow⟩ | ⟨hnone, hrow⟩ :=
    suppress_earliest v es s.suppressed
  · rw [hrow]
    by_cases hany : (eventsOf s p).any suppresses = true
    · rw [if_neg (by simp [hany])]
      apply suppressBy_known
      intro address haddress
      obtain ⟨x, hx, hxs⟩ := List.any_eq_true.mp hany
      obtain ⟨row, hrow, c, hc, hcs, hlast⟩ := h.suppressed address haddress x hx hxs
      exact ⟨row, hrow, Int.le_trans (hleast c ((hmem c).mpr (.inl hc)) hcs) hlast⟩
    · obtain hold | rfl := (hmem first).mp hfirst
      · exact absurd (List.any_eq_true.mpr ⟨first, hold, hsuppresses⟩) hany
      · rw [if_pos (by simp [hsuppresses, hany])]
  · rw [hrow, if_neg]
    simp [hnone e ((hmem e).mpr (.inr rfl))]

theorem arrive_new (h : Reconciled s p v) (about : e.providerId = p)
    (new : known s.events e = false) : arrive s (e, scans) = welcome s p v e := by
  have hinsert : insertEvent s.events e = s.events ++ [e] := by
    rw [insertEvent, if_neg]
    rw [Bool.not_eq_true]
    exact new
  have hevents : eventsOf { s with events := s.events ++ [e] } p = eventsOf s p ++ [e] := by
    simp [eventsOf, about]
  obtain ⟨es, es', hes, hes', heq⟩ :=
    reconcile_linked (s := { s with events := s.events ++ [e] }) scans h.link
  rw [hevents] at hes hes'
  rw [arrive, recordRow, about, hinsert, heq]
  simp only [outcomes_welcome h hes, suppressed_welcome h hes', welcome]

end Arrive

/-! ## Runs that agree -/

/-- Two stores with the same rows, and the same events in any order. -/
structure Alike (s s' : Store) (p : ProviderMessageId) (v : EnvelopeRow) : Prop where
  events : s.events.Perm s'.events
  rows : SameRows s s'
  left : Reconciled s p v
  right : Reconciled s' p v

section Agree

variable {s s' : Store} {p : ProviderMessageId} {v : EnvelopeRow} {e : EventRow}

variable {events : List EventRow}

theorem known_perm {events' : List EventRow} (h : events.Perm events') (e : EventRow) :
    known events e = known events' e := h.any_eq

theorem known_of_mem {x : EventRow} (hx : x ∈ events) (same : x.eventId = e.eventId) :
    known events e = true :=
  List.any_eq_true.mpr ⟨x, hx, by simpa using same⟩

theorem arrive_alike (h : Alike s s' p v) (about : e.providerId = p) (scans scans' : Scans) :
    Alike (arrive s (e, scans)) (arrive s' (e, scans')) p v := by
  cases hknown : known s.events e with
  | true =>
    have hknown' := hknown
    rw [known_perm h.events] at hknown'
    rw [arrive_known h.left about hknown, arrive_known h.right about hknown']
    exact h
  | false =>
    have hknown' := hknown
    rw [known_perm h.events] at hknown'
    have hleft := arrive_reconciled scans h.left about
    have hright := arrive_reconciled scans' h.right about
    rw [arrive_new h.left about hknown] at hleft ⊢
    rw [arrive_new h.right about hknown'] at hright ⊢
    have hany : (eventsOf s p).any suppresses = (eventsOf s' p).any suppresses :=
      (h.events.filter _).any_eq
    refine ⟨h.events.append_right [e], ⟨?_, ?_⟩, hleft, hright⟩
    · simp only [welcome, h.rows.outcomes]
    · simp only [welcome, h.rows.suppressed, hany]

/-- Replays leave no trace. -/
theorem late_alike (late once : List Arrival) {seen : List JsString}
    (honce : once.map Prod.fst = onceEach seen (late.map Prod.fst))
    (hseen : ∀ e : EventRow, e.eventId ∈ seen → known s.events e = true)
    (about : ∀ a ∈ late, a.1.providerId = p) (h : Alike s s' p v) :
    SameRows (late.foldl arrive s) (once.foldl arrive s') := by
  induction late generalizing once seen s s' with
  | nil =>
    rw [map_nil, onceEach, map_eq_nil_iff] at honce
    subst honce
    exact h.rows
  | cons a late ih =>
    obtain ⟨e, scans⟩ := a
    have he : e.providerId = p := about (e, scans) (by simp)
    have hrest : ∀ a ∈ late, a.1.providerId = p := fun a ha => about a (by simp [ha])
    rw [map_cons, onceEach] at honce
    by_cases hold : e.eventId ∈ seen
    · rw [if_pos hold] at honce
      rw [foldl_cons, arrive_known h.left he (hseen e hold)]
      exact ih once honce hseen hrest h
    · rw [if_neg hold] at honce
      obtain ⟨⟨x, scans'⟩, rest, rfl, hx, hrestOnce⟩ := List.map_eq_cons_iff.mp honce
      cases hx
      rw [foldl_cons, foldl_cons]
      refine ih rest hrestOnce ?_ hrest (arrive_alike h he scans scans')
      intro y hy
      rw [mem_cons] at hy
      cases hknown : known s.events e with
      | true =>
        rw [arrive_known h.left he hknown]
        obtain hy | hy := hy
        · rw [known, hy]
          exact hknown
        · exact hseen y hy
      | false =>
        rw [arrive_new h.left he hknown]
        obtain hy | hy := hy
        · exact known_of_mem (x := e) (by simp [welcome]) hy.symm
        · obtain ⟨x, hx, hsame⟩ := List.any_eq_true.mp (hseen y hy)
          exact known_of_mem (x := x) (by simp [welcome, hx]) (by simpa using hsame)

end Agree

/-! ## One by one, and before the settlement -/

def news (events : List EventRow) (es : List EventRow) : List EventRow :=
  es.filter fun e => !known events e

section Runs

variable {s : Store} {p : ProviderMessageId} {v : EnvelopeRow}

variable {events es : List EventRow}

theorem news_append {e : EventRow} (fresh : ∀ x ∈ es, x.eventId ≠ e.eventId) :
    news (events ++ [e]) es = news events es := by
  apply filter_congr
  intro x hx
  have hne : (e.eventId == x.eventId) = false := by
    simpa using fun h => fresh x hx h.symm
  simp [known, hne]

/-- The tables after events of different ids that arrive one by one. -/
theorem arrivals_spec (once : List Arrival) (h : Reconciled s p v)
    (about : ∀ a ∈ once, a.1.providerId = p)
    (distinct : (once.map fun a => a.1.eventId).Nodup) :
    once.foldl arrive s =
      { s with
        events := s.events ++ news s.events (once.map Prod.fst)
        outcomes := ((news s.events (once.map Prod.fst)).map fun e => (e, v)).foldl insertOutcome
          s.outcomes
        suppressed :=
          if (eventsOf s p).any suppresses then s.suppressed
          else match (news s.events (once.map Prod.fst)).find? suppresses with
            | none => s.suppressed
            | some e => suppressBy v s.suppressed e } ∧
      Reconciled (once.foldl arrive s) p v := by
  induction once generalizing s with
  | nil => simp [news, h]
  | cons a once ih =>
    obtain ⟨e, scans⟩ := a
    have he : e.providerId = p := about (e, scans) (by simp)
    have hrest : ∀ a ∈ once, a.1.providerId = p := fun a ha => about a (by simp [ha])
    rw [map_cons, nodup_cons] at distinct
    have hfresh : ∀ x ∈ once.map Prod.fst, x.eventId ≠ e.eventId := by
      intro x hx hsame
      obtain ⟨a, ha, rfl⟩ := List.mem_map.mp hx
      exact distinct.1 (List.mem_map.mpr ⟨a, ha, hsame⟩)
    rw [foldl_cons, map_cons]
    cases hknown : known s.events e with
    | true =>
      have hnews : news s.events (e :: once.map Prod.fst) = news s.events (once.map Prod.fst) := by
        simp [news, hknown]
      rw [arrive_known h he hknown, hnews]
      exact ih h hrest distinct.2
    | false =>
      have hnews : news s.events (e :: once.map Prod.fst) =
          e :: news s.events (once.map Prod.fst) := by
        simp [news, hknown]
      have hreconciled := arrive_reconciled scans h he
      rw [arrive_new h he hknown] at hreconciled ⊢
      obtain ⟨heq, hlast⟩ := ih hreconciled hrest distinct.2
      refine ⟨?_, hlast⟩
      have hevents : eventsOf (welcome s p v e) p = eventsOf s p ++ [e] := by
        simp [eventsOf, welcome, he]
      have hlater : news (welcome s p v e).events (once.map Prod.fst) =
          news s.events (once.map Prod.fst) := news_append hfresh
      rw [heq, hnews, hlater, hevents]
      simp only [welcome, append_assoc, singleton_append, map_cons, foldl_cons,
        any_append, any_cons, any_nil, Bool.or_false, Store.mk.injEq, true_and]
      cases hs : suppresses e with
      | true => cases (eventsOf s p).any suppresses <;> simp [hs]
      | false => cases (eventsOf s p).any suppresses <;> simp [hs]

theorem arrivals_unlinked (as : List Arrival)
    (link : (s.db.envelopes.rows.filter fun v => v.providerId = some p) = [])
    (about : ∀ a ∈ as, a.1.providerId = p) :
    as.foldl arrive s = { s with events := (as.map Prod.fst).foldl insertEvent s.events } := by
  induction as generalizing s with
  | nil => rfl
  | cons a as ih =>
    obtain ⟨e, scans⟩ := a
    rw [foldl_cons, arrive_unlinked link (about (e, scans) (by simp)),
      ih (s := { s with events := insertEvent s.events e }) link
        (fun a ha => about a (by simp [ha]))]
    rfl

variable {seen : List JsString} {x : EventRow}

theorem onceEach_fresh (hx : x ∈ onceEach seen es) : x.eventId ∉ seen := by
  induction es generalizing seen with
  | nil => cases hx
  | cons e es ih =>
    rw [onceEach] at hx
    split_ifs at hx with hold
    · exact ih hx
    · rw [mem_cons] at hx
      obtain rfl | hx := hx
      · exact hold
      · exact fun hmem => ih hx (mem_cons_of_mem _ hmem)

theorem onceEach_nodup (seen : List JsString) (es : List EventRow) :
    ((onceEach seen es).map EventRow.eventId).Nodup := by
  induction es generalizing seen with
  | nil => exact nodup_nil
  | cons e es ih =>
    rw [onceEach]
    split_ifs
    · exact ih seen
    · rw [map_cons, nodup_cons]
      refine ⟨?_, ih _⟩
      intro hmem
      obtain ⟨x, hx, hsame⟩ := List.mem_map.mp hmem
      exact onceEach_fresh hx (by simp [hsame])

theorem onceEach_subset (hx : x ∈ onceEach seen es) : x ∈ es := by
  induction es generalizing seen with
  | nil => exact hx
  | cons e es ih =>
    rw [onceEach] at hx
    split_ifs at hx
    · exact mem_cons_of_mem _ (ih hx)
    · rw [mem_cons] at hx ⊢
      exact hx.imp_right ih

/-- The table of events takes each new one once. -/
theorem insertEvents (seen : List JsString) (es : List EventRow)
    (hseen : ∀ e : EventRow, e.eventId ∈ seen → known events e = true) :
    es.foldl insertEvent events = events ++ news events (onceEach seen es) := by
  induction es generalizing seen events with
  | nil => simp [onceEach, news]
  | cons e es ih =>
    rw [foldl_cons, onceEach]
    cases hknown : known events e with
    | true =>
      have hsame : insertEvent events e = events := if_pos hknown
      rw [hsame]
      split_ifs
      · exact ih seen hseen
      · rw [ih (e.eventId :: seen)]
        · simp [news, hknown]
        · intro x hx
          rw [mem_cons] at hx
          obtain hx | hx := hx
          · rw [known, hx]
            exact hknown
          · exact hseen x hx
    | false =>
      have hnew : insertEvent events e = events ++ [e] := by
        rw [insertEvent, if_neg]
        rw [Bool.not_eq_true]
        exact hknown
      have hunseen : e.eventId ∉ seen := by
        intro hmem
        rw [hseen e hmem] at hknown
        cases hknown
      rw [hnew, if_neg hunseen, ih (e.eventId :: seen)]
      · rw [news_append, news, news, filter_cons_of_pos (by simp [hknown])]
        · simp
        · intro x hx hsame
          exact onceEach_fresh hx (by simp [hsame])
      · intro x hx
        rw [mem_cons] at hx
        obtain hx | hx := hx
        · exact known_of_mem (x := e) (by simp) hx.symm
        · obtain ⟨y, hy, hsame⟩ := List.any_eq_true.mp (hseen x hx)
          exact known_of_mem (x := y) (by simp [hy]) (by simpa using hsame)

end Runs

/-! ## The order of occurrence -/

theorem exists_low (es : List EventRow) : ∃ low : Int, ∀ e ∈ es, low ≤ e.occurredAt := by
  induction es with
  | nil => exact ⟨0, by simp⟩
  | cons e es ih =>
    obtain ⟨low, hlow⟩ := ih
    refine ⟨min low e.occurredAt, ?_⟩
    intro x hx
    rw [mem_cons] at hx
    obtain rfl | hx := hx
    · exact Int.min_le_right _ _
    · exact Int.le_trans (Int.min_le_left _ _) (hlow x hx)

/-- By time, and within a time one kind first. -/
def rank (low : Int) (kind : OutcomeKind) (e : EventRow) : Nat :=
  2 * (e.occurredAt - low).toNat + if e.kind = kind then 0 else 1

theorem rank_le {low : Int} {kind : OutcomeKind} {a b : EventRow}
    (hb : low ≤ b.occurredAt) (h : rank low kind a ≤ rank low kind b) :
    (a.occurredAt : Int) ≤ b.occurredAt ∧
      ((b.occurredAt : Int) = a.occurredAt → b.kind = kind → a.kind = kind) := by
  have hbound : ∀ t u : Int, low ≤ u →
      2 * (t - low).toNat + (if a.kind = kind then 0 else 1) ≤
        2 * (u - low).toNat + (if b.kind = kind then 0 else 1) →
      t ≤ u ∧ (u = t → b.kind = kind → a.kind = kind) := by
    intro t u hu hle
    split_ifs at hle with ha hb'
    · exact ⟨by omega, fun _ _ => ha⟩
    · exact ⟨by omega, fun _ _ => ha⟩
    · refine ⟨by omega, ?_⟩
      rintro rfl
      omega
    · exact ⟨by omega, fun _ hkind => absurd hkind (by assumption)⟩
  exact hbound _ _ hb h

/-- The events that came early, in an order in which they leave what was read at once. -/
theorem arranged_exists {events once read : List EventRow}
    (perm : read.Perm (news events once)) (kind : OutcomeKind) :
    ∃ arranged : List EventRow, arranged.Perm once ∧
      arranged.Pairwise (fun a b => a.occurredAt ≤ b.occurredAt) ∧
      (∀ k, (news events arranged).find? (fun e => e.key = k) =
        read.find? fun e => e.key = k) ∧
      ∀ f, (news events arranged).find? suppresses = some f → ∀ e ∈ news events once,
        suppresses e = true → f.occurredAt ≤ e.occurredAt ∧
          (e.occurredAt = f.occurredAt → e.kind = kind → f.kind = kind) := by
  obtain ⟨low, hlow⟩ := exists_low once
  let dropped := once.filter (known events)
  let arranged := sortOn (rank low kind) (read ++ dropped)
  have hperm : arranged.Perm once := by
    refine (sortOn_perm _ _).trans ((perm.append_right dropped).trans ?_)
    exact List.perm_append_comm.trans (filter_append_perm (known events) once)
  have hsorted := sortOn_sorted (rank low kind) (read ++ dropped)
  have hknown : ∀ e ∈ read, known events e = false := by
    intro e he
    have hmem := perm.mem_iff.mp he
    simpa using (mem_filter.mp hmem).2
  refine ⟨arranged, hperm, ?_, ?_, ?_⟩
  · refine hsorted.imp_of_mem ?_
    intro a b _ hb hle
    exact (rank_le (hlow b (hperm.mem_iff.mp hb)) hle).1
  · intro k
    have halike : ∀ a b : EventRow, decide (a.key = k) = true → decide (b.key = k) = true →
        rank low kind a = rank low kind b := by
      intro a b ha hb
      rw [decide_eq_true_eq] at ha hb
      have hkey := ha.trans hb.symm
      simp only [EventRow.key, OutcomeKey.mk.injEq] at hkey
      rw [rank, rank, hkey.2.1, hkey.2.2]
    have hkept : (read.filter fun e => e.key = k).filter (fun e => !known events e) =
        read.filter fun e => e.key = k := by
      rw [filter_eq_self]
      intro e he
      simp [hknown e (mem_filter.mp he).1]
    have hgone : (dropped.filter fun e => e.key = k).filter (fun e => !known events e) = [] := by
      rw [filter_eq_nil_iff]
      intro e he
      have hdropped := (mem_filter.mp (mem_filter.mp he).1).2
      simp [hdropped]
    rw [← List.head?_filter, ← List.head?_filter, news, filter_comm,
      filter_sortOn_alike halike, filter_append, filter_append, hkept, hgone,
      append_nil]
  · intro f hf e he hsuppresses
    obtain ⟨_, before, after, hsplit, hbefore⟩ := List.find?_eq_some_iff_append.mp hf
    have hmem : e ∈ news events arranged := (hperm.filter _).mem_iff.mpr he
    have hpairwise : (news events arranged).Pairwise fun a b => rank low kind a ≤ rank low kind b :=
      hsorted.filter _
    rw [hsplit] at hmem hpairwise
    have hle : rank low kind f ≤ rank low kind e := by
      rw [mem_append, mem_cons] at hmem
      obtain hmem | rfl | hmem := hmem
      · have hnot := hbefore e hmem
        rw [hsuppresses] at hnot
        cases hnot
      · exact Nat.le_refl _
      · rw [pairwise_append, pairwise_cons] at hpairwise
        exact hpairwise.2.1.1 e hmem
    exact rank_le (hlow e (mem_filter.mp he).1) hle

/-! ## Both orders -/

section Race

variable {s : Store} {p : ProviderMessageId}

variable {once : List EventRow}

/-- Some order of the early events has the suppression that was read at once. -/
theorem arranged_suppresses {events read read' : List EventRow}
    (perm : read.Perm (news events once)) (perm' : read'.Perm (news events once))
    (v : EnvelopeRow) (suppressed : OperatorAddress → Option SuppressionRow) :
    ∃ arranged : List EventRow, arranged.Perm once ∧
      arranged.Pairwise (fun a b => a.occurredAt ≤ b.occurredAt) ∧
      (∀ k, (news events arranged).find? (fun e => e.key = k) =
        read.find? fun e => e.key = k) ∧
      (earliest (read'.map fun e => (e, v))).entries.foldl suppress suppressed =
        match (news events arranged).find? suppresses with
        | none => suppressed
        | some e => suppressBy v suppressed e := by
  have hmem : ∀ arranged : List EventRow, arranged.Perm once → ∀ e,
      e ∈ news events arranged ↔ e ∈ read' := by
    intro arranged hperm e
    exact (hperm.filter _).mem_iff.trans perm'.mem_iff.symm
  obtain ⟨first, hfirst, hsuppresses, hleast, hrow⟩ | ⟨hquiet, hrow⟩ :=
    suppress_earliest v read' suppressed
  · obtain ⟨arranged, hperm, hsorted, hfind, hearliest⟩ := arranged_exists perm first.kind
    refine ⟨arranged, hperm, hsorted, hfind, ?_⟩
    have hin := (hmem arranged hperm first).mpr hfirst
    obtain ⟨f, hf⟩ : ∃ f, (news events arranged).find? suppresses = some f := by
      rw [← isSome_iff_exists, find?_isSome]
      exact ⟨first, hin, hsuppresses⟩
    have hfmem := (hmem arranged hperm f).mp (mem_of_find?_eq_some hf)
    obtain ⟨hle, hkind⟩ := hearliest f hf first (perm'.mem_iff.mp hfirst) hsuppresses
    have htime : first.occurredAt = f.occurredAt :=
      Int.le_antisymm (hleast f hfmem (find?_some hf)) hle
    rw [hrow, hf]
    simp only [suppressBy, suppress, hkind htime rfl, htime]
  · obtain ⟨arranged, hperm, hsorted, hfind, _⟩ := arranged_exists perm .delivered
    refine ⟨arranged, hperm, hsorted, hfind, ?_⟩
    have hnot : (news events arranged).find? suppresses = none := by
      rw [find?_eq_none]
      intro e he
      rw [hquiet e ((hmem arranged hperm e).mp he)]
      simp
    rw [hrow, hnot]

section Fresh

variable {v : EnvelopeRow} {base once : List EventRow}
  (link : (s.db.envelopes.rows.filter fun v => v.providerId = some p) = [v])
  (fresh : ∀ e ∈ base, e.providerId ≠ p) (about : ∀ e ∈ once, e.providerId = p)

include fresh

theorem eventsOf_fresh : eventsOf { s with events := base } p = [] := by
  rw [eventsOf, filter_eq_nil_iff]
  intro e he
  simpa using fresh e he

include about in
theorem eventsOf_news : eventsOf { s with events := base ++ news base once } p = news base once := by
  have hbase : base.filter (fun e => e.providerId = p) = [] := eventsOf_fresh (s := s) fresh
  rw [eventsOf, filter_append, hbase, nil_append, filter_eq_self]
  intro e he
  simpa using about e (mem_filter.mp he).1

include link

theorem reconciled_fresh : Reconciled { s with events := base } p v :=
  ⟨link, by simp [eventsOf_fresh fresh], by simp [eventsOf_fresh fresh]⟩

include about in
/-- Arrivals leave their rows, whatever the orders in which they were read. -/
theorem arrivals_fresh (distinct : (once.map EventRow.eventId).Nodup) {arrivals : List Arrival}
    (perm : (arrivals.map Prod.fst).Perm once) :
    arrivals.foldl arrive { s with events := base } =
      { s with
        events := base ++ news base (arrivals.map Prod.fst)
        outcomes := ((news base (arrivals.map Prod.fst)).map fun e => (e, v)).foldl insertOutcome
          s.outcomes
        suppressed := match (news base (arrivals.map Prod.fst)).find? suppresses with
          | none => s.suppressed
          | some e => suppressBy v s.suppressed e } ∧
      Reconciled (arrivals.foldl arrive { s with events := base }) p v := by
  have habout : ∀ a ∈ arrivals, a.1.providerId = p := fun a ha =>
    about a.1 (perm.mem_iff.mp (mem_map_of_mem ha))
  have hdistinct : (arrivals.map fun a => a.1.eventId).Nodup := by
    have hmap := (perm.map EventRow.eventId).nodup_iff.mpr distinct
    rw [List.map_map] at hmap
    exact hmap
  have hspec := arrivals_spec arrivals (reconciled_fresh link fresh) habout hdistinct
  rw [eventsOf_fresh fresh] at hspec
  simpa using hspec

include about in
/-- What the settlement reads at once is what the arranged events leave one by one. -/
theorem settled_alike (scans : Scans) (distinct : (once.map EventRow.eventId).Nodup) :
    ∃ arranged : List EventRow, arranged.Perm once ∧
      arranged.Pairwise (fun a b => a.occurredAt ≤ b.occurredAt) ∧
      ∀ arrivals : List Arrival, arrivals.map Prod.fst = arranged →
        Alike (reconcileEmailProvider { s with events := base ++ news base once } p scans)
          (arrivals.foldl arrive { s with events := base }) p v := by
  have hleft := reconcile_reconciled (s := { s with events := base ++ news base once }) scans link
  obtain ⟨es, es', hes, hes', heq⟩ :=
    reconcile_linked (s := { s with events := base ++ news base once }) scans link
  rw [eventsOf_news fresh about] at hes hes'
  obtain ⟨arranged, hperm, hsorted, hfind, hsuppressed⟩ :=
    arranged_suppresses hes hes' v s.suppressed
  refine ⟨arranged, hperm, hsorted, ?_⟩
  rintro arrivals rfl
  obtain ⟨hstate, hreconciled⟩ := arrivals_fresh link fresh about distinct hperm
  rw [hstate] at hreconciled ⊢
  refine ⟨?_, ⟨?_, ?_⟩, hleft, hreconciled⟩
  · rw [heq]
    exact (hperm.symm.filter _).append_left base
  · rw [heq]
    funext k
    simp only [insertOutcome_rows, hfind]
  · rw [heq]
    exact hsuppressed

end Fresh

variable {e : EventRow}

/-- The id of an event that was recorded is known. -/
theorem known_recorded {base : List EventRow} {x : EventRow} (hx : x ∈ once)
    (same : x.eventId = e.eventId) : known (base ++ news base once) e = true := by
  cases hknown : known base x with
  | true =>
    obtain ⟨y, hy, hysame⟩ := List.any_eq_true.mp hknown
    have hyx : y.eventId = x.eventId := by simpa using hysame
    exact known_of_mem (mem_append_left _ hy) (hyx.trans same)
  | false =>
    have hnews : x ∈ news base once := mem_filter.mpr ⟨hx, by simp [hknown]⟩
    exact known_of_mem (mem_append_right _ hnews) same

/-! ## Calls -/

def reads (readTime : JsString → Option Micros) (ds : List Delivery) : List Arrival :=
  ds.filterMap fun d => (eventRow readTime d.eventId d.event).map fun e => (e, d.scans)

theorem reads_fst (readTime : JsString → Option Micros) (ds : List Delivery) :
    (reads readTime ds).map Prod.fst = rowsOf readTime ds := by
  rw [reads, map_filterMap, rowsOf]
  congr 1
  funext d
  cases eventRow readTime d.eventId d.event <;> rfl

theorem foldl_receive (readTime : JsString → Option Micros) (ds : List Delivery) (s : Store) :
    ds.foldl (receive readTime) s = (reads readTime ds).foldl arrive s := by
  induction ds generalizing s with
  | nil => rfl
  | cons d ds ih =>
    rw [foldl_cons, ih, receive, recordEmailProviderEvent]
    cases hrow : eventRow readTime d.eventId d.event with
    | none => simp [reads, hrow]
    | some e => simp [reads, hrow, arrive]

variable {readTime : JsString → Option Micros}

theorem eventRow_about {eventId : JsString} {event : AuthenticEvent}
    (h : eventRow readTime eventId event = some e) :
    e.providerId = event.providerId := by
  rw [eventRow] at h
  split at h
  · cases h
  · obtain ⟨_, _, rfl⟩ := map_eq_some_iff.mp h
    rfl

theorem reads_about {ds : List Delivery} (about : ∀ d ∈ ds, d.event.providerId = p) :
    ∀ a ∈ reads readTime ds, a.1.providerId = p := by
  intro a ha
  obtain ⟨d, hd, hrow⟩ := mem_filterMap.mp ha
  obtain ⟨e, he, rfl⟩ := map_eq_some_iff.mp hrow
  exact (eventRow_about he).trans (about d hd)

/-- Whether the settlement commits does not depend on the events. -/
theorem settle_any (a : Acceptance) (s : Store)
    (free : (s.db.envelopes.rows.filter fun v => v.providerId = some a.providerId) = []) :
    ∃ db, ∀ events scans, a.settle { s with events := events } scans =
      reconcileEmailProvider { s with db := db, events := events } a.providerId scans := by
  cases hsettle :
      EmailReleaseStore.settle s.db a.claim (.accepted a.providerId) a.now a.clock with
  | none =>
    refine ⟨s.db, ?_⟩
    intro events scans
    rw [reconcile_unlinked (s := { s with events := events }) scans free]
    simp [Acceptance.settle, settleAccepted, hsettle]
  | some db =>
    refine ⟨db, ?_⟩
    intro events scans
    simp [Acceptance.settle, settleAccepted, hsettle]

/-- However the calls for a provider id and its settlement interleave, the rows are those of
the settlement followed by every event once: the early ones as they occurred, then the late
ones as they came. -/
theorem settled_in_any_order (readTime : JsString → Option Micros) (a : Acceptance)
    (early late : List Delivery) (scans : Scans) (untouched : Untouched s a.providerId)
    (about : ∀ d ∈ early ++ late, d.event.providerId = a.providerId) :
    ∃ arranged : List EventRow, arranged.Perm (onceEach [] (rowsOf readTime early)) ∧
      arranged.Pairwise (fun a b => a.occurredAt ≤ b.occurredAt) ∧
      ∀ (scans' : Scans) (arrivals : List Arrival),
        arrivals.map Prod.fst =
          arranged ++ onceEach (arranged.map EventRow.eventId) (rowsOf readTime late) →
        SameRows (interleaved readTime a early scans late s) (settledFirst a scans' arrivals s) := by
  have hearlyAbout : ∀ a' ∈ reads readTime early, a'.1.providerId = a.providerId :=
    reads_about fun d hd => about d (mem_append_left _ hd)
  have hlateAbout : ∀ a' ∈ reads readTime late, a'.1.providerId = a.providerId :=
    reads_about fun d hd => about d (mem_append_right _ hd)
  have hrowsAbout : ∀ ds, (∀ a' ∈ reads readTime ds, a'.1.providerId = a.providerId) →
      ∀ e ∈ rowsOf readTime ds, e.providerId = a.providerId := by
    intro ds hds e he
    rw [← reads_fst] at he
    obtain ⟨a', ha', rfl⟩ := List.mem_map.mp he
    exact hds a' ha'
  generalize honce : onceEach [] (rowsOf readTime early) = once
  have honceAbout : ∀ e ∈ once, e.providerId = a.providerId := by
    intro e he
    rw [← honce] at he
    exact hrowsAbout early hearlyAbout e (onceEach_subset he)
  have hfree : (s.db.envelopes.rows.filter fun v => v.providerId = some a.providerId) = [] := by
    rw [filter_eq_nil_iff]
    intro v hv
    simpa using untouched.envelopes v hv
  have hearly : early.foldl (receive readTime) s =
      { s with events := s.events ++ news s.events once } := by
    rw [foldl_receive, arrivals_unlinked _ hfree hearlyAbout, reads_fst,
      insertEvents [] _ (by simp), honce]
  obtain ⟨db, hsettle⟩ := settle_any a s hfree
  simp only [interleaved, settledFirst, hearly, hsettle, foldl_receive]
  obtain hlink | ⟨v, hlink⟩ := link_cases db a.providerId
  · obtain ⟨arranged, hperm, hsorted, _⟩ :=
      arranged_exists (List.Perm.refl (news s.events once)) .delivered
    refine ⟨arranged, hperm, hsorted, ?_⟩
    intro scans' arrivals harrivals
    have habout : ∀ a' ∈ arrivals, a'.1.providerId = a.providerId := by
      intro a' ha'
      have hmem : a'.1 ∈ arrivals.map Prod.fst := mem_map_of_mem ha'
      rw [harrivals, mem_append] at hmem
      obtain hmem | hmem := hmem
      · exact honceAbout _ (hperm.mem_iff.mp hmem)
      · exact hrowsAbout late hlateAbout _ (onceEach_subset hmem)
    rw [reconcile_unlinked scans hlink, reconcile_unlinked scans' hlink,
      arrivals_unlinked _ hlink hlateAbout, arrivals_unlinked _ hlink habout]
    exact ⟨rfl, rfl⟩
  · have hdistinct : (once.map EventRow.eventId).Nodup := by
      rw [← honce]
      exact onceEach_nodup [] _
    obtain ⟨arranged, hperm, hsorted, halike⟩ :=
      settled_alike (s := { s with db := db }) hlink untouched.events honceAbout scans hdistinct
    refine ⟨arranged, hperm, hsorted, ?_⟩
    intro scans' arrivals harrivals
    obtain ⟨first, rest, rfl, hfirstRows, hrestRows⟩ := List.map_eq_append_iff.mp harrivals
    have hidle : reconcileEmailProvider { s with db := db } a.providerId scans' =
        { s with db := db } :=
      Reconciled.idle (reconciled_fresh (s := { s with db := db }) hlink untouched.events) _
    rw [hidle, foldl_append]
    rw [← reads_fst] at hrestRows
    refine late_alike (reads readTime late) rest hrestRows ?_ hlateAbout (halike first hfirstRows)
    intro e he
    obtain ⟨x, hx, hsame⟩ := List.mem_map.mp he
    change known (s.events ++ news s.events once) e = true
    exact known_recorded (hperm.mem_iff.mp hx) hsame

end Race

/-! ## A complaint that overtakes a bounce -/

def claimedJob : JobRow where
  messageId := js "m"
  idempotencyKey := js "hv-email-v1-m"
  state := .claimed
  attemptsMade := 1
  maxAttempts := 3
  notBeforeAt := 0
  claimedBy := some (js "w")
  claimedAt := some 1788220800000000
  claimExpiresAt := some 1788220830000000
  providerId := none
  createdAt := 0
  cancelledAt := none
  cancelledBy := none
  cancelledBecause := none
  withdrawnAt := none
  withdrawnBecause := none

def frozenEnvelope : EnvelopeRow where
  messageId := js "m"
  activationId := js "epoch"
  organizationId := js "org"
  ownerUserId := js "owner"
  recipientHash := js "hash"
  startsAt := 0
  expiresAt := 3600000000
  fromAddress := js "alerts@hawkview.example"
  appOrigin := js "https://app.hawkview.example"
  recipientAddress := some (js "ops@msp.example")
  verifiedAt := some 0
  payload := some (js "body")
  idempotencyKey := js "hv-email-v1-m"
  providerId := none
  createdAt := 0
  releaseMode := .regular
  regularEpochId := some (js "epoch")

def sendingStore : Store where
  db :=
    { jobs := ⟨[claimedJob], by decide, by decide⟩
      attempts := ⟨[⟨js "m", 1, 1788220800000000, none, none, none, none⟩], by decide, by decide⟩
      envelopes := ⟨[frozenEnvelope], by decide, by decide⟩ }
  events := []
  outcomes _ := none
  suppressed _ := none

def acceptance : Acceptance where
  claim :=
    { job := ⟨js "m", js "hv-email-v1-m", .ready, 0, 3, 0, none, none⟩
      worker := js "w"
      config := ⟨.regular, js "epoch", js "org", js "owner", js "hash", 0, 3600000,
        js "alerts@hawkview.example", js "https://app.hawkview.example"⟩ }
  providerId := js "p"
  now := 1788220802000
  clock := 1788220802000000

/-- The cast of the two times below. -/
def readSample (text : JsString) : Option Micros :=
  if text = js "2026-09-01T00:00:05Z" then some 1788220805000000
  else if text = js "2026-09-01T00:00:10Z" then some 1788220810000000
  else none

def asStored : Scans := ⟨⟨id, fun _ => .refl _⟩, ⟨id, fun _ => .refl _⟩⟩

def bounce : Delivery where
  eventId := js "evt_1"
  event := ⟨js "p", .bounced, js "2026-09-01T00:00:05Z", some .hard⟩
  scans := asStored

def complaint : Delivery where
  eventId := js "evt_2"
  event := ⟨js "p", .complained, js "2026-09-01T00:00:10Z", none⟩
  scans := asStored

theorem settled_after_complaint :
    Untouched sendingStore acceptance.providerId ∧
    ∃ arranged : List EventRow,
      arranged.Perm (onceEach [] (rowsOf readSample [complaint, bounce, complaint])) ∧
      arranged.Pairwise (fun a b => a.occurredAt ≤ b.occurredAt) ∧
      ∀ (scans' : Scans) (arrivals : List Arrival),
        arrivals.map Prod.fst =
          arranged ++ onceEach (arranged.map EventRow.eventId) (rowsOf readSample [bounce]) →
        SameRows
          (interleaved readSample acceptance [complaint, bounce, complaint] asStored [bounce]
            sendingStore)
          (settledFirst acceptance scans' arrivals sendingStore) :=
  have untouched : Untouched sendingStore acceptance.providerId := ⟨by decide, by decide⟩
  ⟨untouched, settled_in_any_order readSample acceptance _ _ asStored untouched (by decide)⟩

def suppressionAfter (early late : List Delivery) : Option SuppressionRow :=
  (interleaved readSample acceptance early asStored late sendingStore).suppressed
    (js "ops@msp.example")

/-- Before the settlement the two leave the row of the bounce, after it that of the one that
came first. -/
theorem arrival_order_tells :
    suppressionAfter [complaint, bounce] [] ≠ suppressionAfter [] [complaint, bounce] ∧
      suppressionAfter [] [complaint, bounce] ≠ suppressionAfter [] [bounce, complaint] := by
  decide +kernel

end SettlementRace
