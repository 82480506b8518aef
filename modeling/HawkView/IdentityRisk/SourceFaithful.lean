import HawkView.IdentityRisk.SourceReading
import Mathlib.Algebra.Order.BigOperators.Group.List
import Mathlib.Data.List.Dedup

/-!
# Canonical sources are a set

What becomes of a batch depends on the set of what its envelopes say, where each
of them says something, and the content hash tells such sets apart.
-/

namespace IdentitySource

open List Option

open Json JsString IdentitySignal
open ChangeEvidence (Date)

section

variable {p : Platform} {request : IdentityRiskEvaluationRequest} {now : Date}
  {watermarks : List JsString} {r r' : Reading}

/-! ## The loop over the envelopes -/

theorem identity_normal (r : Reading) : r.normal.identity = r.identity := by
  cases r <;> rfl

theorem identity_of_normal (h : r.normal = r'.normal) : r.identity = r'.identity := by
  rw [← identity_normal, h, identity_normal]

/-- Two readings of one identity that differ in anything else. -/
def Conflict (rs : List Reading) : Prop :=
  ∃ r ∈ rs, ∃ r' ∈ rs, r.identity = r'.identity ∧ r.normal ≠ r'.normal

variable (p request) in
/-- What the loop has made of readings, some of which are kept. -/
structure Made (l kept : List Reading) (made : Canonicalizing) : Prop where
  nodes : made.budget.nodes = (l.map fun r => (cost r.payload 0).nodes).sum
  bytes : made.budget.bytes = (l.map fun r => (cost r.payload 0).bytes).sum
  counts : ∀ s, (made.sourceCounts.get? s).getD 0 = (l.map Reading.source).count s
  names : ∀ s, s ∈ made.sourceCounts.entries.map Prod.fst ↔ s ∈ l.map Reading.source
  entries : made.records.entries =
    kept.map fun r => (r.identityHash p request, r.record p request)
  sub : ∀ r ∈ kept, r ∈ l
  covers : ∀ r ∈ l, ∃ k ∈ kept, k.normal = r.normal

variable {l kept : List Reading} {made made' : Canonicalizing}

theorem Made.init : Made p request [] [] ⟨.full, .empty, .empty⟩ where
  nodes := rfl
  bytes := rfl
  counts _ := rfl
  names _ := Iff.rfl
  entries := rfl
  sub := forall_mem_nil _
  covers := forall_mem_nil _

theorem Made.distinct (h : Made p request l kept made) :
    (kept.map fun r => r.identityHash p request).Nodup := by
  have hunique := made.records.unique
  rw [h.entries, List.map_map] at hunique
  exact hunique

variable {k : Reading}

/-- One of the kept readings is that of an identity. -/
theorem Made.kept_eq (h : Made p request l kept made) {k' : Reading} (hk : k ∈ kept)
    (hk' : k' ∈ kept) (same : k.identity = k'.identity) : k = k' := by
  apply inj_on_of_nodup_map h.distinct hk hk'
  rw [Reading.identityHash, same, Reading.identityHash]

theorem Made.no_conflict (h : Made p request l kept made) : ¬Conflict l := by
  rintro ⟨r, hr, r', hr', same, differ⟩
  obtain ⟨k, hk, hkr⟩ := h.covers r hr
  obtain ⟨k', hk', hkr'⟩ := h.covers r' hr'
  have hkept := h.kept_eq hk hk'
    ((identity_of_normal hkr).trans (same.trans (identity_of_normal hkr').symm))
  exact differ (hkr.symm.trans (hkept ▸ hkr'))

variable {counts : JsMap JsString Nat}

theorem getD_count (sources : List JsString) (source : JsString)
    (h : ∀ s, (counts.get? s).getD 0 = sources.count s) (s : JsString) :
    ((counts.set source ((counts.get? source).getD 0 + 1)).get? s).getD 0 =
      (sources ++ [source]).count s := by
  rw [JsMap.get?_set, count_append]
  by_cases hs : source = s
  · subst hs
    simp [h]
  · simp [hs, h]

theorem mem_names (sources : List JsString) (source : JsString) (n : Nat)
    (h : ∀ s, s ∈ counts.entries.map Prod.fst ↔ s ∈ sources) (s : JsString) :
    s ∈ (counts.set source n).entries.map Prod.fst ↔ s ∈ sources ++ [source] := by
  rw [JsMap.set, JsMap.keys_put]
  split
  · rename_i hmem
    rw [h s, mem_append, mem_singleton]
    constructor
    · exact .inl
    · rintro (hs | rfl)
      · exact hs
      · exact (h s).mp hmem
  · rw [mem_append, mem_append, h s]

variable {budget : CanonicalBudget}

/-- What a budget is after a cost. -/
theorem spend_some {c : Cost} {budget' : CanonicalBudget} (h : spend c budget = some budget') :
    budget'.nodes = budget.nodes + c.nodes ∧ budget'.bytes = budget.bytes + c.bytes := by
  unfold spend at h
  split at h
  · cases h
    exact ⟨rfl, rfl⟩
  · cases h

theorem count_names {sources : List JsString}
    (h : ∀ s, s ∈ counts.entries.map Prod.fst ↔ s ∈ sources) :
    counts.entries.length = sources.dedup.length := by
  have hperm : (counts.entries.map Prod.fst).Perm sources.dedup := by
    rw [perm_ext_iff_of_nodup counts.unique (nodup_dedup sources)]
    intro s
    rw [h s, mem_dedup]
  rw [← hperm.length_eq, length_map]

/-- The record under an identity is that of the kept reading. -/
theorem Made.get? (h : Made p request l kept made) {identity : JsString}
    {existing : CanonicalSourceRecord} (hget : made.records.get? identity = some existing) :
    ∃ k ∈ kept, k.identityHash p request = identity ∧ existing = k.record p request := by
  have hmem := JsMap.get?_eq_some.mp hget
  rw [h.entries] at hmem
  obtain ⟨k, hk, hentry⟩ := List.mem_map.mp hmem
  obtain ⟨hidentity, hrecord⟩ := Prod.mk.inj hentry
  exact ⟨k, hk, hidentity, hrecord.symm⟩

variable {kept' : List Reading}

/-- What is made of one more reading, apart from the records. -/
theorem Made.counted (h : Made p request l kept made)
    (spent : spend (cost r.payload 0) made.budget = some budget)
    {records : JsMap JsString CanonicalSourceRecord}
    (entries : records.entries = kept'.map fun r => (r.identityHash p request, r.record p request))
    (sub : ∀ k ∈ kept', k ∈ l ++ [r]) (covers : ∀ q ∈ l ++ [r], ∃ k ∈ kept', k.normal = q.normal) :
    Made p request (l ++ [r]) kept' ⟨budget, records, made.sourceCounts.set r.source
      ((made.sourceCounts.get? r.source).getD 0 + 1)⟩ := by
  obtain ⟨hnodes, hbytes⟩ := spend_some spent
  constructor
  · simp [hnodes, h.nodes]
  · simp [hbytes, h.bytes]
  · intro s
    rw [map_append]
    exact getD_count (l.map Reading.source) r.source h.counts s
  · intro s
    rw [map_append]
    exact mem_names (l.map Reading.source) r.source _ h.names s
  · exact entries
  · exact sub
  · exact covers

variable (free : Function.Injective p.sha256)

include free in
/-- A record that is kept or repeats one. -/
theorem keep_ok (sound : ∀ r ∈ l, r.Sound) (hr : r.Sound)
    (h : Made p request l kept made) (spent : spend (cost r.payload 0) made.budget = some budget)
    (hkeep : keepRecord (r.record p request) budget made = .ok made') :
    ∃ kept', Made p request (l ++ [r]) kept' made' := by
  simp only [keepRecord] at hkeep
  split at hkeep
  · cases hkeep
  · split at hkeep
    · rename_i existing hget
      obtain ⟨k, hk, hidentity, rfl⟩ := h.get? hget
      split at hkeep
      · cases hkeep
      · rename_i hsignature
        cases hkeep
        have hksound := sound k (h.sub k hk)
        have hsame := (identityHash_iff free hksound hr).mp hidentity
        have hnormal := (signature_iff free hksound hr hsame).mp (not_not.mp hsignature)
        refine ⟨kept, h.counted spent h.entries
          (fun q hq => mem_append_left _ (h.sub q hq)) fun q hq => ?_⟩
        rcases mem_append.mp hq with hq | hq
        · exact h.covers q hq
        · exact ⟨k, hk, by rw [hnormal, mem_singleton.mp hq]⟩
    · rename_i hget
      cases hkeep
      have hfresh : r.identityHash p request ∉ made.records.entries.map Prod.fst := by
        intro hmem
        obtain ⟨⟨_, record⟩, hentry, rfl⟩ := List.mem_map.mp hmem
        cases hget.symm.trans (JsMap.get?_eq_some.mpr hentry)
      refine ⟨kept ++ [r], h.counted spent ?_ (fun q hq => ?_) fun q hq => ?_⟩
      · rw [JsMap.set, map_append, ← h.entries]
        exact JsMap.put_fresh hfresh _
      · exact mem_append.mpr ((mem_append.mp hq).imp_left (h.sub q))
      · rcases mem_append.mp hq with hq | hq
        · obtain ⟨k, hk, hkq⟩ := h.covers q hq
          exact ⟨k, mem_append_left _ hk, hkq⟩
        · exact ⟨q, mem_append_right _ hq, rfl⟩

variable {status : CanonicalizedSources}

include free in
/-- A record that ends the loop. -/
theorem keep_error (sound : ∀ r ∈ l, r.Sound) (hr : r.Sound)
    (h : Made p request l kept made)
    (hkeep : keepRecord (r.record p request) budget made = .error status) :
    status = .rejected ∧ (MAX_SOURCE_TYPES < ((l ++ [r]).map Reading.source).dedup.length ∨
        MAX_SOURCE_RECORDS_PER_TYPE < ((l ++ [r]).map Reading.source).count r.source) ∨
      status = .integrityConflict ∧ Conflict (l ++ [r]) := by
  simp only [keepRecord] at hkeep
  split at hkeep
  · rename_i hlimit
    cases hkeep
    have hnames := mem_names (l.map Reading.source) r.source
      ((made.sourceCounts.get? r.source).getD 0 + 1) h.names
    refine .inl ⟨rfl, hlimit.imp (fun htypes => ?_) fun hcount => ?_⟩
    · rw [map_append, map_singleton, ← count_names hnames]
      exact htypes
    · have hcounts := h.counts r.source
      rw [map_append, count_append, ← hcounts, map_singleton,
        count_singleton_self]
      exact hcount
  · split at hkeep
    · rename_i existing hget
      obtain ⟨k, hk, hidentity, rfl⟩ := h.get? hget
      split at hkeep
      · rename_i hsignature
        cases hkeep
        have hksound := sound k (h.sub k hk)
        have hsame := (identityHash_iff free hksound hr).mp hidentity
        refine .inr ⟨rfl, k, mem_append_left _ (h.sub k hk), r, by simp, hsame, fun hnormal => ?_⟩
        exact hsignature ((signature_iff free hksound hr hsame).mpr hnormal)
      · cases hkeep
    · cases hkeep

variable (p request) in
/-- The bytes of an identity and its signature. -/
def pairBytes (pair : JsString × JsString) : Nat := byteLength pair.1 + byteLength pair.2

def Reading.pair (p : Platform) (request : IdentityRiskEvaluationRequest) (r : Reading) :
    JsString × JsString := (r.identityHash p request, r.signature p)

variable (p request) in
/-- Readings that the limits allow, repetitions and all. -/
structure Within (rs : List Reading) : Prop where
  sources : (rs.map Reading.source).dedup.length ≤ MAX_SOURCE_TYPES
  perSource : ∀ s, (rs.map Reading.source).count s ≤ MAX_SOURCE_RECORDS_PER_TYPE
  nodes : (rs.map fun r => (cost r.payload 0).nodes).sum ≤ MAX_CANONICAL_SOURCE_NODES
  bytes : (rs.map fun r => (cost r.payload 0).bytes).sum +
    ((rs.map (Reading.pair p request)).dedup.map pairBytes).sum ≤ MAX_CANONICAL_SOURCE_BYTES

theorem canonicalizeNext_eq (made : Canonicalizing) (envelope : SourceEnvelope) :
    canonicalizeNext p request now watermarks made envelope =
      match readEnvelope p now watermarks envelope with
      | none => .error .rejected
      | some r =>
        match spend (cost r.payload 0) made.budget with
        | none => .error .rejected
        | some budget => keepRecord (r.record p request) budget made := by
  rw [canonicalizeNext, canonicalSourceRecord_eq]
  cases readEnvelope p now watermarks envelope with
  | none => rfl
  | some r =>
    rw [bind_some]
    cases hspend : spend (cost r.payload 0) made.budget <;> simp only [hspend] <;> rfl

variable {envelopes : List SourceEnvelope}

include free in
/-- A loop that comes to its end has read every envelope. -/
theorem loop_ok (sound : ∀ r ∈ l, r.Sound)
    (h : Made p request l kept made)
    (hloop : envelopes.foldlM (canonicalizeNext p request now watermarks) made = .ok made') :
    ∃ rs kept', envelopes.map (readEnvelope p now watermarks) = rs.map some ∧
      Made p request (l ++ rs) kept' made' := by
  induction envelopes generalizing l kept made with
  | nil =>
    cases hloop
    exact ⟨[], kept, rfl, by rwa [append_nil]⟩
  | cons envelope envelopes ih =>
    rw [foldlM_cons, canonicalizeNext_eq] at hloop
    cases hread : readEnvelope p now watermarks envelope with
    | none =>
      rw [hread] at hloop
      cases hloop
    | some r =>
      have hr := readEnvelope_sound hread
      rw [hread] at hloop
      cases hspend : spend (cost r.payload 0) made.budget with
      | none =>
        simp only [hspend] at hloop
        cases hloop
      | some budget =>
        simp only [hspend] at hloop
        cases hkeep : keepRecord (r.record p request) budget made with
        | error status =>
          rw [hkeep] at hloop
          cases hloop
        | ok next =>
          rw [hkeep] at hloop
          obtain ⟨kept', hmade⟩ := keep_ok free sound hr h hspend hkeep
          have hsound : ∀ q ∈ l ++ [r], q.Sound := by
            exact forall_mem_append.mpr ⟨sound, forall_mem_singleton.mpr hr⟩
          obtain ⟨rs, kept'', hall, hend⟩ := ih hsound hmade hloop
          refine ⟨r :: rs, kept'', by rw [map_cons, hread, hall, map_cons], ?_⟩
          rwa [append_assoc] at hend

variable {l' : List Reading}

theorem Conflict.mono {l : List Reading} (h : Conflict l) (sub : ∀ r ∈ l, r ∈ l') :
    Conflict l' := by
  obtain ⟨r, hr, r', hr', hrest⟩ := h
  exact ⟨r, sub r hr, r', sub r' hr', hrest⟩

theorem Within.spend {rest : List Reading} (h : Within p request (l ++ r :: rest))
    (hmade : Made p request l kept made) :
    ∃ budget, spend (cost r.payload 0) made.budget = some budget := by
  have hnodes := h.nodes
  have hbytes := h.bytes
  rw [map_append, sum_append, map_cons, sum_cons] at hnodes hbytes
  have hfits : made.budget.nodes + (cost r.payload 0).nodes ≤ MAX_CANONICAL_SOURCE_NODES ∧
      made.budget.bytes + (cost r.payload 0).bytes ≤ MAX_CANONICAL_SOURCE_BYTES := by
    rw [hmade.nodes, hmade.bytes]
    omega
  exact ⟨_, dif_pos hfits⟩

variable {rs : List Reading}

include free in
/-- Within the limits, the loop ends early for a conflict only. -/
theorem loop_within
    (hread : envelopes.map (readEnvelope p now watermarks) = rs.map some)
    (sound : ∀ r ∈ l, r.Sound) (h : Made p request l kept made)
    (within : Within p request (l ++ rs)) :
    (∃ made', envelopes.foldlM (canonicalizeNext p request now watermarks) made = .ok made') ∨
      envelopes.foldlM (canonicalizeNext p request now watermarks) made =
        .error .integrityConflict ∧ Conflict (l ++ rs) := by
  induction envelopes generalizing l kept made rs with
  | nil => exact .inl ⟨made, rfl⟩
  | cons envelope envelopes ih =>
    cases rs with
    | nil => cases hread
    | cons r rs =>
      obtain ⟨hfirst, hrest⟩ := List.cons.inj hread
      have hr := readEnvelope_sound hfirst
      obtain ⟨budget, hspend⟩ := within.spend h
      have hnext : canonicalizeNext p request now watermarks made envelope =
          keepRecord (r.record p request) budget made := by
        rw [canonicalizeNext_eq, hfirst]
        simp only [hspend]
      have hsplit : l ++ r :: rs = (l ++ [r]) ++ rs := by simp
      rw [foldlM_cons, hnext]
      cases hkeep : keepRecord (r.record p request) budget made with
      | error status =>
        rcases keep_error free sound hr h hkeep with ⟨_, hlimit⟩ | ⟨rfl, hconflict⟩
        · exfalso
          rw [hsplit] at within
          rcases hlimit with htypes | hcount
          · have hle : ((l ++ [r]).map Reading.source).dedup.length ≤
                ((l ++ [r] ++ rs).map Reading.source).dedup.length := by
              apply List.Subperm.length_le
              apply (nodup_dedup _).subperm
              intro s hs
              rw [mem_dedup] at hs ⊢
              exact map_subset Reading.source (fun q hq => mem_append_left _ hq) hs
            have := within.sources
            omega
          · have hall := within.perSource r.source
            rw [map_append, count_append] at hall
            omega
        · exact .inr ⟨rfl, hconflict.mono fun q hq => hsplit ▸ mem_append_left _ hq⟩
      | ok next =>
        obtain ⟨kept', hmade⟩ := keep_ok free sound hr h hspend hkeep
        have hsound : ∀ q ∈ l ++ [r], q.Sound := by
          exact forall_mem_append.mpr ⟨sound, forall_mem_singleton.mpr hr⟩
        rw [hsplit] at within ⊢
        exact ih hrest hsound hmade within

/-! ## What is published -/

variable (p request) in
/-- The order of the records, on readings. -/
def Before (r r' : Reading) : Prop := Earlier p (r.record p request) (r'.record p request)

instance : DecidableRel (Before p request) := fun r r' =>
  inferInstanceAs (Decidable (Earlier p (r.record p request) (r'.record p request)))

instance : Std.Total (Before p request) where
  total r r' := by
    simp only [Before, Earlier]
    have hlocale := p.localeCompare.total (r.record p request).identity
      (r'.record p request).identity
    rcases lt_trichotomy (r.record p request).sortTime.val (r'.record p request).sortTime.val with
      hlt | heq | hgt
    · exact .inl (.inl hlt)
    · rcases hlocale with hle | hle
      · exact .inl (.inr ⟨heq, hle⟩)
      · exact .inr (.inr ⟨heq.symm, hle⟩)
    · exact .inr (.inl hgt)

instance : IsTrans Reading (Before p request) where
  trans a b c := by
    simp only [Before, Earlier]
    rintro (hab | ⟨hab, hle⟩) (hbc | ⟨hbc, hle'⟩)
    · exact .inl (hab.trans hbc)
    · exact .inl (hbc ▸ hab)
    · exact .inl (hab ▸ hbc)
    · exact .inr ⟨hab.trans hbc, p.localeCompare.trans hle hle'⟩

variable (p request) in
def ordered (kept : List Reading) : List Reading := kept.insertionSort (Before p request)

variable (p request) in
/-- What the content hash is of. -/
def contentTokens (kept : List Reading) : List JsString :=
  (ordered p request kept).flatMap fun r => [(r.pair p request).1, (r.pair p request).2]

variable (p request) in
def publishedSources (kept : List Reading) : List (JsString × List Json) :=
  (StableOrder.grouped Reading.source (ordered p request kept)).map fun g =>
    (g.1, g.2.map Reading.payload)

theorem hashRecords_pay (records : List CanonicalSourceRecord) (h : Hashing) :
    records.foldlM (fun h record =>
      (canonicalToken record.identity h).bind (canonicalToken record.signature)) h =
    pay ⟨0, 0, records.flatMap fun record => [record.identity, record.signature]⟩ h := by
  induction records generalizing h with
  | nil => exact (pay_free h).symm
  | cons record records ih =>
    have hsplit : Cost.mk 0 0 ((record :: records).flatMap fun record =>
        [record.identity, record.signature]) =
        ((Cost.token record.identity).and (Cost.token record.signature)).and
          ⟨0, 0, records.flatMap fun record => [record.identity, record.signature]⟩ := by
      simp [Cost.and, Cost.token]
    have htoken (value : JsString) : canonicalToken value = pay (.token value) :=
      funext fun h => canonicalToken_pay value h
    rw [foldlM_cons, hsplit, pay_and, pay_and, htoken, htoken, ← funext ih]
    rfl

theorem publish_eq (h : Made p request l kept made) :
    publishRecords p made =
      match pay ⟨0, 0, contentTokens p request kept⟩ ([], made.budget) with
      | none => .rejected
      | some (input, _) => .ok (publishedSources p request kept) (p.sha256 input) := by
  have hvalues : made.records.values = kept.map (Reading.record p request) := by
    rw [JsMap.values, h.entries, List.map_map]
    rfl
  have hordered : made.records.values.insertionSort (Earlier p) =
      (ordered p request kept).map (Reading.record p request) := by
    rw [hvalues, ordered, map_insertionSort (Before p request) (Earlier p)]
    intro a _ b _
    rfl
  have htokens : ((ordered p request kept).map (Reading.record p request)).flatMap
      (fun record => [record.identity, record.signature]) = contentTokens p request kept := by
    rw [flatMap_map]
    rfl
  have hsources : (StableOrder.grouped (fun record => record.source)
      ((ordered p request kept).map (Reading.record p request))).map (fun g =>
        (g.1, g.2.map fun record => record.payload)) = publishedSources p request kept := by
    rw [StableOrder.grouped_map, List.map_map, publishedSources]
    simp only [Function.comp_def, List.map_map]
    rfl
  rw [publishRecords, hashRecords, hordered, hashRecords_pay, htokens]
  cases pay ⟨0, 0, contentTokens p request kept⟩ ([], made.budget) with
  | none => rfl
  | some out => exact congrArg (CanonicalizedSources.ok · _) hsources

theorem next_error {made : Canonicalizing} {envelope : SourceEnvelope}
    (h : canonicalizeNext p request now watermarks made envelope = .error status) :
    status = .rejected ∨ status = .integrityConflict := by
  rw [canonicalizeNext] at h
  split at h
  · cases h
    exact .inl rfl
  · simp only [keepRecord] at h
    split at h
    · cases h
      exact .inl rfl
    · split at h
      · split at h
        · cases h
          exact .inr rfl
        · cases h
      · cases h

theorem loop_error {made : Canonicalizing}
    (h : envelopes.foldlM (canonicalizeNext p request now watermarks) made = .error status) :
    status = .rejected ∨ status = .integrityConflict := by
  induction envelopes generalizing made with
  | nil => cases h
  | cons envelope envelopes ih =>
    rw [foldlM_cons] at h
    cases hnext : canonicalizeNext p request now watermarks made envelope with
    | error status' =>
      rw [hnext] at h
      cases h
      exact next_error hnext
    | ok next =>
      rw [hnext] at h
      exact ih h

theorem publish_spend (h : Made p request l kept made) :
    publishRecords p made =
      if (spend ⟨0, 0, contentTokens p request kept⟩ made.budget).isSome then
        .ok (publishedSources p request kept) (p.sha256 (written (contentTokens p request kept)))
      else .rejected := by
  have hdepth : ¬16 < (Cost.mk 0 0 (contentTokens p request kept)).depth := by
    show ¬16 < 0
    omega
  rw [publish_eq h, pay_spend, if_neg hdepth]
  cases spend ⟨0, 0, contentTokens p request kept⟩ made.budget <;> rfl

include free in
/-- What is accepted has been read, and is published from the readings that are kept. -/
theorem canonicalize_ok
    {sources : List (JsString × List Json)} {hash : JsString}
    (h : canonicalizeSourceEnvelopes p request now watermarks envelopes = .ok sources hash) :
    ∃ rs kept made, envelopes.map (readEnvelope p now watermarks) = rs.map some ∧
      Made p request rs kept made ∧ sources = publishedSources p request kept ∧
      hash = p.sha256 (written (contentTokens p request kept)) := by
  rw [canonicalizeSourceEnvelopes] at h
  split at h
  · cases h
  · cases hloop : envelopes.foldlM (canonicalizeNext p request now watermarks)
        ⟨.full, .empty, .empty⟩ with
    | error status =>
      rw [hloop] at h
      cases h
      rcases loop_error hloop with hstatus | hstatus <;> cases hstatus
    | ok made =>
      obtain ⟨rs, kept, hread, hmade⟩ := loop_ok free (forall_mem_nil _) Made.init hloop
      simp only [hloop, publish_spend hmade] at h
      split at h
      · cases h
        exact ⟨rs, kept, made, hread, hmade, rfl, rfl⟩
      · cases h

theorem Made.sound (h : Made p request l kept made) (sound : ∀ r ∈ l, r.Sound) :
    ∀ r ∈ kept, r.Sound := fun r hr => sound r (h.sub r hr)

/-- What is kept fits where the readings do. -/
theorem Made.fits (h : Made p request l kept made) (within : Within p request l) :
    (spend ⟨0, 0, contentTokens p request kept⟩ made.budget).isSome = true := by
  have hsub : ((ordered p request kept).map (Reading.pair p request)).Subperm
      ((l.map (Reading.pair p request)).dedup) := by
    apply List.Nodup.subperm
    · have hperm := (perm_insertionSort (Before p request) kept).map (Reading.pair p request)
      rw [ordered, hperm.nodup_iff]
      apply List.Nodup.of_map Prod.fst
      rw [List.map_map]
      exact h.distinct
    · intro pair hpair
      obtain ⟨r, hr, rfl⟩ := List.mem_map.mp hpair
      rw [mem_dedup]
      have hkept := (perm_insertionSort (Before p request) kept).mem_iff.mp hr
      exact mem_map_of_mem (h.sub r hkept)
  obtain ⟨pairs, hperm, hsublist⟩ := hsub
  have hsum := (hsublist.map pairBytes).sum_le_sum fun _ _ => Nat.zero_le _
  have hbytes : (Cost.mk 0 0 (contentTokens p request kept)).bytes =
      (pairs.map pairBytes).sum := by
    have hpairs := (hperm.map pairBytes).sum_eq
    rw [hpairs, List.map_map]
    simp only [Cost.bytes, contentTokens]
    induction ordered p request kept with
    | nil => rfl
    | cons r rest ih => simp [ih, pairBytes, Nat.add_assoc]
  have hwithin := within.bytes
  have hnodes := made.budget.nodes_le
  have hfits : made.budget.nodes + (Cost.mk 0 0 (contentTokens p request kept)).nodes ≤
      MAX_CANONICAL_SOURCE_NODES ∧
      made.budget.bytes + (Cost.mk 0 0 (contentTokens p request kept)).bytes ≤
        MAX_CANONICAL_SOURCE_BYTES := by
    refine ⟨hnodes, ?_⟩
    rw [hbytes, h.bytes]
    omega
  rw [spend, dif_pos hfits]
  rfl

include free in
/-- Within the limits, readings are published or in conflict. -/
theorem canonicalize_within
    (few : envelopes.length ≤ MAX_SOURCE_ENVELOPES)
    (hread : envelopes.map (readEnvelope p now watermarks) = rs.map some)
    (within : Within p request rs) :
    canonicalizeSourceEnvelopes p request now watermarks envelopes = .integrityConflict ∧
        Conflict rs ∨
      ∃ kept made, Made p request rs kept made ∧
        canonicalizeSourceEnvelopes p request now watermarks envelopes =
          .ok (publishedSources p request kept)
            (p.sha256 (written (contentTokens p request kept))) := by
  have hnot : ¬MAX_SOURCE_ENVELOPES < envelopes.length := by omega
  rw [canonicalizeSourceEnvelopes, if_neg hnot]
  rcases loop_within free hread (forall_mem_nil _) Made.init within with
    ⟨made, hloop⟩ | ⟨hloop, hconflict⟩
  · obtain ⟨rs', kept, hread', hmade⟩ := loop_ok free (forall_mem_nil _) Made.init hloop
    have hsame : rs' = rs :=
      List.map_injective_iff.mpr (some_injective _) (hread'.symm.trans hread)
    rw [nil_append, hsame] at hmade
    refine .inr ⟨kept, made, hmade, ?_⟩
    simp only [hloop, publish_spend hmade, hmade.fits within, if_true]
  · exact .inl ⟨by rw [hloop], hconflict⟩

/-! ## Sets of readings -/

/-- The same identities, observations and payloads. -/
def SameSet (rs rs' : List Reading) : Prop :=
  ∀ n, n ∈ rs.map Reading.normal ↔ n ∈ rs'.map Reading.normal

include free in
theorem pair_iff (hr : r.Sound) (hr' : r'.Sound) :
    r.pair p request = r'.pair p request ↔ r.normal = r'.normal := by
  rw [Reading.pair, Reading.pair, Prod.mk.injEq, identityHash_iff free hr hr']
  constructor
  · rintro ⟨hsame, hsignature⟩
    exact (signature_iff free hr hr' hsame).mp hsignature
  · intro h
    have hsame := identity_of_normal h
    exact ⟨hsame, (signature_iff free hr hr' hsame).mpr h⟩

/-- Lists that agree under one map agree under another that it determines. -/
theorem map_transfer {α β γ : Type} {f : α → β} {g : α → γ} {as bs : List α}
    (hfg : ∀ a ∈ as, ∀ b ∈ bs, f a = f b → g a = g b) (h : as.map f = bs.map f) :
    as.map g = bs.map g := by
  induction as generalizing bs with
  | nil =>
    cases bs with
    | nil => rfl
    | cons b bs => cases h
  | cons a as ih =>
    cases bs with
    | nil => cases h
    | cons b bs =>
      obtain ⟨hfirst, hrest⟩ := List.cons.inj h
      rw [map_cons, map_cons, hfg a (by simp) b (by simp) hfirst,
        ih (fun x hx y hy => hfg x (by simp [hx]) y (by simp [hy])) hrest]

theorem mem_ordered : k ∈ ordered p request kept ↔ k ∈ kept :=
  (perm_insertionSort (Before p request) kept).mem_iff

theorem before_normal : Before p request r.normal r'.normal ↔ Before p request r r' := by
  cases r <;> cases r' <;> exact Iff.rfl

section

variable (h : Made p request l kept made)
include h

theorem Made.mem_normal (n : Reading) :
    n ∈ kept.map Reading.normal ↔ n ∈ l.map Reading.normal := by
  constructor
  · intro hn
    obtain ⟨k, hk, rfl⟩ := List.mem_map.mp hn
    exact mem_map_of_mem (h.sub k hk)
  · intro hn
    obtain ⟨r, hr, rfl⟩ := List.mem_map.mp hn
    obtain ⟨k, hk, hkr⟩ := h.covers r hr
    exact hkr ▸ mem_map_of_mem hk

theorem Made.nodup_normal : (kept.map Reading.normal).Nodup := by
  apply List.Nodup.of_map fun n : Reading => n.identityHash p request
  rw [List.map_map]
  have hsame : (fun n : Reading => n.identityHash p request) ∘ Reading.normal =
      fun r => r.identityHash p request := by
    funext r
    rw [Function.comp_apply, Reading.identityHash, identity_normal, Reading.identityHash]
  rw [hsame]
  exact h.distinct

/-- What is kept of two batches that say the same is in one order. -/
theorem ordered_same (h' : Made p request l' kept' made')
    (same : SameSet l l') :
    (ordered p request kept).map Reading.normal = (ordered p request kept').map Reading.normal := by
  have hmap (ks : List Reading) : (ordered p request ks).map Reading.normal =
      (ks.map Reading.normal).insertionSort (Before p request) := by
    apply map_insertionSort
    intro a _ b _
    exact before_normal.symm
  have hperm : (kept.map Reading.normal).Perm (kept'.map Reading.normal) := by
    rw [perm_ext_iff_of_nodup h.nodup_normal h'.nodup_normal]
    intro n
    rw [h.mem_normal, h'.mem_normal, same n]
  rw [hmap, hmap]
  refine StableOrder.insertionSort_perm hperm fun a ha b hb hab hba => ?_
  -- Two kept readings at one place have one identity.
  have hidentity : a.identityHash p request = b.identityHash p request := by
    rcases hab with hlt | ⟨htime, hle⟩
    · rcases hba with hgt | ⟨htime, _⟩
      · exact absurd (hlt.trans hgt) (lt_irrefl _)
      · exact absurd (htime ▸ hlt) (lt_irrefl _)
    · rcases hba with hgt | ⟨_, hge⟩
      · exact absurd (htime ▸ hgt) (lt_irrefl _)
      · exact p.localeCompare.antisymm (p.hexadecimal _) (p.hexadecimal _) hle hge
  obtain ⟨k, hk, rfl⟩ := List.mem_map.mp ha
  obtain ⟨k', hk', rfl⟩ := List.mem_map.mp hb
  have hkept : k = k' := by
    apply inj_on_of_nodup_map h.distinct hk hk'
    simpa only [Reading.identityHash, identity_normal] using hidentity
  rw [hkept]

end

/-- Two outcomes that are the same, payloads up to their normal form. -/
def Agree : CanonicalizedSources → CanonicalizedSources → Prop
  | .ok sources hash, .ok sources' hash' =>
    sources.map (fun g => (g.1, g.2.map normalForm)) =
      sources'.map (fun g => (g.1, g.2.map normalForm)) ∧ hash = hash'
  | .integrityConflict, .integrityConflict => True
  | .rejected, .rejected => True
  | _, _ => False

theorem sources_normal (kept : List Reading) :
    (publishedSources p request kept).map (fun g => (g.1, g.2.map normalForm)) =
      (StableOrder.grouped Reading.source ((ordered p request kept).map Reading.normal)).map
        fun g => (g.1, g.2.map Reading.payload) := by
  have hsource : (fun r : Reading => r.normal.source) = Reading.source := by
    funext r
    cases r <;> rfl
  have hpayload : Reading.payload ∘ Reading.normal = normalForm ∘ Reading.payload := by
    funext r
    cases r <;> rfl
  rw [StableOrder.grouped_map, hsource, publishedSources, List.map_map, List.map_map]
  apply map_congr_left
  intro g _
  simp only [Function.comp_apply, List.map_map, hpayload]

include free in
theorem published_same (sound : ∀ r ∈ l, r.Sound)
    (sound' : ∀ r ∈ l', r.Sound) (h : Made p request l kept made)
    (h' : Made p request l' kept' made') (same : SameSet l l') :
    Agree (.ok (publishedSources p request kept)
        (p.sha256 (written (contentTokens p request kept))))
      (.ok (publishedSources p request kept')
        (p.sha256 (written (contentTokens p request kept')))) := by
  have hordered := ordered_same h h' same
  have hpairs : (ordered p request kept).map (Reading.pair p request) =
      (ordered p request kept').map (Reading.pair p request) := by
    refine map_transfer (fun r hr r' hr' => ?_) hordered
    exact (pair_iff free (h.sound sound r (mem_ordered.mp hr))
      (h'.sound sound' r' (mem_ordered.mp hr'))).mpr
  have hcontent (ks : List Reading) : contentTokens p request ks =
      ((ordered p request ks).map (Reading.pair p request)).flatMap fun q => [q.1, q.2] := by
    rw [flatMap_map]
    rfl
  refine ⟨?_, ?_⟩
  · rw [sources_normal, sources_normal, hordered]
  · rw [hcontent, hcontent, hpairs]

include free in
/-- The content hash tells sets of readings apart. -/
theorem sameSet_of_hash (sound : ∀ r ∈ l, r.Sound)
    (sound' : ∀ r ∈ l', r.Sound) (h : Made p request l kept made)
    (h' : Made p request l' kept' made')
    (hash : p.sha256 (written (contentTokens p request kept)) =
      p.sha256 (written (contentTokens p request kept'))) :
    SameSet l l' := by
  have htokens : ∀ (ks : List Reading) (t : JsString), t ∈ contentTokens p request ks →
      plain t = true := by
    intro ks t ht
    obtain ⟨r, _, hmem⟩ := mem_flatMap.mp ht
    have hhex : t.all isHexadecimal = true := by
      simp only [mem_cons, not_mem_nil, or_false] at hmem
      rcases hmem with rfl | rfl
      · exact p.hexadecimal _
      · cases r <;> exact p.hexadecimal _
    exact (plain_of_all (hexadecimal_plain hhex)).1
  have hutf8 := framing.join_injective (free hash)
  have hequal : contentTokens p request kept = contentTokens p request kept' := by
    have hid := map_transfer (g := id) (fun a ha b hb => utf8_plain
      (htokens kept a ha) (htokens kept' b hb)) hutf8
    rwa [List.map_id, List.map_id] at hid
  have hpairs : (ordered p request kept).map (Reading.pair p request) =
      (ordered p request kept').map (Reading.pair p request) := by
    have hflat : ∀ as bs : List (JsString × JsString),
        as.flatMap (fun q => [q.1, q.2]) = bs.flatMap (fun q => [q.1, q.2]) → as = bs := by
      intro as
      induction as with
      | nil =>
        intro bs hbs
        cases bs with
        | nil => rfl
        | cons b bs => cases hbs
      | cons a as ih =>
        intro bs hbs
        cases bs with
        | nil => cases hbs
        | cons b bs =>
          simp only [flatMap_cons, cons_append, nil_append, List.cons.injEq] at hbs
          rw [ih bs hbs.2.2, Prod.ext hbs.1 hbs.2.1]
    apply hflat
    rw [flatMap_map, flatMap_map]
    exact hequal
  have hnormal : (ordered p request kept).map Reading.normal =
      (ordered p request kept').map Reading.normal := by
    refine map_transfer (fun r hr r' hr' => ?_) hpairs
    exact (pair_iff free (h.sound sound r (mem_ordered.mp hr))
      (h'.sound sound' r' (mem_ordered.mp hr'))).mp
  intro n
  have hside (ks : List Reading) : n ∈ (ordered p request ks).map Reading.normal ↔
      n ∈ ks.map Reading.normal :=
    ((perm_insertionSort (Before p request) ks).map Reading.normal).mem_iff
  rw [← h.mem_normal, ← h'.mem_normal, ← hside kept, ← hside kept', hnormal]

/-! ## The laws -/

/-- The readings of a batch, without what is rejected. -/
def readings (p : Platform) (now : Date) (watermarks : List JsString)
    (envelopes : List SourceEnvelope) : List Reading :=
  envelopes.filterMap (readEnvelope p now watermarks)

/-- No envelope of a batch is rejected by itself. -/
def Readable (p : Platform) (now : Date) (watermarks : List JsString)
    (envelopes : List SourceEnvelope) : Prop :=
  ∀ e ∈ envelopes, (readEnvelope p now watermarks e).isSome = true

/-- A batch that the limits allow. -/
def WithinLimits (p : Platform) (request : IdentityRiskEvaluationRequest) (now : Date)
    (watermarks : List JsString) (envelopes : List SourceEnvelope) : Prop :=
  envelopes.length ≤ MAX_SOURCE_ENVELOPES ∧
    Within p request (readings p now watermarks envelopes)

theorem read_all (h : Readable p now watermarks envelopes) :
    envelopes.map (readEnvelope p now watermarks) =
      (readings p now watermarks envelopes).map some := by
  induction envelopes with
  | nil => rfl
  | cons e envelopes ih =>
    obtain ⟨r, hr⟩ := isSome_iff_exists.mp (h e mem_cons_self)
    have hrest := ih fun o ho => h o (mem_cons_of_mem e ho)
    rw [readings, map_cons, filterMap_cons_some hr, hr, hrest]
    rfl

theorem readings_of_map (h : envelopes.map (readEnvelope p now watermarks) = rs.map some) :
    Readable p now watermarks envelopes ∧ readings p now watermarks envelopes = rs := by
  constructor
  · intro e he
    have hmem := h ▸ mem_map_of_mem (f := readEnvelope p now watermarks) he
    obtain ⟨r, _, hr⟩ := List.mem_map.mp hmem
    rw [← hr]
    rfl
  · have hfilter : envelopes.filterMap (readEnvelope p now watermarks) =
        (envelopes.map (readEnvelope p now watermarks)).filterMap id := by
      rw [filterMap_map]
      rfl
    rw [readings, hfilter, h, filterMap_map]
    exact filterMap_some

theorem readings_sound :
    ∀ r ∈ readings p now watermarks envelopes, r.Sound := by
  intro r hr
  obtain ⟨e, _, he⟩ := List.mem_filterMap.mp hr
  exact readEnvelope_sound he

variable {others : List SourceEnvelope}

variable {rs' : List Reading}

theorem conflict_same (same : SameSet rs rs') (h : Conflict rs) :
    Conflict rs' := by
  obtain ⟨r, hr, r', hr', hidentity, hdiffer⟩ := h
  obtain ⟨q, hq, hqr⟩ := List.mem_map.mp ((same r.normal).mp (mem_map_of_mem hr))
  obtain ⟨q', hq', hqr'⟩ := List.mem_map.mp ((same r'.normal).mp (mem_map_of_mem hr'))
  refine ⟨q, hq, q', hq', ?_, by rwa [hqr, hqr']⟩
  rw [identity_of_normal hqr, hidentity, identity_of_normal hqr']

theorem Within.perm (h : Within p request rs) (perm : rs.Perm rs') :
    Within p request rs' where
  sources := by
    rw [← ((perm.map Reading.source).dedup).length_eq]
    exact h.sources
  perSource s := by
    rw [← (perm.map Reading.source).count_eq s]
    exact h.perSource s
  nodes := by
    rw [← (perm.map fun r => (cost r.payload 0).nodes).sum_eq]
    exact h.nodes
  bytes := by
    rw [← (perm.map fun r => (cost r.payload 0).bytes).sum_eq,
      ← (((perm.map (Reading.pair p request)).dedup).map pairBytes).sum_eq]
    exact h.bytes

theorem WithinLimits.perm (h : WithinLimits p request now watermarks envelopes)
    (perm : envelopes.Perm others) :
    WithinLimits p request now watermarks others :=
  ⟨perm.length_eq ▸ h.1, h.2.perm (perm.filterMap _)⟩

include free in
/-- A batch with an envelope that is rejected by itself is not accepted. -/
theorem not_accepted
    (h : ¬Readable p now watermarks envelopes) (sources : List (JsString × List Json))
    (hash : JsString) :
    canonicalizeSourceEnvelopes p request now watermarks envelopes ≠ .ok sources hash := by
  intro hok
  obtain ⟨rs, _, _, hread, _⟩ := canonicalize_ok free hok
  exact h (readings_of_map hread).1

include free in
/-- Batches of the same envelopes have the same outcome. -/
theorem agree_of_members
    (same : ∀ e, e ∈ envelopes ↔ e ∈ others) (readable : Readable p now watermarks envelopes)
    (within : WithinLimits p request now watermarks envelopes)
    (within' : WithinLimits p request now watermarks others) :
    Agree (canonicalizeSourceEnvelopes p request now watermarks envelopes)
      (canonicalizeSourceEnvelopes p request now watermarks others) := by
  have readable' : Readable p now watermarks others := fun e he => readable e ((same e).mpr he)
  have hset : SameSet (readings p now watermarks envelopes) (readings p now watermarks others) := by
    intro n
    simp only [readings, List.mem_map, mem_filterMap, same]
  rcases canonicalize_within free within.1 (read_all readable) within.2 with
    ⟨hstatus, hconflict⟩ | ⟨kept, made, hmade, hstatus⟩
  · rcases canonicalize_within free within'.1 (read_all readable') within'.2 with
      ⟨hstatus', _⟩ | ⟨kept', made', hmade', _⟩
    · rw [hstatus, hstatus']
      trivial
    · exact absurd (conflict_same hset hconflict) hmade'.no_conflict
  · rcases canonicalize_within free within'.1 (read_all readable') within'.2 with
      ⟨_, hconflict'⟩ | ⟨kept', made', hmade', hstatus'⟩
    · have hback := conflict_same (fun n => (hset n).symm) hconflict'
      exact absurd hback hmade.no_conflict
    · rw [hstatus, hstatus']
      exact published_same free readings_sound readings_sound hmade hmade' hset

variable (p request) in
/-- Canonicalisation is one of sets of readings. -/
structure Faithful : Prop where
  /-- Payloads that differ in the order of entries have one form, and plain ones no other. -/
  forms : ∀ v w, WellFormed v → WellFormed w → (Alike v w → normalForm v = normalForm w) ∧
    (normalForm v = rewrite byName v → normalForm w = rewrite byName w →
      normalForm v = normalForm w → Alike v w)
  /-- The hash of a payload tells payloads apart up to the order of entries, the sign of zero and
  surrogates that stand alone. -/
  payloads : ∀ v w budget budget' left left' (hash hash' : JsString),
    canonicalPayloadHash p v budget = some (hash, left) →
    canonicalPayloadHash p w budget' = some (hash', left') →
    (hash = hash' ↔ normalForm v = normalForm w)
  permuted : ∀ now watermarks envelopes others, envelopes.Perm others →
    Readable p now watermarks envelopes → WithinLimits p request now watermarks envelopes →
    Agree (canonicalizeSourceEnvelopes p request now watermarks envelopes)
      (canonicalizeSourceEnvelopes p request now watermarks others)
  repeated : ∀ now watermarks envelopes others, (∀ e, e ∈ envelopes ↔ e ∈ others) →
    Readable p now watermarks envelopes → WithinLimits p request now watermarks envelopes →
    WithinLimits p request now watermarks others →
    Agree (canonicalizeSourceEnvelopes p request now watermarks envelopes)
      (canonicalizeSourceEnvelopes p request now watermarks others)
  rejected : ∀ now watermarks envelopes, ¬Readable p now watermarks envelopes →
    ∀ sources hash,
      canonicalizeSourceEnvelopes p request now watermarks envelopes ≠ .ok sources hash
  conflict : ∀ now watermarks envelopes, Readable p now watermarks envelopes →
    WithinLimits p request now watermarks envelopes →
    (canonicalizeSourceEnvelopes p request now watermarks envelopes = .integrityConflict ↔
      Conflict (readings p now watermarks envelopes))
  distinguishes : ∀ now now' watermarks watermarks' envelopes others sources sources'
    (hash hash' : JsString),
    canonicalizeSourceEnvelopes p request now watermarks envelopes = .ok sources hash →
    canonicalizeSourceEnvelopes p request now' watermarks' others = .ok sources' hash' →
    (hash = hash' ↔
      SameSet (readings p now watermarks envelopes) (readings p now' watermarks' others))

end

/-! ## A batch that is read in two orders -/

/-- All bytes as hexadecimal digits, in place of a digest. -/
def hexadecimalText (bytes : List UInt8) : JsString :=
  bytes.flatMap fun b => [hexDigit (Fin.ofNat 16 (b.toNat / 16)), hexDigit (Fin.ofNat 16 b.toNat)]

theorem hexDigit_injective : Function.Injective hexDigit := by
  intro m n h
  have hvalue := congrArg hexValue h
  rw [hexValue_hexDigit, hexValue_hexDigit] at hvalue
  exact Fin.ext hvalue

theorem hexadecimalText_injective : Function.Injective hexadecimalText := by
  intro s
  induction s with
  | nil =>
    intro t h
    cases t with
    | nil => rfl
    | cons b t => cases h
  | cons a s ih =>
    intro t h
    cases t with
    | nil => cases h
    | cons b t =>
      simp only [hexadecimalText, flatMap_cons, cons_append, nil_append,
        List.cons.injEq] at h
      have hhigh := congrArg Fin.val (hexDigit_injective h.1)
      have hlow := congrArg Fin.val (hexDigit_injective h.2.1)
      simp only [Fin.val_ofNat] at hhigh hlow
      have ha := a.toNat_lt
      have hb := b.toNat_lt
      have hab : a = b := UInt8.toNat_inj.mp (by omega)
      rw [hab, ih h.2.2]

def samplePlatform : Platform where
  sha256 := hexadecimalText
  hexadecimal bytes := by
    have hdigit : ∀ n : Fin 16, isHexadecimal (hexDigit n) = true := by decide
    rw [List.all_eq_true]
    intro c hc
    obtain ⟨b, _, hmem⟩ := mem_flatMap.mp hc
    simp only [mem_cons, not_mem_nil, or_false] at hmem
    rcases hmem with rfl | rfl <;> exact hdigit _
  localeCompare :=
    { le := fun s t => s ≤ t
      decide := fun _ _ => inferInstance
      total := Collation.codeUnits.total
      trans := List.le_trans
      antisymm := fun _ _ => List.le_antisymm }
  parseDate _ := none

def sampleRequest : IdentityRiskEvaluationRequest := ⟨js "o", js "t"⟩

def sampleDay : Date := ⟨0, IsoTime.inDateRange_zero⟩

def sampleNight : Date := ⟨-1, by decide⟩

/-- The payload of a sign-in by a user. -/
def samplePayload : Json :=
  let user := js "hvr1_subject_" ++ List.replicate 64 0x61
  .object [(js "schemaVersion", .string IDENTITY_RISK_SOURCE_PAYLOAD_SCHEMA_VERSION),
    (js "recordReference", .string (js "hvr1_event_" ++ List.replicate 64 0x62)),
    (js "subjectReference", .string user),
    (js "candidate", .object [(js "ruleId", .string (js "HV-ID-AUTH-009.v1")),
      (js "subject", .object [(js "type", .string (js "USER")), (js "opaqueId", .string user)]),
      (js "evidenceReferences", .array []), (js "evidence", .array []),
      (js "evidenceState", .string (js "COMPLETE")), (js "successfulInteractive", .bool true),
      (js "occurredAt", .string (js "1970-01-01T00:00:00.000Z"))])]

def sampleEnvelope (observedAt : Date) : SourceEnvelope :=
  [(js "kind", .json (.string (js "AUTHORITATIVE_SNAPSHOT"))),
    (js "resourceType", .json (.string (js "USERS"))),
    (js "objectId", .json (.string (js "o"))),
    (js "authoritativeObservationId", .json (.string (js "e"))),
    (js "observedAt", .date (some observedAt)),
    (js "projectorSchemaVersion", .json (.string (js "1"))),
    (js "sourceWatermark", .json (.string (js "w"))),
    (js "payload", .json samplePayload)]

/-- Two observations under one identity, and an envelope that says nothing. -/
def sampleBatch : List SourceEnvelope :=
  [sampleEnvelope sampleDay, sampleEnvelope sampleNight, []]

end IdentitySource
