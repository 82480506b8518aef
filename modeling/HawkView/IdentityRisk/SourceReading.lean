import HawkView.IdentityRisk.SourceCanonical
import HawkView.Lib.JoinedTexts
import HawkView.Lib.JsonSize

/-!
# What a source envelope says

An envelope says which event or object it is about, what was observed and a
payload. The record of an envelope is made of that, and its two hashes tell
what envelopes say apart.
-/

namespace IdentitySource

open List Option

open Json JsString IdentitySignal
open ChangeEvidence (Date)

/-! ## What an envelope says -/

inductive Reading
  | event (source eventId : JsString) (eventTime : Date) (version : JsString) (payload : Json)
  | snapshot (source objectId observationId : JsString) (observedAt : Date)
      (projectorVersion watermark : JsString) (payload : Json)

/-- Which event or which observation of an object an envelope is about. -/
inductive SourceIdentity
  | event (source eventId : JsString) (eventTime : Date) (version : JsString)
  | snapshot (source objectId observationId : JsString)

/-- What an identity is made of, after the tenant. -/
def SourceIdentity.parts : SourceIdentity → List JsString
  | .event source eventId eventTime version =>
    [js "IMMUTABLE_EVENT", source, eventId, IsoTime.toISOString eventTime, version]
  | .snapshot source objectId observationId =>
    [js "AUTHORITATIVE_SNAPSHOT", source, objectId, observationId]

namespace Reading

def identity : Reading → SourceIdentity
  | .event source eventId eventTime version _ => .event source eventId eventTime version
  | .snapshot source objectId observationId _ _ _ _ => .snapshot source objectId observationId

def source : Reading → JsString
  | .event source _ _ _ _ => source
  | .snapshot source _ _ _ _ _ _ => source

def sortTime : Reading → Date
  | .event _ _ eventTime _ _ => eventTime
  | .snapshot _ _ _ observedAt _ _ _ => observedAt

def payload : Reading → Json
  | .event _ _ _ _ payload => payload
  | .snapshot _ _ _ _ _ _ payload => payload

/-- The reading with the normal form of its payload. -/
def normal : Reading → Reading
  | .event source eventId eventTime version payload =>
    .event source eventId eventTime version (normalForm payload)
  | .snapshot source objectId observationId observedAt projectorVersion watermark payload =>
    .snapshot source objectId observationId observedAt projectorVersion watermark
      (normalForm payload)

variable (p : Platform) (request : IdentityRiskEvaluationRequest)

def identityHash (r : Reading) : JsString :=
  p.sha256Of (request.organizationId :: request.customerTenantId :: r.identity.parts)

/-- What a signature is made of, before the payload. -/
def observationParts : Reading → List JsString
  | .event _ _ _ _ _ => []
  | .snapshot _ _ _ observedAt projectorVersion watermark _ =>
    [IsoTime.toISOString observedAt, projectorVersion, watermark]

/-- The signature, from the hash of the payload. -/
def signatureOf (payloadHash : JsString) : Reading → JsString
  | .event _ _ _ _ _ => payloadHash
  | .snapshot _ _ _ observedAt projectorVersion watermark _ =>
    p.sha256Of [IsoTime.toISOString observedAt, projectorVersion, watermark, payloadHash]

def signature (r : Reading) : JsString :=
  r.signatureOf p (p.sha256 (written (cost r.payload 0).tokens))

def record (r : Reading) : CanonicalSourceRecord where
  identity := r.identityHash p request
  signature := r.signature p
  source := r.source
  sortTime := r.sortTime
  payload := r.payload

end Reading

section

variable (p : Platform) (request : IdentityRiskEvaluationRequest) (now : Date)
  (watermarks : List JsString)

def readEvent (envelope : SourceEnvelope) (payload : Json) : Option Reading := do
  if keysOf envelope ≠ immutableEnvelopeKeys then none
  let source ← fieldText approvedSourceName (envelope.lookup (js "sourceType"))
  let eventId ← fieldText (boundedOpaqueId 160) (envelope.lookup (js "canonicalEventId"))
  let version ← fieldText (boundedOpaqueId 80) (envelope.lookup (js "sourceEventVersion"))
  let eventTime ← parseTimestamp p now (envelope.lookup (js "authoritativeEventTime"))
  some (.event source eventId eventTime version payload)

def readSnapshot (envelope : SourceEnvelope) (payload : Json) : Option Reading := do
  if keysOf envelope ≠ snapshotEnvelopeKeys then none
  let source ← fieldText approvedSourceName (envelope.lookup (js "resourceType"))
  let objectId ← fieldText (boundedOpaqueId 160) (envelope.lookup (js "objectId"))
  let observationId ← fieldText (boundedOpaqueId 160)
    (envelope.lookup (js "authoritativeObservationId"))
  let projectorVersion ← fieldText (boundedOpaqueId 80)
    (envelope.lookup (js "projectorSchemaVersion"))
  let watermark ← fieldText (boundedOpaqueId 128) (envelope.lookup (js "sourceWatermark"))
  if ¬watermarks.contains watermark then none
  let observedAt ← parseTimestamp p now (envelope.lookup (js "observedAt"))
  some (.snapshot source objectId observationId observedAt projectorVersion watermark payload)

/-- What an envelope says, none where it is rejected whatever else the batch holds. -/
def readEnvelope (envelope : SourceEnvelope) : Option Reading := do
  let document ← (envelope.lookup (js "payload")).bind SourceField.document
  let payload ← approvedSourcePayload document
  if 16 < (cost payload 0).depth then none
  let kind ← (envelope.lookup (js "kind")).bind SourceField.text
  if kind = js "IMMUTABLE_EVENT" then readEvent p now envelope payload
  else if kind = js "AUTHORITATIVE_SNAPSHOT" then readSnapshot p now watermarks envelope payload
  else none

variable {p request now watermarks}

theorem immutableEventRecord_eq (envelope : SourceEnvelope) (payload : Json) :
    immutableEventRecord p request now envelope payload
        (p.sha256 (written (cost payload 0).tokens)) =
      (readEvent p now envelope payload).map (Reading.record p request) := by
  simp only [immutableEventRecord, readEvent, bind_eq_bind, Option.map_bind,
    Function.comp_def, map_some, apply_ite (Option.map (Reading.record p request))]
  rfl

theorem snapshotRecord_eq (envelope : SourceEnvelope) (payload : Json) :
    snapshotRecord p request now watermarks envelope payload
        (p.sha256 (written (cost payload 0).tokens)) =
      (readSnapshot p now watermarks envelope payload).map (Reading.record p request) := by
  simp only [snapshotRecord, readSnapshot, bind_eq_bind, Option.map_bind,
    Function.comp_def, map_some, apply_ite (Option.map (Reading.record p request))]
  rfl

/-! ## Budgets -/

/-- Takes a cost off a budget. -/
def spend (cost : Cost) (budget : CanonicalBudget) : Option CanonicalBudget :=
  if within : budget.nodes + cost.nodes ≤ MAX_CANONICAL_SOURCE_NODES ∧
      budget.bytes + cost.bytes ≤ MAX_CANONICAL_SOURCE_BYTES then
    some ⟨budget.nodes + cost.nodes, budget.bytes + cost.bytes, within.1, within.2⟩
  else none

theorem pay_spend (cost : Cost) (budget : CanonicalBudget) :
    pay cost ([], budget) =
      if 16 < cost.depth then none
      else (spend cost budget).map fun budget => (written cost.tokens, budget) := by
  by_cases hdepth : 16 < cost.depth
  · have hnot : ¬cost.depth ≤ 16 := by omega
    rw [if_pos hdepth, pay, dif_neg fun h => hnot h.1]
  · have hle : cost.depth ≤ 16 := by omega
    rw [if_neg hdepth]
    by_cases hfits : budget.nodes + cost.nodes ≤ MAX_CANONICAL_SOURCE_NODES ∧
        budget.bytes + cost.bytes ≤ MAX_CANONICAL_SOURCE_BYTES
    · rw [pay, dif_pos ⟨hle, hfits⟩, spend, dif_pos hfits]
      rfl
    · rw [pay, dif_neg fun h => hfits h.2, spend, dif_neg hfits]
      rfl

theorem canonicalPayloadHash_eq (payload : Json) (budget : CanonicalBudget) :
    canonicalPayloadHash p payload budget =
      if 16 < (cost payload 0).depth then none
      else (spend (cost payload 0) budget).map fun budget =>
        (p.sha256 (written (cost payload 0).tokens), budget) := by
  rw [canonicalPayloadHash, canonicalValue_pay, pay_spend]
  split
  · rfl
  · rw [Option.map_map]
    rfl

variable {envelope : SourceEnvelope} {payload : Json}

theorem readEvent_payload {r : Reading} (h : readEvent p now envelope payload = some r) :
    r.payload = payload := by
  simp only [readEvent, bind_eq_bind, bind_none, ite_none_left_eq_some,
    bind_eq_some_iff, Option.some.injEq] at h
  obtain ⟨_, _, _, _, _, _, _, _, _, rfl⟩ := h
  rfl

theorem readSnapshot_payload {r : Reading}
    (h : readSnapshot p now watermarks envelope payload = some r) : r.payload = payload := by
  simp only [readSnapshot, bind_eq_bind, bind_none, ite_none_left_eq_some,
    bind_eq_some_iff, Option.some.injEq] at h
  obtain ⟨_, _, _, _, _, _, _, _, _, _, _, _, _, _, rfl⟩ := h
  rfl

theorem record_of_read {read : Option Reading} (h : ∀ r, read = some r → r.payload = payload)
    (budget : CanonicalBudget) :
    (read.bind fun r => (spend (cost r.payload 0) budget).map fun budget =>
        (r.record p request, budget)) =
      (spend (cost payload 0) budget).bind fun budget =>
        (read.map (Reading.record p request)).map fun record => (record, budget) := by
  cases read with
  | none => cases spend (cost payload 0) budget <;> rfl
  | some r =>
    rw [bind_some, h r rfl]
    cases spend (cost payload 0) budget <;> rfl

/-- A record is what its envelope says, at the cost of the payload. -/
theorem canonicalSourceRecord_eq (envelope : SourceEnvelope) (budget : CanonicalBudget) :
    canonicalSourceRecord p request now watermarks envelope budget =
      (readEnvelope p now watermarks envelope).bind fun r =>
        (spend (cost r.payload 0) budget).map fun budget => (r.record p request, budget) := by
  unfold canonicalSourceRecord readEnvelope
  cases (envelope.lookup (js "payload")).bind SourceField.document with
  | none => rfl
  | some document =>
    cases hpayload : approvedSourcePayload document with
    | none => simp [hpayload]
    | some payload =>
      simp only [bind_eq_bind, bind_some, hpayload]
      rw [canonicalPayloadHash_eq]
      by_cases hdepth : 16 < (cost payload 0).depth
      · rw [if_pos hdepth, if_pos hdepth]
        rfl
      · rw [if_neg hdepth, if_neg hdepth]
        cases (envelope.lookup (js "kind")).bind SourceField.text with
        | none => cases spend (cost payload 0) budget <;> rfl
        | some kind =>
          simp only [bind_some]
          by_cases hevent : kind = js "IMMUTABLE_EVENT"
          · simp only [if_pos hevent]
            rw [record_of_read fun r => readEvent_payload, ← immutableEventRecord_eq]
            cases spend (cost payload 0) budget <;> rfl
          · by_cases hsnapshot : kind = js "AUTHORITATIVE_SNAPSHOT"
            · simp only [if_neg hevent, if_pos hsnapshot]
              rw [record_of_read fun r => readSnapshot_payload, ← snapshotRecord_eq]
              cases spend (cost payload 0) budget <;> rfl
            · simp only [if_neg hevent, if_neg hsnapshot]
              cases spend (cost payload 0) budget <;> rfl

/-! ## Parts that are joined -/

/-- A code unit of an identifier, a name or a time. -/
theorem plain_unit {c : UInt16} (h : isPlain c = true) : isSurrogate c = false ∧ c ≠ 0 := by
  obtain ⟨_, hlead, htrail⟩ := plain_ascii h
  refine ⟨by rw [isSurrogate, hlead, htrail, Bool.or_false], ?_⟩
  rintro rfl
  revert h
  decide

variable {s : JsString}

theorem plain_of_all (h : s.all isPlain = true) : plain s = true ∧ 0 ∉ s := by
  rw [List.all_eq_true] at h
  constructor
  · rw [plain, List.all_eq_true]
    intro c hc
    rw [(plain_unit (h c hc)).1]
    rfl
  · exact fun hmem => (plain_unit (h 0 hmem)).2 rfl

/-- Texts that a hash takes in parts after the same first parts. -/
theorem joined_hash_inj (front : List JsString) {parts others : List JsString} {a b : JsString}
    (hp : ∀ part ∈ a :: parts, part.all isPlain = true)
    (hq : ∀ part ∈ b :: others, part.all isPlain = true)
    (h : utf8 (intercalate [0] (front ++ a :: parts)) =
      utf8 (intercalate [0] (front ++ b :: others))) : a :: parts = b :: others := by
  have hbytes := (joined_bytes front (fun part hpart => (plain_of_all (hp part hpart)).2)
    (fun part hpart => (plain_of_all (hq part hpart)).2)).mp h
  exact utf8_plain_list (fun part hpart => (plain_of_all (hp part hpart)).1)
    (fun part hpart => (plain_of_all (hq part hpart)).1) hbytes

/-! ## What a reading is made of -/

theorem toISOString_plain (t : Int) : (IsoTime.toISOString t).all isPlain = true := by
  have hyear (y : Int) : (IsoTime.yearText y).all isPlain = true := by
    unfold IsoTime.yearText
    split
    · exact IsoTime.pad_plain _ _
    · rw [all_cons, IsoTime.pad_plain, Bool.and_true]
      split <;> decide
  have hmarks : isPlain 0x2D = true ∧ isPlain 0x54 = true ∧ isPlain 0x3A = true ∧
      isPlain 0x2E = true ∧ isPlain 0x5A = true := by decide
  rw [IsoTime.toISOString_eq]
  simp only [all_append, all_cons, all_nil, hyear, IsoTime.pad_plain, hmarks,
    Bool.and_true]

theorem safe_plain (h : isSafeOpaqueId s = true) : s.all isPlain = true := by
  rw [isSafeOpaqueId, List.all_eq_true] at h
  rw [List.all_eq_true]
  intro c hc
  have hsafe := h c hc
  simp only [isAlphanumeric, isLower, isUpper, isDecimal, contains_cons, contains_nil,
    Bool.or_eq_true, decide_eq_true_eq, beq_iff_eq, Bool.or_false, UInt16.le_iff_toNat_le,
    ← UInt16.toNat_inj, UInt16.reduceToNat] at hsafe
  simp only [isPlain, decide_eq_true_eq, UInt16.le_iff_toNat_le, UInt16.lt_iff_toNat_lt, ne_eq,
    ← UInt16.toNat_inj, UInt16.reduceToNat]
  omega

variable {value : Option SourceField}

theorem opaqueId_plain {maximum : Nat} (h : fieldText (boundedOpaqueId maximum) value = some s) :
    s.all isPlain = true := by
  obtain ⟨raw, _, hraw⟩ := bind_eq_some_iff.mp h
  exact safe_plain (filter_eq_some_iff.mp hraw).2

theorem sourceName_plain (h : fieldText approvedSourceName value = some s) :
    s.all isPlain = true := by
  have hall : approvedSourceTypes.all (fun source => source.all isPlain) = true := by
    decide +kernel
  obtain ⟨raw, _, hraw⟩ := bind_eq_some_iff.mp h
  have hmem := (filter_eq_some_iff.mp hraw).2
  exact List.all_eq_true.mp hall s (contains_iff_mem.mp hmem)

/-- All that is hashed with a payload is plain text. -/
structure Reading.Sound (r : Reading) : Prop where
  identity : ∀ part ∈ r.identity.parts, part.all isPlain = true
  observation : ∀ part ∈ r.observationParts, part.all isPlain = true

theorem readEvent_sound {r : Reading} (h : readEvent p now envelope payload = some r) :
    r.Sound := by
  simp only [readEvent, bind_eq_bind, bind_none, ite_none_left_eq_some,
    bind_eq_some_iff, Option.some.injEq] at h
  obtain ⟨_, source, hsource, eventId, hid, version, hversion, eventTime, _, rfl⟩ := h
  have hkind : (js "IMMUTABLE_EVENT").all isPlain = true := by decide
  constructor
  · simp only [Reading.identity, SourceIdentity.parts, forall_mem_cons]
    exact ⟨hkind, sourceName_plain hsource, opaqueId_plain hid, toISOString_plain _,
      opaqueId_plain hversion, forall_mem_nil _⟩
  · exact forall_mem_nil _

theorem readSnapshot_sound {r : Reading}
    (h : readSnapshot p now watermarks envelope payload = some r) : r.Sound := by
  simp only [readSnapshot, bind_eq_bind, bind_none, ite_none_left_eq_some,
    bind_eq_some_iff, Option.some.injEq] at h
  obtain ⟨_, source, hsource, objectId, hid, observationId, hobservation, projectorVersion,
    hprojector, watermark, hwatermark, _, observedAt, _, rfl⟩ := h
  have hkind : (js "AUTHORITATIVE_SNAPSHOT").all isPlain = true := by decide
  constructor
  · simp only [Reading.identity, SourceIdentity.parts, forall_mem_cons]
    exact ⟨hkind, sourceName_plain hsource, opaqueId_plain hid, opaqueId_plain hobservation,
      forall_mem_nil _⟩
  · simp only [Reading.observationParts, forall_mem_cons]
    exact ⟨toISOString_plain _, opaqueId_plain hprojector, opaqueId_plain hwatermark,
      forall_mem_nil _⟩

theorem readEnvelope_sound {r : Reading} (h : readEnvelope p now watermarks envelope = some r) :
    r.Sound := by
  simp only [readEnvelope, bind_eq_bind, bind_none, ite_none_left_eq_some,
    bind_eq_some_iff] at h
  obtain ⟨document, _, payload, _, _, kind, _, hkind⟩ := h
  split at hkind
  · exact readEvent_sound hkind
  · split at hkind
    · exact readSnapshot_sound hkind
    · cases hkind

/-! ## What the hashes tell -/

theorem parts_injective {i j : SourceIdentity} (h : i.parts = j.parts) : i = j := by
  have hkinds : js "IMMUTABLE_EVENT" ≠ js "AUTHORITATIVE_SNAPSHOT" := by decide
  cases i with
  | event source eventId eventTime version =>
    cases j with
    | event source' eventId' eventTime' version' =>
      simp only [SourceIdentity.parts, List.cons.injEq, true_and, and_true] at h
      obtain ⟨rfl, rfl, htime, rfl⟩ := h
      obtain rfl : eventTime = eventTime' :=
        Subtype.ext (IsoTime.toISOString_inj eventTime.property eventTime'.property htime)
      rfl
    | snapshot => exact absurd (List.cons.inj h).1 hkinds
  | snapshot source objectId observationId =>
    cases j with
    | event => exact absurd (List.cons.inj h).1.symm hkinds
    | snapshot source' objectId' observationId' =>
      simp only [SourceIdentity.parts, List.cons.injEq, true_and, and_true] at h
      obtain ⟨rfl, rfl, rfl⟩ := h
      rfl

variable {r r' : Reading}

theorem identityHash_iff (free : Function.Injective p.sha256) (hr : r.Sound) (hr' : r'.Sound) :
    r.identityHash p request = r'.identityHash p request ↔ r.identity = r'.identity := by
  constructor
  · intro h
    have hbytes := free h
    obtain ⟨a, parts, ha⟩ : ∃ a parts, r.identity.parts = a :: parts := by
      cases r.identity <;> exact ⟨_, _, rfl⟩
    obtain ⟨b, others, hb⟩ : ∃ b others, r'.identity.parts = b :: others := by
      cases r'.identity <;> exact ⟨_, _, rfl⟩
    have hp := ha ▸ hr.identity
    have hq := hb ▸ hr'.identity
    rw [ha, hb] at hbytes
    apply parts_injective
    rw [ha, hb]
    exact joined_hash_inj [request.organizationId, request.customerTenantId] hp hq hbytes
  · intro h
    rw [Reading.identityHash, h, Reading.identityHash]

theorem payloadHash_iff (free : Function.Injective p.sha256) (v w : Json) :
    p.sha256 (written (cost v 0).tokens) = p.sha256 (written (cost w 0).tokens) ↔
      normalForm v = normalForm w :=
  free.eq_iff.trans (written_iff v w)

theorem hexadecimal_plain (h : s.all isHexadecimal = true) :
    s.all isPlain = true := by
  rw [List.all_eq_true] at h ⊢
  intro c hc
  have hhex := h c hc
  simp only [isHexadecimal, isDecimal, Bool.or_eq_true, decide_eq_true_eq,
    UInt16.le_iff_toNat_le, UInt16.reduceToNat] at hhex
  simp only [isPlain, decide_eq_true_eq, UInt16.le_iff_toNat_le, UInt16.lt_iff_toNat_lt, ne_eq,
    ← UInt16.toNat_inj, UInt16.reduceToNat]
  omega

/-- Within one identity, signatures tell observations and payloads apart. -/
theorem signature_iff (free : Function.Injective p.sha256) (hr : r.Sound) (hr' : r'.Sound)
    (same : r.identity = r'.identity) :
    r.signature p = r'.signature p ↔ r.normal = r'.normal := by
  have hpayload := payloadHash_iff free r.payload r'.payload
  cases r with
  | event source eventId eventTime version payload =>
    cases r' with
    | event source' eventId' eventTime' version' payload' =>
      cases same
      rw [Reading.signature, Reading.signatureOf, Reading.signature, Reading.signatureOf, hpayload]
      simp [Reading.normal, Reading.payload]
    | snapshot => cases same
  | snapshot source objectId observationId observedAt projectorVersion watermark payload =>
    cases r' with
    | event => cases same
    | snapshot source' objectId' observationId' observedAt' projectorVersion' watermark' payload' =>
      cases same
      have hhash (w : Json) :
          (p.sha256 (written (cost w 0).tokens)).all isPlain = true :=
        hexadecimal_plain (p.hexadecimal _)
      constructor
      · intro h
        have hparts := joined_hash_inj []
          (by
            simp only [forall_mem_cons]
            have h1 := hr.observation
            simp only [Reading.observationParts, forall_mem_cons] at h1
            exact ⟨h1.1, h1.2.1, h1.2.2.1, hhash _, forall_mem_nil _⟩)
          (by
            simp only [forall_mem_cons]
            have h1 := hr'.observation
            simp only [Reading.observationParts, forall_mem_cons] at h1
            exact ⟨h1.1, h1.2.1, h1.2.2.1, hhash _, forall_mem_nil _⟩) (free h)
        simp only [List.cons.injEq, and_true] at hparts
        obtain ⟨htime, rfl, rfl, hsame⟩ := hparts
        obtain rfl : observedAt = observedAt' :=
          Subtype.ext (IsoTime.toISOString_inj observedAt.property observedAt'.property htime)
        have hform : normalForm payload = normalForm payload' := hpayload.mp hsame
        rw [Reading.normal, Reading.normal, hform]
      · intro h
        simp only [Reading.normal, Reading.snapshot.injEq, true_and] at h
        obtain ⟨rfl, rfl, rfl, hsame⟩ := h
        rw [Reading.signature, Reading.signatureOf, Reading.signature, Reading.signatureOf,
          hpayload.mpr hsame]

end

end IdentitySource
