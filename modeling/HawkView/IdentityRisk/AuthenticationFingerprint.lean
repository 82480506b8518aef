import HawkView.Lib.JsonText
import HawkView.Lib.JsonRewrite

/-!
# The fingerprint of an authentication record

A record is reduced to the facts that normalization consumes, its form is made
canonical, and the digest of that form stands for the facts in a replay.
-/

namespace AuthenticationIntegrity

open Json List Option

def MARKER : JsString := js "hawkviewAuthenticationIntegrity"

def MAX_ROW_BYTES : Nat := 16384

def MAX_BATCH_BYTES : Nat := 2 * 1024 * 1024

/-! ## The canonical form -/

def FORBIDDEN : List JsString := [js "__proto__", js "prototype", js "constructor"]

def plainEntries (entries : Entries) : Bool :=
  (names entries).all fun name => !FORBIDDEN.contains name

def plain : Json → Bool
  | .object entries => plainEntries entries
  | _ => false

mutual

/-- The value with the names of its objects in order, `none` where it throws. -/
def canonical (depth : Nat) : Json → Option Json
  | .array items =>
    if depth > 6 then none
    else if items.length ≤ 100 then (canonicalItems (depth + 1) items).map .array
    else none
  | .object entries =>
    if depth > 6 then none
    else if !plainEntries entries || decide (entries.length > 100) then none
    else (canonicalEntries (depth + 1) entries).map fun es => .object (sortedEntries es)
  | v => if depth > 6 then none else some v

def canonicalItems (depth : Nat) : List Json → Option (List Json)
  | [] => some []
  | v :: rest => (canonical depth v).bind fun w =>
    (canonicalItems depth rest).map fun ws => w :: ws

def canonicalEntries (depth : Nat) : Entries → Option Entries
  | [] => some []
  | (name, v) :: rest => (canonical depth v).bind fun w =>
    (canonicalEntries depth rest).map fun ws => (name, w) :: ws

end

/-- The bounds on the depth and on the sizes inside a value. -/
inductive Bounded : Nat → Json → Prop
  | null {depth : Nat} (deep : depth ≤ 6) : Bounded depth .null
  | bool {depth : Nat} (deep : depth ≤ 6) (b : Bool) : Bounded depth (.bool b)
  | number {depth : Nat} (deep : depth ≤ 6) (n : NumberText) : Bounded depth (.number n)
  | string {depth : Nat} (deep : depth ≤ 6) (s : JsString) : Bounded depth (.string s)
  | array {depth : Nat} {items : List Json} (deep : depth ≤ 6) (few : items.length ≤ 100)
      (inner : ∀ v ∈ items, Bounded (depth + 1) v) : Bounded depth (.array items)
  | object {depth : Nat} {entries : Entries} (deep : depth ≤ 6)
      (own : plainEntries entries = true) (few : entries.length ≤ 100)
      (inner : ∀ e ∈ entries, Bounded (depth + 1) e.2) : Bounded depth (.object entries)

variable {depth : Nat} {v : Json}

theorem Bounded.deep (h : Bounded depth v) : depth ≤ 6 := by
  cases h <;> assumption

theorem canonicalItems_some {items others : List Json}
    (h : ∀ v ∈ items, ∀ w, canonical depth v = some w ↔
      Bounded depth v ∧ w = rewrite sortedEntries v) :
    canonicalItems depth items = some others ↔
      (∀ v ∈ items, Bounded depth v) ∧ others = items.map (rewrite sortedEntries) := by
  induction items generalizing others with
  | nil =>
    rw [canonicalItems, Option.some.injEq]
    simp [eq_comm]
  | cons v items ih =>
    have hv := h v (by simp)
    have hitems := fun others => @ih others fun w hw => h w (by simp [hw])
    simp only [canonicalItems, bind_eq_some_iff, map_eq_some_iff, hv, hitems]
    constructor
    · rintro ⟨w, ⟨hw, rfl⟩, ws, ⟨hws, rfl⟩, rfl⟩
      exact ⟨forall_mem_cons.mpr ⟨hw, hws⟩, rfl⟩
    · rintro ⟨hall, rfl⟩
      rw [forall_mem_cons] at hall
      exact ⟨_, ⟨hall.1, rfl⟩, _, ⟨hall.2, rfl⟩, rfl⟩

variable {entries others : Entries}

theorem canonicalEntries_some
    (h : ∀ e ∈ entries, ∀ w, canonical depth e.2 = some w ↔
      Bounded depth e.2 ∧ w = rewrite sortedEntries e.2) :
    canonicalEntries depth entries = some others ↔
      (∀ e ∈ entries, Bounded depth e.2) ∧
        others = entries.map fun e => (e.1, rewrite sortedEntries e.2) := by
  induction entries generalizing others with
  | nil =>
    rw [canonicalEntries, Option.some.injEq]
    simp [eq_comm]
  | cons e entries ih =>
    obtain ⟨name, v⟩ := e
    have hv := h (name, v) (by simp)
    have hentries := fun others => @ih others fun w hw => h w (by simp [hw])
    simp only at hv
    simp only [canonicalEntries, bind_eq_some_iff, map_eq_some_iff, hv, hentries]
    constructor
    · rintro ⟨w, ⟨hw, rfl⟩, ws, ⟨hws, rfl⟩, rfl⟩
      exact ⟨forall_mem_cons.mpr ⟨hw, hws⟩, rfl⟩
    · rintro ⟨hall, rfl⟩
      rw [forall_mem_cons] at hall
      exact ⟨_, ⟨hall.1, rfl⟩, _, ⟨hall.2, rfl⟩, rfl⟩

variable {w : Json}

theorem leaf_some (hcanonical : canonical depth v = if depth > 6 then none else some v)
    (hbounded : depth ≤ 6 → Bounded depth v) (hrewrite : rewrite sortedEntries v = v) :
    canonical depth v = some w ↔ Bounded depth v ∧ w = rewrite sortedEntries v := by
  rw [hcanonical, hrewrite]
  by_cases hdepth : depth > 6
  · have hnot : ¬ Bounded depth v := by
      intro h
      have := h.deep
      omega
    simp [hdepth, hnot]
  · have h := hbounded (by omega)
    simp [hdepth, h, eq_comm]

/-- Within the bounds, the canonical form is the value with its names in order. -/
theorem canonical_some :
    canonical depth v = some w ↔ Bounded depth v ∧ w = rewrite sortedEntries v := by
  induction v using Json.induct generalizing depth w with
  | null => exact leaf_some rfl .null rfl
  | bool b => exact leaf_some rfl (.bool · b) rfl
  | number n => exact leaf_some rfl (.number · n) rfl
  | string s => exact leaf_some rfl (.string · s) rfl
  | array items ih =>
    rw [canonical, rewrite, rewriteItems_eq]
    split
    · rename_i hdepth
      have hnot : ¬ Bounded depth (.array items) := by
        intro h
        have := h.deep
        omega
      simp [hnot]
    split
    · rename_i hdepth hfew
      simp only [map_eq_some_iff, canonicalItems_some fun v hv w => ih v hv]
      constructor
      · rintro ⟨_, ⟨hall, rfl⟩, rfl⟩
        exact ⟨.array (by omega) hfew hall, rfl⟩
      · rintro ⟨hall, rfl⟩
        cases hall with
        | array _ _ inner => exact ⟨_, ⟨inner, rfl⟩, rfl⟩
    · rename_i hmany
      have hnot : ¬ Bounded depth (.array items) := by
        intro h
        cases h with
        | array _ few _ => exact hmany few
      simp [hnot]
  | object entries ih =>
    rw [canonical, rewrite, rewriteEntries_eq]
    split
    · rename_i hdepth
      have hnot : ¬ Bounded depth (.object entries) := by
        intro h
        have := h.deep
        omega
      simp [hnot]
    split
    · rename_i hout
      have hnot : ¬ Bounded depth (.object entries) := by
        intro h
        cases h with
        | object _ own few _ =>
          simp only [own, Bool.not_true, Bool.false_or, decide_eq_true_eq] at hout
          omega
      simp [hnot]
    · rename_i hdepth hin
      simp only [Bool.or_eq_true, Bool.not_eq_true', decide_eq_true_eq, not_or,
        Bool.not_eq_false] at hin
      simp only [map_eq_some_iff, canonicalEntries_some fun e he w => ih e he]
      constructor
      · rintro ⟨_, ⟨hall, rfl⟩, rfl⟩
        exact ⟨.object (by omega) hin.1 (by omega) hall, rfl⟩
      · rintro ⟨hall, rfl⟩
        cases hall with
        | object _ _ _ inner => exact ⟨_, ⟨inner, rfl⟩, rfl⟩

/-! ## Alike values -/

theorem plainEntries_perm (h : (names entries).Perm (names others)) :
    plainEntries entries = plainEntries others := by
  apply Bool.eq_iff_iff.mpr
  simp only [plainEntries, List.all_eq_true]
  exact ⟨fun hall n hn => hall n (h.mem_iff.mpr hn), fun hall n hn => hall n (h.mem_iff.mp hn)⟩

/-- The bounds do not depend on the order of names. -/
theorem Bounded.alike (h : Bounded depth v) (hv : WellFormed v) (hw : WellFormed w)
    (same : Alike v w) : Bounded depth w := by
  induction h generalizing w with
  | null deep => cases w <;> first | exact .null deep | cases same.shape
  | bool deep b => cases w <;> cases same.shape; exact .bool deep b
  | number deep n => cases w <;> cases same.shape; exact .number deep n
  | string deep s => cases w <;> cases same.shape; exact .string deep s
  | array deep few inner ih =>
    rename_i items
    cases hw with
    | array inner' =>
      rename_i others
      cases hv with
      | array innerWell =>
        have hlength : others.length ≤ items.length := by
          rcases same.children (.index items.length) with ⟨_, hy⟩ | ⟨x, _, hx, _, _⟩
          · exact List.getElem?_eq_none_iff.mp hy
          · have hout : items[items.length]? = none := getElem?_eq_none (by omega)
            rw [show items[items.length]? = some x from hx] at hout
            cases hout
        refine .array deep (by omega) ?_
        intro y hy
        obtain ⟨i, hi⟩ := List.getElem?_of_mem hy
        rcases same.children (.index i) with ⟨_, hnone⟩ | ⟨x, z, hx, hz, halike⟩
        · rw [show others[i]? = none from hnone] at hi
          cases hi
        · rw [show others[i]? = some z from hz] at hi
          cases hi
          have hmem := mem_of_getElem? hx
          exact ih x hmem (innerWell x hmem) (inner' y hy) halike
    | _ => cases same.shape
  | object deep own few inner ih =>
    rename_i entries
    cases hw with
    | object inner' distinct' =>
      rename_i others
      cases hv with
      | object innerWell distinct =>
        have hnames := same.names_perm distinct distinct'
        have hlength := hnames.length_eq
        simp only [names, length_map] at hlength
        refine .object deep (plainEntries_perm hnames ▸ own) (by omega) ?_
        rintro ⟨name, y⟩ hy
        have hlookup := mem_lookup distinct' hy
        rcases same.children (.key name) with ⟨_, hnone⟩ | ⟨x, z, hx, hz, halike⟩
        · rw [show others.lookup name = none from hnone] at hlookup
          cases hlookup
        · rw [show others.lookup name = some z from hz] at hlookup
          cases hlookup
          have hmem := lookup_mem hx
          exact ih _ hmem (innerWell _ hmem) (inner' _ hy) halike
    | _ => cases same.shape

/-- Alike values have one canonical form. -/
theorem canonical_alike (hv : WellFormed v) (hw : WellFormed w) (same : Alike v w) :
    canonical depth v = canonical depth w := by
  have hrewrite := rewrite_alike (fun _ _ => sortedEntries_perm) hv hw same
  apply Option.ext
  intro u
  rw [canonical_some, canonical_some, hrewrite]
  exact and_congr_left fun _ =>
    ⟨fun h => h.alike hv hw same, fun h => h.alike hw hv same.symm⟩

/-- The canonical form tells apart all values that are not alike. -/
theorem alike_of_canonical {u : Json} (hv : WellFormed v) (hw : WellFormed w)
    (h : canonical depth v = some u) (h' : canonical depth w = some u) : Alike v w := by
  have heq := (canonical_some.mp h).2.symm.trans (canonical_some.mp h').2
  intro path
  rw [← shapeAt_sortedEntries hv, ← shapeAt_sortedEntries hw, heq]

/-! ## The facts of a record -/

/-- `record[key]`, where what is not there is `null` in the canonical form. -/
def fact (record : Json) (key : JsString) : Json := (child record (.key key)).getD .null

def AUDIT_KEYS : List JsString :=
  [js "Id", js "CreationTime", js "OrganizationId", js "UserId", js "UserType",
    js "ApplicationId", js "RecordType", js "Operation", js "ErrorCode", js "LogonError",
    js "LoginStatus", js "ResultStatus", js "ActorIpAddress"]

def SIGN_IN_KEYS : List JsString :=
  [js "id", js "createdDateTime", js "userId", js "appId", js "isInteractive",
    js "signInEventTypes", js "ipAddress"]

def auditFacts (record : Json) : Entries :=
  (AUDIT_KEYS.map fun key => (key, fact record key)) ++
    [(js "ExtendedProperties", fact record (js "ExtendedProperties"))]

def statusFact (status : Json) : Json :=
  if plain status then
    .object ([js "errorCode", js "failureReason"].map fun key => (key, fact status key))
  else status

def signInFacts (record : Json) : Entries :=
  (SIGN_IN_KEYS.map fun key => (key, fact record key)) ++
    [(js "status", statusFact (fact record (js "status")))]

def isText (v : Option Json) (s : JsString) : Bool :=
  match v with
  | some (.string t) => t == s
  | _ => false

/-- The record was built from an audit record. -/
def audit (raw : Json) : Bool :=
  isText (child raw (.key (js "hawkviewSource"))) (js "MICROSOFT_365_MANAGEMENT_ACTIVITY")

def tagged (source : JsString) (facts : Entries) : Json :=
  .object [(js "source", .string source), (js "facts", .object facts)]

def authenticationFacts (raw : Json) : Option Json :=
  if !plain raw then none
  else if audit raw then
    (child raw (.key (js "managementActivityRecord"))).bind fun record =>
      if plain record then some (tagged (js "M365_AUDIT_STS") (auditFacts record)) else none
  else if (child raw (.key (js "hawkviewSource"))).isSome then none
  else some (tagged (js "GRAPH_SIGN_INS") (signInFacts raw))

/-- Only facts consumed by authentication normalization. -/
def authenticationFactFingerprint (sha256 : JsString → JsString) (raw : Json) : Option JsString :=
  ((authenticationFacts raw).bind (canonical 0)).bind fun facts =>
    if byteLength facts.stringify > MAX_ROW_BYTES then none else some (sha256 facts.stringify)

/-! ## Alike records -/

section Facts

variable {v w raw raw' : Json}

theorem fact_alike (h : Alike v w) (key : JsString) : Alike (fact v key) (fact w key) := by
  unfold fact
  rcases h.children (.key key) with ⟨hx, hy⟩ | ⟨x, y, hx, hy, hsame⟩
  · rw [hx, hy]
    exact fun _ => rfl
  · rw [hx, hy]
    exact hsame

theorem fact_wellFormed (h : WellFormed v) (key : JsString) : WellFormed (fact v key) := by
  unfold fact
  cases hchild : child v (.key key) with
  | none => exact .null
  | some x => exact h.child hchild

theorem plain_alike (hv : WellFormed v) (hw : WellFormed w) (h : Alike v w) :
    plain v = plain w := by
  cases hv with
  | object _ distinct =>
    cases hw with
    | object _ distinct' => exact plainEntries_perm (h.names_perm distinct distinct')
    | _ => cases h.shape
  | _ => cases hw <;> first | rfl | cases h.shape

variable {f : JsString → Json}

/-- Facts that are read off two records under the same keys. -/
theorem keyed_alike {g : JsString → Json} (h : ∀ key, Alike (f key) (g key))
    (keys : List JsString) :
    Forall₂ (fun e o => e.1 = o.1 ∧ Alike e.2 o.2) (keys.map fun key => (key, f key))
      (keys.map fun key => (key, g key)) := by
  induction keys with
  | nil => exact .nil
  | cons key keys ih => exact .cons ⟨rfl, h key⟩ ih

theorem keyed_wellFormed (h : ∀ key, WellFormed (f key)) {keys : List JsString}
    (distinct : keys.Nodup) :
    WellFormed (.object (keys.map fun key => (key, f key))) := by
  constructor
  · intro e he
    obtain ⟨key, _, rfl⟩ := mem_map.mp he
    exact h key
  · simpa [names, Function.comp_def] using distinct

theorem statusFact_alike (hv : WellFormed v) (hw : WellFormed w) (h : Alike v w) :
    Alike (statusFact v) (statusFact w) := by
  unfold statusFact
  rw [plain_alike hv hw h]
  split
  · exact alike_object (keyed_alike (fact_alike h) _)
  · exact h

theorem statusFact_wellFormed (h : WellFormed v) : WellFormed (statusFact v) := by
  unfold statusFact
  split
  · exact keyed_wellFormed (fact_wellFormed h) (by decide)
  · exact h

variable {source : JsString} {facts : Entries}

theorem tagged_alike {others : Entries}
    (h : Forall₂ (fun e o => e.1 = o.1 ∧ Alike e.2 o.2) facts others) :
    Alike (tagged source facts) (tagged source others) :=
  alike_object (.cons ⟨rfl, fun _ => rfl⟩ (.cons ⟨rfl, alike_object h⟩ .nil))

theorem tagged_wellFormed (h : WellFormed (.object facts)) :
    WellFormed (tagged source facts) := by
  constructor
  · intro e he
    rcases mem_cons.mp he with rfl | he
    · exact .string source
    · rw [mem_singleton.mp he]
      exact h
  · show [js "source", js "facts"].Nodup
    decide

theorem auditFacts_alike (h : Alike v w) :
    Forall₂ (fun e o => e.1 = o.1 ∧ Alike e.2 o.2) (auditFacts v) (auditFacts w) :=
  keyed_alike (fact_alike h) (AUDIT_KEYS ++ [js "ExtendedProperties"])

theorem auditFacts_eq (record : Json) : auditFacts record =
    (AUDIT_KEYS ++ [js "ExtendedProperties"]).map fun key => (key, fact record key) := rfl

/-- The names of the facts are distinct, and none of them is forbidden or marks a row. -/
theorem factNames_apart :
    (AUDIT_KEYS ++ [js "ExtendedProperties"]).Nodup ∧ (SIGN_IN_KEYS ++ [js "status"]).Nodup ∧
      MARKER ∉ FORBIDDEN ∧ ∀ key ∈ js "hawkviewSource" :: js "managementActivityRecord" ::
        (SIGN_IN_KEYS ++ [js "status"]), key ≠ MARKER := by
  decide +kernel

theorem auditFacts_wellFormed (h : WellFormed v) : WellFormed (.object (auditFacts v)) := by
  rw [auditFacts_eq]
  exact keyed_wellFormed (fact_wellFormed h) factNames_apart.1

/-- The facts of a sign-in, as what one function reads under each of the keys. -/
theorem signInFacts_eq (record : Json) : signInFacts record =
    (SIGN_IN_KEYS ++ [js "status"]).map fun key => (key,
      if key = js "status" then statusFact (fact record key) else fact record key) := by
  have hkeys (key : JsString) (hkey : key ∈ SIGN_IN_KEYS) : key ≠ js "status" := by
    rintro rfl
    exact disjoint_of_nodup_append factNames_apart.2.1 hkey (mem_singleton_self _)
  have hmap : (SIGN_IN_KEYS.map fun key => (key,
      if key = js "status" then statusFact (fact record key) else fact record key)) =
      SIGN_IN_KEYS.map fun key => (key, fact record key) := by
    apply map_congr_left
    intro key hkey
    rw [if_neg (hkeys key hkey)]
  rw [signInFacts, map_append, hmap, map_singleton, if_pos rfl]

theorem signInFacts_alike (hv : WellFormed v) (hw : WellFormed w) (h : Alike v w) :
    Forall₂ (fun e o => e.1 = o.1 ∧ Alike e.2 o.2) (signInFacts v) (signInFacts w) := by
  rw [signInFacts_eq, signInFacts_eq]
  apply keyed_alike
  intro key
  split
  · exact statusFact_alike (fact_wellFormed hv key) (fact_wellFormed hw key) (fact_alike h key)
  · exact fact_alike h key

theorem signInFacts_wellFormed (h : WellFormed v) : WellFormed (.object (signInFacts v)) := by
  rw [signInFacts_eq]
  apply keyed_wellFormed
  · intro key
    split
    · exact statusFact_wellFormed (fact_wellFormed h key)
    · exact fact_wellFormed h key
  · exact factNames_apart.2.1

theorem isText_alike (h : Alike v w) (key s : JsString) :
    isText (child v (.key key)) s = isText (child w (.key key)) s := by
  rcases h.children (.key key) with ⟨hx, hy⟩ | ⟨x, y, hx, hy, hsame⟩
  · rw [hx, hy]
  · rw [hx, hy]
    have hshape := hsame.shape
    cases x <;> cases y <;> cases hshape <;> rfl

/-- Two values that are told apart by neither their shapes nor their parts. -/
def Same (v w : Json) : Prop := WellFormed v ∧ WellFormed w ∧ Alike v w

theorem facts_alike (h : Same raw raw') :
    Option.Rel Same (authenticationFacts raw) (authenticationFacts raw') := by
  obtain ⟨hraw, hraw', same⟩ := h
  unfold authenticationFacts audit
  rw [plain_alike hraw hraw' same, isText_alike same]
  split
  · exact .none
  split
  · rcases same.children (.key (js "managementActivityRecord")) with
      ⟨hx, hy⟩ | ⟨x, y, hx, hy, hsame⟩
    · rw [hx, hy]
      exact .none
    · have hxw := hraw.child hx
      have hyw := hraw'.child hy
      rw [hx, hy, bind_some, bind_some, plain_alike hxw hyw hsame]
      split
      · exact .some ⟨tagged_wellFormed (auditFacts_wellFormed hxw),
          tagged_wellFormed (auditFacts_wellFormed hyw), tagged_alike (auditFacts_alike hsame)⟩
      · exact .none
  · have hsource : (child raw (.key (js "hawkviewSource"))).isSome =
        (child raw' (.key (js "hawkviewSource"))).isSome := by
      rcases same.children (.key (js "hawkviewSource")) with ⟨hx, hy⟩ | ⟨_, _, hx, hy, _⟩
      · rw [hx, hy]
      · rw [hx, hy]
        rfl
    rw [hsource]
    split
    · exact .none
    · exact .some ⟨tagged_wellFormed (signInFacts_wellFormed hraw),
        tagged_wellFormed (signInFacts_wellFormed hraw'),
        tagged_alike (signInFacts_alike hraw hraw' same)⟩

/-- A replay whose values are alike has the fingerprint of the record. -/
theorem fingerprint_alike (sha256 : JsString → JsString) (h : Same raw raw') :
    authenticationFactFingerprint sha256 raw = authenticationFactFingerprint sha256 raw' := by
  have hcanonical : (authenticationFacts raw).bind (canonical 0) =
      (authenticationFacts raw').bind (canonical 0) := by
    have hfacts := facts_alike h
    generalize authenticationFacts raw = facts, authenticationFacts raw' = facts' at hfacts ⊢
    cases hfacts with
    | none => rfl
    | some hsame => exact canonical_alike hsame.1 hsame.2.1 hsame.2.2
  rw [authenticationFactFingerprint, authenticationFactFingerprint, hcanonical]

theorem child_unmarked {key : JsString} (hkey : key ≠ MARKER) :
    child (deleteAt raw [MARKER]) (.key key) = child raw (.key key) := by
  cases raw with
  | object entries => rw [child_delete_last, if_neg hkey, child]
  | _ => rfl

theorem plain_unmarked : plain (deleteAt raw [MARKER]) = plain raw := by
  cases raw with
  | object entries =>
    have hmarker := factNames_apart.2.2.1
    apply Bool.eq_iff_iff.mpr
    simp only [plain, deleteAt, plainEntries, names, List.all_map, List.all_eq_true,
      Function.comp_apply, mem_filter, bne_iff_ne, Bool.not_eq_true', and_imp]
    constructor
    · intro hall e he
      by_cases hname : e.1 = MARKER
      · rw [hname]
        simpa using hmarker
      · exact hall e he hname
    · exact fun hall e he _ => hall e he
  | _ => rfl

theorem signInFacts_unmarked : signInFacts (deleteAt raw [MARKER]) = signInFacts raw := by
  have hkeys (key : JsString) (hkey : key ∈ SIGN_IN_KEYS) : key ≠ MARKER :=
    factNames_apart.2.2.2 key (by simp [hkey])
  have hmap : (SIGN_IN_KEYS.map fun key => (key, fact (deleteAt raw [MARKER]) key)) =
      SIGN_IN_KEYS.map fun key => (key, fact raw key) := by
    apply map_congr_left
    intro key hkey
    rw [fact, child_unmarked (hkeys key hkey), fact]
  have hstatus : fact (deleteAt raw [MARKER]) (js "status") = fact raw (js "status") := by
    rw [fact, child_unmarked (factNames_apart.2.2.2 _ (by simp)), fact]
  rw [signInFacts, hmap, hstatus, signInFacts]

/-- The marker is not among the facts. -/
theorem fingerprint_unmarked (sha256 : JsString → JsString) (raw : Json) :
    authenticationFactFingerprint sha256 (deleteAt raw [MARKER]) =
      authenticationFactFingerprint sha256 raw := by
  have hsource : js "hawkviewSource" ≠ MARKER := factNames_apart.2.2.2 _ (by simp)
  have hrecord : js "managementActivityRecord" ≠ MARKER := factNames_apart.2.2.2 _ (by simp)
  have hfacts : authenticationFacts (deleteAt raw [MARKER]) = authenticationFacts raw := by
    unfold authenticationFacts audit
    rw [plain_unmarked, child_unmarked hsource, child_unmarked hrecord, signInFacts_unmarked]
  rw [authenticationFactFingerprint, authenticationFactFingerprint, hfacts]

end Facts

end AuthenticationIntegrity
