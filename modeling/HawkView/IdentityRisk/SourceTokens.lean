import HawkView.Lib.JsonRewrite
import HawkView.Lib.Utf8

/-!
# The canonical tokens of a value

A value is given to a hash as a sequence of tokens, each with its length in
front and the entries of an object in the order of their names. Nodes, bytes
and depth are limited. The tokens tell values apart up to the order of entries,
the sign of zero and surrogates that stand alone.
-/

namespace IdentitySource

open Json JsString List Option

/-! ## Tokens -/

def MAX_CANONICAL_SOURCE_NODES : Nat := 2000000

def MAX_CANONICAL_SOURCE_BYTES : Nat := 64 * 1024 * 1024

/-- `CanonicalBudget`. -/
structure CanonicalBudget where
  nodes : Nat
  bytes : Nat
  nodes_le : nodes ≤ MAX_CANONICAL_SOURCE_NODES
  bytes_le : bytes ≤ MAX_CANONICAL_SOURCE_BYTES
  deriving DecidableEq

def CanonicalBudget.full : CanonicalBudget := ⟨0, 0, Nat.zero_le _, Nat.zero_le _⟩

variable {s : JsString}

theorem characters_plain (h : plain s = true) : characters s = s.map character := by
  induction s with
  | nil => rfl
  | cons c rest ih =>
    simp only [plain, all_cons, Bool.and_eq_true, Bool.not_eq_true'] at h
    rw [characters_cons h.1, ih h.2, map_cons]

theorem plain_decimal (n : Nat) : plain (decimal n) = true := by
  rw [plain, List.all_eq_true]
  intro c hc
  have hrange := decimal_digit hc
  have hle : c.toNat ≤ 0x39 := UInt16.le_iff_toNat_le.mp hrange.2
  rw [Bool.not_eq_true', ← Bool.not_eq_true, surrogate_range]
  omega

/-- The bytes of a digit. -/
theorem utf8_digit {c : UInt16} (h : 0x30 ≤ c ∧ c ≤ 0x39) :
    (0x3A : UInt8) ∉ String.utf8EncodeChar (character c) := by
  have hlow : 0x30 ≤ c.toNat := UInt16.le_iff_toNat_le.mp h.1
  have hhigh : c.toNat ≤ 0x39 := UInt16.le_iff_toNat_le.mp h.2
  have hall : ∀ n : Fin 10, (0x3A : UInt8) ∉
      String.utf8EncodeChar (character (0x30 + n.val).toUInt16) := by decide
  have hc : c = (0x30 + (c.toNat - 0x30)).toUInt16 := by
    rw [Nat.add_sub_cancel' hlow]
    exact UInt16.ofNat_toNat.symm
  rw [hc]
  exact hall ⟨c.toNat - 0x30, by omega⟩

/-- `hash.update(String(length)).update(':').update(value)`. -/
def framing : Framing UInt8 where
  header n := utf8 (decimal n)
  sep := 0x3A
  header_injective n m h :=
    decimal_injective (utf8_plain (plain_decimal n) (plain_decimal m) h)
  sep_free n := by
    intro h
    rw [utf8, characters_plain (plain_decimal n)] at h
    obtain ⟨x, hx, hmem⟩ := mem_flatMap.mp h
    obtain ⟨c, hc, rfl⟩ := mem_map.mp hx
    exact utf8_digit (decimal_digit hc) hmem

/-- What a hash was given, and what is left to give. -/
abbrev Hashing := List UInt8 × CanonicalBudget

def canonicalToken (value : JsString) (h : Hashing) : Option Hashing :=
  if within : h.2.bytes + byteLength value ≤ MAX_CANONICAL_SOURCE_BYTES then
    some (h.1 ++ framing.frame (utf8 value),
      ⟨h.2.nodes, h.2.bytes + byteLength value, h.2.nodes_le, within⟩)
  else none

def canonicalNode (depth : Nat) (h : Hashing) : Option Hashing :=
  if within : h.2.nodes + 1 ≤ MAX_CANONICAL_SOURCE_NODES then
    if depth ≤ 16 then some (h.1, ⟨h.2.nodes + 1, h.2.bytes, within, h.2.bytes_le⟩) else none
  else none

/-- The number without its sign when it is zero. -/
def unsigned (n : NumberText) : NumberText := if n.text = js "-0" then .ofInt 0 else n

/-- Entries of any kind in the order of their names. -/
def byName {α : Type} (entries : List (JsString × α)) : List (JsString × α) :=
  entries.insertionSort fun a b => a.1 ≤ b.1

mutual

/-- `canonicalValue`. A parsed document holds no date and no reference to what holds it. -/
def canonicalValue : Json → Nat → Hashing → Option Hashing
  | .null, depth, h => (canonicalNode depth h).bind (canonicalToken (js "null"))
  | .bool true, depth, h => (canonicalNode depth h).bind (canonicalToken (js "boolean:true"))
  | .bool false, depth, h => (canonicalNode depth h).bind (canonicalToken (js "boolean:false"))
  | .string s, depth, h => (canonicalNode depth h).bind (canonicalToken (js "string:" ++ s))
  | .number n, depth, h =>
    (canonicalNode depth h).bind (canonicalToken (js "number:" ++ (unsigned n).text))
  | .array items, depth, h => do
    let h ← canonicalNode depth h
    let h ← canonicalToken (js "array:" ++ decimal items.length) h
    canonicalItems items (depth + 1) h
  | .object entries, depth, h => do
    let h ← canonicalNode depth h
    let h ← canonicalToken (js "object:" ++ decimal entries.length) h
    (byName (canonicalEntries entries (depth + 1))).foldlM (fun h e =>
      (canonicalToken (js "key:" ++ e.1) h).bind e.2) h

def canonicalItems : List Json → Nat → Hashing → Option Hashing
  | [], _, h => some h
  | v :: rest, depth, h => (canonicalValue v depth h).bind (canonicalItems rest depth)

/-- What is to be done with the value of each entry. -/
def canonicalEntries : List (JsString × Json) → Nat →
    List (JsString × (Hashing → Option Hashing))
  | [], _ => []
  | (name, v) :: rest, depth => (name, canonicalValue v depth) :: canonicalEntries rest depth

end

/-! ## What the tokens cost -/

/-- Tokens with what they take of a budget. -/
structure Cost where
  depth : Nat
  nodes : Nat
  tokens : List JsString

namespace Cost

def free : Cost := ⟨0, 0, []⟩

def node (depth : Nat) (token : JsString) : Cost := ⟨depth, 1, [token]⟩

def token (value : JsString) : Cost := ⟨0, 0, [value]⟩

def and (a b : Cost) : Cost := ⟨max a.depth b.depth, a.nodes + b.nodes, a.tokens ++ b.tokens⟩

def all (costs : List Cost) : Cost := costs.foldr and free

def bytes (cost : Cost) : Nat := (cost.tokens.map byteLength).sum

end Cost

/-- What is written in all. -/
def written (tokens : List JsString) : List UInt8 := framing.join (tokens.map utf8)

/-- Writes tokens, or nothing where a limit is passed. -/
def pay (cost : Cost) (h : Hashing) : Option Hashing :=
  if within : cost.depth ≤ 16 ∧ h.2.nodes + cost.nodes ≤ MAX_CANONICAL_SOURCE_NODES ∧
      h.2.bytes + cost.bytes ≤ MAX_CANONICAL_SOURCE_BYTES then
    some (h.1 ++ written cost.tokens,
      ⟨h.2.nodes + cost.nodes, h.2.bytes + cost.bytes, within.2.1, within.2.2⟩)
  else none

theorem pay_free (h : Hashing) : pay .free h = some h := by
  have hn := h.2.nodes_le
  have hb := h.2.bytes_le
  simp [pay, Cost.free, Cost.bytes, written, Framing.join, hn, hb]

theorem bytes_and (a b : Cost) : (a.and b).bytes = a.bytes + b.bytes := by
  simp [Cost.and, Cost.bytes]

theorem written_append (s t : List JsString) : written (s ++ t) = written s ++ written t := by
  simp [written, Framing.join]

/-- Two costs are paid together or one after the other. -/
theorem pay_and (a b : Cost) (h : Hashing) : pay (a.and b) h = (pay a h).bind (pay b) := by
  have hbytes := bytes_and a b
  by_cases ha : a.depth ≤ 16 ∧ h.2.nodes + a.nodes ≤ MAX_CANONICAL_SOURCE_NODES ∧
      h.2.bytes + a.bytes ≤ MAX_CANONICAL_SOURCE_BYTES
  · rw [pay.eq_def a, dif_pos ha, bind_some]
    by_cases hb : b.depth ≤ 16 ∧ h.2.nodes + a.nodes + b.nodes ≤ MAX_CANONICAL_SOURCE_NODES ∧
        h.2.bytes + a.bytes + b.bytes ≤ MAX_CANONICAL_SOURCE_BYTES
    · have hall : (a.and b).depth ≤ 16 ∧
          h.2.nodes + (a.and b).nodes ≤ MAX_CANONICAL_SOURCE_NODES ∧
          h.2.bytes + (a.and b).bytes ≤ MAX_CANONICAL_SOURCE_BYTES := by
        refine ⟨max_le ha.1 hb.1, ?_, ?_⟩
        · simpa [Cost.and, ← Nat.add_assoc] using hb.2.1
        · rw [hbytes, ← Nat.add_assoc]
          exact hb.2.2
      have hnodes : (a.and b).nodes = a.nodes + b.nodes := rfl
      have htokens : (a.and b).tokens = a.tokens ++ b.tokens := rfl
      rw [pay, dif_pos hall, pay, dif_pos hb]
      simp only [hbytes, hnodes, htokens, written_append, append_assoc, Nat.add_assoc]
    · have hall : ¬((a.and b).depth ≤ 16 ∧
          h.2.nodes + (a.and b).nodes ≤ MAX_CANONICAL_SOURCE_NODES ∧
          h.2.bytes + (a.and b).bytes ≤ MAX_CANONICAL_SOURCE_BYTES) := by
        rintro ⟨hdepth, hnodes, hsize⟩
        apply hb
        refine ⟨(le_max_right _ _).trans hdepth, ?_, ?_⟩
        · simpa [Cost.and, ← Nat.add_assoc] using hnodes
        · rwa [hbytes, ← Nat.add_assoc] at hsize
      rw [pay, dif_neg hall, pay, dif_neg hb]
  · have hall : ¬((a.and b).depth ≤ 16 ∧
        h.2.nodes + (a.and b).nodes ≤ MAX_CANONICAL_SOURCE_NODES ∧
        h.2.bytes + (a.and b).bytes ≤ MAX_CANONICAL_SOURCE_BYTES) := by
      rintro ⟨hdepth, hnodes, hsize⟩
      apply ha
      refine ⟨(le_max_left _ _).trans hdepth, ?_, ?_⟩
      · simp only [Cost.and] at hnodes
        omega
      · omega
    rw [pay, dif_neg hall, pay, dif_neg ha]
    rfl

theorem canonicalToken_pay (value : JsString) (h : Hashing) :
    canonicalToken value h = pay (.token value) h := by
  have hn := h.2.nodes_le
  simp [canonicalToken, pay, Cost.token, Cost.bytes, written, Framing.join, hn]

theorem node_pay (depth : Nat) (value : JsString) (h : Hashing) :
    (canonicalNode depth h).bind (canonicalToken value) = pay (.node depth value) h := by
  have hsplit : Cost.node depth value = Cost.and ⟨depth, 1, []⟩ (.token value) := by
    simp [Cost.node, Cost.and, Cost.token]
  have hnode : canonicalNode depth h = pay ⟨depth, 1, []⟩ h := by
    have hb := h.2.bytes_le
    by_cases hdepth : depth ≤ 16
    · simp [canonicalNode, pay, Cost.bytes, written, Framing.join, hb, hdepth]
    · simp [canonicalNode, pay, hdepth]
  have htoken : canonicalToken value = pay (.token value) :=
    funext fun h => canonicalToken_pay value h
  rw [hsplit, pay_and, hnode, htoken]

mutual

/-- What a value costs at a depth. -/
def cost : Json → Nat → Cost
  | .null, depth => .node depth (js "null")
  | .bool true, depth => .node depth (js "boolean:true")
  | .bool false, depth => .node depth (js "boolean:false")
  | .string s, depth => .node depth (js "string:" ++ s)
  | .number n, depth => .node depth (js "number:" ++ (unsigned n).text)
  | .array items, depth =>
    (Cost.node depth (js "array:" ++ decimal items.length)).and
      (.all (costItems items (depth + 1)))
  | .object entries, depth =>
    (Cost.node depth (js "object:" ++ decimal entries.length)).and
      (.all ((byName (costEntries entries (depth + 1))).map fun e =>
        (Cost.token (js "key:" ++ e.1)).and e.2))

def costItems : List Json → Nat → List Cost
  | [], _ => []
  | v :: rest, depth => cost v depth :: costItems rest depth

def costEntries : List (JsString × Json) → Nat → List (JsString × Cost)
  | [], _ => []
  | (name, v) :: rest, depth => (name, cost v depth) :: costEntries rest depth

end

theorem costEntries_eq (entries : List (JsString × Json)) (depth : Nat) :
    costEntries entries depth = entries.map fun e => (e.1, cost e.2 depth) := by
  induction entries with
  | nil => rfl
  | cons e entries ih => rw [costEntries, ih, map_cons]

theorem canonicalEntries_eq (entries : List (JsString × Json)) (depth : Nat) :
    canonicalEntries entries depth = entries.map fun e => (e.1, canonicalValue e.2 depth) := by
  induction entries with
  | nil => rfl
  | cons e entries ih => rw [canonicalEntries, ih, map_cons]

/-- What stands beside the names does not matter for their order. -/
theorem byName_map {α β : Type} (f : α → β) (entries : List (JsString × α)) :
    byName (entries.map fun e => (e.1, f e.2)) = (byName entries).map fun e => (e.1, f e.2) := by
  symm
  apply map_insertionSort
  intro a _ b _
  rfl

/-- Writing a value is paying what it costs. -/
theorem canonicalValue_pay (v : Json) (depth : Nat) (h : Hashing) :
    canonicalValue v depth h = pay (cost v depth) h := by
  induction v using induct generalizing depth h with
  | null => rw [canonicalValue, cost, node_pay]
  | bool b => cases b <;> rw [canonicalValue, cost, node_pay]
  | number n => rw [canonicalValue, cost, node_pay]
  | string s => rw [canonicalValue, cost, node_pay]
  | array items ih =>
    have hitems : ∀ (rest : List Json) (h : Hashing), (∀ v ∈ rest, v ∈ items) →
        canonicalItems rest (depth + 1) h = pay (.all (costItems rest (depth + 1))) h := by
      intro rest
      induction rest with
      | nil =>
        intro h _
        exact (pay_free h).symm
      | cons v rest ihRest =>
        intro h hmem
        have hv : canonicalValue v (depth + 1) = pay (cost v (depth + 1)) :=
          funext fun h => ih v (hmem v mem_cons_self) (depth + 1) h
        have hrest : canonicalItems rest (depth + 1) = pay (.all (costItems rest (depth + 1))) :=
          funext fun h => ihRest h fun w hw => hmem w (mem_cons_of_mem v hw)
        rw [canonicalItems, costItems, hv, hrest]
        exact (pay_and _ _ h).symm
    have hhead := node_pay depth (js "array:" ++ decimal items.length) h
    have hrest : canonicalItems items (depth + 1) = pay (.all (costItems items (depth + 1))) :=
      funext fun h => hitems items h fun _ hv => hv
    rw [canonicalValue, cost, pay_and, ← hhead, bind_assoc, hrest]
    rfl
  | object entries ih =>
    have hentries : ∀ (rest : List (JsString × Json)) (h : Hashing), (∀ e ∈ rest, e ∈ entries) →
        (rest.map fun e => (e.1, canonicalValue e.2 (depth + 1))).foldlM (fun h e =>
          (canonicalToken (js "key:" ++ e.1) h).bind e.2) h =
        pay (.all ((rest.map fun e => (e.1, cost e.2 (depth + 1))).map fun e =>
          (Cost.token (js "key:" ++ e.1)).and e.2)) h := by
      intro rest
      induction rest with
      | nil =>
        intro h _
        exact (pay_free h).symm
      | cons e rest ihRest =>
        intro h hmem
        have hv : canonicalValue e.2 (depth + 1) = pay (cost e.2 (depth + 1)) :=
          funext fun h => ih e (hmem e mem_cons_self) (depth + 1) h
        have hnext (h : Hashing) := ihRest h fun o ho => hmem o (mem_cons_of_mem e ho)
        rw [map_cons, foldlM_cons, hv, canonicalToken_pay, ← pay_and, funext hnext]
        exact (pay_and _ _ h).symm
    have hhead := node_pay depth (js "object:" ++ decimal entries.length) h
    have hrest (h : Hashing) :=
      hentries (byName entries) h fun _ he => (perm_insertionSort _ _).mem_iff.mp he
    rw [canonicalValue, cost, pay_and, ← hhead, bind_assoc, canonicalEntries_eq,
      costEntries_eq, byName_map (fun v => canonicalValue v (depth + 1)),
      byName_map (fun v => cost v (depth + 1)), ← funext hrest]
    rfl

/-! ## What the tokens tell -/

mutual

/-- The value without the signs of zeros and without surrogates that stand alone. -/
def plainForm : Json → Json
  | .null => .null
  | .bool b => .bool b
  | .number n => .number (unsigned n)
  | .string s => .string (toWellFormed s)
  | .array items => .array (plainItems items)
  | .object entries => .object (plainEntries entries)

def plainItems : List Json → List Json
  | [] => []
  | v :: rest => plainForm v :: plainItems rest

def plainEntries : List (JsString × Json) → List (JsString × Json)
  | [] => []
  | (name, v) :: rest => (toWellFormed name, plainForm v) :: plainEntries rest

end

/-- The form that all values with the same tokens have. -/
def normalForm (v : Json) : Json := plainForm (rewrite byName v)

theorem plainItems_eq (items : List Json) : plainItems items = items.map plainForm := by
  induction items with
  | nil => rfl
  | cons v items ih => rw [plainItems, ih, map_cons]

theorem plainEntries_eq (entries : List (JsString × Json)) :
    plainEntries entries = entries.map fun e => (toWellFormed e.1, plainForm e.2) := by
  induction entries with
  | nil => rfl
  | cons e entries ih => rw [plainEntries, ih, map_cons]

theorem normalForm_array (items : List Json) :
    normalForm (.array items) = .array (items.map normalForm) := by
  rw [normalForm, rewrite, rewriteItems_eq, plainForm, plainItems_eq, List.map_map]
  rfl

theorem normalForm_object (entries : List (JsString × Json)) :
    normalForm (.object entries) =
      .object ((byName entries).map fun e => (toWellFormed e.1, normalForm e.2)) := by
  rw [normalForm, rewrite, rewriteEntries_eq, byName_map, plainForm, plainEntries_eq, List.map_map]
  rfl

variable {entries others : List (JsString × Json)}

variable {v w : Json}

/-- Values that differ in the order of entries only have one normal form. -/
theorem normalForm_alike (hv : WellFormed v) (hw : WellFormed w) (h : Alike v w) :
    normalForm v = normalForm w := by
  have hrewrite : rewrite byName v = rewrite byName w :=
    rewrite_alike (fun _ _ => insertionSort_perm) hv hw h
  rw [normalForm, hrewrite, normalForm]

/-- Where numbers and texts are plain, the normal form leaves out the order of entries only. -/
theorem normalForm_iff (hv : WellFormed v) (hw : WellFormed w)
    (plain : normalForm v = rewrite byName v) (plain' : normalForm w = rewrite byName w) :
    normalForm v = normalForm w ↔ Alike v w := by
  have keeping : Keeping byName fun _ => true :=
    ⟨fun entries => by
      rw [filter_eq_self.mpr fun _ _ => rfl]
      exact perm_insertionSort _ _⟩
  constructor
  · intro h path
    have hall : path.all (Step.kept fun _ => true) = true := by
      rw [List.all_eq_true]
      intro step _
      cases step <;> rfl
    have hshape := keeping.shapeAt hv path
    have hshape' := keeping.shapeAt hw path
    rw [if_pos hall] at hshape hshape'
    rw [← hshape, ← hshape', ← plain, h, plain']
  · exact normalForm_alike hv hw

/-- The token of a value itself. -/
def head : Json → JsString
  | .null => js "null"
  | .bool true => js "boolean:true"
  | .bool false => js "boolean:false"
  | .string s => js "string:" ++ s
  | .number n => js "number:" ++ n.text
  | .array items => js "array:" ++ decimal items.length
  | .object entries => js "object:" ++ decimal entries.length

mutual

/-- The tokens of a value in the order of its entries. -/
def flat : Json → List JsString
  | .array items => head (.array items) :: flatItems items
  | .object entries => head (.object entries) :: flatEntries entries
  | v => [head v]

def flatItems : List Json → List JsString
  | [] => []
  | v :: rest => flat v ++ flatItems rest

def flatEntries : List (JsString × Json) → List JsString
  | [] => []
  | (name, v) :: rest => (js "key:" ++ name) :: (flat v ++ flatEntries rest)

end

/-- What stands before the colon of a head, and what after it. -/
def headParts : Json → Option (JsString × JsString)
  | .null => none
  | .bool true => some (js "boolean", js "true")
  | .bool false => some (js "boolean", js "false")
  | .string s => some (js "string", s)
  | .number n => some (js "number", n.text)
  | .array items => some (js "array", decimal items.length)
  | .object entries => some (js "object", decimal entries.length)

theorem splitFirst_head (v : Json) : splitFirst 0x3A (head v) = headParts v := by
  have hfree : ∀ label ∈ [js "string", js "number", js "array", js "object"],
      (0x3A : UInt16) ∉ label := by decide
  cases v with
  | null => decide
  | bool b => cases b <;> decide
  | number n => exact splitFirst_append (hfree (js "number") (by decide)) n.text
  | string s => exact splitFirst_append (hfree (js "string") (by decide)) s
  | array items => exact splitFirst_append (hfree (js "array") (by decide)) _
  | object entries => exact splitFirst_append (hfree (js "object") (by decide)) _

/-- The kind of value that the parts of a head are of. -/
def kindOfParts : Option (JsString × JsString) → Kind
  | none => .null
  | some (label, detail) =>
    if label = js "boolean" then if detail = js "true" then .boolTrue else .boolFalse
    else if label = js "number" then .number
    else if label = js "string" then .string
    else if label = js "array" then .array
    else .object

theorem kindOfParts_head (v : Json) : kindOfParts (headParts v) = v.kind := by
  cases v with
  | bool b => cases b <;> decide
  | _ => rfl

theorem parts_of_head (h : head v = head w) :
    headParts v = headParts w ∧ v.kind = w.kind := by
  have hparts : headParts v = headParts w := by
    rw [← splitFirst_head, h, splitFirst_head]
  rw [← kindOfParts_head, hparts, kindOfParts_head]
  exact ⟨rfl, rfl⟩

/-- What follows the head. -/
def body : Json → List JsString
  | .array items => flatItems items
  | .object entries => flatEntries entries
  | _ => []

theorem flat_eq (v : Json) : flat v = head v :: body v := by
  cases v <;> rfl

/-- The tokens of a value split off the front of any tokens. -/
def SplitsOff (v : Json) : Prop :=
  ∀ w r u, flat v ++ r = flat w ++ u → v = w ∧ r = u

variable {r u : List JsString}

theorem items_split {items : List Json} (ih : ∀ v ∈ items, SplitsOff v) {others : List Json}
    (length : items.length = others.length) (h : flatItems items ++ r = flatItems others ++ u) :
    items = others ∧ r = u := by
  induction items generalizing others with
  | nil =>
    cases others with
    | nil => exact ⟨rfl, h⟩
    | cons w others => cases length
  | cons v items ihItems =>
    cases others with
    | nil => cases length
    | cons w others =>
      simp only [flatItems, append_assoc] at h
      obtain ⟨rfl, hrest⟩ := ih v mem_cons_self w _ _ h
      obtain ⟨rfl, hr⟩ := ihItems (fun x hx => ih x (mem_cons_of_mem v hx))
        (Nat.succ.inj length) hrest
      exact ⟨rfl, hr⟩

theorem entries_split (ih : ∀ e ∈ entries, SplitsOff e.2)
    (length : entries.length = others.length)
    (h : flatEntries entries ++ r = flatEntries others ++ u) : entries = others ∧ r = u := by
  induction entries generalizing others with
  | nil =>
    cases others with
    | nil => exact ⟨rfl, h⟩
    | cons o others => cases length
  | cons e entries ihEntries =>
    cases others with
    | nil => cases length
    | cons o others =>
      obtain ⟨name, v⟩ := e
      obtain ⟨other, w⟩ := o
      simp only [flatEntries, cons_append, append_assoc] at h
      obtain ⟨hname, hvalue⟩ := List.cons.inj h
      obtain rfl : name = other := append_cancel_left hname
      obtain ⟨rfl, hrest⟩ := ih (name, v) mem_cons_self w _ _ hvalue
      obtain ⟨rfl, hr⟩ := ihEntries (fun x hx => ih x (mem_cons_of_mem _ hx))
        (Nat.succ.inj length) hrest
      exact ⟨rfl, hr⟩

theorem heads_agree (h : flat v ++ r = flat w ++ u) :
    headParts v = headParts w ∧ v.kind = w.kind ∧ body v ++ r = body w ++ u := by
  rw [flat_eq, flat_eq] at h
  obtain ⟨hparts, hkind⟩ := parts_of_head (List.cons.inj h).1
  exact ⟨hparts, hkind, (List.cons.inj h).2⟩

theorem splitsOff (v : Json) : SplitsOff v := by
  induction v using induct with
  | null =>
    intro w r u h
    obtain ⟨_, hkind, hrest⟩ := heads_agree h
    cases w with
    | null => exact ⟨rfl, hrest⟩
    | bool b => cases b <;> cases hkind
    | _ => cases hkind
  | bool b =>
    intro w r u h
    obtain ⟨_, hkind, hrest⟩ := heads_agree h
    cases w with
    | bool b' =>
      have hb : b = b' := by cases b <;> cases b' <;> first | rfl | cases hkind
      exact ⟨congrArg Json.bool hb, hrest⟩
    | _ => cases b <;> cases hkind
  | number n =>
    intro w r u h
    obtain ⟨hparts, hkind, hrest⟩ := heads_agree h
    cases w with
    | number m =>
      obtain ⟨text, htext⟩ := n
      obtain ⟨text', htext'⟩ := m
      obtain rfl : text = text' := (Prod.mk.inj (Option.some.inj hparts)).2
      exact ⟨rfl, hrest⟩
    | bool b => cases b <;> cases hkind
    | _ => cases hkind
  | string s =>
    intro w r u h
    obtain ⟨hparts, hkind, hrest⟩ := heads_agree h
    cases w with
    | string t =>
      obtain rfl : s = t := (Prod.mk.inj (Option.some.inj hparts)).2
      exact ⟨rfl, hrest⟩
    | bool b => cases b <;> cases hkind
    | _ => cases hkind
  | array items ih =>
    intro w r u h
    obtain ⟨hparts, hkind, hrest⟩ := heads_agree h
    cases w with
    | array others =>
      have hlength := decimal_injective (Prod.mk.inj (Option.some.inj hparts)).2
      obtain ⟨rfl, hr⟩ := items_split ih hlength hrest
      exact ⟨rfl, hr⟩
    | bool b => cases b <;> cases hkind
    | _ => cases hkind
  | object entries ih =>
    intro w r u h
    obtain ⟨hparts, hkind, hrest⟩ := heads_agree h
    cases w with
    | object others =>
      have hlength := decimal_injective (Prod.mk.inj (Option.some.inj hparts)).2
      obtain ⟨rfl, hr⟩ := entries_split ih hlength hrest
      exact ⟨rfl, hr⟩
    | bool b => cases b <;> cases hkind
    | _ => cases hkind

theorem flat_injective : Function.Injective flat := by
  intro v w h
  exact (splitsOff v w [] [] (by rw [h])).1

/-! ## Surrogates that stand alone -/

theorem toWellFormed_append (h : plain s = true) (t : JsString) :
    toWellFormed (s ++ t) = s ++ toWellFormed t := by
  calc toWellFormed (s ++ t) = (characters (s ++ t)).flatMap units := (flatMap_units _).symm
    _ = (characters s).flatMap units ++ (characters t).flatMap units := by
      rw [characters_append h, flatMap_append]
    _ = s ++ toWellFormed t := by rw [flatMap_units, flatMap_units, toWellFormed_plain h]

theorem plain_number (n : NumberText) : plain n.text = true := by
  have hnumeric := n.wellFormed
  rw [Bool.and_eq_true] at hnumeric
  rw [plain, List.all_eq_true]
  intro c hc
  have hc' := List.all_eq_true.mp hnumeric.2 c hc
  rw [Bool.not_eq_true', ← Bool.not_eq_true, surrogate_range]
  simp only [isNumeric, Bool.or_eq_true, decide_eq_true_eq, UInt16.le_iff_toNat_le,
    UInt16.reduceToNat] at hc'
  rcases hc' with hc' | hc'
  · omega
  · simp only [mem_cons, not_mem_nil, or_false] at hc'
    rcases hc' with rfl | rfl | rfl | rfl <;> decide

/-- The tokens that are written are those of the normal form. -/
theorem tokens_normal (v : Json) (depth : Nat) :
    (cost v depth).tokens.map toWellFormed = flat (normalForm v) := by
  have hlabel : ∀ label ∈ [js "string:", js "number:", js "array:", js "object:", js "key:"],
      plain label = true := by decide
  have hnull : [js "null"].map toWellFormed = [js "null"] := by decide
  have htrue : [js "boolean:true"].map toWellFormed = [js "boolean:true"] := by decide
  have hfalse : [js "boolean:false"].map toWellFormed = [js "boolean:false"] := by decide
  induction v using induct generalizing depth with
  | null => exact hnull
  | bool b =>
    cases b
    · exact hfalse
    · exact htrue
  | number n =>
    simp only [cost, Cost.node, normalForm, rewrite, plainForm, flat, head, map_cons,
      map_nil,
      toWellFormed_append (hlabel (js "number:") (by decide)),
      toWellFormed_plain (plain_number _)]
  | string s =>
    simp only [cost, Cost.node, normalForm, rewrite, plainForm, flat, head, map_cons,
      map_nil,
      toWellFormed_append (hlabel (js "string:") (by decide))]
  | array items ih =>
    have hitems : ∀ rest : List Json, (∀ v ∈ rest, v ∈ items) →
        (Cost.all (costItems rest (depth + 1))).tokens.map toWellFormed =
          flatItems (rest.map normalForm) := by
      intro rest hmem
      induction rest with
      | nil => rfl
      | cons v rest ihRest =>
        have hv := ih v (hmem v mem_cons_self) (depth + 1)
        have hrest := ihRest fun w hw => hmem w (mem_cons_of_mem v hw)
        rw [costItems, map_cons, flatItems, ← hv, ← hrest, ← map_append]
        rfl
    rw [normalForm_array, flat, ← hitems items fun _ hv => hv, head, length_map]
    simp only [cost, Cost.node, Cost.and, cons_append, nil_append, map_cons,
      toWellFormed_append (hlabel (js "array:") (by decide)), toWellFormed_plain (plain_decimal _)]
  | object entries ih =>
    have hentries : ∀ rest : List (JsString × Json), (∀ e ∈ rest, e ∈ entries) →
        (Cost.all ((rest.map fun e => (e.1, cost e.2 (depth + 1))).map fun e =>
          (Cost.token (js "key:" ++ e.1)).and e.2)).tokens.map toWellFormed =
        flatEntries (rest.map fun e => (toWellFormed e.1, normalForm e.2)) := by
      intro rest hmem
      induction rest with
      | nil => rfl
      | cons e rest ihRest =>
        have hv := ih e (hmem e mem_cons_self) (depth + 1)
        have hrest := ihRest fun o ho => hmem o (mem_cons_of_mem e ho)
        have hkey := toWellFormed_append (hlabel (js "key:") (by decide)) e.1
        simp only [map_cons, flatEntries]
        rw [← hv, ← hrest, ← hkey, ← map_append]
        rfl
    have hlength : ((byName entries).map fun e => (toWellFormed e.1, normalForm e.2)).length =
        entries.length := by
      rw [length_map, byName, length_insertionSort]
    rw [normalForm_object, flat, ← hentries (byName entries) fun _ he =>
      (perm_insertionSort _ _).mem_iff.mp he, head, hlength, cost, costEntries_eq,
      byName_map (fun v => cost v (depth + 1))]
    simp only [Cost.node, Cost.and, cons_append, nil_append, map_cons,
      toWellFormed_append (hlabel (js "object:") (by decide)), toWellFormed_plain (plain_decimal _)]

/-- What is written tells values apart by their normal forms. -/
theorem written_iff (v w : Json) :
    written (cost v 0).tokens = written (cost w 0).tokens ↔ normalForm v = normalForm w := by
  have hutf8 : ∀ s t : List JsString, s.map utf8 = t.map utf8 ↔
      s.map toWellFormed = t.map toWellFormed := by
    intro s t
    induction s generalizing t with
    | nil => cases t <;> simp
    | cons a s ih =>
      cases t with
      | nil => simp
      | cons b t => simp [ih, utf8_iff]
  calc written (cost v 0).tokens = written (cost w 0).tokens
      ↔ (cost v 0).tokens.map utf8 = (cost w 0).tokens.map utf8 :=
        framing.join_injective.eq_iff
    _ ↔ (cost v 0).tokens.map toWellFormed = (cost w 0).tokens.map toWellFormed := hutf8 _ _
    _ ↔ flat (normalForm v) = flat (normalForm w) := by rw [tokens_normal, tokens_normal]
    _ ↔ normalForm v = normalForm w := flat_injective.eq_iff

end IdentitySource
