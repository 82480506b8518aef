import HawkView.Lib.JsonChunks
import HawkView.Lib.StableOrder
import HawkView.Tenants.PimScheduleObservation

/-!
# The canonical text of a record

The loop over the tasks writes the text of the JSON value that it is given, the
names of each object in order, and ends within the bound exactly when the text
does.
-/

namespace PimObservation

open Json List

/-- Writes pieces one after the other. -/
def emit (byteLimit : Nat) : List JsString → Encoder → Except Code Encoder
  | [], e => .ok e
  | s :: pieces, e => (e.append byteLimit s).bind (emit byteLimit pieces)

section Emit

variable {byteLimit : Nat} {e e' : Encoder}

theorem emit_append (pieces more : List JsString) (e : Encoder) :
    emit byteLimit (pieces ++ more) e =
      (emit byteLimit pieces e).bind (emit byteLimit more) := by
  induction pieces generalizing e with
  | nil => rfl
  | cons s pieces ih =>
    rw [cons_append, emit, emit]
    cases e.append byteLimit s with
    | error code => rfl
    | ok e => exact ih e

theorem append_ok {s : JsString} (h : e.append byteLimit s = .ok e') :
    e'.ancestors = e.ancestors ∧ e'.bytes ≤ byteLimit := by
  rw [Encoder.append] at h
  split at h
  · cases h
  · rename_i hle
    cases h
    exact ⟨rfl, Nat.not_lt.mp hle⟩

theorem emit_ancestors {pieces : List JsString} (h : emit byteLimit pieces e = .ok e') :
    e'.ancestors = e.ancestors := by
  induction pieces generalizing e with
  | nil =>
    cases h
    rfl
  | cons s pieces ih =>
    obtain ⟨e₁, happend, hrest⟩ := Traverse.bind_ok.mp h
    rw [ih hrest, (append_ok happend).1]

/-- The objects around make no difference to what is written. -/
theorem emit_below (pieces : List JsString) (e : Encoder) (ancestors : List Nat) :
    emit byteLimit pieces { e with ancestors } =
      (emit byteLimit pieces e).map fun e => { e with ancestors } := by
  induction pieces generalizing e with
  | nil => rfl
  | cons s pieces ih =>
    rw [emit, emit, Encoder.append, Encoder.append]
    split
    · rfl
    · exact ih { e with text := e.text ++ s, bytes := e.bytes + byteLength s }

/-- Pieces are written exactly when they fit. -/
theorem emit_eq (pieces : List JsString) (e : Encoder) (within : e.bytes ≤ byteLimit) :
    emit byteLimit pieces e =
      if byteLimit < e.bytes + (pieces.map byteLength).sum then .error .inputByteLimitExceeded
      else .ok { e with
        text := e.text ++ pieces.flatten, bytes := e.bytes + (pieces.map byteLength).sum } := by
  induction pieces generalizing e with
  | nil =>
    rw [if_neg]
    · simp [emit]
    · simpa using within
  | cons s pieces ih =>
    rw [emit, Encoder.append, map_cons, sum_cons]
    by_cases hs : byteLimit < e.bytes + byteLength s
    · rw [if_pos hs, if_pos (by omega)]
      rfl
    · rw [if_neg hs]
      have hrest := ih { e with text := e.text ++ s, bytes := e.bytes + byteLength s } (by
        simpa using hs)
      rw [Nat.add_assoc] at hrest
      refine Eq.trans hrest ?_
      simp only [flatten_cons, append_assoc]

end Emit

variable {byteLimit : Nat} {ancestors : List Nat}

/-- The tasks write the pieces before anything else is done. -/
def Writes (byteLimit : Nat) (ancestors : List Nat) (tasks : List Task)
    (pieces : List JsString) : Prop :=
  ∀ (e : Encoder) (more : List Task), e.ancestors = ancestors → e.bytes ≤ byteLimit →
    encode byteLimit (tasks ++ more) e =
      (emit byteLimit pieces e).bind (encode byteLimit more)

variable {pieces : List JsString}

theorem emit_within {e e' : Encoder} (within : e.bytes ≤ byteLimit)
    (h : emit byteLimit pieces e = .ok e') : e'.bytes ≤ byteLimit := by
  rw [emit_eq pieces e within] at h
  split at h
  · cases h
  · rename_i hle
    cases h
    exact Nat.not_lt.mp hle

theorem Writes.append {tasks more : List Task} {others : List JsString}
    (h : Writes byteLimit ancestors tasks pieces) (h' : Writes byteLimit ancestors more others) :
    Writes byteLimit ancestors (tasks ++ more) (pieces ++ others) := by
  intro e rest hancestors within
  rw [append_assoc, h e _ hancestors within, emit_append]
  cases hemit : emit byteLimit pieces e with
  | error code => rfl
  | ok e₁ =>
    exact h' e₁ rest ((emit_ancestors hemit).trans hancestors) (emit_within within hemit)

theorem writes_nil : Writes byteLimit ancestors [] [] := by
  intro e more _ _
  rfl

theorem writes_text (s : JsString) : Writes byteLimit ancestors [.text s] [s] := by
  intro e more _ _
  rw [cons_append, nil_append, encode, emit]
  cases e.append byteLimit s <;> rfl

variable {v : JsData}

/-- A value that pushes nothing writes what it appends. -/
theorem writes_leaf {s : JsString}
    (h : ∀ e : Encoder, e.bytes ≤ byteLimit →
      visit byteLimit e v = (e.append byteLimit s).map ([], ·)) :
    Writes byteLimit ancestors [.value v] [s] := by
  intro e more _ within
  rw [cons_append, nil_append, encode]
  have hvisit := h e within
  rw [emit]
  cases happend : e.append byteLimit s with
  | error code =>
    rw [happend] at hvisit
    split
    · rename_i heq
      cases heq.symm.trans hvisit
      rfl
    · rename_i heq
      cases heq.symm.trans hvisit
  | ok e₁ =>
    rw [happend] at hvisit
    split
    · rename_i heq
      cases heq.symm.trans hvisit
    · rename_i heq
      cases heq.symm.trans hvisit
      rfl

section Container

variable {label : Property JsData → List Task} {own : List (Property JsData)}
  {members : List (List JsString)}

/-- What the tasks of each property write, one by one. -/
def Members (byteLimit : Nat) (ancestors : List Nat) (label : Property JsData → List Task)
    (own : List (Property JsData)) (members : List (List JsString)) : Prop :=
  List.Forall₂
    (fun p pieces => Writes byteLimit ancestors (label p ++ p.value.toList.map .value) pieces)
    own members

theorem writes_properties (h : Members byteLimit ancestors label own members) :
    Writes byteLimit ancestors (propertyTasks label own)
      (members.flatMap fun pieces => [0x2C] :: pieces) := by
  induction h with
  | nil => exact writes_nil
  | cons head _ ih => exact ((writes_text [0x2C]).append head).append ih

/-- The first property comes without a comma. -/
theorem writes_members (h : Members byteLimit ancestors label own members) :
    Writes byteLimit ancestors ((propertyTasks label own).drop 1)
      ((members.flatMap fun pieces => [0x2C] :: pieces).drop 1) := by
  cases h with
  | nil => exact writes_nil
  | cons head tail => exact head.append (writes_properties tail)

theorem writes_container {v : JsData} {id : Nat} {opening closing : JsString}
    (fresh : id ∉ ancestors) (plain : own.all JsData.plain = true)
    (hvisit : ∀ e : Encoder, e.ancestors = ancestors →
      visit byteLimit e v = enter byteLimit e id opening closing label own)
    (h : Members byteLimit (id :: ancestors) label own members) :
    Writes byteLimit ancestors [.value v]
      (opening :: ((members.flatMap fun pieces => [0x2C] :: pieces).drop 1 ++ [closing])) := by
  intro e more hancestors within
  have hplain : (own.any fun p => !JsData.plain p) = false := by
    rw [List.any_eq_false]
    intro p hp
    simp [List.all_eq_true.mp plain p hp]
  have hinner := (writes_members h).append (writes_text closing)
  have hbelow : Encoder.append byteLimit { e with ancestors := id :: e.ancestors } opening =
      (e.append byteLimit opening).map fun e => { e with ancestors := id :: e.ancestors } := by
    rw [Encoder.append, Encoder.append]
    split <;> rfl
  rw [cons_append, nil_append, encode, emit]
  have hturn := hvisit e hancestors
  rw [enter, hplain, if_neg Bool.false_ne_true, hbelow] at hturn
  cases happend : e.append byteLimit opening with
  | error code =>
    rw [happend] at hturn
    split
    · rename_i heq
      cases heq.symm.trans hturn
      rfl
    · rename_i heq
      cases heq.symm.trans hturn
  | ok e₁ =>
    rw [happend] at hturn
    obtain ⟨hsame, hwithin⟩ := append_ok happend
    have hrest := hinner { e₁ with ancestors := id :: e₁.ancestors } (.leave id :: more)
      (by rw [hsame, hancestors]) hwithin
    have hleave : (id :: e₁.ancestors).filter (fun i => i ≠ id) = e₁.ancestors := by
      rw [filter_cons_of_neg (by simp), filter_eq_self]
      intro i hi
      rw [hsame, hancestors] at hi
      simp only [ne_eq, decide_eq_true_eq]
      rintro rfl
      exact fresh hi
    split
    · rename_i heq
      cases heq.symm.trans hturn
    · rename_i heq
      cases heq.symm.trans hturn
      simp only [append_assoc, cons_append, nil_append] at hrest ⊢
      rw [hrest, emit_below]
      show _ = (emit byteLimit _ e₁).bind _
      cases hemit : emit byteLimit
          ((members.flatMap fun pieces => [0x2C] :: pieces).drop 1 ++ [closing]) e₁ with
      | error code => rfl
      | ok e₂ =>
        have hsame₂ := emit_ancestors hemit
        show encode byteLimit (.leave id :: more) _ = encode byteLimit more e₂
        rw [encode]
        simp only [hleave]
        rw [← hsame₂]

end Container

/-! ## Every JSON value -/

theorem chunkItems_eq (items : List Json) :
    chunkItems items = (items.map chunks).flatMap fun pieces => [0x2C] :: pieces := by
  induction items with
  | nil => rfl
  | cons v items ih =>
    rw [chunkItems, ih]
    rfl

theorem chunkEntries_eq (entries : Entries) :
    chunkEntries entries =
      (entries.map fun e => (quote e.1 ++ [0x3A]) :: chunks e.2).flatMap
        fun pieces => [0x2C] :: pieces := by
  induction entries with
  | nil => rfl
  | cons e entries ih =>
    rw [chunkEntries, ih]
    rfl

theorem byName_map (f : Json → Json) (entries : Entries) :
    byName (entries.map fun e => (e.1, f e.2)) = (byName entries).map fun e => (e.1, f e.2) :=
  (map_insertionSort ByName ByName (fun e : JsString × Json => (e.1, f e.2)) entries
    fun _ _ _ _ => Iff.rfl).symm

variable {own : List (Property JsData)}

theorem plain_of_holds {items : List Json} (h : Forall₂ (JsData.Holds ancestors) own items) :
    own.all JsData.plain = true := by
  induction h with
  | nil => rfl
  | cons head _ ih =>
    obtain ⟨henumerable, v, hvalue, _⟩ := head
    rw [all_cons, ih, JsData.plain, henumerable, hvalue]
    rfl

theorem members_of {β : Type} {R : Property JsData → β → Prop} {f : β → List JsString}
    {label : Property JsData → List Task} {entries : List β} (h : Forall₂ R own entries)
    (one : ∀ p ∈ own, ∀ b, R p b →
      Writes byteLimit ancestors (label p ++ p.value.toList.map .value) (f b)) :
    Members byteLimit ancestors label own (entries.map f) := by
  rw [Members, forall₂_map_right_iff]
  have hall := (forall₂_and_left (p := fun p => p ∈ own) own entries).mpr
    ⟨fun p hp => hp, h⟩
  exact hall.imp fun p b hb => one p hb.1 b hb.2

/-- What the task of a value writes, below objects of any identities. -/
def Encodes (byteLimit : Nat) (v : JsData) : Prop :=
  ∀ (ancestors : List Nat) (j : Json), JsData.json? ancestors v = some j →
    Writes byteLimit ancestors [.value v] (chunks (rewrite byName j))

section

variable (ih : ∀ p ∈ own, ∀ v, p.value = some v → Encodes byteLimit v)
include ih

theorem encodes_array {id length : Nat} :
    Encodes byteLimit (.array id length own) := by
  intro ancestors j hj
  rw [JsData.json?] at hj
  split at hj
  · cases hj
  · rename_i hcheck
    rw [not_or, not_not] at hcheck
    obtain ⟨items, hitems, rfl⟩ := Option.map_eq_some_iff.mp hj
    have hholds := JsData.jsonItems_iff.mp hitems
    have hnames : (own.any fun p => !p.key.isName) = false := by
      rw [List.any_eq_false]
      intro p hp
      have hkey : p.key ∈ JsData.indices length := hcheck.2 ▸ mem_map_of_mem hp
      obtain ⟨i, _, hi⟩ := mem_map.mp hkey
      rw [← hi]
      simp [PropertyKey.isName]
    have hlength : own.length = length := by
      have := congrArg List.length hcheck.2
      simpa [JsData.indices] using this
    have hmembers : Members byteLimit (id :: ancestors) (fun _ => []) own
        ((items.map (rewrite byName)).map chunks) := by
      rw [List.map_map]
      apply members_of hholds
      rintro p hp item ⟨-, v, hvalue, hv⟩
      rw [hvalue]
      exact ih p hp v hvalue _ item hv
    rw [rewrite, rewriteItems_eq, chunks, chunkItems_eq]
    refine writes_container hcheck.1 (plain_of_holds hholds) ?_ hmembers
    rintro e rfl
    rw [visit, if_neg hcheck.1, hnames, if_neg Bool.false_ne_true, if_neg]
    rw [not_or, not_not, not_not]
    exact ⟨hlength, hcheck.2⟩

theorem encodes_object {id : Nat} {prototype : Prototype} :
    Encodes byteLimit (.object id prototype own) := by
  intro ancestors j hj
  rw [JsData.json?] at hj
  split at hj
  · cases hj
  · rename_i hcheck
    rw [not_or] at hcheck
    obtain ⟨entries, hentries, rfl⟩ := Option.map_eq_some_iff.mp hj
    have hholds := JsData.jsonEntries_iff.mp hentries
    have hnames : (own.any fun p => !p.key.isName) = false := by
      rw [List.any_eq_false]
      intro p hp
      obtain ⟨e, _, hkey, _⟩ := Traverse.mem_target hholds hp
      rw [hkey]
      simp [PropertyKey.isName]
    have hsorted : Forall₂ (JsData.HoldsEntry (id :: ancestors))
        (own.insertionSort byKey) (byName entries) := by
      apply StableOrder.forall₂_insertionSort _ hholds
      rintro p e q f ⟨hp, -⟩ ⟨hq, -⟩
      rw [byKey, ByName, hp, hq]
      rfl
    have hmembers : Members byteLimit (id :: ancestors) labelEntry (own.insertionSort byKey)
        ((byName entries).map fun e =>
          (quote e.1 ++ [0x3A]) :: chunks (rewrite byName e.2)) := by
      apply members_of hsorted
      rintro p hp e ⟨hkey, -, v, hvalue, hv⟩
      rw [hvalue, labelEntry, hkey]
      have hmem := (perm_insertionSort byKey own).mem_iff.mp hp
      exact (writes_text _).append (ih p hmem v hvalue _ e.2 hv)
    have hplain : (own.insertionSort byKey).all JsData.plain = true := by
      have hitems : Forall₂ (JsData.Holds (id :: ancestors)) (own.insertionSort byKey)
          ((byName entries).map Prod.snd) := by
        rw [forall₂_map_right_iff]
        exact hsorted.imp fun p e h => h.2
      exact plain_of_holds hitems
    rw [rewrite, rewriteEntries_eq, byName_map, chunks, chunkEntries_eq, List.map_map]
    refine writes_container hcheck.1 hplain ?_ hmembers
    rintro e rfl
    rw [visit, if_neg hcheck.1, if_neg hcheck.2, hnames, if_neg Bool.false_ne_true]

end

theorem encodes (v : JsData) : Encodes byteLimit v := by
  induction v using JsData.induct with
  | undefined | notFinite | other =>
    intro ancestors j hj
    cases hj
  | null =>
    intro ancestors j hj
    cases hj
    exact writes_leaf fun _ _ => rfl
  | boolean b =>
    intro ancestors j hj
    cases hj
    exact writes_leaf fun _ _ => rfl
  | number n =>
    intro ancestors j hj
    cases hj
    exact writes_leaf fun _ _ => rfl
  | string s =>
    intro ancestors j hj
    cases hj
    apply writes_leaf
    intro e within
    rw [visit]
    split
    · rename_i hlong
      have hquote : s.length ≤ byteLength (quote s) := by
        refine Nat.le_trans ?_ (length_le_byteLength _)
        rw [quote, length_append, length_cons]
        have := length_le_escapeUnits s
        omega
      rw [Encoder.append, if_pos (by omega)]
      rfl
    · rfl
  | array id length own ih => exact encodes_array ih
  | object id prototype own ih => exact encodes_object ih

/-- The canonical text of a value. -/
def canonicalText (j : Json) : JsString := stringify (rewrite byName j)

/-- A JSON value is encoded as its canonical text, where that fits. -/
theorem canonicalJson_eq {j : Json} (hj : JsData.json? [] v = some j) (byteLimit : Nat) :
    canonicalJson v byteLimit =
      if byteLimit < byteLength (canonicalText j) then .error .inputByteLimitExceeded
      else .ok ⟨canonicalText j, byteLength (canonicalText j)⟩ := by
  have hencodes : Encodes byteLimit v := encodes v
  have hwrites := hencodes [] j hj ⟨[], [], 0⟩ [] rfl (Nat.zero_le _)
  rw [append_nil, emit_eq _ _ (Nat.zero_le _), byteLength_chunks, flatten_chunks,
    Nat.zero_add, nil_append] at hwrites
  rw [canonicalJson, hwrites, canonicalText]
  split
  · rfl
  · simp [encode, Except.bind, Except.map]

end PimObservation
