import HawkView.Lib.IsoTime
import HawkView.Lib.JsonText

/-!
# The size of a document

A text of printable ASCII takes one byte a code unit wherever it stands, so a
text can be replaced by another one of its length without a change of size.
-/

namespace Json

open List

/-- A code unit that a string literal shows as it is, in one byte. -/
def isPlain (c : UInt16) : Bool := decide (0x20 ≤ c ∧ c < 0x80 ∧ c ≠ 0x22 ∧ c ≠ 0x5C)

variable {c : UInt16}

theorem ascii_single (h : c < 0x80) : isLead c = false ∧ isTrail c = false := by
  simp only [isLead, isTrail, decide_eq_false_iff_not, not_and]
  constructor
  · intro hle
    exact absurd (UInt16.lt_of_le_of_lt hle h) (by decide)
  · intro hle
    exact absurd (UInt16.lt_of_le_of_lt hle h) (by decide)

theorem plain_ascii (h : isPlain c = true) :
    c < 0x80 ∧ isLead c = false ∧ isTrail c = false := by
  simp only [isPlain, decide_eq_true_eq] at h
  exact ⟨h.2.1, ascii_single h.2.1⟩

theorem byteLength_cons_plain (h : isPlain c = true) (t : JsString) :
    byteLength (c :: t) = 1 + byteLength t := by
  obtain ⟨hlt, hlead, _⟩ := plain_ascii h
  cases t with
  | nil => simp [byteLength, hlt]
  | cons d t => simp [byteLength, hlt, hlead]

variable {u : JsString}

theorem byteLength_plain (h : u.all isPlain = true) (t : JsString) :
    byteLength (u ++ t) = u.length + byteLength t := by
  induction u with
  | nil => simp
  | cons c u ih =>
    simp only [all_cons, Bool.and_eq_true] at h
    rw [cons_append, byteLength_cons_plain h.1, ih h.2, length_cons]
    omega

/-- Before an ASCII code unit a text keeps its size. -/
theorem byteLength_before_ascii (h : c < 0x80) (t : JsString) :
    ∀ s : JsString, byteLength (s ++ c :: t) = byteLength s + byteLength (c :: t)
  | [] => by simp [byteLength]
  | [d] => by simp [byteLength, (ascii_single h).2]
  | d :: e :: rest => by
    have hrest := byteLength_before_ascii h t rest
    have hmore := byteLength_before_ascii h t (e :: rest)
    simp only [cons_append] at hmore ⊢
    rw [byteLength, byteLength, hrest, hmore]
    split <;> omega

theorem byteLength_before (h : isPlain c = true) (t s : JsString) :
    byteLength (s ++ c :: t) = byteLength s + byteLength (c :: t) :=
  byteLength_before_ascii (plain_ascii h).1 t s

/-- A code unit takes at least one byte. -/
theorem length_le_byteLength : ∀ s : JsString, s.length ≤ byteLength s
  | [] => by simp
  | [c] => by
    rw [byteLength, length_singleton]
    split_ifs <;> omega
  | c :: d :: rest => by
    have hrest := length_le_byteLength rest
    have hmore := length_le_byteLength (d :: rest)
    simp only [length_cons] at hmore ⊢
    rw [byteLength]
    split_ifs <;> omega

theorem length_le_escapeUnits (s : JsString) : s.length ≤ (escapeUnits s).length := by
  have hunit (c : UInt16) : 1 ≤ (escapeUnit c).length := by
    unfold escapeUnit
    split_ifs <;> simp [unicodeEscape]
  induction s using escapeUnits.induct with
  | case1 => simp
  | case2 c => exact hunit c
  | case3 c d rest hpair ih =>
    rw [escapeUnits, if_pos hpair]
    simp only [length_cons]
    omega
  | case4 c d rest hpair ih =>
    have hc := hunit c
    rw [escapeUnits, if_neg hpair, length_append]
    simp only [length_cons] at *
    omega

/-- Two texts of one size wherever they stand. -/
def Respelled (u v : JsString) : Prop :=
  ∀ s t, byteLength (s ++ u ++ t) = byteLength (s ++ v ++ t)

theorem Respelled.refl (u : JsString) : Respelled u u := fun _ _ => rfl

variable {v : JsString}

theorem Respelled.append {u' v' : JsString} (hu : Respelled u u') (hv : Respelled v v') :
    Respelled (u ++ v) (u' ++ v') := by
  intro s t
  calc byteLength (s ++ (u ++ v) ++ t) = byteLength (s ++ u ++ (v ++ t)) := by simp
    _ = byteLength (s ++ u' ++ (v ++ t)) := hu s (v ++ t)
    _ = byteLength (s ++ u' ++ v ++ t) := by simp
    _ = byteLength (s ++ u' ++ v' ++ t) := hv (s ++ u') t
    _ = byteLength (s ++ (u' ++ v') ++ t) := by simp

theorem Respelled.byteLength (h : Respelled u v) :
    Json.byteLength u = Json.byteLength v := by
  simpa using h [] []

theorem respelled_plain (hu : u.all isPlain = true) (hv : v.all isPlain = true)
    (length : u.length = v.length) : Respelled u v := by
  intro s t
  cases u with
  | nil =>
    obtain rfl : v = [] := length_eq_zero_iff.mp length.symm
    rfl
  | cons c u =>
    cases v with
    | nil => cases length
    | cons d v =>
      have hc := (Bool.and_eq_true_iff.mp (all_cons ▸ hu)).1
      have hd := (Bool.and_eq_true_iff.mp (all_cons ▸ hv)).1
      simp only [append_assoc, cons_append]
      rw [byteLength_before hc, byteLength_before hd, ← cons_append, ← cons_append,
        byteLength_plain hu, byteLength_plain hv, length]

theorem escapeUnits_plain (h : u.all isPlain = true) : escapeUnits u = u := by
  have hunit (c : UInt16) (hc : isPlain c = true) : escapeUnit c = [c] := by
    obtain ⟨_, hlead, htrail⟩ := plain_ascii hc
    simp only [isPlain, decide_eq_true_eq] at hc
    obtain ⟨hlow, _, hquote, hslash⟩ := hc
    have hnot (d : UInt16) (hd : d < 0x20) : c ≠ d := by
      rintro rfl
      exact absurd hlow (UInt16.not_le.mpr hd)
    simp [escapeUnit, hquote, hslash, hnot 0x08 (by decide), hnot 0x0C (by decide),
      hnot 0x0A (by decide), hnot 0x0D (by decide), hnot 0x09 (by decide), hlead, htrail, hlow]
  induction u using escapeUnits.induct with
  | case1 => rfl
  | case2 c =>
    simp only [all_cons, Bool.and_eq_true] at h
    exact hunit c h.1
  | case3 c d rest hpair ih =>
    simp only [all_cons, Bool.and_eq_true] at h
    rw [(plain_ascii h.1).2.1] at hpair
    cases hpair.1
  | case4 c d rest hpair ih =>
    simp only [all_cons, Bool.and_eq_true] at h ih
    rw [escapeUnits, if_neg hpair, hunit c h.1, ih h.2]
    rfl

theorem respelled_quote (hu : u.all isPlain = true) (hv : v.all isPlain = true)
    (length : u.length = v.length) : Respelled (quote u) (quote v) := by
  rw [quote, quote, escapeUnits_plain hu, escapeUnits_plain hv]
  exact Respelled.append (u := [0x22] ++ u) (v := [0x22])
    (Respelled.append (Respelled.refl [0x22]) (respelled_plain hu hv length)) (Respelled.refl _)

/-- Items that are respelled one by one. -/
theorem respelled_items {items others : List Json}
    (h : Forall₂ (fun v w => Respelled (stringify v) (stringify w)) items others) :
    Respelled (stringify (.array items)) (stringify (.array others)) := by
  have hall : ∀ {items others : List Json},
      Forall₂ (fun v w => Respelled (stringify v) (stringify w)) items others →
      Respelled (stringifyItems items) (stringifyItems others) := by
    intro items others h
    induction h with
    | nil => exact .refl _
    | cons hv _ ih => exact (Respelled.refl [0x2C]).append (hv.append ih)
  cases h with
  | nil => exact .refl _
  | cons hv hrest =>
    exact (Respelled.refl [0x5B]).append ((hv.append (hall hrest)).append (.refl [0x5D]))

/-- Entries of the same names whose values are respelled one by one. -/
theorem respelled_entries {entries others : List (JsString × Json)}
    (h : Forall₂ (fun e f => e.1 = f.1 ∧ Respelled (stringify e.2) (stringify f.2))
      entries others) :
    Respelled (stringify (.object entries)) (stringify (.object others)) := by
  have hone (name : JsString) {v w : Json} {r r' : JsString}
      (hv : Respelled (stringify v) (stringify w)) (hr : Respelled r r') :
      Respelled (quote name ++ 0x3A :: (stringify v ++ r))
        (quote name ++ 0x3A :: (stringify w ++ r')) :=
    (Respelled.refl (quote name)).append ((Respelled.refl [0x3A]).append (hv.append hr))
  have hall : ∀ {entries others : List (JsString × Json)},
      Forall₂ (fun e f => e.1 = f.1 ∧ Respelled (stringify e.2) (stringify f.2))
        entries others → Respelled (stringifyEntries entries) (stringifyEntries others) := by
    intro entries others h
    induction h with
    | nil => exact .refl _
    | @cons e f _ _ he _ ih =>
      obtain ⟨name, v⟩ := e
      obtain ⟨other, w⟩ := f
      obtain ⟨rfl, hv⟩ := he
      exact (Respelled.refl [0x2C]).append (hone name hv ih)
  cases h with
  | nil => exact .refl _
  | @cons e f _ _ he hrest =>
    obtain ⟨name, v⟩ := e
    obtain ⟨other, w⟩ := f
    obtain ⟨rfl, hv⟩ := he
    exact (Respelled.refl [0x7B]).append ((hone name hv (hall hrest)).append (.refl [0x7D]))

/-! ## Values -/

mutual

/-- The values of a document, itself among them. -/
def nodes : Json → Nat
  | .null => 1
  | .bool _ => 1
  | .number _ => 1
  | .string _ => 1
  | .array items => 1 + nodesOfItems items
  | .object entries => 1 + nodesOfEntries entries

def nodesOfItems : List Json → Nat
  | [] => 0
  | v :: rest => nodes v + nodesOfItems rest

def nodesOfEntries : List (JsString × Json) → Nat
  | [] => 0
  | (_, v) :: rest => nodes v + nodesOfEntries rest

end

end Json

namespace IsoTime

open Json

theorem pad_plain (w n : Nat) : (pad w n).all isPlain = true := by
  have hdigit : ∀ d < 10, isPlain (digitUnit d) = true := by decide
  induction w generalizing n with
  | zero => rfl
  | succ w ih => rw [pad, List.all_cons, hdigit _ (Nat.mod_lt _ (by omega)), ih, Bool.true_and]

/-- The canonical text of a time is plain. -/
theorem canonical_plain {s : JsString} {t : Int} (h : utcTime s = some t)
    (canonical : Canonical s) : s.all isPlain = true := by
  obtain ⟨c, _, rfl, _⟩ := utcTime_clock h canonical
  simp [Clock.text, List.all_append, pad_plain, isPlain]

end IsoTime
