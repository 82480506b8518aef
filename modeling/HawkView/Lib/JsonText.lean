import HawkView.Lib.Json
import Mathlib.Algebra.GroupWithZero.Nat

/-!
# The text of a JSON value

`stringify` prints a value without white space, with the escapes of a string
literal and lone surrogates escaped. The text determines the value.
-/

namespace Json

open List

/-! ## String literals -/

def isLead (c : UInt16) : Bool := decide (0xD800 ≤ c ∧ c < 0xDC00)

def isTrail (c : UInt16) : Bool := decide (0xDC00 ≤ c ∧ c < 0xE000)

/-- `Buffer.byteLength(s, 'utf8')`. -/
def byteLength : JsString → Nat
  | [] => 0
  | [c] => if c < 0x80 then 1 else if c < 0x800 then 2 else 3
  | c :: d :: rest =>
    if isLead c && isTrail d then 4 + byteLength rest
    else (if c < 0x80 then 1 else if c < 0x800 then 2 else 3) + byteLength (d :: rest)

instance neZeroSixteen : NeZero 16 := inferInstance

def hexDigit (n : Fin 16) : UInt16 :=
  if n < 10 then 0x30 + n.val.toUInt16 else 0x57 + n.val.toUInt16

def hexValue (c : UInt16) : Nat :=
  if c < 0x3A then c.toNat - 0x30 else c.toNat - 0x57

theorem hexValue_hexDigit : ∀ n, hexValue (hexDigit n) = n.val := by
  decide

/-- `\\u` and four hexadecimal digits. -/
def unicodeEscape (c : UInt16) : JsString :=
  [0x5C, 0x75, hexDigit (Fin.ofNat 16 (c.toNat / 4096)), hexDigit (Fin.ofNat 16 (c.toNat / 256)),
    hexDigit (Fin.ofNat 16 (c.toNat / 16)), hexDigit (Fin.ofNat 16 c.toNat)]

/-- A code unit that has no partner, as it stands in a string literal. -/
def escapeUnit (c : UInt16) : JsString :=
  if c = 0x22 then [0x5C, 0x22]
  else if c = 0x5C then [0x5C, 0x5C]
  else if c = 0x08 then [0x5C, 0x62]
  else if c = 0x0C then [0x5C, 0x66]
  else if c = 0x0A then [0x5C, 0x6E]
  else if c = 0x0D then [0x5C, 0x72]
  else if c = 0x09 then [0x5C, 0x74]
  else if c < 0x20 ∨ isLead c ∨ isTrail c then unicodeEscape c
  else [c]

def escapeUnits : JsString → JsString
  | [] => []
  | [c] => escapeUnit c
  | c :: d :: rest =>
    if isLead c ∧ isTrail d then c :: d :: escapeUnits rest
    else escapeUnit c ++ escapeUnits (d :: rest)

def quote (s : JsString) : JsString := 0x22 :: escapeUnits s ++ [0x22]

/-- The code unit that a letter after a backslash stands for. -/
def unescape (c : UInt16) : UInt16 :=
  if c = 0x62 then 0x08
  else if c = 0x66 then 0x0C
  else if c = 0x6E then 0x0A
  else if c = 0x72 then 0x0D
  else if c = 0x74 then 0x09
  else c

/-- Reads a string literal after its opening quote. -/
def unquote : JsString → Option (JsString × JsString)
  | [] => none
  | [c] => if c = 0x22 then some ([], []) else none
  | c :: d :: rest =>
    if c = 0x22 then some ([], d :: rest)
    else if c = 0x5C then
      if d = 0x75 then
        match rest with
        | a :: b :: e :: f :: rest =>
          (unquote rest).map fun (s, r) =>
            ((hexValue a * 4096 + hexValue b * 256 + hexValue e * 16 + hexValue f).toUInt16 :: s, r)
        | _ => none
      else (unquote rest).map fun (s, r) => (unescape d :: s, r)
    else (unquote (d :: rest)).map fun (s, r) => (c :: s, r)

theorem unquote_end (r : JsString) : unquote (0x22 :: r) = some ([], r) := by
  cases r <;> rw [unquote.eq_def] <;> simp

variable {c : UInt16} {s r t : JsString}

theorem unquote_plain (hquote : c ≠ 0x22) (hescape : c ≠ 0x5C) (h : unquote t = some (s, r)) :
    unquote (c :: t) = some (c :: s, r) := by
  cases t with
  | nil => cases h
  | cons d t => rw [unquote.eq_def]; simp [hquote, hescape, h]

theorem unquote_escape {d : UInt16} (hunicode : d ≠ 0x75) (h : unquote t = some (s, r)) :
    unquote (0x5C :: d :: t) = some (unescape d :: s, r) := by
  rw [unquote.eq_def]
  simp [hunicode, h]

theorem unquote_unicode (c : UInt16) (h : unquote t = some (s, r)) :
    unquote (unicodeEscape c ++ t) = some (c :: s, r) := by
  have hlt := c.toNat_lt
  rw [unicodeEscape, unquote.eq_def]
  simp only [cons_append, nil_append, hexValue_hexDigit, h, Option.map_some,
    Fin.val_ofNat]
  have hvalue : c.toNat / 4096 % 16 * 4096 + c.toNat / 256 % 16 * 256 + c.toNat / 16 % 16 * 16 +
      c.toNat % 16 = c.toNat := by omega
  simp [hvalue]

theorem unquote_escapeUnit (c : UInt16) (h : unquote t = some (s, r)) :
    unquote (escapeUnit c ++ t) = some (c :: s, r) := by
  unfold escapeUnit
  split_ifs with hquote hslash hback hform hline hreturn htab hother
  · rw [hquote]; exact unquote_escape (by decide) h
  · rw [hslash]; exact unquote_escape (by decide) h
  · rw [hback]; exact unquote_escape (by decide) h
  · rw [hform]; exact unquote_escape (by decide) h
  · rw [hline]; exact unquote_escape (by decide) h
  · rw [hreturn]; exact unquote_escape (by decide) h
  · rw [htab]; exact unquote_escape (by decide) h
  · exact unquote_unicode c h
  · exact unquote_plain hquote hslash h

/-- A surrogate is neither a quote nor a backslash. -/
theorem surrogate_plain (h : isLead c ∨ isTrail c) : c ≠ 0x22 ∧ c ≠ 0x5C := by
  constructor
  · rintro rfl
    revert h
    decide
  · rintro rfl
    revert h
    decide

/-- Reading a quoted string gives it back, and leaves what follows. -/
theorem unquote_escapeUnits (s r : JsString) :
    unquote (escapeUnits s ++ 0x22 :: r) = some (s, r) := by
  induction s using escapeUnits.induct with
  | case1 => exact unquote_end r
  | case2 c => exact unquote_escapeUnit c (unquote_end r)
  | case3 c d rest hpair ih =>
    rw [escapeUnits, if_pos hpair]
    have hc := surrogate_plain (.inl hpair.1)
    have hd := surrogate_plain (.inr hpair.2)
    exact unquote_plain hc.1 hc.2 (unquote_plain hd.1 hd.2 ih)
  | case4 c d rest hpair ih =>
    rw [escapeUnits, if_neg hpair, append_assoc]
    exact unquote_escapeUnit c ih

variable {u : JsString}

theorem quote_append_inj (h : quote s ++ r = quote t ++ u) :
    s = t ∧ r = u := by
  simp only [quote, cons_append, append_assoc, nil_append, List.cons.injEq,
    true_and] at h
  have hread := unquote_escapeUnits s r
  rw [h, unquote_escapeUnits] at hread
  cases hread
  exact ⟨rfl, rfl⟩

/-! ## Values -/

mutual

/-- `JSON.stringify`. -/
def stringify : Json → JsString
  | .null => js "null"
  | .bool true => js "true"
  | .bool false => js "false"
  | .number n => n.text
  | .string s => quote s
  | .array items => 0x5B :: ((stringifyItems items).drop 1 ++ [0x5D])
  | .object entries => 0x7B :: ((stringifyEntries entries).drop 1 ++ [0x7D])

/-- The items of an array, each after a comma. -/
def stringifyItems : List Json → JsString
  | [] => []
  | v :: rest => 0x2C :: (stringify v ++ stringifyItems rest)

def stringifyEntries : List (JsString × Json) → JsString
  | [] => []
  | (name, v) :: rest => 0x2C :: (quote name ++ 0x3A :: (stringify v ++ stringifyEntries rest))

end

/-- What the first code unit of a text says about its value. -/
inductive Kind
  | null | boolTrue | boolFalse | number | string | array | object
  deriving DecidableEq

def kind : Json → Kind
  | .null => .null
  | .bool true => .boolTrue
  | .bool false => .boolFalse
  | .number _ => .number
  | .string _ => .string
  | .array _ => .array
  | .object _ => .object

def kindOf (c : UInt16) : Kind :=
  if c = 0x6E then .null
  else if c = 0x74 then .boolTrue
  else if c = 0x66 then .boolFalse
  else if c = 0x22 then .string
  else if c = 0x5B then .array
  else if c = 0x7B then .object
  else .number

theorem kindOf_numeric (h : isNumeric c = true) : kindOf c = .number := by
  unfold kindOf
  split_ifs <;> first | rfl | (subst_vars; revert h; decide)

theorem number_text (n : NumberText) :
    ∃ c t, n.text = c :: t ∧ isNumeric c = true ∧ t.all isNumeric = true := by
  obtain ⟨text, h⟩ := n
  cases text with
  | nil => simp at h
  | cons c t =>
    simp only [isEmpty_cons, Bool.not_false, Bool.true_and, all_cons,
      Bool.and_eq_true] at h
    exact ⟨c, t, rfl, h.1, h.2⟩

/-- The first unit tells the kind of a value, and no value begins with a bracket
that closes. -/
theorem stringify_front (v : Json) :
    ∃ c t, stringify v = c :: t ∧ kindOf c = v.kind ∧ c ≠ 0x5D := by
  cases v with
  | null => exact ⟨0x6E, _, rfl, rfl, by decide⟩
  | bool b =>
    cases b
    · exact ⟨0x66, _, rfl, rfl, by decide⟩
    · exact ⟨0x74, _, rfl, rfl, by decide⟩
  | number n =>
    obtain ⟨c, t, htext, hc, _⟩ := number_text n
    refine ⟨c, t, by rw [stringify, htext], kindOf_numeric hc, ?_⟩
    rintro rfl
    revert hc
    decide
  | string s => exact ⟨0x22, _, by rw [stringify, quote]; rfl, rfl, by decide⟩
  | array items => exact ⟨0x5B, _, by rw [stringify], rfl, by decide⟩
  | object entries => exact ⟨0x7B, _, by rw [stringify], rfl, by decide⟩

/-- The text after a value does not go on as a number. -/
def Ended (r : JsString) : Prop := ∀ c t, r = c :: t → isNumeric c = false

theorem ended_nil : Ended [] := by
  intro c t h
  cases h

theorem ended_cons (h : isNumeric c = false) (t : JsString) : Ended (c :: t) := by
  intro d u heq
  cases heq
  exact h

/-- Texts of numeric units that end split off the front in one way. -/
theorem numeric_append_inj (hs : s.all isNumeric = true) (ht : t.all isNumeric = true)
    (hr : Ended r) (hu : Ended u) (h : s ++ r = t ++ u) :
    s = t ∧ r = u := by
  induction s generalizing t with
  | nil =>
    cases t with
    | nil => exact ⟨rfl, h⟩
    | cons d t =>
      rw [all_cons, Bool.and_eq_true] at ht
      rw [hr d (t ++ u) h] at ht
      cases ht.1
  | cons c s ih =>
    rw [all_cons, Bool.and_eq_true] at hs
    cases t with
    | nil =>
      rw [hu c (s ++ r) h.symm] at hs
      cases hs.1
    | cons d t =>
      rw [all_cons, Bool.and_eq_true] at ht
      obtain ⟨rfl, htail⟩ := List.cons.inj h
      obtain ⟨rfl, hrest⟩ := ih hs.2 ht.2 htail
      exact ⟨rfl, hrest⟩

theorem kind_eq {v w : Json} (h : stringify v ++ r = stringify w ++ u) :
    v.kind = w.kind := by
  obtain ⟨c, s, hv, hc, _⟩ := stringify_front v
  obtain ⟨d, t, hw, hd, _⟩ := stringify_front w
  rw [hv, hw] at h
  rw [← hc, ← hd, (List.cons.inj h).1]

/-- Any text after a value determines it, where the text can follow a value. -/
def Determined (v : Json) : Prop :=
  ∀ w r u, Ended r → Ended u → stringify v ++ r = stringify w ++ u → v = w ∧ r = u

variable {items others : List Json}

theorem items_append_inj (ih : ∀ v ∈ items, Determined v)
    (h : stringifyItems items ++ 0x5D :: r = stringifyItems others ++ 0x5D :: u) :
    items = others ∧ r = u := by
  induction items generalizing others with
  | nil =>
    cases others with
    | nil => exact ⟨rfl, (List.cons.inj h).2⟩
    | cons w others => exact absurd (List.cons.inj h).1 (by decide)
  | cons v items ihItems =>
    cases others with
    | nil => exact absurd (List.cons.inj h).1 (by decide)
    | cons w others =>
      simp only [stringifyItems, cons_append, append_assoc, List.cons.injEq,
        true_and] at h
      have hended : ∀ (rest : List Json) (t : JsString),
          Ended (stringifyItems rest ++ 0x5D :: t) := by
        intro rest t
        cases rest <;> exact ended_cons (by decide) _
      obtain ⟨rfl, htail⟩ := ih v (by simp) w _ _ (hended _ _) (hended _ _) h
      obtain ⟨rfl, hrest⟩ := ihItems (fun x hx => ih x (by simp [hx])) htail
      exact ⟨rfl, hrest⟩

variable {entries : List (JsString × Json)}

theorem entries_append_inj (ih : ∀ e ∈ entries, Determined e.2) {others : List (JsString × Json)}
    (h : stringifyEntries entries ++ 0x7D :: r = stringifyEntries others ++ 0x7D :: u) :
    entries = others ∧ r = u := by
  induction entries generalizing others with
  | nil =>
    cases others with
    | nil => exact ⟨rfl, (List.cons.inj h).2⟩
    | cons e others => exact absurd (List.cons.inj h).1 (by decide)
  | cons e entries ihEntries =>
    obtain ⟨name, v⟩ := e
    cases others with
    | nil => exact absurd (List.cons.inj h).1 (by decide)
    | cons e others =>
      obtain ⟨other, w⟩ := e
      simp only [stringifyEntries, cons_append, append_assoc, List.cons.injEq,
        true_and] at h
      have hended : ∀ (rest : List (JsString × Json)) (t : JsString),
          Ended (stringifyEntries rest ++ 0x7D :: t) := by
        intro rest t
        cases rest <;> exact ended_cons (by decide) _
      obtain ⟨rfl, hvalue⟩ := quote_append_inj h
      obtain ⟨rfl, htail⟩ :=
        ih (name, v) (by simp) w _ _ (hended _ _) (hended _ _) (List.cons.inj hvalue).2
      obtain ⟨rfl, hrest⟩ := ihEntries (fun x hx => ih x (by simp [hx])) htail
      exact ⟨rfl, hrest⟩

theorem array_append_inj (ih : ∀ v ∈ items, Determined v)
    (h : (stringifyItems items).drop 1 ++ 0x5D :: r = (stringifyItems others).drop 1 ++ 0x5D :: u) :
    items = others ∧ r = u := by
  cases items with
  | nil =>
    cases others with
    | nil => exact ⟨rfl, (List.cons.inj h).2⟩
    | cons w others =>
      obtain ⟨c, t, hw, _, hc⟩ := stringify_front w
      simp only [stringifyItems, drop_succ_cons, drop_zero, hw, cons_append] at h
      exact absurd (List.cons.inj h).1.symm hc
  | cons v items =>
    cases others with
    | nil =>
      obtain ⟨c, t, hv, _, hc⟩ := stringify_front v
      simp only [stringifyItems, drop_succ_cons, drop_zero, hv, cons_append] at h
      exact absurd (List.cons.inj h).1 hc
    | cons w others => exact items_append_inj ih (congrArg (0x2C :: ·) h)

theorem object_append_inj {others : List (JsString × Json)} (ih : ∀ e ∈ entries, Determined e.2)
    (h : (stringifyEntries entries).drop 1 ++ 0x7D :: r =
      (stringifyEntries others).drop 1 ++ 0x7D :: u) :
    entries = others ∧ r = u := by
  cases entries with
  | nil =>
    cases others with
    | nil => exact ⟨rfl, (List.cons.inj h).2⟩
    | cons e others => exact absurd (List.cons.inj h).1 (by decide)
  | cons e entries =>
    cases others with
    | nil => exact absurd (List.cons.inj h).1 (by decide)
    | cons w others => exact entries_append_inj ih (congrArg (0x2C :: ·) h)

theorem determined (v : Json) : Determined v := by
  induction v using induct with
  | null =>
    intro w r u _ _ h
    have hkind := kind_eq h
    cases w with
    | null => exact ⟨rfl, append_cancel_left h⟩
    | bool b => cases b <;> cases hkind
    | _ => cases hkind
  | bool b =>
    intro w r u _ _ h
    have hkind := kind_eq h
    cases w with
    | bool b' =>
      cases b <;> cases b'
      · exact ⟨rfl, append_cancel_left h⟩
      · cases hkind
      · cases hkind
      · exact ⟨rfl, append_cancel_left h⟩
    | _ => cases b <;> cases hkind
  | number n =>
    intro w r u hr hu h
    have hkind := kind_eq h
    cases w with
    | number m =>
      obtain ⟨c, s, hn, hc, hs⟩ := number_text n
      obtain ⟨d, t, hm, hd, ht⟩ := number_text m
      obtain ⟨htext, hrest⟩ := numeric_append_inj (s := n.text) (t := m.text)
        (by rw [hn, all_cons, hc, hs]; rfl) (by rw [hm, all_cons, hd, ht]; rfl)
        hr hu h
      cases n
      cases m
      cases htext
      exact ⟨rfl, hrest⟩
    | bool b => cases b <;> cases hkind
    | _ => cases hkind
  | string s =>
    intro w r u _ _ h
    have hkind := kind_eq h
    cases w with
    | string t =>
      obtain ⟨rfl, hrest⟩ := quote_append_inj h
      exact ⟨rfl, hrest⟩
    | bool b => cases b <;> cases hkind
    | _ => cases hkind
  | array items ih =>
    intro w r u _ _ h
    have hkind := kind_eq h
    cases w with
    | array others =>
      simp only [stringify, cons_append, append_assoc, nil_append,
        List.cons.injEq, true_and] at h
      obtain ⟨rfl, hrest⟩ := array_append_inj ih h
      exact ⟨rfl, hrest⟩
    | bool b => cases b <;> cases hkind
    | _ => cases hkind
  | object entries ih =>
    intro w r u _ _ h
    have hkind := kind_eq h
    cases w with
    | object others =>
      simp only [stringify, cons_append, append_assoc, nil_append,
        List.cons.injEq, true_and] at h
      obtain ⟨rfl, hrest⟩ := object_append_inj ih h
      exact ⟨rfl, hrest⟩
    | bool b => cases b <;> cases hkind
    | _ => cases hkind

/-- A JSON text determines its value. -/
theorem stringify_injective : Function.Injective stringify := by
  intro v w h
  exact (determined v w [] [] ended_nil ended_nil (by rw [h])).1

end Json
