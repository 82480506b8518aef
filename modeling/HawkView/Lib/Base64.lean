import HawkView.Lib.JsString

/-!
# Base64

Three bytes are written as four symbols of six bits each. What is missing to the
last three is written as padding, so a text says which bytes it was made of.
-/

namespace Base64

/-- The symbol of six bits. -/
def symbol (n : Nat) : UInt16 :=
  (if n < 26 then 0x41 + n else if n < 52 then 0x61 + (n - 26) else if n < 62 then 0x30 + (n - 52)
    else if n = 62 then 0x2B else 0x2F).toUInt16

def padding : UInt16 := 0x3D

/-- `bytes.toString('base64')`. -/
def encode : List UInt8 → JsString
  | [] => []
  | [a] => [symbol (a.toNat / 4), symbol (a.toNat % 4 * 16), padding, padding]
  | [a, b] => [symbol (a.toNat / 4), symbol (a.toNat % 4 * 16 + b.toNat / 16),
      symbol (b.toNat % 16 * 4), padding]
  | a :: b :: c :: rest => symbol (a.toNat / 4) :: symbol (a.toNat % 4 * 16 + b.toNat / 16) ::
      symbol (b.toNat % 16 * 4 + c.toNat / 64) :: symbol (c.toNat % 64) :: encode rest

theorem symbol_toNat (n : Nat) : (symbol n).toNat =
    if n < 26 then 0x41 + n else if n < 52 then 0x61 + (n - 26) else if n < 62 then 0x30 + (n - 52)
      else if n = 62 then 0x2B else 0x2F := by
  unfold symbol
  split_ifs <;> simp only [Nat.toUInt16_eq, UInt16.toNat_ofNat'] <;> omega

theorem symbol_inj {m n : Nat} (hm : m < 64) (hn : n < 64) : symbol m = symbol n ↔ m = n := by
  rw [← UInt16.toNat_inj, symbol_toNat, symbol_toNat]
  constructor
  · intro h
    split_ifs at h <;> omega
  · rintro rfl
    rfl

theorem symbol_ne_padding (n : Nat) : symbol n ≠ padding := by
  have hpadding : padding.toNat = 0x3D := rfl
  rw [ne_eq, ← UInt16.toNat_inj, symbol_toNat, hpadding]
  split_ifs <;> omega

/-- Two bytes agree when their high and their low bits do. -/
theorem byte_eq {a b : UInt8} (k : Nat) (hdiv : a.toNat / k = b.toNat / k)
    (hmod : a.toNat % k = b.toNat % k) : a = b := by
  rw [← UInt8.toNat_inj, ← Nat.div_add_mod a.toNat k, hdiv, hmod, Nat.div_add_mod]

theorem encode_injective : Function.Injective encode := by
  intro s
  induction s using encode.induct with
  | case1 =>
    intro t h
    match t, h with
    | [], _ => rfl
    | [_], h => cases h
    | [_, _], h => cases h
    | _ :: _ :: _ :: _, h => cases h
  | case2 a =>
    intro t h
    have ha := a.toNat_lt
    match t, h with
    | [b], h =>
      have hb := b.toNat_lt
      simp only [encode, List.cons.injEq, and_true] at h
      rw [symbol_inj (by omega) (by omega), symbol_inj (by omega) (by omega)] at h
      rw [byte_eq 4 h.1 (by omega)]
    | [b, c], h =>
      simp only [encode, List.cons.injEq, and_true] at h
      exact absurd h.2.2.symm (symbol_ne_padding _)
    | b :: c :: d :: rest, h =>
      simp only [encode, List.cons.injEq] at h
      exact absurd h.2.2.1.symm (symbol_ne_padding _)
  | case3 a b =>
    intro t h
    have ha := a.toNat_lt
    have hb := b.toNat_lt
    match t, h with
    | [c], h =>
      simp only [encode, List.cons.injEq, and_true] at h
      exact absurd h.2.2 (symbol_ne_padding _)
    | [c, d], h =>
      have hc := c.toNat_lt
      have hd := d.toNat_lt
      simp only [encode, List.cons.injEq, and_true] at h
      rw [symbol_inj (by omega) (by omega), symbol_inj (by omega) (by omega),
        symbol_inj (by omega) (by omega)] at h
      rw [byte_eq 4 h.1 (by omega), byte_eq (a := b) (b := d) 16 (by omega) (by omega)]
    | c :: d :: e :: rest, h =>
      simp only [encode, List.cons.injEq] at h
      exact absurd h.2.2.2.1.symm (symbol_ne_padding _)
  | case4 a b c rest ih =>
    intro t h
    have ha := a.toNat_lt
    have hb := b.toNat_lt
    have hc := c.toNat_lt
    match t, h with
    | [d], h =>
      simp only [encode, List.cons.injEq] at h
      exact absurd h.2.2.1 (symbol_ne_padding _)
    | [d, e], h =>
      simp only [encode, List.cons.injEq] at h
      exact absurd h.2.2.2.1 (symbol_ne_padding _)
    | d :: e :: f :: others, h =>
      have hd := d.toNat_lt
      have he := e.toNat_lt
      have hf := f.toNat_lt
      simp only [encode, List.cons.injEq] at h
      obtain ⟨h1, h2, h3, h4, hrest⟩ := h
      rw [symbol_inj (by omega) (by omega)] at h1 h2 h3 h4
      rw [byte_eq 4 h1 (by omega), byte_eq (a := b) (b := e) 16 (by omega) (by omega),
        byte_eq (a := c) (b := f) 64 (by omega) h4, ih hrest]

example : encode [0x66, 0x6F, 0x6F, 0x62] = js "Zm9vYg==" := by decide

end Base64
