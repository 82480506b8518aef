import HawkView.Lib.Utf8

/-!
# Bytes as texts

A decoder goes through the bytes one by one. Bytes that are not UTF-8 are read as
replacement characters, one for each longest beginning of a character.
-/

namespace JsString

open List

/-- The bits of a character so far, how many bytes are missing, and between what the next one is. -/
structure Pending where
  bits : Nat
  missing : Nat
  lower : Nat
  upper : Nat

/-- A byte where a character may begin. -/
def leading (b : Nat) : JsString × Option Pending :=
  if b < 0x80 then ([b.toUInt16], none)
  else if 0xC2 ≤ b ∧ b < 0xE0 then ([], some ⟨b - 0xC0, 1, 0x80, 0xBF⟩)
  else if 0xE0 ≤ b ∧ b < 0xF0 then
    ([], some ⟨b - 0xE0, 2, if b = 0xE0 then 0xA0 else 0x80, if b = 0xED then 0x9F else 0xBF⟩)
  else if 0xF0 ≤ b ∧ b < 0xF5 then
    ([], some ⟨b - 0xF0, 3, if b = 0xF0 then 0x90 else 0x80, if b = 0xF4 then 0x8F else 0xBF⟩)
  else ([0xFFFD], none)

def decodeFrom : Option Pending → List UInt8 → JsString
  | none, [] => []
  | some _, [] => [0xFFFD]
  | none, b :: rest => (leading b.toNat).1 ++ decodeFrom (leading b.toNat).2 rest
  | some p, b :: rest =>
    if p.lower ≤ b.toNat ∧ b.toNat ≤ p.upper then
      let bits := p.bits * 64 + (b.toNat - 0x80)
      if p.missing ≤ 1 then units (Char.ofNat bits) ++ decodeFrom none rest
      else decodeFrom (some ⟨bits, p.missing - 1, 0x80, 0xBF⟩) rest
    else 0xFFFD :: (leading b.toNat).1 ++ decodeFrom (leading b.toNat).2 rest

/-- `buffer.toString('utf8')`. -/
def fromUtf8 (bytes : List UInt8) : JsString := decodeFrom none bytes

variable {n : Nat}

theorem toNat_byte (h : n < 256) : (UInt8.ofNat n).toNat = n := UInt8.toNat_ofNat_of_lt' h

theorem decodeFrom_leading (h : n < 256) {p : Pending} (hp : leading n = ([], some p))
    (rest : List UInt8) :
    decodeFrom none (UInt8.ofNat n :: rest) = decodeFrom (some p) rest := by
  rw [decodeFrom, toNat_byte h, hp, nil_append]

variable {bits lower upper : Nat}

theorem decodeFrom_last (h : n < 64) (hlower : lower ≤ n + 0x80) (hupper : n + 0x80 ≤ upper)
    (rest : List UInt8) :
    decodeFrom (some ⟨bits, 1, lower, upper⟩) (UInt8.ofNat (n + 0x80) :: rest) =
      units (Char.ofNat (bits * 64 + n)) ++ decodeFrom none rest := by
  have hbyte : (UInt8.ofNat (n + 0x80)).toNat = n + 0x80 := toNat_byte (by omega)
  simp only [decodeFrom, hbyte, hlower, hupper, and_self, if_true, Nat.le_refl, Nat.add_sub_cancel]

theorem decodeFrom_next {missing : Nat} (h : n < 64) (hlower : lower ≤ n + 0x80)
    (hupper : n + 0x80 ≤ upper) (rest : List UInt8) :
    decodeFrom (some ⟨bits, missing + 2, lower, upper⟩) (UInt8.ofNat (n + 0x80) :: rest) =
      decodeFrom (some ⟨bits * 64 + n, missing + 1, 0x80, 0xBF⟩) rest := by
  have hbyte : (UInt8.ofNat (n + 0x80)).toNat = n + 0x80 := toNat_byte (by omega)
  have hmore : ¬missing + 2 ≤ 1 := by omega
  have hone : missing + 2 - 1 = missing + 1 := by omega
  simp only [decodeFrom, hbyte, hlower, hupper, and_self, if_true, hmore, if_false, hone,
    Nat.add_sub_cancel]

theorem leading_two (h : 2 ≤ n) (h' : n < 32) :
    leading (n + 0xC0) = ([], some ⟨n, 1, 0x80, 0xBF⟩) := by
  rw [leading, if_neg (by omega), if_pos (by omega), Nat.add_sub_cancel]

theorem leading_three (h : n < 16) : leading (n + 0xE0) =
    ([], some ⟨n, 2, if n = 0 then 0xA0 else 0x80, if n = 13 then 0x9F else 0xBF⟩) := by
  have hfirst : n + 0xE0 = 0xE0 ↔ n = 0 := by omega
  have hsurrogate : n + 0xE0 = 0xED ↔ n = 13 := by omega
  rw [leading, if_neg (by omega), if_neg (by omega), if_pos (by omega), Nat.add_sub_cancel]
  simp only [hfirst, hsurrogate]

theorem leading_four (h : n < 5) : leading (n + 0xF0) =
    ([], some ⟨n, 3, if n = 0 then 0x90 else 0x80, if n = 4 then 0x8F else 0xBF⟩) := by
  have hfirst : n + 0xF0 = 0xF0 ↔ n = 0 := by omega
  have hlast : n + 0xF0 = 0xF4 ↔ n = 4 := by omega
  rw [leading, if_neg (by omega), if_neg (by omega), if_neg (by omega), if_pos (by omega),
    Nat.add_sub_cancel]
  simp only [hfirst, hlast]

/-- The bytes of a character are read as its code units. -/
theorem decodeFrom_char (x : Char) (rest : List UInt8) :
    decodeFrom none (String.utf8EncodeChar x ++ rest) = units x ++ decodeFrom none rest := by
  have hvalid : x.toNat < 0xD800 ∨ 0xDFFF < x.toNat ∧ x.toNat < 0x110000 := x.valid
  have hx : Char.ofNat x.toNat = x := Char.ofNat_toNat x
  have hv : x.val.toNat = x.toNat := rfl
  rw [String.utf8EncodeChar, hv]
  by_cases h1 : x.toNat ≤ 0x7F
  · have hunits : units x = [x.toNat.toUInt16] := by rw [units, if_pos (by omega)]
    have hlead : leading x.toNat = ([x.toNat.toUInt16], none) := by
      rw [leading, if_pos (by omega)]
    rw [if_pos h1, cons_append, decodeFrom, toNat_byte (by omega), hlead, hunits]
    rfl
  · rw [if_neg h1]
    by_cases h2 : x.toNat ≤ 0x7FF
    · have hlow : x.toNat % 64 < 64 := by omega
      have hbits : x.toNat / 64 % 32 * 64 + x.toNat % 64 = x.toNat := by omega
      rw [if_pos h2, cons_append, cons_append, nil_append,
        decodeFrom_leading (by omega) (leading_two (by omega) (by omega)),
        decodeFrom_last hlow (by omega) (by omega), hbits, hx]
    · rw [if_neg h2]
      by_cases h3 : x.toNat ≤ 0xFFFF
      · have hbits : (x.toNat / 4096 % 16 * 64 + x.toNat / 64 % 64) * 64 + x.toNat % 64 =
            x.toNat := by omega
        rw [if_pos h3]
        simp only [cons_append, nil_append]
        rw [decodeFrom_leading (by omega) (leading_three (by omega)),
          decodeFrom_next (by omega) (by split <;> omega) (by split <;> omega),
          decodeFrom_last (by omega) (by omega) (by omega), hbits, hx]
      · have hbits : ((x.toNat / 262144 % 8 * 64 + x.toNat / 4096 % 64) * 64 +
            x.toNat / 64 % 64) * 64 + x.toNat % 64 = x.toNat := by omega
        rw [if_neg h3]
        simp only [cons_append, nil_append]
        rw [decodeFrom_leading (by omega) (leading_four (by omega)),
          decodeFrom_next (by omega) (by split <;> omega) (by split <;> omega),
          decodeFrom_next (by omega) (by omega) (by omega),
          decodeFrom_last (by omega) (by omega) (by omega), hbits, hx]

/-- A text that is written and read again has its surrogates without partners replaced. -/
theorem fromUtf8_utf8 (s : JsString) : fromUtf8 (utf8 s) = toWellFormed s := by
  have hread (l : List Char) : decodeFrom none (l.flatMap String.utf8EncodeChar) =
      l.flatMap units := by
    induction l with
    | nil => rfl
    | cons x l ih => rw [flatMap_cons, flatMap_cons, decodeFrom_char, ih]
  rw [fromUtf8, utf8, hread, flatMap_units]

end JsString
