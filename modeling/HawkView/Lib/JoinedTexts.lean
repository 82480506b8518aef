import HawkView.Lib.Utf8

/-!
# Texts joined for a digest

Texts are joined with a null character between them and written as bytes. When none of them holds
that character, the bytes tell the lists of texts apart as far as bytes tell texts apart.
-/

namespace JsString

open List

open Json (isTrail)

theorem joined_more {α : Type} (sep : α) (part next : List α) (rest : List (List α)) :
    intercalate [sep] (part :: next :: rest) =
      part ++ sep :: intercalate [sep] (next :: rest) := by
  simp [intercalate]

/-- Joined parts without the separator are told apart. -/
theorem separated_inj {α : Type} [DecidableEq α] {sep : α} {a b : List α}
    {parts others : List (List α)}
    (free : ∀ part ∈ a :: parts, sep ∉ part) (free' : ∀ part ∈ b :: others, sep ∉ part)
    (h : intercalate [sep] (a :: parts) = intercalate [sep] (b :: others)) :
    a :: parts = b :: others := by
  have hone (part : List α) (hfree : sep ∉ part) : splitFirst sep part = none := by
    cases hsplit : splitFirst sep part with
    | none => rfl
    | some cut =>
      have hmem : sep ∈ part := by
        rw [splitFirst_sound hsplit]
        simp
      exact absurd hmem hfree
  have hsplit := congrArg (splitFirst sep) h
  induction parts generalizing a b others with
  | nil =>
    cases others with
    | nil =>
      rw [intercalate_singleton, intercalate_singleton] at h
      rw [h]
    | cons c others =>
      rw [intercalate_singleton, joined_more, hone a (free a mem_cons_self),
        splitFirst_append (free' b mem_cons_self)] at hsplit
      cases hsplit
  | cons d parts ih =>
    cases others with
    | nil =>
      rw [intercalate_singleton, joined_more, hone b (free' b mem_cons_self),
        splitFirst_append (free a mem_cons_self)] at hsplit
      cases hsplit
    | cons c others =>
      rw [joined_more, joined_more, splitFirst_append (free a mem_cons_self),
        splitFirst_append (free' b mem_cons_self)] at hsplit
      obtain ⟨rfl, hrest⟩ := Prod.mk.inj (Option.some.inj hsplit)
      rw [ih (fun part hpart => free part (mem_cons_of_mem _ hpart))
        (fun part hpart => free' part (mem_cons_of_mem _ hpart)) hrest (by rw [hrest])]

/-! ## Before a code unit that completes no pair -/

theorem characters_before {c : UInt16} (h : isTrail c = false) (t : JsString) :
    ∀ s : JsString, characters (s ++ c :: t) = characters s ++ characters (c :: t)
  | [] => rfl
  | [d] => by simp [characters, h]
  | d :: e :: rest => by
    have hrest := characters_before h t rest
    have hmore := characters_before h t (e :: rest)
    simp only [cons_append] at hmore ⊢
    rw [characters, characters, hrest, hmore]
    split <;> rfl

theorem utf8_before_null (s t : JsString) : utf8 (s ++ 0 :: t) = utf8 s ++ 0 :: utf8 t := by
  have hnull : utf8 (0 :: t) = 0 :: utf8 t := by
    rw [utf8, characters_cons (by decide), flatMap_cons]
    rfl
  rw [utf8, characters_before (by decide), flatMap_append, ← utf8, ← utf8, hnull]

/-- The bytes of joined texts are the joined bytes. -/
theorem utf8_joined (parts : List JsString) :
    utf8 (intercalate [0] parts) = intercalate [0] (parts.map utf8) := by
  induction parts with
  | nil => rfl
  | cons part parts ih =>
    cases parts with
    | nil => rw [intercalate_singleton, map_cons, map_nil, intercalate_singleton]
    | cons next parts =>
      rw [joined_more, utf8_before_null, ih]
      exact (joined_more 0 (utf8 part) (utf8 next) (parts.map utf8)).symm

/-! ## The null character -/

/-- Only the null character is written with a null byte. -/
theorem encoded_null {x : Char} (h : (0 : UInt8) ∈ String.utf8EncodeChar x) : x.toNat = 0 := by
  have hx : x.toNat = x.val.toNat := rfl
  simp only [String.utf8EncodeChar] at h
  split_ifs at h <;>
    simp only [mem_cons, not_mem_nil, or_false, ← UInt8.toNat_inj, UInt8.toNat_ofNat',
      UInt8.toNat_zero] at h <;> omega

theorem mem_toWellFormed {c : UInt16} : ∀ {s : JsString}, c ∈ toWellFormed s → c ∈ s ∨ c = 0xFFFD
  | [], h => absurd h not_mem_nil
  | [d], h => by
    rw [toWellFormed, mem_singleton] at h
    split at h
    · exact .inr h
    · exact .inl (mem_singleton.mpr h)
  | d :: e :: rest, h => by
    rw [toWellFormed] at h
    split at h
    · rcases mem_cons.mp h with rfl | h
      · exact .inl mem_cons_self
      · rcases mem_cons.mp h with rfl | h
        · exact .inl (mem_cons_of_mem _ mem_cons_self)
        · exact (mem_toWellFormed h).imp
            (fun hc => mem_cons_of_mem _ (mem_cons_of_mem _ hc)) id
    · rcases mem_cons.mp h with rfl | h
      · split
        · exact .inr rfl
        · exact .inl mem_cons_self
      · exact (mem_toWellFormed h).imp (mem_cons_of_mem _) id

theorem null_mem_utf8 {s : JsString} (h : (0 : UInt8) ∈ utf8 s) : (0 : UInt16) ∈ s := by
  obtain ⟨x, hx, hbyte⟩ := mem_flatMap.mp h
  have hunits : (0 : UInt16) ∈ units x := by
    rw [units, encoded_null hbyte]
    decide
  have hwell : (0 : UInt16) ∈ toWellFormed s := by
    rw [← flatMap_units]
    exact mem_flatMap.mpr ⟨x, hx, hunits⟩
  rcases mem_toWellFormed hwell with hmem | hreplaced
  · exact hmem
  · exact absurd hreplaced (by decide)

/-! ## Lists of texts -/

/-- After the same first texts, the bytes of joined texts are those of the lists. -/
theorem joined_bytes (front : List JsString) {a b : JsString} {parts others : List JsString}
    (free : ∀ part ∈ a :: parts, (0 : UInt16) ∉ part)
    (free' : ∀ part ∈ b :: others, (0 : UInt16) ∉ part) :
    utf8 (intercalate [0] (front ++ a :: parts)) =
        utf8 (intercalate [0] (front ++ b :: others)) ↔
      (a :: parts).map utf8 = (b :: others).map utf8 := by
  have hbytes (l : List JsString) (hl : ∀ part ∈ l, (0 : UInt16) ∉ part) :
      ∀ part ∈ l.map utf8, (0 : UInt8) ∉ part := by
    intro part hpart hzero
    obtain ⟨s, hs, rfl⟩ := mem_map.mp hpart
    exact hl s hs (null_mem_utf8 hzero)
  rw [utf8_joined, utf8_joined, map_append, map_append]
  constructor
  · intro h
    induction front with
    | nil => exact separated_inj (hbytes _ free) (hbytes _ free') h
    | cons part front ih =>
      apply ih
      obtain ⟨c, rest, hrest⟩ : ∃ c rest,
          front.map utf8 ++ (a :: parts).map utf8 = c :: rest := by
        cases front <;> exact ⟨_, _, rfl⟩
      obtain ⟨d, more, hmore⟩ : ∃ d more,
          front.map utf8 ++ (b :: others).map utf8 = d :: more := by
        cases front <;> exact ⟨_, _, rfl⟩
      rw [map_cons, cons_append, cons_append, hrest, hmore, joined_more,
        joined_more] at h
      rw [hrest, hmore]
      exact (List.cons.inj (append_cancel_left h)).2
  · intro h
    rw [h]

/-- Bytes of texts without surrogates are those of no other such texts. -/
theorem utf8_plain_list {texts others : List JsString} (plains : ∀ s ∈ texts, plain s = true)
    (plains' : ∀ s ∈ others, plain s = true) (h : texts.map utf8 = others.map utf8) :
    texts = others := by
  induction texts generalizing others with
  | nil => exact (map_eq_nil_iff.mp h.symm).symm
  | cons s texts ih =>
    cases others with
    | nil => cases h
    | cons t others =>
      obtain ⟨hfirst, hrest⟩ := List.cons.inj h
      rw [utf8_plain (plains s mem_cons_self) (plains' t mem_cons_self) hfirst,
        ih (fun u hu => plains u (mem_cons_of_mem _ hu))
          (fun u hu => plains' u (mem_cons_of_mem _ hu)) hrest]

end JsString
