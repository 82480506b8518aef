import HawkView.Lib.JsonRewrite
import HawkView.Lib.JsonText

/-!
# Reading the text of a JSON value

`parse` reads a text without white space, such as `stringify` prints. What is
read of the text of a value has its entries in the order of their enumeration.
A text with the names in order is the same for alike values, and only for them.
-/

namespace Json

open List Option

/-! ## The reader -/

def readLiteral (word : JsString) (v : Json) (text : JsString) : Option (Json × JsString) :=
  if word.isPrefixOf text then some (v, text.drop word.length) else none

/-- Reads a number, which is kept as its text. -/
def readNumber (text : JsString) : Option (Json × JsString) :=
  if h : (!(text.takeWhile isNumeric).isEmpty &&
      (text.takeWhile isNumeric).all isNumeric) = true then
    some (.number ⟨text.takeWhile isNumeric, h⟩, text.dropWhile isNumeric)
  else none

/-- The entries of an object to which they are assigned one by one. -/
def assignAll (entries : Entries) : Entries :=
  enumerated (entries.foldl (fun es e => JsMap.put e.1 e.2 es) [])

mutual

/-- Reads a value at the front of a text, and leaves what follows. -/
def readValue : Nat → JsString → Option (Json × JsString)
  | 0, _ => none
  | _ + 1, [] => none
  | n + 1, c :: text =>
    match kindOf c with
    | .null => readLiteral (js "null") .null (c :: text)
    | .boolTrue => readLiteral (js "true") (.bool true) (c :: text)
    | .boolFalse => readLiteral (js "false") (.bool false) (c :: text)
    | .number => readNumber (c :: text)
    | .string => (unquote text).map fun (s, r) => (.string s, r)
    | .array =>
      if text.head? = some 0x5D then some (.array [], text.tail)
      else (readItems n (0x2C :: text)).map fun (items, r) => (.array items, r)
    | .object =>
      if text.head? = some 0x7D then some (.object [], text.tail)
      else (readEntries n (0x2C :: text)).map fun (entries, r) => (.object (assignAll entries), r)

/-- Reads items, each after a comma, up to the bracket that closes. -/
def readItems : Nat → JsString → Option (List Json × JsString)
  | 0, _ => none
  | _ + 1, [] => none
  | n + 1, c :: text =>
    if c = 0x5D then some ([], text)
    else if c = 0x2C then
      (readValue n text).bind fun (v, r) =>
        (readItems n r).map fun (items, r) => (v :: items, r)
    else none

def readEntries : Nat → JsString → Option (Entries × JsString)
  | 0, _ => none
  | _ + 1, [] => none
  | n + 1, c :: text =>
    if c = 0x7D then some ([], text)
    else if c = 0x2C ∧ text.head? = some 0x22 then
      (unquote text.tail).bind fun (name, r) =>
        if r.head? = some 0x3A then
          (readValue n r.tail).bind fun (v, r) =>
            (readEntries n r).map fun (entries, r) => ((name, v) :: entries, r)
        else none
    else none

end

/-- `JSON.parse`. -/
def parse (text : JsString) : Option Json :=
  (readValue (text.length + 1) text).bind fun (v, r) => if r = [] then some v else none

/-! ## What is read of a printed value -/

theorem readLiteral_append (word : JsString) (v : Json) (r : JsString) :
    readLiteral word v (word ++ r) = some (v, r) := by
  simp [readLiteral]

theorem readNumber_append (n : NumberText) {r : JsString} (hr : Ended r) :
    readNumber (n.text ++ r) = some (.number n, r) := by
  obtain ⟨c, t, htext, hc, ht⟩ := number_text n
  have hall : n.text.all isNumeric = true := by rw [htext, all_cons, hc, ht]; rfl
  have hrest : r.takeWhile isNumeric = [] ∧ r.dropWhile isNumeric = r := by
    cases r with
    | nil => exact ⟨rfl, rfl⟩
    | cons d u =>
      have hd := hr d u rfl
      constructor
      · rw [takeWhile_cons, hd]
        rfl
      · rw [dropWhile_cons, hd]
        rfl
  have htake : (n.text ++ r).takeWhile isNumeric = n.text := by
    rw [takeWhile_append_of_pos (List.all_eq_true.mp hall), hrest.1, append_nil]
  have hdrop : (n.text ++ r).dropWhile isNumeric = r := by
    rw [dropWhile_append_of_pos (List.all_eq_true.mp hall), hrest.2]
  simp only [readNumber, htake, hdrop]
  rw [dif_pos n.wellFormed]

variable {entries : Entries}

theorem foldl_put {front : Entries} (distinct : (names (front ++ entries)).Nodup) :
    entries.foldl (fun es e => JsMap.put e.1 e.2 es) front = front ++ entries := by
  induction entries generalizing front with
  | nil => simp
  | cons e entries ih =>
    have hfresh : e.1 ∉ front.map Prod.fst := by
      rw [names, map_append, nodup_append] at distinct
      intro hmem
      exact distinct.2.2 _ hmem _ (by simp) rfl
    rw [foldl_cons, JsMap.put_fresh hfresh, ih (by simpa using distinct)]
    simp

/-- Entries with distinct names are all assigned. -/
theorem assignAll_distinct (distinct : (names entries).Nodup) :
    assignAll entries = enumerated entries := by
  have hnil : (names ([] ++ entries)).Nodup := by simpa using distinct
  rw [assignAll, foldl_put hnil, nil_append]

/-- What is read of a value, whatever text may follow it. -/
def Read (v : Json) : Prop :=
  ∀ n r, Ended r → (stringify v).length < n →
    readValue n (stringify v ++ r) = some (rewrite enumerated v, r)

theorem ended_items (items : List Json) (r : JsString) :
    Ended (stringifyItems items ++ 0x5D :: r) := by
  cases items <;> exact ended_cons (by decide) _

theorem ended_entries (entries : Entries) (r : JsString) :
    Ended (stringifyEntries entries ++ 0x7D :: r) := by
  cases entries <;> exact ended_cons (by decide) _

variable {items : List Json}

theorem read_items (ih : ∀ v ∈ items, Read v) (n : Nat) (r : JsString)
    (fuel : (stringifyItems items).length < n) :
    readItems n (stringifyItems items ++ 0x5D :: r) =
      some (items.map (rewrite enumerated), r) := by
  induction items generalizing n with
  | nil =>
    obtain _ | m := n
    · omega
    simp [stringifyItems, readItems]
  | cons v items ihItems =>
    obtain _ | m := n
    · omega
    simp only [stringifyItems, length_cons, length_append] at fuel
    have hvalue := ih v mem_cons_self m _ (ended_items items r) (by omega)
    have hitems := ihItems (fun w hw => ih w (mem_cons_of_mem _ hw)) m (by omega)
    simp only [stringifyItems, cons_append, append_assoc, readItems]
    rw [if_neg (by decide), if_pos trivial, hvalue, bind_some, hitems]
    rfl

theorem read_entries (ih : ∀ e ∈ entries, Read e.2) (n : Nat) (r : JsString)
    (fuel : (stringifyEntries entries).length < n) :
    readEntries n (stringifyEntries entries ++ 0x7D :: r) =
      some (entries.map fun e => (e.1, rewrite enumerated e.2), r) := by
  induction entries generalizing n with
  | nil =>
    obtain _ | m := n
    · omega
    simp [stringifyEntries, readEntries]
  | cons e entries ihEntries =>
    obtain ⟨name, v⟩ := e
    obtain _ | m := n
    · omega
    simp only [stringifyEntries, length_cons, length_append] at fuel
    have hvalue : readValue m (stringify v ++ (stringifyEntries entries ++ 0x7D :: r)) = _ :=
      ih (name, v) mem_cons_self m _ (ended_entries entries r) (by simp only; omega)
    have hentries := ihEntries (fun e he => ih e (mem_cons_of_mem _ he)) m (by omega)
    have hname : unquote (escapeUnits name ++
        0x22 :: 0x3A :: (stringify v ++ (stringifyEntries entries ++ 0x7D :: r))) = _ :=
      unquote_escapeUnits name _
    simp only [stringifyEntries, quote, cons_append, append_assoc, nil_append,
      readEntries]
    rw [if_neg (by decide), if_pos ⟨trivial, rfl⟩, tail_cons, hname, bind_some]
    simp only [head?_cons, if_true, tail_cons, hvalue, bind_some, hentries]
    rfl

theorem read_array (ih : ∀ v ∈ items, Read v) : Read (.array items) := by
  intro n r _ fuel
  obtain _ | m := n
  · omega
  simp only [stringify, rewrite, rewriteItems_eq, cons_append, append_assoc,
    nil_append, readValue, show kindOf 0x5B = .array from rfl]
  cases items with
  | nil => rfl
  | cons v items =>
    obtain ⟨c, t, hv, _, hc⟩ := stringify_front v
    have htext : 0x2C :: ((stringifyItems (v :: items)).drop 1 ++ 0x5D :: r) =
        stringifyItems (v :: items) ++ 0x5D :: r := rfl
    simp only [stringify, stringifyItems, length_cons, length_append, length_nil,
      drop_succ_cons, drop_zero] at fuel
    have hfuel : (stringifyItems (v :: items)).length < m := by
      simp only [stringifyItems, length_cons, length_append]
      omega
    rw [if_neg, htext, read_items ih m r hfuel]
    · rfl
    · simp only [stringifyItems, drop_succ_cons, drop_zero, hv, cons_append,
        head?_cons, Option.some.injEq]
      exact hc

theorem read_object (distinct : (names entries).Nodup) (ih : ∀ e ∈ entries, Read e.2) :
    Read (.object entries) := by
  intro n r _ fuel
  obtain _ | m := n
  · omega
  simp only [stringify, rewrite, rewriteEntries_eq, cons_append, append_assoc,
    nil_append, readValue, show kindOf 0x7B = .object from rfl]
  cases entries with
  | nil => rfl
  | cons e entries =>
    have htext : 0x2C :: ((stringifyEntries (e :: entries)).drop 1 ++ 0x7D :: r) =
        stringifyEntries (e :: entries) ++ 0x7D :: r := rfl
    simp only [stringify, stringifyEntries, length_cons, length_append, length_nil,
      drop_succ_cons, drop_zero] at fuel
    have hfuel : (stringifyEntries (e :: entries)).length < m := by
      simp only [stringifyEntries, length_cons, length_append]
      omega
    have hassigned := assignAll_distinct (names_map (rewrite enumerated) (e :: entries) ▸ distinct)
    rw [if_neg, htext, read_entries ih m r hfuel, map_some, hassigned]
    simp [stringifyEntries, quote]

variable {v : Json}

theorem read (hv : WellFormed v) : Read v := by
  induction v using induct with
  | null =>
    intro n r _ fuel
    obtain _ | m := n
    · omega
    exact readLiteral_append (js "null") .null r
  | bool b =>
    intro n r _ fuel
    obtain _ | m := n
    · omega
    cases b
    · exact readLiteral_append (js "false") (.bool false) r
    · exact readLiteral_append (js "true") (.bool true) r
  | number x =>
    intro n r hr fuel
    obtain _ | m := n
    · omega
    have hread := readNumber_append x hr
    obtain ⟨c, t, htext, hc, _⟩ := number_text x
    rw [htext, cons_append] at hread
    rw [stringify, htext, cons_append, readValue, kindOf_numeric hc]
    exact hread
  | string s =>
    intro n r _ fuel
    obtain _ | m := n
    · omega
    simp only [stringify, quote, cons_append, append_assoc, nil_append, readValue,
      show kindOf 0x22 = .string from rfl, unquote_escapeUnits, rewrite, map_some]
  | array items ih =>
    cases hv with
    | array inner => exact read_array fun v hmem => ih v hmem (inner v hmem)
  | object entries ih =>
    cases hv with
    | object inner distinct => exact read_object distinct fun e hmem => ih e hmem (inner e hmem)

/-- Reading the text of a value gives it back, its entries as they are enumerated. -/
theorem parse_stringify (hv : WellFormed v) :
    parse (stringify v) = some (rewrite enumerated v) := by
  have hread := read hv ((stringify v).length + 1) [] ended_nil (by omega)
  rw [append_nil] at hread
  rw [parse, hread]
  rfl

/-! ## The text with the names in order -/

theorem Keeping.alike {f : Entries → Entries} (h : Keeping f fun _ => true) (hv : WellFormed v) :
    Alike (rewrite f v) v := by
  intro path
  rw [h.shapeAt hv, if_pos]
  rw [List.all_eq_true]
  intro step _
  cases step <;> rfl

theorem enumerated_keeping : Keeping enumerated fun _ => true where
  perm entries := by
    rw [filter_eq_self.mpr fun _ _ => rfl]
    exact enumerated_perm entries

def byName (entries : Entries) : Entries := entries.insertionSort ByName

theorem byName_keeping : Keeping byName fun _ => true where
  perm entries := by
    rw [filter_eq_self.mpr fun _ _ => rfl]
    exact perm_insertionSort _ _

theorem Alike.trans {u w : Json} (h : Alike u v) (h' : Alike v w) : Alike u w :=
  fun path => (h path).trans (h' path)

/-- Alike values have one text with the names in order, and other values have others. -/
theorem sorted_text_iff {w : Json} (hv : WellFormed v) (hw : WellFormed w) :
    stringify (rewrite byName v) = stringify (rewrite byName w) ↔ Alike v w := by
  constructor
  · intro h
    have hsame := stringify_injective h
    have hleft := byName_keeping.alike hv
    rw [hsame] at hleft
    exact hleft.symm.trans (byName_keeping.alike hw)
  · intro h
    have hsame : rewrite byName v = rewrite byName w :=
      rewrite_alike (fun _ _ distinct => insertionSort_perm distinct) hv hw h
    rw [hsame]

/-- Reading the text with the names in order gives an alike value. -/
theorem parse_sorted (hv : WellFormed v) :
    ∃ w, parse (stringify (rewrite byName v)) = some w ∧ WellFormed w ∧ Alike w v := by
  have hsorted := byName_keeping.wellFormed hv
  exact ⟨_, parse_stringify hsorted, enumerated_keeping.wellFormed hsorted,
    (enumerated_keeping.alike hsorted).trans (byName_keeping.alike hv)⟩

end Json
