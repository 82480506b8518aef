import HawkView.Lib.JsonSize

/-!
# The text of a value in chunks

A writer that prints a value piece by piece writes its text, and the sizes of the
pieces add up to the size of the text: each piece begins with an ASCII unit.
-/

namespace Json

open List

mutual

/-- The pieces that a value is written in. -/
def chunks : Json → List JsString
  | .null => [js "null"]
  | .bool b => [if b then js "true" else js "false"]
  | .number n => [n.text]
  | .string s => [quote s]
  | .array items => [0x5B] :: ((chunkItems items).drop 1 ++ [[0x5D]])
  | .object entries => [0x7B] :: ((chunkEntries entries).drop 1 ++ [[0x7D]])

/-- The pieces of items, each item after a comma. -/
def chunkItems : List Json → List JsString
  | [] => []
  | v :: rest => [0x2C] :: (chunks v ++ chunkItems rest)

def chunkEntries : List (JsString × Json) → List JsString
  | [] => []
  | (name, v) :: rest => [0x2C] :: (quote name ++ [0x3A]) :: (chunks v ++ chunkEntries rest)

end

variable {items : List Json}

theorem flatten_items (ih : ∀ v ∈ items, (chunks v).flatten = stringify v) :
    (chunkItems items).flatten = stringifyItems items := by
  induction items with
  | nil => rfl
  | cons v items ihItems =>
    rw [chunkItems, stringifyItems, flatten_cons, flatten_append,
      ih v mem_cons_self, ihItems fun w hw => ih w (mem_cons_of_mem _ hw)]
    rfl

variable {entries : List (JsString × Json)}

theorem flatten_entries (ih : ∀ e ∈ entries, (chunks e.2).flatten = stringify e.2) :
    (chunkEntries entries).flatten = stringifyEntries entries := by
  induction entries with
  | nil => rfl
  | cons e entries ihEntries =>
    obtain ⟨name, v⟩ := e
    have hvalue : (chunks v).flatten = stringify v := ih (name, v) mem_cons_self
    rw [chunkEntries, stringifyEntries, flatten_cons, flatten_cons,
      flatten_append, hvalue, ihEntries fun w hw => ih w (mem_cons_of_mem _ hw)]
    simp

/-- The pieces of a value make up its text. -/
theorem flatten_chunks (v : Json) : (chunks v).flatten = stringify v := by
  induction v using induct with
  | null | number | string => simp [chunks, stringify]
  | bool b => cases b <;> simp [chunks, stringify]
  | array items ih =>
    have hitems := flatten_items ih
    cases items with
    | nil => rfl
    | cons v items =>
      rw [chunkItems, stringifyItems, flatten_cons, cons_append, nil_append,
        List.cons.injEq] at hitems
      simp [chunks, chunkItems, stringify, stringifyItems, ← hitems.2]
  | object entries ih =>
    have hentries := flatten_entries ih
    cases entries with
    | nil => rfl
    | cons e entries =>
      obtain ⟨name, v⟩ := e
      rw [chunkEntries, stringifyEntries, flatten_cons, cons_append, nil_append,
        List.cons.injEq] at hentries
      simp [chunks, chunkEntries, stringify, stringifyEntries, ← hentries.2]

/-- A piece that begins with an ASCII unit. -/
def Fronted (s : JsString) : Prop := ∃ c t, s = c :: t ∧ c < 0x80

theorem fronted_number (n : NumberText) : Fronted n.text := by
  obtain ⟨c, t, htext, hc, _⟩ := number_text n
  refine ⟨c, t, htext, ?_⟩
  rw [isNumeric, Bool.or_eq_true, decide_eq_true_eq, decide_eq_true_eq] at hc
  rcases hc with hc | hc
  · exact UInt16.lt_of_le_of_lt hc.2 (by decide)
  · simp only [mem_cons, not_mem_nil, or_false] at hc
    rcases hc with rfl | rfl | rfl | rfl <;> decide

theorem fronted_items (ih : ∀ v ∈ items, ∀ s ∈ chunks v, Fronted s) :
    ∀ s ∈ chunkItems items, Fronted s := by
  induction items with
  | nil =>
    intro s hs
    cases hs
  | cons v items ihItems =>
    intro s hs
    rw [chunkItems, mem_cons, mem_append] at hs
    rcases hs with rfl | hs | hs
    · exact ⟨0x2C, [], rfl, by decide⟩
    · exact ih v mem_cons_self s hs
    · exact ihItems (fun w hw => ih w (mem_cons_of_mem _ hw)) s hs

theorem fronted_entries (ih : ∀ e ∈ entries, ∀ s ∈ chunks e.2, Fronted s) :
    ∀ s ∈ chunkEntries entries, Fronted s := by
  induction entries with
  | nil =>
    intro s hs
    cases hs
  | cons e entries ihEntries =>
    obtain ⟨name, v⟩ := e
    intro s hs
    rw [chunkEntries, mem_cons, mem_cons, mem_append] at hs
    rcases hs with rfl | rfl | hs | hs
    · exact ⟨0x2C, [], rfl, by decide⟩
    · exact ⟨0x22, _, rfl, by decide⟩
    · exact ih (name, v) mem_cons_self s hs
    · exact ihEntries (fun w hw => ih w (mem_cons_of_mem _ hw)) s hs

theorem fronted_chunks (v : Json) : ∀ s ∈ chunks v, Fronted s := by
  induction v using induct with
  | null =>
    intro s hs
    rw [chunks, mem_singleton] at hs
    exact ⟨0x6E, _, hs, by decide⟩
  | bool b =>
    intro s hs
    rw [chunks, mem_singleton] at hs
    cases b
    · exact ⟨0x66, _, hs, by decide⟩
    · exact ⟨0x74, _, hs, by decide⟩
  | number n =>
    intro s hs
    rw [chunks, mem_singleton] at hs
    exact hs ▸ fronted_number n
  | string t =>
    intro s hs
    rw [chunks, mem_singleton] at hs
    exact ⟨0x22, _, hs, by decide⟩
  | array items ih =>
    intro s hs
    rw [chunks, mem_cons, mem_append, mem_singleton] at hs
    rcases hs with rfl | hs | rfl
    · exact ⟨0x5B, [], rfl, by decide⟩
    · exact fronted_items ih s (mem_of_mem_drop hs)
    · exact ⟨0x5D, [], rfl, by decide⟩
  | object entries ih =>
    intro s hs
    rw [chunks, mem_cons, mem_append, mem_singleton] at hs
    rcases hs with rfl | hs | rfl
    · exact ⟨0x7B, [], rfl, by decide⟩
    · exact fronted_entries ih s (mem_of_mem_drop hs)
    · exact ⟨0x7D, [], rfl, by decide⟩

theorem byteLength_flatten {pieces : List JsString} (h : ∀ s ∈ pieces, Fronted s) :
    (pieces.map byteLength).sum = byteLength pieces.flatten := by
  induction pieces with
  | nil => rfl
  | cons s pieces ih =>
    rw [map_cons, sum_cons, ih fun t ht => h t (mem_cons_of_mem _ ht),
      flatten_cons]
    cases pieces with
    | nil => simp [byteLength]
    | cons t pieces =>
      obtain ⟨c, u, rfl, hc⟩ := h t (by simp)
      rw [flatten_cons, cons_append, byteLength_before_ascii hc]

/-- The sizes of the pieces add up to the size of the text. -/
theorem byteLength_chunks (v : Json) :
    ((chunks v).map byteLength).sum = byteLength (stringify v) := by
  rw [byteLength_flatten (fronted_chunks v), flatten_chunks]

end Json
