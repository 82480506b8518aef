import HawkView.Lib.JsonRewrite
import HawkView.Lib.JsonText
import HawkView.Lib.Traverse

/-!
# Values up to declared rearrangements

Objects are compared without the order of their entries, and arrays under
declared names without the order of their items. Arranging both in an order of
their texts gives such values one form, and only such values.
-/

namespace Json

open List Option

/-- A comparison of strings that orders every two different ones. -/
structure Collation where
  le : JsString → JsString → Prop
  decide : DecidableRel le
  total : ∀ s t, le s t ∨ le t s
  trans : ∀ {s t u}, le s t → le t u → le s u
  antisymm : ∀ {s t}, le s t → le t s → s = t

namespace Collation

variable (c : Collation)

instance : DecidableRel c.le := c.decide

/-- The order of the code units. -/
def codeUnits : Collation where
  le s t := s ≤ t
  decide _ _ := inferInstance
  total := List.le_total
  trans := List.le_trans
  antisymm := List.le_antisymm

def ByText (v w : Json) : Prop := c.le (stringify v) (stringify w)

def ByName (e o : JsString × Json) : Prop := c.le e.1 o.1

instance : DecidableRel c.ByText := fun v w => c.decide (stringify v) (stringify w)

instance : DecidableRel c.ByName := fun e o => c.decide e.1 o.1

instance : Std.Total c.ByText := ⟨fun v w => c.total (stringify v) (stringify w)⟩

instance : Std.Total c.ByName := ⟨fun e o => c.total e.1 o.1⟩

instance : IsTrans Json c.ByText := ⟨fun _ _ _ => c.trans⟩

instance : IsTrans (JsString × Json) c.ByName := ⟨fun _ _ _ => c.trans⟩

theorem sortedItems_perm {items others : List Json} (h : items.Perm others) :
    items.insertionSort c.ByText = others.insertionSort c.ByText :=
  StableOrder.insertionSort_perm h fun _ _ _ _ hvw hwv => stringify_injective (c.antisymm hvw hwv)

theorem sortedEntries_perm {entries others : Entries} (distinct : (names entries).Nodup)
    (h : entries.Perm others) :
    entries.insertionSort c.ByName = others.insertionSort c.ByName :=
  StableOrder.insertionSort_perm h fun _ ha _ hb hab hba =>
    inj_on_of_nodup_map distinct ha hb (c.antisymm hab hba)

end Collation

variable (c : Collation) (unordered : JsString → Bool)

mutual

/-- Sorts the entries of objects by name, and the items of arrays under an unordered name by
their text. An array is under the name of the entry that holds it. -/
def arrange (field : Option JsString) : Json → Json
  | .null => .null
  | .bool b => .bool b
  | .number n => .number n
  | .string s => .string s
  | .array items =>
    if field.any unordered then .array ((arrangeItems field items).insertionSort c.ByText)
    else .array (arrangeItems field items)
  | .object entries => .object (enumerated ((arrangeEntries entries).insertionSort c.ByName))

def arrangeItems (field : Option JsString) : List Json → List Json
  | [] => []
  | v :: rest => arrange field v :: arrangeItems field rest

def arrangeEntries : Entries → Entries
  | [] => []
  | (name, v) :: rest => (name, arrange (some name) v) :: arrangeEntries rest

end

/-- Values that differ in the order of entries and of the items under unordered names only. -/
inductive Rearranged : Option JsString → Json → Json → Prop
  | null (field : Option JsString) : Rearranged field .null .null
  | bool (field : Option JsString) (b : Bool) : Rearranged field (.bool b) (.bool b)
  | number (field : Option JsString) (n : NumberText) : Rearranged field (.number n) (.number n)
  | string (field : Option JsString) (s : JsString) : Rearranged field (.string s) (.string s)
  | items {field : Option JsString} {items others : List Json}
      (size : items.length = others.length)
      (inner : ∀ (i : Nat) (v w : Json), items[i]? = some v → others[i]? = some w →
        Rearranged field v w) :
      Rearranged field (.array items) (.array others)
  | moved {field : Option JsString} {items others moved : List Json}
      (declared : field.any unordered = true) (perm : moved.Perm others)
      (size : items.length = moved.length)
      (inner : ∀ (i : Nat) (v w : Json), items[i]? = some v → moved[i]? = some w →
        Rearranged field v w) :
      Rearranged field (.array items) (.array others)
  | entries {field : Option JsString} {entries others : Entries}
      (same : ∀ name, (entries.lookup name).isSome = (others.lookup name).isSome)
      (inner : ∀ name v w, entries.lookup name = some v → others.lookup name = some w →
        Rearranged (some name) v w) :
      Rearranged field (.object entries) (.object others)

theorem arrangeItems_eq (field : Option JsString) (items : List Json) :
    arrangeItems c unordered field items = items.map (arrange c unordered field) := by
  induction items with
  | nil => rfl
  | cons v items ih => rw [arrangeItems, ih, map_cons]

theorem arrangeEntries_eq (entries : Entries) :
    arrangeEntries c unordered entries =
      entries.map fun e => (e.1, arrange c unordered (some e.1) e.2) := by
  induction entries with
  | nil => rfl
  | cons e entries ih => rw [arrangeEntries, ih, map_cons]

theorem names_arranged (entries : Entries) :
    names (arrangeEntries c unordered entries) = names entries := by
  rw [arrangeEntries_eq]
  exact names_mapWith (fun name => arrange c unordered (some name)) entries

variable {c unordered} {field : Option JsString}

variable {entries : Entries}

theorem lookup_arranged (distinct : (names entries).Nodup) (name : JsString) :
    (enumerated ((arrangeEntries c unordered entries).insertionSort c.ByName)).lookup name =
      (entries.lookup name).map (arrange c unordered (some name)) := by
  have hdistinct := names_arranged c unordered entries ▸ distinct
  have hperm : (arrangeEntries c unordered entries).Perm
      (enumerated ((arrangeEntries c unordered entries).insertionSort c.ByName)) :=
    ((enumerated_perm _).trans (perm_insertionSort _ _)).symm
  rw [← lookup_perm hperm hdistinct, arrangeEntries_eq]
  exact lookup_mapWith (fun n => arrange c unordered (some n)) entries name

variable {items others : List Json}

theorem shape_arrange (v : Json) : (arrange c unordered field v).shape = v.shape := by
  cases v with
  | array items =>
    rw [arrange]
    split <;> rfl
  | _ => rfl

variable {v w : Json}

theorem shape_of_eq (h : arrange c unordered field v = arrange c unordered field w) :
    v.shape = w.shape := by
  have hshape := congrArg shape h
  rwa [shape_arrange, shape_arrange] at hshape

theorem arrange_array (items : List Json) :
    arrange c unordered field (.array items) = .array (if field.any unordered then
      (items.map (arrange c unordered field)).insertionSort c.ByText
    else items.map (arrange c unordered field)) := by
  rw [arrange, arrangeItems_eq]
  split <;> rfl

theorem rearranged_array
    (ih : ∀ v ∈ items, ∀ w ∈ others,
      arrange c unordered field v = arrange c unordered field w → Rearranged unordered field v w)
    (h : arrange c unordered field (.array items) = arrange c unordered field (.array others)) :
    Rearranged unordered field (.array items) (.array others) := by
  rw [arrange_array, arrange_array] at h
  have hitems := Json.array.inj h
  by_cases hfield : field.any unordered = true
  · rw [if_pos hfield, if_pos hfield] at hitems
    have hperm : (items.map (arrange c unordered field)).Perm
        (others.map (arrange c unordered field)) :=
      (perm_insertionSort c.ByText _).symm.trans
        (hitems ▸ perm_insertionSort c.ByText _)
    -- The permutation of the arranged items is one of the items themselves.
    obtain ⟨moved, hmap, hmoved⟩ :=
      (congrFun₂ (eq_map_comp_perm (arrange c unordered field)) _ others).mpr hperm
    obtain ⟨size, inner⟩ := Traverse.map_eq_iff.mp hmap
    exact .moved hfield hmoved size fun i v w hv hw => ih v (mem_of_getElem? hv) w
      (hmoved.mem_iff.mp (mem_of_getElem? hw)) (inner i v w hv hw)
  · rw [if_neg hfield, if_neg hfield] at hitems
    obtain ⟨size, inner⟩ := Traverse.map_eq_iff.mp hitems
    exact .items size fun i v w hv hw =>
      ih v (mem_of_getElem? hv) w (mem_of_getElem? hw) (inner i v w hv hw)

theorem rearranged_object {others : Entries} (distinct : (names entries).Nodup)
    (distinct' : (names others).Nodup)
    (ih : ∀ e ∈ entries, ∀ o ∈ others, arrange c unordered (some e.1) e.2 =
      arrange c unordered (some e.1) o.2 → Rearranged unordered (some e.1) e.2 o.2)
    (h : arrange c unordered field (.object entries) = arrange c unordered field (.object others)) :
    Rearranged unordered field (.object entries) (.object others) := by
  have hlookup (name : JsString) :
      (entries.lookup name).map (arrange c unordered (some name)) =
        (others.lookup name).map (arrange c unordered (some name)) := by
    rw [← lookup_arranged distinct, ← lookup_arranged distinct', Json.object.inj h]
  constructor
  · intro name
    have hsome := congrArg Option.isSome (hlookup name)
    rwa [isSome_map, isSome_map] at hsome
  · intro name v w hv hw
    apply ih _ (lookup_mem hv) _ (lookup_mem hw)
    have hname := hlookup name
    rw [hv, hw] at hname
    exact Option.some.inj hname

/-- Values that are arranged to one are rearrangements of each other. -/
theorem rearranged_of_eq (hv : WellFormed v) (hw : WellFormed w)
    (h : arrange c unordered field v = arrange c unordered field w) :
    Rearranged unordered field v w := by
  have hshape := shape_of_eq h
  induction v using induct generalizing field w with
  | null => cases w <;> cases hshape; exact .null field
  | bool b => cases w <;> cases hshape; exact .bool field b
  | number n => cases w <;> cases hshape; exact .number field n
  | string s => cases w <;> cases hshape; exact .string field s
  | array items ih =>
    cases hw with
    | array inner' =>
      cases hv with
      | array inner =>
        apply rearranged_array _ h
        intro v hmem w hmem' hsame
        exact ih v hmem (inner v hmem) (inner' w hmem') hsame (shape_of_eq hsame)
    | _ => cases hshape
  | object entries ih =>
    cases hw with
    | object inner' distinct' =>
      cases hv with
      | object inner distinct =>
        apply rearranged_object distinct distinct' _ h
        intro e hmem o hmem' hsame
        exact ih e hmem (inner e hmem) (inner' o hmem') hsame (shape_of_eq hsame)
    | _ => cases hshape

/-- Rearranged values are arranged to one. -/
theorem Rearranged.arrange (h : Rearranged unordered field v w) (hv : WellFormed v)
    (hw : WellFormed w) : arrange c unordered field v = arrange c unordered field w := by
  induction h with
  | null | bool | number | string => rfl
  | items size inner ih =>
    cases hv with
    | array hitems =>
      cases hw with
      | array hothers =>
        have hmap := Traverse.map_eq_iff.mpr ⟨size, fun i v w hi hi' => ih i v w hi hi'
          (hitems v (mem_of_getElem? hi)) (hothers w (mem_of_getElem? hi'))⟩
        rw [arrange_array, arrange_array, hmap]
  | moved declared perm size inner ih =>
    cases hv with
    | array hitems =>
      cases hw with
      | array hothers =>
        have hmap := Traverse.map_eq_iff.mpr ⟨size, fun i v w hi hi' => ih i v w hi hi'
          (hitems v (mem_of_getElem? hi))
          (hothers w (perm.mem_iff.mp (mem_of_getElem? hi')))⟩
        rw [arrange_array, arrange_array, if_pos declared, if_pos declared, hmap,
          c.sortedItems_perm (perm.map _)]
  | entries same inner ih =>
    rename_i field entries others
    cases hv with
    | object hentries distinct =>
      cases hw with
      | object hothers distinct' =>
        have hperm : (arrangeEntries c unordered entries).Perm
            (arrangeEntries c unordered others) := by
          rw [arrangeEntries_eq, arrangeEntries_eq]
          apply map_perm (fun n => Json.arrange c unordered (some n)) distinct distinct'
          exact fun name => Traverse.map_eq_of_same (same name) fun x y hx hy =>
            ih name x y hx hy (hentries _ (lookup_mem hx)) (hothers _ (lookup_mem hy))
        rw [← names_arranged c unordered entries] at distinct
        rw [Json.arrange, Json.arrange, c.sortedEntries_perm distinct hperm]

theorem arrange_eq_iff (hv : WellFormed v) (hw : WellFormed w) :
    arrange c unordered field v = arrange c unordered field w ↔
      Rearranged unordered field v w :=
  ⟨rearranged_of_eq hv hw, fun h => h.arrange hv hw⟩

end Json
