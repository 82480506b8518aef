import Mathlib.Data.List.Forall2

/-!
# Reading a list item by item

A reader that may fail reads a list by reading each of its items, and fails when
one of them does.
-/

universe u v w

namespace Traverse

open List

theorem bind_ok {ε α β : Type} {x : Except ε α} {f : α → Except ε β} {b : β} :
    x.bind f = .ok b ↔ ∃ a, x = .ok a ∧ f a = .ok b := by
  cases x <;> simp [Except.bind]

theorem map_ok {ε α β : Type} {x : Except ε α} {f : α → β} {b : β} :
    x.map f = .ok b ↔ ∃ a, x = .ok a ∧ f a = b := by
  cases x <;> simp [Except.map]

/-- Lists that two maps take to one list, item by item. -/
theorem map_eq_iff {α β γ : Type} {f : α → γ} {g : β → γ} {l : List α} {m : List β} :
    l.map f = m.map g ↔ l.length = m.length ∧
      ∀ (i : Nat) (a : α) (b : β), l[i]? = some a → m[i]? = some b → f a = g b := by
  constructor
  · intro h
    refine ⟨by simpa using congrArg List.length h, ?_⟩
    intro i a b ha hb
    have hi := congrArg (fun l => l[i]?) h
    simpa [ha, hb] using hi
  · rintro ⟨size, inner⟩
    apply ext_getElem?
    intro i
    rw [getElem?_map, getElem?_map]
    by_cases hi : i < l.length
    · have hi' : i < m.length := by omega
      rw [getElem?_eq_getElem hi, getElem?_eq_getElem hi', Option.map_some,
        Option.map_some, inner i _ _ (getElem?_eq_getElem hi) (getElem?_eq_getElem hi')]
    · rw [getElem?_eq_none (by omega), getElem?_eq_none (by omega)]
      rfl

/-- Two values that are there together and agree where they are. -/
theorem map_eq_of_same {α β γ : Type} {f : α → γ} {g : β → γ} {x : Option α} {y : Option β}
    (same : x.isSome = y.isSome) (agree : ∀ a b, x = some a → y = some b → f a = g b) :
    x.map f = y.map g := by
  cases x with
  | none =>
    cases y with
    | none => rfl
    | some b => cases same
  | some a =>
    cases y with
    | none => cases same
    | some b => exact congrArg some (agree a b rfl rfl)

variable {α : Type u} {β : Type u} {ε : Type v} {l : List α} {m : List β}

theorem option_iff {f : α → Option β} :
    l.mapM f = some m ↔ Forall₂ (fun a b => f a = some b) l m := by
  induction l generalizing m with
  | nil => simp [eq_comm]
  | cons a l ih =>
    simp only [mapM_cons, bind, Option.bind_eq_some_iff, pure, Option.some.injEq]
    constructor
    · rintro ⟨b, hb, rest, hrest, rfl⟩
      exact .cons hb (ih.mp hrest)
    · rintro (_ | ⟨hb, hrest⟩)
      exact ⟨_, hb, _, ih.mpr hrest, rfl⟩

theorem except_iff {f : α → Except ε β} :
    l.mapM f = .ok m ↔ Forall₂ (fun a b => f a = .ok b) l m := by
  induction l generalizing m with
  | nil =>
    simp only [mapM_nil, pure, Except.pure, Except.ok.injEq, forall₂_nil_left_iff, eq_comm]
  | cons a l ih =>
    rw [mapM_cons]
    cases ha : f a with
    | error e =>
      constructor
      · intro h
        cases h
      · rintro (_ | ⟨hb, _⟩)
        rw [ha] at hb
        cases hb
    | ok b =>
      cases hl : l.mapM f with
      | error e =>
        constructor
        · intro h
          cases h
        · rintro (_ | ⟨_, hrest⟩)
          rw [ih.mpr hrest] at hl
          cases hl
      | ok rest =>
        constructor
        · intro h
          cases h
          exact .cons ha (ih.mp hl)
        · rintro (_ | ⟨hb, hrest⟩)
          rw [ha] at hb
          cases hb
          have := hl.symm.trans (ih.mpr hrest)
          cases this
          rfl

variable {write : β → α}

/-- What is read from the writing of each item is the item. -/
theorem option_map {f : α → Option β} (read : ∀ b ∈ m, f (write b) = some b) :
    (m.map write).mapM f = some m := by
  rw [option_iff, forall₂_map_left_iff, forall₂_same]
  exact read

theorem except_map {f : α → Except ε β} (read : ∀ b ∈ m, f (write b) = .ok b) :
    (m.map write).mapM f = .ok m := by
  rw [except_iff, forall₂_map_left_iff, forall₂_same]
  exact read

variable {R : α → β → Prop}

/-- Every item that was read comes from one that was there. -/
theorem mem_source (h : Forall₂ R l m) {b : β} (hb : b ∈ m) :
    ∃ a ∈ l, R a b := by
  induction h with
  | nil => cases hb
  | cons hR _ ih =>
    rcases mem_cons.mp hb with rfl | hb
    · exact ⟨_, mem_cons_self, hR⟩
    · obtain ⟨a, ha, hab⟩ := ih hb
      exact ⟨a, mem_cons_of_mem _ ha, hab⟩

/-- Every item that was there is read as one. -/
theorem mem_target (h : Forall₂ R l m) {a : α} (ha : a ∈ l) :
    ∃ b ∈ m, R a b := mem_source h.flip ha

end Traverse
