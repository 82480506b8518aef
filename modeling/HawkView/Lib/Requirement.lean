import Mathlib.Data.Set.Insert

/-!
# Combined requirements

A set of controls is required in full or in the alternative. One requirement
implies another when every holder that meets the first meets the second.
-/

namespace Requirement

variable {α : Type*}

inductive Combine
  | all | any
  deriving DecidableEq, Repr

/-- `held` meets the requirement that `c` makes of `controls`. -/
def Combine.Meets : Combine → Set α → Set α → Prop
  | .all, controls, held => controls ⊆ held
  | .any, controls, held => (controls ∩ held).Nonempty

/-- Whatever meets the first requirement meets the second. -/
def Implies (c : Combine) (S : Set α) (d : Combine) (T : Set α) : Prop :=
  ∀ held, c.Meets S held → d.Meets T held

variable {S T : Set α}

theorem all_implies_all : Implies .all S .all T ↔ T ⊆ S := by
  constructor
  · intro h
    exact h S (fun x hx => hx)
  · intro hsub held hmeets x hx
    exact hmeets (hsub hx)

theorem any_implies_any : Implies .any S .any T ↔ S ⊆ T := by
  constructor
  · intro h x hx
    obtain ⟨y, hy, hyx⟩ := h {x} ⟨x, hx, rfl⟩
    cases hyx
    exact hy
  · rintro hsub held ⟨x, hx, hheld⟩
    exact ⟨x, hsub hx, hheld⟩

/-- From all to any, one shared control is enough, and nothing less is. -/
theorem all_implies_any : Implies .all S .any T ↔ (T ∩ S).Nonempty := by
  constructor
  · intro h
    exact h S (fun x hx => hx)
  · rintro ⟨x, hxT, hxS⟩ held hmeets
    exact ⟨x, hxT, hmeets hxS⟩

theorem any_implies_all :
    Implies .any S .all T ↔ ∀ x ∈ S, ∀ y ∈ T, y = x := by
  constructor
  · intro h x hx y hy
    exact h {x} ⟨x, hx, rfl⟩ hy
  · rintro h held ⟨x, hx, hheld⟩ y hy
    cases h x hx y hy
    exact hheld

end Requirement
