import Mathlib.Data.List.Induction

/-!
# Runs of a partial step function

A system is a partial step function on states: `step s a = none` says that the
action `a` is not possible in `s`. Runs are lists of actions, so a run can be
evaluated; a guard is checked in the state before each of its steps.
-/

namespace Runs

open List

universe u v

variable {σ : Type u} {α : Type v}

/-- The state after the actions, if every one of them was possible. -/
def run (step : σ → α → Option σ) : σ → List α → Option σ
  | s, [] => some s
  | s, a :: rest => (step s a).bind fun s' => run step s' rest

/-- The guard held before every step of the run. -/
def Along (step : σ → α → Option σ) (guard : σ → α → Prop) : σ → List α → Prop
  | _, [] => True
  | s, a :: rest => guard s a ∧ match step s a with
    | none => True
    | some s' => Along step guard s' rest

instance decidableAlong (step : σ → α → Option σ) (guard : σ → α → Prop)
    [∀ s a, Decidable (guard s a)] : ∀ s as, Decidable (Along step guard s as)
  | _, [] => isTrue trivial
  | s, a :: rest =>
    match h : step s a with
    | none => decidable_of_iff (guard s a) (by simp [Along, h])
    | some s' =>
      have : Decidable (Along step guard s' rest) := decidableAlong step guard s' rest
      decidable_of_iff (guard s a ∧ Along step guard s' rest) (by simp [Along, h])

section Rules

variable {step : σ → α → Option σ}

variable {s : σ}

theorem run_cons {s'' : σ} {a : α} {rest : List α} :
    run step s (a :: rest) = some s'' ↔
      ∃ s', step s a = some s' ∧ run step s' rest = some s'' := by
  simp [run, Option.bind_eq_some_iff]

variable {as bs : List α}

theorem run_append {s'' : σ} :
    run step s (as ++ bs) = some s'' ↔
      ∃ s', run step s as = some s' ∧ run step s' bs = some s'' := by
  induction as generalizing s with
  | nil => simp [run]
  | cons a as ih =>
    constructor
    · intro h
      obtain ⟨t, ht, hrest⟩ := run_cons.mp h
      obtain ⟨s', hs', hbs⟩ := ih.mp hrest
      exact ⟨s', run_cons.mpr ⟨t, ht, hs'⟩, hbs⟩
    · rintro ⟨s', has, hbs⟩
      obtain ⟨t, ht, hrest⟩ := run_cons.mp has
      exact run_cons.mpr ⟨t, ht, ih.mpr ⟨s', hrest, hbs⟩⟩

variable {I : σ → Prop}

/-- What every step preserves holds at the end of a run. -/
theorem invariant (preserved : ∀ s a s', I s → step s a = some s' → I s') {s' : σ} (init : I s)
    (h : run step s as = some s') : I s' := by
  induction as generalizing s with
  | nil =>
    cases h
    exact init
  | cons a as ih =>
    obtain ⟨t, ht, hrest⟩ := run_cons.mp h
    exact ih (preserved s a t init ht) hrest

variable {guard : σ → α → Prop}

/-- What every guarded step preserves holds at the end of a guarded run. -/
theorem invariant_along (preserved : ∀ s a s', I s → guard s a → step s a = some s' → I s')
    {s' : σ} (init : I s) (guarded : Along step guard s as) (h : run step s as = some s') :
    I s' := by
  induction as generalizing s with
  | nil =>
    cases h
    exact init
  | cons a as ih =>
    obtain ⟨t, ht, hrest⟩ := run_cons.mp h
    obtain ⟨hguard, hrestGuarded⟩ := guarded
    rw [ht] at hrestGuarded
    exact ih (preserved s a t init hguard ht) hrestGuarded hrest

variable {guard' : σ → α → Prop}

/-- A weaker guard holds along the same run. -/
theorem along_mono (weaker : ∀ s a, guard s a → guard' s a) (h : Along step guard s as) :
    Along step guard' s as := by
  induction as generalizing s with
  | nil => trivial
  | cons a as ih =>
    refine ⟨weaker s a h.1, ?_⟩
    have hrest := h.2
    cases hstep : step s a with
    | none => trivial
    | some t =>
      rw [hstep] at hrest
      exact ih hrest

/-- Two guards that hold along a run hold together. -/
theorem along_and (h : Along step guard s as) (h' : Along step guard' s as) :
    Along step (fun s a => guard s a ∧ guard' s a) s as := by
  induction as generalizing s with
  | nil => trivial
  | cons a as ih =>
    refine ⟨⟨h.1, h'.1⟩, ?_⟩
    have hrest := h.2
    have hrest' := h'.2
    cases hstep : step s a with
    | none => trivial
    | some t =>
      simp only [hstep] at hrest hrest'
      exact ih hrest hrest'

/-- A guard on actions that holds of all of them holds along the run. -/
theorem along_of_forall {guard : α → Prop} (h : ∀ a ∈ as, guard a) :
    Along step (fun _ a => guard a) s as := by
  induction as generalizing s with
  | nil => trivial
  | cons a as ih =>
    refine ⟨h a mem_cons_self, ?_⟩
    cases step s a with
    | none => trivial
    | some t => exact ih fun b hb => h b (mem_cons_of_mem a hb)

/-- A guard that holds along a run holds along its beginning. -/
theorem along_left (h : Along step guard s (as ++ bs)) : Along step guard s as := by
  induction as generalizing s with
  | nil => trivial
  | cons a as ih =>
    refine ⟨h.1, ?_⟩
    have hrest := h.2
    cases hstep : step s a with
    | none => trivial
    | some t =>
      simp only [hstep] at hrest
      exact ih hrest

end Rules

variable {P : List α → σ → Prop}

/-- What a total step carries from a prefix to the next one holds of the whole list. -/
theorem foldl_carries {f : σ → α → σ} {s : σ} (init : P [] s)
    (carried : ∀ as a s, P as s → P (as ++ [a]) (f s a)) (as : List α) :
    P as (as.foldl f s) := by
  induction as using reverseRecOn with
  | nil => exact init
  | append_singleton as a ih =>
    rw [foldl_append, foldl_cons, foldl_nil]
    exact carried as a _ ih

/-- What a partial step carries from a prefix to the next one holds of the whole list. -/
theorem foldlM_carries {f : σ → α → Option σ} {s s' : σ} (init : P [] s)
    (carried : ∀ as a s s', P as s → f s a = some s' → P (as ++ [a]) s') {as : List α}
    (h : as.foldlM f s = some s') : P as s' := by
  induction as using reverseRecOn generalizing s' with
  | nil =>
    cases h
    exact init
  | append_singleton as a ih =>
    rw [foldlM_append] at h
    obtain ⟨t, ht, hlast⟩ := Option.bind_eq_some_iff.mp h
    obtain ⟨u, hu, hend⟩ := Option.bind_eq_some_iff.mp hlast
    cases hend
    exact carried as a t _ (ih ht) hu

end Runs
