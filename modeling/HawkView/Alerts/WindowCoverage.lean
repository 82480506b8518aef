import Mathlib.Algebra.Order.Group.Int
import Mathlib.Data.List.Chain
import Mathlib.Data.List.Sort

/-!
# Readable windows

Whether collection succeeded throughout a window, from the history of its attempts. A time is
`none` when the date is invalid: every comparison with it fails.
-/

namespace CollectionWindow

open List

structure CollectionAttempt where
  atMs : Option Int
  succeeded : Bool
  deriving DecidableEq, Repr

/-- Only a history can show that a window was readable. -/
inductive WindowCoverage
  | attemptHistory (attempts : List CollectionAttempt)
  | noHistoryAvailable

structure Window where
  fromMs : Option Int
  toMs : Option Int

/-- The times of the successes around the window, in order. -/
def successes (attempts : List CollectionAttempt) (fromMs toMs maxGapMs : Int) : List Int :=
  (((attempts.filter (·.succeeded)).filterMap (·.atMs)).filter fun t =>
    decide (t ≥ fromMs - maxGapMs) && decide (t ≤ toMs)).insertionSort (· ≤ ·)

/-- The walk along the successes: how far they cover, or `none` when a gap is too long. -/
def walk (maxGapMs covered : Int) : List Int → Option Int
  | [] => some covered
  | t :: rest => if t - covered > maxGapMs then none else walk maxGapMs t rest

def windowReadableThroughout (coverage : WindowCoverage) (window : Window) (maxGapMs : Int) :
    Bool :=
  match coverage, window.fromMs, window.toMs with
  | .attemptHistory attempts, some fromMs, some toMs =>
    if toMs ≤ fromMs then false
    else
      let successes := successes attempts fromMs toMs maxGapMs
      if successes = [] then false
      else match walk maxGapMs (fromMs - maxGapMs) successes with
        | none => false
        | some covered => decide (toMs - covered ≤ maxGapMs)
  | _, _, _ => false

inductive EventTally
  | counted (times : List (Option Int))
  | notCounted

structure QuietWindow where
  window : Window
  events : EventTally
  coverage : WindowCoverage
  maxGapMs : Int

def windowWentQuiet (evidence : QuietWindow) : Bool :=
  match evidence.events with
  | .notCounted => false
  | .counted times =>
    if !windowReadableThroughout evidence.coverage evidence.window evidence.maxGapMs then false
    else match evidence.window.fromMs, evidence.window.toMs with
      | some fromMs, some toMs =>
        !times.any (·.any fun t => decide (t ≥ fromMs) && decide (t ≤ toMs))
      | _, _ => true

/-! ## Chains of successes -/

/-- Successes that cover a window: the first reaches its start, each of them the next one, and
the last reaches its end. -/
structure Covers (attempts : List CollectionAttempt) (fromMs toMs maxGapMs first : Int)
    (rest : List Int) : Prop where
  collected : ∀ t ∈ first :: rest, ⟨some t, true⟩ ∈ attempts
  steps : (first :: rest).IsChain fun a b => a ≤ b ∧ b - a ≤ maxGapMs
  start : first ≤ fromMs ∧ fromMs - first ≤ maxGapMs
  stop : (first :: rest).getLast (cons_ne_nil _ _) ≤ toMs ∧
    toMs - (first :: rest).getLast (cons_ne_nil _ _) ≤ maxGapMs

variable {attempts : List CollectionAttempt} {fromMs toMs maxGapMs : Int}

theorem mem_successes {t : Int} : t ∈ successes attempts fromMs toMs maxGapMs ↔
    ⟨some t, true⟩ ∈ attempts ∧ fromMs - maxGapMs ≤ t ∧ t ≤ toMs := by
  simp only [successes, mem_insertionSort, mem_filter, mem_filterMap,
    Bool.and_eq_true, decide_eq_true_eq]
  constructor
  · rintro ⟨⟨⟨_, succeeded⟩, ⟨hmem, hsucceeded⟩, hat⟩, hwithin⟩
    cases hat
    cases hsucceeded
    exact ⟨hmem, hwithin⟩
  · exact fun ⟨hmem, hwithin⟩ => ⟨⟨_, ⟨hmem, rfl⟩, rfl⟩, hwithin⟩

theorem walk_eq_some {covered reached : Int} {times : List Int} :
    walk maxGapMs covered times = some reached ↔
      (covered :: times).IsChain (fun a b => b - a ≤ maxGapMs) ∧
        (covered :: times).getLast (cons_ne_nil _ _) = reached := by
  induction times generalizing covered with
  | nil => simp [walk]
  | cons t rest ih =>
    rw [walk, isChain_cons_cons, getLast_cons_cons]
    split
    · next hlong => simp [Int.not_le.mpr hlong]
    · next hshort => rw [ih, and_assoc, and_iff_right (Int.not_lt.mp hshort)]

variable {first : Int} {rest : List Int}

/-- A chain that starts before a stretch and ends after it has a step across it, or a link in
between. -/
theorem crosses {a b : Int} (chain : (first :: rest).IsChain fun a b => a ≤ b ∧ b - a ≤ maxGapMs)
    (start : first ≤ a) (stop : b ≤ (first :: rest).getLast (cons_ne_nil _ _)) (lt : a < b)
    (out : ∀ t ∈ first :: rest, ¬(a < t ∧ t < b)) : b - a ≤ maxGapMs := by
  induction rest generalizing first with
  | nil =>
    rw [getLast_singleton] at stop
    omega
  | cons next rest ih =>
    rw [isChain_cons_cons] at chain
    rw [getLast_cons_cons] at stop
    rw [forall_mem_cons] at out
    by_cases hnext : next ≤ a
    · exact ih chain.2 hnext stop out.2
    · have := out.2 next mem_cons_self
      omega

theorem readable_iff :
    windowReadableThroughout (.attemptHistory attempts) ⟨some fromMs, some toMs⟩ maxGapMs =
      true ↔ fromMs < toMs ∧ successes attempts fromMs toMs maxGapMs ≠ [] ∧
        ((fromMs - maxGapMs) :: successes attempts fromMs toMs maxGapMs).IsChain
          (fun a b => b - a ≤ maxGapMs) ∧
        toMs - ((fromMs - maxGapMs) :: successes attempts fromMs toMs maxGapMs).getLast
          (cons_ne_nil _ _) ≤ maxGapMs := by
  simp only [windowReadableThroughout]
  by_cases horder : toMs ≤ fromMs
  · simp [horder]
  rw [if_neg horder, and_iff_right (Int.not_le.mp horder)]
  by_cases hempty : successes attempts fromMs toMs maxGapMs = []
  · simp [hempty]
  rw [if_neg hempty, and_iff_right hempty]
  cases hwalk : walk maxGapMs (fromMs - maxGapMs) (successes attempts fromMs toMs maxGapMs) with
  | none =>
    refine iff_of_false Bool.false_ne_true fun h => ?_
    rw [walk_eq_some.mpr ⟨h.1, rfl⟩] at hwalk
    cases hwalk
  | some covered =>
    obtain ⟨hchain, rfl⟩ := walk_eq_some.mp hwalk
    rw [decide_eq_true_eq, and_iff_right hchain]

theorem successes_sorted : ((fromMs - maxGapMs) :: successes attempts fromMs toMs maxGapMs).Pairwise
    (· ≤ ·) :=
  pairwise_cons.mpr ⟨fun _ ht => (mem_successes.mp ht).2.1, pairwise_insertionSort _ _⟩

theorem steps_of_sorted {times : List Int} (sorted : times.Pairwise (· ≤ ·))
    (chain : times.IsChain fun a b => b - a ≤ maxGapMs) :
    times.IsChain fun a b => a ≤ b ∧ b - a ≤ maxGapMs := by
  rw [isChain_iff_forall_rel_of_append_cons_cons] at chain ⊢
  exact fun a b before after hsplit =>
    ⟨isChain_iff_forall_rel_of_append_cons_cons.mp sorted.isChain hsplit, chain hsplit⟩

/-- Just before every moment of the window a collection had succeeded, within the tolerance. -/
def Watched (attempts : List CollectionAttempt) (fromMs toMs maxGapMs : Int) : Prop :=
  ∀ x, fromMs < x → x ≤ toMs → ∃ t, ⟨some t, true⟩ ∈ attempts ∧ t < x ∧ x - t ≤ maxGapMs

/-- A chain that reaches past both ends of the window watches it. -/
theorem watched_of_chain (collected : ∀ t ∈ first :: rest, ⟨some t, true⟩ ∈ attempts)
    (steps : (first :: rest).IsChain fun a b => a ≤ b ∧ b - a ≤ maxGapMs) (start : first ≤ fromMs)
    (stop : toMs - (first :: rest).getLast (cons_ne_nil _ _) ≤ maxGapMs) :
    Watched attempts fromMs toMs maxGapMs := by
  intro x hafter hbefore
  have hgap : 0 ≤ maxGapMs := by
    cases rest with
    | nil =>
      rw [getLast_singleton] at stop
      omega
    | cons next rest =>
      have := (isChain_cons_cons.mp steps).1
      omega
  by_contra hnone
  have hout : ∀ t ∈ first :: rest, t < x → t ≤ x - maxGapMs - 1 := by
    intro t ht hlt
    by_contra hnear
    exact hnone ⟨t, collected t ht, hlt, by omega⟩
  have hfirst := hout first mem_cons_self
  have hlast := hout _ (getLast_mem (cons_ne_nil first rest))
  have hstep := crosses (a := x - maxGapMs - 1) (b := x) steps (by omega) (by omega) (by omega)
    fun t ht hbetween => by
      have := hout t ht hbetween.2
      omega
  omega

theorem Covers.watched (h : Covers attempts fromMs toMs maxGapMs first rest) :
    Watched attempts fromMs toMs maxGapMs :=
  watched_of_chain h.collected h.steps h.start.1 h.stop.2

/-- Each of the successes follows the one before it within the tolerance. -/
theorem Watched.readable (h : Watched attempts fromMs toMs maxGapMs) (ordered : fromMs < toMs) :
    windowReadableThroughout (.attemptHistory attempts) ⟨some fromMs, some toMs⟩ maxGapMs =
      true := by
  have hnear : ∀ x, fromMs < x → x ≤ toMs →
      ∃ t ∈ successes attempts fromMs toMs maxGapMs, t < x ∧ x - t ≤ maxGapMs := by
    intro x hafter hbefore
    obtain ⟨t, ht, hlt, hgap⟩ := h x hafter hbefore
    exact ⟨t, mem_successes.mpr ⟨ht, by omega, by omega⟩, hlt, hgap⟩
  have hsorted := @successes_sorted attempts fromMs toMs maxGapMs
  obtain ⟨last, hmem, hlt, hgap⟩ := hnear toMs ordered le_rfl
  refine readable_iff.mpr ⟨ordered, ne_nil_of_mem hmem, ?_, ?_⟩
  · rw [isChain_iff_forall_rel_of_append_cons_cons]
    intro a b before after hsplit
    have ha : fromMs - maxGapMs ≤ a := hsorted.rel_head (by simp [hsplit])
    have hb : b ∈ successes attempts fromMs toMs maxGapMs := by
      rw [show successes attempts fromMs toMs maxGapMs = _ from congrArg List.tail hsplit]
      cases before <;> simp
    rw [hsplit] at hsorted
    obtain ⟨_, hpairs, hbefore⟩ := pairwise_append.mp hsorted
    have hle : ∀ t ∈ successes attempts fromMs toMs maxGapMs, t < b → t ≤ a := by
      intro t ht hlt
      have hin := mem_cons_of_mem (fromMs - maxGapMs) ht
      rw [hsplit, mem_append, mem_cons] at hin
      rcases hin with hin | rfl | hin
      · exact hbefore t hin a mem_cons_self
      · exact le_rfl
      · have hpast : b ≤ t := (pairwise_cons.mp hpairs).2.rel_head hin
        omega
    by_cases hlate : fromMs < b
    · obtain ⟨t, ht, hlt, hgap⟩ := hnear b hlate (mem_successes.mp hb).2.2
      have := hle t ht hlt
      omega
    · omega
  · have := hsorted.rel_getLast (mem_cons_of_mem _ hmem)
    omega

/-- Readable throughout means covered by a chain. -/
theorem readable_iff_covers :
    windowReadableThroughout (.attemptHistory attempts) ⟨some fromMs, some toMs⟩ maxGapMs = true ↔
      fromMs < toMs ∧ ∃ first rest, Covers attempts fromMs toMs maxGapMs first rest := by
  constructor
  · intro hreadable
    obtain ⟨horder, hne, hchain, hend⟩ := readable_iff.mp hreadable
    obtain ⟨first, rest, hsuccesses⟩ := exists_cons_of_ne_nil hne
    have hsorted := @successes_sorted attempts fromMs toMs maxGapMs
    have hmem : ∀ t ∈ first :: rest, _ := fun t ht => mem_successes.mp (hsuccesses ▸ ht)
    rw [hsuccesses] at hchain hend hsorted
    rw [isChain_cons_cons] at hchain
    rw [getLast_cons_cons] at hend
    have hfirst := hmem first mem_cons_self
    exact ⟨horder, first, rest, fun t ht => (hmem t ht).1,
      steps_of_sorted (pairwise_cons.mp hsorted).2 hchain.2, by omega,
      (hmem _ (getLast_mem _)).2.2, hend⟩
  · rintro ⟨horder, first, rest, hcovers⟩
    exact hcovers.watched.readable horder

theorem Covers.of_perm {others : List CollectionAttempt} (hperm : attempts.Perm others)
    (h : Covers attempts fromMs toMs maxGapMs first rest) :
    Covers others fromMs toMs maxGapMs first rest :=
  { h with collected := fun t ht => hperm.mem_iff.mp (h.collected t ht) }

/-- A window is readable exactly when a chain covers it, whatever the order of the attempts; and
it went quiet only when the events are known and none is within. -/
theorem windowReadableThroughout_exact (attempts : List CollectionAttempt)
    (fromMs toMs maxGapMs : Int) :
    (windowReadableThroughout (.attemptHistory attempts) ⟨some fromMs, some toMs⟩ maxGapMs = true ↔
      fromMs < toMs ∧ ∃ first rest, Covers attempts fromMs toMs maxGapMs first rest) ∧
    (∀ others, attempts.Perm others → ∀ window,
      windowReadableThroughout (.attemptHistory attempts) window maxGapMs =
        windowReadableThroughout (.attemptHistory others) window maxGapMs) ∧
    ∀ evidence, windowWentQuiet evidence = true → ∃ times fromMs toMs,
      evidence.events = .counted times ∧ evidence.window = ⟨some fromMs, some toMs⟩ ∧
      windowReadableThroughout evidence.coverage evidence.window evidence.maxGapMs = true ∧
      ∀ t, some t ∈ times → ¬(fromMs ≤ t ∧ t ≤ toMs) := by
  refine ⟨readable_iff_covers, ?_, ?_⟩
  · intro others hperm window
    obtain ⟨_ | fromMs, _ | toMs⟩ := window
    · rfl
    · rfl
    · rfl
    · rw [Bool.eq_iff_iff, readable_iff_covers, readable_iff_covers]
      exact and_congr_right fun _ => exists_congr fun first => exists_congr fun rest =>
        ⟨Covers.of_perm hperm, Covers.of_perm hperm.symm⟩
  · rintro ⟨⟨fromMs, toMs⟩, events, coverage, maxGapMs⟩ hquiet
    cases events with
    | notCounted => cases hquiet
    | counted times =>
      simp only [windowWentQuiet] at hquiet
      split at hquiet
      · cases hquiet
      next hreadable =>
        rw [Bool.not_eq_true, Bool.not_eq_false'] at hreadable
        cases fromMs with
        | none => cases coverage <;> cases hreadable
        | some fromMs =>
          cases toMs with
          | none => cases coverage <;> cases hreadable
          | some toMs =>
            refine ⟨times, fromMs, toMs, rfl, rfl, hreadable, fun t ht hwithin => ?_⟩
            rw [Bool.not_eq_true', List.any_eq_false] at hquiet
            exact hquiet (some t) ht (by simpa using hwithin)

theorem readable_iff_watched :
    windowReadableThroughout (.attemptHistory attempts) ⟨some fromMs, some toMs⟩ maxGapMs = true ↔
      fromMs < toMs ∧ Watched attempts fromMs toMs maxGapMs := by
  rw [readable_iff_covers]
  constructor
  · rintro ⟨horder, first, rest, hcovers⟩
    exact ⟨horder, hcovers.watched⟩
  · rintro ⟨horder, hwatched⟩
    exact readable_iff_covers.mp (hwatched.readable horder)

/-- A window is readable exactly when it was watched; further collections, a window within it
and a longer tolerance leave it readable. -/
theorem readable_watched (attempts : List CollectionAttempt) (fromMs toMs maxGapMs : Int) :
    (windowReadableThroughout (.attemptHistory attempts) ⟨some fromMs, some toMs⟩ maxGapMs = true ↔
      fromMs < toMs ∧ Watched attempts fromMs toMs maxGapMs) ∧
    ∀ others start stop tolerance, attempts ⊆ others → fromMs ≤ start → start < stop →
      stop ≤ toMs → maxGapMs ≤ tolerance →
      windowReadableThroughout (.attemptHistory attempts) ⟨some fromMs, some toMs⟩ maxGapMs = true →
      windowReadableThroughout (.attemptHistory others) ⟨some start, some stop⟩ tolerance =
        true := by
  refine ⟨readable_iff_watched, ?_⟩
  intro others start stop tolerance more _ ordered _ _ hreadable
  refine Watched.readable (fun x hafter hbefore => ?_) ordered
  obtain ⟨t, ht, hlt, hgap⟩ := (readable_iff_watched.mp hreadable).2 x (by omega) (by omega)
  exact ⟨t, more ht, hlt, by omega⟩

/-- The times of all successes, in order. -/
def history (attempts : List CollectionAttempt) : List Int :=
  ((attempts.filter (·.succeeded)).filterMap (·.atMs)).insertionSort (· ≤ ·)

/-- `windowReadableThroughout` without the filter on the successes. -/
def unfiltered (attempts : List CollectionAttempt) (fromMs toMs maxGapMs : Int) : Bool :=
  if toMs ≤ fromMs ∨ history attempts = [] then false
  else (walk maxGapMs (fromMs - maxGapMs) (history attempts)).any fun covered =>
    decide (toMs - covered ≤ maxGapMs)

/-- The filter is more than a bound on work: without it a window is readable only when no two
successes of the whole history are too far apart. -/
theorem unfiltered_iff (attempts : List CollectionAttempt) (fromMs toMs maxGapMs : Int) :
    unfiltered attempts fromMs toMs maxGapMs = true ↔
      windowReadableThroughout (.attemptHistory attempts) ⟨some fromMs, some toMs⟩ maxGapMs =
        true ∧ (history attempts).IsChain fun a b => b - a ≤ maxGapMs := by
  have hmem : ∀ t, t ∈ history attempts ↔ ⟨some t, true⟩ ∈ attempts := by
    intro t
    simp only [history, mem_insertionSort, mem_filterMap, mem_filter]
    constructor
    · rintro ⟨⟨_, _⟩, ⟨hmem, rfl⟩, rfl⟩
      exact hmem
    · exact fun hmem => ⟨_, ⟨hmem, rfl⟩, rfl⟩
  have hsorted : (history attempts).Pairwise (· ≤ ·) := pairwise_insertionSort _ _
  rw [readable_iff_watched, unfiltered]
  by_cases horder : toMs ≤ fromMs
  · simp [horder]
  have ordered : fromMs < toMs := by omega
  rw [and_iff_right ordered]
  cases h : history attempts with
  | nil =>
    refine iff_of_false (by simp) fun hreads => ?_
    obtain ⟨t, ht, _⟩ := hreads.1 toMs ordered le_rfl
    rw [← hmem, h] at ht
    cases ht
  | cons first rest =>
    rw [h] at hsorted
    simp only [horder, reduceCtorEq, or_self, if_false, Option.any_eq_true, walk_eq_some,
      isChain_cons_cons, getLast_cons_cons, decide_eq_true_eq]
    constructor
    · rintro ⟨_, ⟨⟨hstart, hchain⟩, rfl⟩, hstop⟩
      exact ⟨watched_of_chain (fun t ht => (hmem t).mp (h ▸ ht))
        (steps_of_sorted hsorted hchain) (by omega) hstop, hchain⟩
    · rintro ⟨hwatched, hchain⟩
      obtain ⟨t, ht, hbefore, _⟩ := hwatched (fromMs + 1) (by omega) (by omega)
      obtain ⟨u, hu, hlt, hgap⟩ := hwatched toMs ordered le_rfl
      rw [← hmem, h] at ht hu
      have hfirst : first ≤ t := hsorted.rel_head ht
      have hlast : u ≤ _ := hsorted.rel_getLast hu
      exact ⟨_, ⟨⟨by omega, hchain⟩, rfl⟩, by omega⟩

def sampleAttempts : List CollectionAttempt := [⟨some 0, true⟩]

/-- A window of no length is not readable, also when a collection succeeded at its very time. -/
theorem empty_window_unreadable : ¬∀ (attempts : List CollectionAttempt)
    (fromMs toMs maxGapMs : Int),
    windowReadableThroughout (.attemptHistory attempts) ⟨some fromMs, some toMs⟩ maxGapMs = true ↔
      ∃ first rest, Covers attempts fromMs toMs maxGapMs first rest := by
  intro h
  have hcovers : Covers sampleAttempts 0 0 0 0 [] :=
    ⟨by decide, .singleton 0, by decide, by decide⟩
  exact absurd ((h sampleAttempts 0 0 0).mpr ⟨0, [], hcovers⟩) (by decide)

end CollectionWindow
