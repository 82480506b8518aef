import HawkView.Lib.Bursts
import Mathlib.Algebra.Order.Group.Int

/-!
# Episodes

What stops grouping from becoming its own bug. An event joins the episode that
it is within the quiet interval of; otherwise it opens another one.
-/

namespace AlertEpisode

open List

/-- The events' own times, in milliseconds. -/
structure EpisodeSpan where
  firstEventAt : Int
  lastEventAt : Int
  deriving DecidableEq, Repr

structure Placement where
  joins : Bool
  span : EpisodeSpan
  deriving DecidableEq, Repr

def placeEvent (span : Option EpisodeSpan) (occurredAt : Int) (quietMs : Int) :
    Placement :=
  match span with
  | none => ⟨false, occurredAt, occurredAt⟩
  | some span =>
    let quietBefore := span.firstEventAt - quietMs
    let quietAfter := span.lastEventAt + quietMs
    if occurredAt < quietBefore ∨ occurredAt > quietAfter then ⟨false, occurredAt, occurredAt⟩
    else ⟨true, min span.firstEventAt occurredAt, max span.lastEventAt occurredAt⟩

/-- The episodes so far and the one that is open. -/
structure Fold where
  episodes : List EpisodeSpan
  current : Option EpisodeSpan

def Fold.place (quietMs : Int) (fold : Fold) (occurredAt : Int) : Fold :=
  let placement := placeEvent fold.current occurredAt quietMs
  if placement.joins && fold.current.isSome then
    ⟨fold.episodes.dropLast ++ [placement.span], some placement.span⟩
  else ⟨fold.episodes ++ [placement.span], some placement.span⟩

def episodesOf (occurredAts : List Int) (quietMs : Int) : List EpisodeSpan :=
  ((occurredAts.insertionSort (· ≤ ·)).foldl (Fold.place quietMs) ⟨[], none⟩).episodes

/-! ## Episodes are bursts -/

/-- How far an event reaches. -/
def quiet (quietMs : Nat) : Reach Int where
  last t := t + quietMs
  monotone _ _ h := Int.add_le_add_right h _
  self t := by omega

def EpisodeSpan.asSpan (s : EpisodeSpan) : Span Int := ⟨s.firstEventAt, s.lastEventAt⟩

@[simp] theorem EpisodeSpan.asSpan_holds (s : EpisodeSpan) (t : Int) :
    s.asSpan.Holds t ↔ s.firstEventAt ≤ t ∧ t ≤ s.lastEventAt := Iff.rfl

/-- What holds after the events of a sorted list. -/
inductive Fold.Done (quietMs : Nat) : List Int → Fold → Prop
  | start : Done quietMs [] ⟨[], none⟩
  | placed {times : List Int} {earlier : List EpisodeSpan} {cur : EpisodeSpan}
      (splits : (quiet quietMs).Splits times ((earlier ++ [cur]).map EpisodeSpan.asSpan))
      (ends : cur.lastEventAt ∈ times) :
      Done quietMs times ⟨earlier ++ [cur], some cur⟩

variable {quietMs : Nat} {times : List Int}

variable {fold : Fold}

theorem Fold.Done.place (done : fold.Done quietMs times) {t : Int} (sorted : ∀ u ∈ times, u ≤ t) :
    (fold.place quietMs t).Done quietMs (times ++ [t]) := by
  cases done with
  | start =>
    change Done quietMs [t] ⟨[] ++ [⟨t, t⟩], some ⟨t, t⟩⟩
    exact .placed (.single t) (mem_singleton_self t)
  | @placed _ earlier cur splits ends =>
    have hle : cur.lastEventAt ≤ t := sorted _ ends
    have hordered : cur.firstEventAt ≤ cur.lastEventAt :=
      (splits.started cur.asSpan (by simp)).2
    rw [map_append] at splits
    by_cases hjoin : t ≤ cur.lastEventAt + quietMs
    · have hplace : placeEvent (some cur) t quietMs = ⟨true, cur.firstEventAt, t⟩ := by
        simp only [placeEvent]
        rw [if_neg (by omega), min_eq_left (by omega), max_eq_right hle]
      simp only [Fold.place, hplace, Option.isSome_some, Bool.and_self, if_true,
        dropLast_concat]
      refine .placed ?_ (by simp)
      rw [map_append]
      exact splits.grows ends hle hjoin
    · have hplace : placeEvent (some cur) t quietMs = ⟨false, t, t⟩ := by
        simp only [placeEvent]
        rw [if_pos (by omega)]
      simp only [Fold.place, hplace, Bool.false_and, Bool.false_eq_true, if_false]
      refine .placed ?_ (by simp)
      rw [map_append, map_append]
      refine splits.opens ?_
      intro s hs
      rcases mem_append.mp hs with hearlier | hlast
      · have hapart := (pairwise_append.mp splits.apart).2.2 s hearlier cur.asSpan (by simp)
        have : s.last + quietMs < cur.firstEventAt := hapart
        change s.last + quietMs < t
        omega
      · simp only [map_cons, map_nil, mem_singleton] at hlast
        subst hlast
        change cur.lastEventAt + quietMs < t
        omega

theorem Fold.Done.run {rest : List Int} (done : fold.Done quietMs times)
    (sorted : (times ++ rest).Pairwise (· ≤ ·)) :
    (rest.foldl (Fold.place quietMs) fold).Done quietMs (times ++ rest) := by
  induction rest generalizing times fold with
  | nil => simpa using done
  | cons t rest ih =>
    have hle : ∀ u ∈ times, u ≤ t := fun u hu =>
      (pairwise_append.mp sorted).2.2 u hu t (by simp)
    have hshift : times ++ t :: rest = times ++ [t] ++ rest := by simp
    rw [hshift] at sorted ⊢
    exact ih (done.place hle) sorted

/-- The episodes split the events into their bursts. -/
theorem episodesOf_splits (times : List Int) (quietMs : Nat) :
    (quiet quietMs).Splits times ((episodesOf times quietMs).map EpisodeSpan.asSpan) := by
  have hsame : ∀ t, t ∈ times.insertionSort (· ≤ ·) ↔ t ∈ times :=
    fun t => mem_insertionSort (· ≤ ·)
  have hsorted : ([] ++ times.insertionSort (· ≤ ·)).Pairwise (· ≤ ·) :=
    pairwise_insertionSort _ _
  unfold episodesOf
  generalize times.insertionSort (· ≤ ·) = ordered at hsorted hsame ⊢
  have hdone := Fold.Done.run (@Fold.Done.start quietMs) hsorted
  rw [nil_append] at hdone
  generalize ordered.foldl (Fold.place quietMs) ⟨[], none⟩ = fold at hdone ⊢
  cases hdone with
  | start => exact Reach.Splits.of_mem_iff .nil hsame
  | placed splits ends => exact splits.of_mem_iff hsame

/-- Every episode so far ends with an event. -/
def Fold.Ends (times : List Int) (fold : Fold) : Prop :=
  (∀ s ∈ fold.episodes, s.lastEventAt ∈ times) ∧ ∀ s ∈ fold.current, s.lastEventAt ∈ times

theorem Fold.Ends.place (h : fold.Ends times) {quietMs t : Int} (ht : t ∈ times) :
    (fold.place quietMs t).Ends times := by
  have hplaced : (placeEvent fold.current t quietMs).span.lastEventAt ∈ times := by
    unfold placeEvent
    split
    · exact ht
    · next cur hcur =>
      dsimp only
      split
      · exact ht
      · rcases max_choice cur.lastEventAt t with heq | heq <;> rw [heq]
        · exact h.2 cur hcur
        · exact ht
  have hadded : ∀ l : List EpisodeSpan, (∀ s ∈ l, s.lastEventAt ∈ times) →
      ∀ s ∈ l ++ [(placeEvent fold.current t quietMs).span], s.lastEventAt ∈ times := by
    intro l hl s hs
    rcases mem_append.mp hs with hs | hs
    · exact hl s hs
    · rw [mem_singleton.mp hs]
      exact hplaced
  have hcurrent : ∀ s ∈ some (placeEvent fold.current t quietMs).span, s.lastEventAt ∈ times := by
    rintro s ⟨⟩
    exact hplaced
  unfold Fold.place
  dsimp only
  split
  · exact ⟨hadded _ fun s hs => h.1 s (dropLast_subset _ hs), hcurrent⟩
  · exact ⟨hadded _ h.1, hcurrent⟩

theorem episodesOf_ends (times : List Int) (quietMs : Int) :
    ∀ s ∈ episodesOf times quietMs, s.lastEventAt ∈ times := by
  have hrun : ∀ (rest : List Int) (fold : Fold), (∀ t ∈ rest, t ∈ times) → fold.Ends times →
      (rest.foldl (Fold.place quietMs) fold).Ends times := by
    intro rest
    induction rest with
    | nil => exact fun _ _ h => h
    | cons t rest ih =>
      intro fold hrest h
      exact ih _ (fun u hu => hrest u (mem_cons_of_mem _ hu))
        (h.place (hrest t mem_cons_self))
  exact (hrun _ ⟨[], none⟩ (fun t => (mem_insertionSort (· ≤ ·)).mp) (by simp [Fold.Ends])).1

/-- The episodes partition the events into their bursts, and nothing but the set of the events'
times decides them. -/
theorem episodesOf_partitions (times : List Int) (quietMs : Nat) :
    (episodesOf times quietMs).Pairwise (fun a b : EpisodeSpan =>
      a.lastEventAt + quietMs < b.firstEventAt) ∧
    (∀ s ∈ episodesOf times quietMs, s.firstEventAt ∈ times ∧ s.lastEventAt ∈ times ∧
      s.firstEventAt ≤ s.lastEventAt) ∧
    (∀ t ∈ times, ∃! i : Nat, ∃ s, (episodesOf times quietMs)[i]? = some s ∧
      s.firstEventAt ≤ t ∧ t ≤ s.lastEventAt) ∧
    (∀ t ∈ times, ∀ u ∈ times, (∃ s ∈ episodesOf times quietMs, s.asSpan.Holds t ∧
      s.asSpan.Holds u) ↔ Relation.ReflTransGen
        (fun a b => a ∈ times ∧ b ∈ times ∧ a ≤ b + quietMs ∧ b ≤ a + quietMs) t u) ∧
    ∀ others : List Int, (∀ t, t ∈ others ↔ t ∈ times) →
      episodesOf others quietMs = episodesOf times quietMs := by
  have hsplits := episodesOf_splits times quietMs
  have hends := episodesOf_ends times quietMs
  refine ⟨pairwise_map.mp hsplits.apart, fun s hs => ?_, fun t ht => ?_, fun t ht u hu => ?_,
    fun others hsame => ?_⟩
  · obtain ⟨hfirst, hle⟩ := hsplits.started s.asSpan (mem_map_of_mem hs)
    exact ⟨hfirst, hends s hs, hle⟩
  · obtain ⟨_, hspan, held⟩ := hsplits.inside t ht
    obtain ⟨s, hs, rfl⟩ := mem_map.mp hspan
    obtain ⟨i, hi⟩ := List.mem_iff_getElem?.mp hs
    refine ⟨i, ⟨s, hi, held⟩, ?_⟩
    rintro j ⟨s', hj, held'⟩
    exact hsplits.index_unique (a := s'.asSpan) (b := s.asSpan)
      (by rw [getElem?_map, hj]; rfl) (by rw [getElem?_map, hi]; rfl) ht held' held
  · constructor
    · rintro ⟨s, hs, held, held'⟩
      exact hsplits.linked_of_mem (mem_map_of_mem hs) ht hu held held'
    · intro hlinked
      obtain ⟨_, hspan, held⟩ := hsplits.inside t ht
      obtain ⟨s, hs, rfl⟩ := mem_map.mp hspan
      exact ⟨s, hs, held, hsplits.holds_of_linked hspan ht hu held hlinked⟩
  · have hinjective : Function.Injective EpisodeSpan.asSpan := by
      rintro ⟨_, _⟩ ⟨_, _⟩ h
      cases h
      rfl
    refine List.map_injective_iff.mpr hinjective
      (((episodesOf_splits others quietMs).of_mem_iff hsame).unique hsplits ?_ ?_)
    · rw [forall_mem_map]
      exact fun s hs => (hsame _).mp (episodesOf_ends others quietMs s hs)
    · rw [forall_mem_map]
      exact hends

end AlertEpisode
