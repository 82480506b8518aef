import HawkView.Evaluation.EarnedCount
import HawkView.Lib.SortedLists

/-!
# The most recent events

Above its budget a run hands its detectors the latest events, by their times and
then by their places, in the order in which it was given them.
-/

namespace MostRecent

open EvaluationContract Evaluate EarnedCount List

variable {Event Key : Type} [LT Key] [DecidableLT Key]

/-! ## The latest events -/

/-- `other` happened after `e`, or not before it and stands after it. -/
def later (timeOf : Event → Key) (other e : Event × Nat) : Bool :=
  decide (timeOf e.1 < timeOf other.1) ||
    !decide (timeOf other.1 < timeOf e.1) && decide (e.2 < other.2)

/-- The events that fewer than `k` others are later than. -/
def latest (timeOf : Event → Key) (k : Nat) (applies : List Event) : List Event :=
  (applies.zipIdx.filter fun e => applies.zipIdx.countP (later timeOf · e) < k).map Prod.fst

/-- The whole events that a budget has room for, where it does not have room for all. -/
def capacity : JsNumber → Nat
  | .finite q => ⌊q⌋.toNat
  | .infinite _ => 0
  | .nan => 0

/-! ## The two sorts -/

/-- The place and the time of an event. -/
def rank (timeOf : Event → Key) (e : Event × Nat) : Ranked Key := ⟨e.2, timeOf e.1⟩

/-- `a` stands before `b` in the sort by recency. -/
def sooner (a b : Ranked Key) : Bool :=
  decide (b.at₀ < a.at₀) || !decide (a.at₀ < b.at₀) && decide (b.index < a.index)

def byRecency (timeOf : Event → Key) (applies : List Event) : List (Ranked Key) :=
  (applies.zipIdx.map (rank timeOf)).mergeSort notAfter

@[simp]
theorem later_eq (timeOf : Event → Key) (other e : Event × Nat) :
    later timeOf other e = sooner (rank timeOf other) (rank timeOf e) := rfl

theorem notAfter_iff {a b : Ranked Key} :
    notAfter a b = true ↔ ¬ a.at₀ < b.at₀ ∧ (b.at₀ < a.at₀ ∨ b.index ≤ a.index) := by
  simp only [notAfter]
  split_ifs with hlt hgt
  · simp [hlt]
  · simp [hlt, hgt]
  · simp [hlt, hgt]

theorem byRecency_perm (timeOf : Event → Key) (applies : List Event) :
    (byRecency timeOf applies).Perm (applies.zipIdx.map (rank timeOf)) :=
  mergeSort_perm _ _

theorem index_nodup (timeOf : Event → Key) (applies : List Event) :
    ((byRecency timeOf applies).map Ranked.index).Nodup := by
  rw [((byRecency_perm timeOf applies).map Ranked.index).nodup_iff, List.map_map]
  have hindex : Ranked.index ∘ rank timeOf = Prod.snd := rfl
  rw [hindex, zipIdx_map_snd]
  exact nodup_range'

section Sorted

variable [IsStrictWeakOrder Key (· < ·)] (timeOf : Event → Key) (applies : List Event)

theorem lt_split {a b c : Key} (h : a < c) : a < b ∨ b < c := by
  by_contra hnot
  obtain ⟨hab, hbc⟩ := not_or.mp hnot
  have hba : ¬ b < a := fun hba => hbc (trans_of (· < ·) hba h)
  have hcb : ¬ c < b := fun hcb => hab (trans_of (· < ·) h hcb)
  exact (@IsStrictWeakOrder.incomp_trans Key (· < ·) _ a b c ⟨hab, hba⟩ ⟨hbc, hcb⟩).1 h

theorem notAfter_trans {a b c : Ranked Key} (hab : notAfter a b = true)
    (hbc : notAfter b c = true) : notAfter a c = true := by
  rw [notAfter_iff] at *
  obtain ⟨hab, hab'⟩ := hab
  obtain ⟨hbc, hbc'⟩ := hbc
  refine ⟨fun h => (lt_split h).elim hab hbc, ?_⟩
  rcases hab' with h | h
  · exact .inl ((lt_split h).resolve_left hbc)
  · rcases hbc' with h' | h'
    · exact .inl ((lt_split h').resolve_right hab)
    · exact .inr (h'.trans h)

theorem notAfter_total (a b : Ranked Key) : (notAfter a b || notAfter b a) = true := by
  simp only [Bool.or_eq_true, notAfter_iff]
  by_cases hab : a.at₀ < b.at₀
  · exact .inr ⟨asymm_of (· < ·) hab, .inl hab⟩
  · by_cases hba : b.at₀ < a.at₀
    · exact .inl ⟨hab, .inl hba⟩
    · rcases Nat.le_total b.index a.index with h | h
      · exact .inl ⟨hab, .inr h⟩
      · exact .inr ⟨hba, .inr h⟩

theorem sooner_asymm (a b : Ranked Key) (h : sooner a b = true) : sooner b a = false := by
  simp only [sooner, Bool.or_eq_true, Bool.and_eq_true, Bool.not_eq_true', decide_eq_true_eq,
    decide_eq_false_iff_not] at h
  simp only [sooner, Bool.or_eq_false_iff, Bool.and_eq_false_iff, Bool.not_eq_false',
    decide_eq_true_eq, decide_eq_false_iff_not]
  rcases h with h | ⟨hnot, hindex⟩
  · exact ⟨asymm_of (· < ·) h, .inl h⟩
  · exact ⟨hnot, .inr (by omega)⟩

/-! ## What is kept -/

theorem byRecency_sorted :
    (byRecency timeOf applies).Pairwise fun a b => sooner a b = true := by
  have hsorted : (byRecency timeOf applies).Pairwise fun a b => notAfter a b = true :=
    @List.pairwise_mergeSort _ notAfter (fun _ _ _ => notAfter_trans) notAfter_total _
  have hindex := pairwise_map.mp (index_nodup timeOf applies)
  refine (hsorted.and hindex).imp fun {a b} h => ?_
  obtain ⟨hle, hne⟩ := h
  rw [notAfter_iff] at hle
  obtain ⟨hlt, hback⟩ := hle
  simp only [sooner, Bool.or_eq_true, Bool.and_eq_true, Bool.not_eq_true', decide_eq_true_eq,
    decide_eq_false_iff_not]
  rcases hback with h | h
  · exact .inl h
  · exact .inr ⟨hlt, by omega⟩

/-- An event is among the first `k` of the sort where fewer than `k` are later. -/
theorem mem_take_byRecency {k : Nat} {e : Event × Nat} (he : e ∈ applies.zipIdx) :
    rank timeOf e ∈ (byRecency timeOf applies).take k ↔
      applies.zipIdx.countP (later timeOf · e) < k := by
  have hmem : rank timeOf e ∈ byRecency timeOf applies :=
    (byRecency_perm timeOf applies).mem_iff.mpr (mem_map_of_mem he)
  rw [SortedLists.mem_take_iff sooner_asymm (byRecency_sorted timeOf applies) hmem,
    (byRecency_perm timeOf applies).countP_eq, countP_map]
  exact Iff.rfl

theorem kept_eq (k : Nat) :
    (((byRecency timeOf applies).take k).map Ranked.index).mergeSort =
      (applies.zipIdx.filter fun e => applies.zipIdx.countP (later timeOf · e) < k).map
        Prod.snd := by
  have hplaces : (applies.zipIdx.map Prod.snd).Pairwise (· < ·) := by
    rw [zipIdx_map_snd]
    exact pairwise_lt_range'
  have hkept := hplaces.sublist
    ((filter_sublist (p := fun e => applies.zipIdx.countP (later timeOf · e) < k)).map _)
  refine List.Perm.eq_of_pairwise (fun _ _ _ _ => Nat.le_antisymm)
    ((@List.pairwise_mergeSort Nat (fun a b => decide (a ≤ b)) (by simp; omega)
      (by simp; omega) _).imp of_decide_eq_true) (hkept.imp Nat.le_of_lt)
    ((mergeSort_perm _ _).trans ((perm_ext_iff_of_nodup ?_ ?_).mpr fun i => ?_))
  · exact (index_nodup timeOf applies).sublist ((take_sublist _ _).map _)
  · exact hkept.imp Nat.ne_of_lt
  · simp only [mem_map, mem_filter, decide_eq_true_eq]
    constructor
    · rintro ⟨r, hr, rfl⟩
      obtain ⟨e, he, rfl⟩ := mem_map.mp
        ((byRecency_perm timeOf applies).mem_iff.mp (mem_of_mem_take hr))
      exact ⟨e, ⟨he, (mem_take_byRecency timeOf applies he).mp hr⟩, rfl⟩
    · rintro ⟨e, ⟨he, hfew⟩, rfl⟩
      exact ⟨rank timeOf e, (mem_take_byRecency timeOf applies he).mpr hfew, rfl⟩

theorem kept_events (k : Nat) :
    ((((byRecency timeOf applies).take k).map Ranked.index).mergeSort.filterMap fun i =>
      applies[i]?) = latest timeOf k applies := by
  rw [kept_eq, filterMap_map, latest, ← filterMap_eq_map]
  refine filterMap_congr fun e he => ?_
  exact mem_zipIdx_iff_getElem?.mp (mem_of_mem_filter he)

theorem latest_length (k : Nat) : (latest timeOf k applies).length = min k applies.length := by
  have hlength := congrArg List.length (kept_eq timeOf applies k)
  rw [length_mergeSort, length_map, length_take,
    (byRecency_perm timeOf applies).length_eq, length_map, length_zipIdx,
    length_map] at hlength
  rw [latest, length_map, hlength]

/-- The latest events of a list in the order of their times are its end. -/
theorem latest_sorted {applies : List Event}
    (ordered : applies.Pairwise fun a b => ¬ timeOf b < timeOf a) (k : Nat) :
    latest timeOf k applies = applies.drop (applies.length - k) := by
  have hplaces : (applies.zipIdx.map Prod.snd).Pairwise (· < ·) := by
    rw [zipIdx_map_snd]
    exact pairwise_lt_range'
  have htimes : (applies.zipIdx.map Prod.fst).Pairwise fun a b => ¬ timeOf b < timeOf a := by
    rwa [zipIdx_map_fst]
  have hsorted : applies.zipIdx.Pairwise fun a b => later timeOf b a = true :=
    ((pairwise_map.mp hplaces).and (pairwise_map.mp htimes)).imp fun {a b} h => by
      simp [later, h.1, h.2]
  have hkept := SortedLists.filter_countP_eq_drop
    (fun a b => sooner_asymm (rank timeOf a) (rank timeOf b)) hsorted k
  have hlatest := congrArg (List.map Prod.fst) hkept
  rw [map_drop, zipIdx_map_fst, length_zipIdx] at hlatest
  exact hlatest

theorem mostRecent_eq {budget : Budget} (hfull : withinBudget applies budget = false) :
    mostRecent applies budget.maxEvents timeOf =
      latest timeOf (capacity budget.maxEvents) applies := by
  have htake : ∀ k, budget.maxEvents.nonpositive = false →
      budget.maxEvents.takeTo (byRecency timeOf applies) = (byRecency timeOf applies).take k →
      mostRecent applies budget.maxEvents timeOf = latest timeOf k applies := by
    intro k hpos h
    rw [← kept_events, ← h, mostRecent, if_neg (by simp [hpos])]
    rfl
  have hnone : latest timeOf 0 applies = [] := by simp [latest]
  simp only [withinBudget] at hfull
  cases hmax : budget.maxEvents with
  | finite q =>
    by_cases hq : q ≤ 0
    · have hfloor : ⌊q⌋.toNat = 0 := Int.toNat_of_nonpos (Int.floor_nonpos hq)
      simp [mostRecent, JsNumber.nonpositive, hq, capacity, hfloor, hnone]
    · rw [← hmax]
      refine htake _ ?_ ?_
      · simp [hmax, JsNumber.nonpositive, hq]
      · simp [hmax, JsNumber.takeTo, capacity]
  | infinite negative =>
    simp only [hmax, JsNumber.bounds, Bool.not_eq_false'] at hfull
    simp [mostRecent, JsNumber.nonpositive, hfull, capacity, hnone]
  | nan =>
    rw [← hmax]
    refine htake _ ?_ ?_
    · simp [hmax, JsNumber.nonpositive]
    · simp [hmax, JsNumber.takeTo, capacity]

end Sorted

/-! ## A run -/

theorem capacity_le {applies : List Event} {budget : Budget}
    (hfull : withinBudget applies budget = false) :
    capacity budget.maxEvents ≤ applies.length ∧
      (applies ≠ [] → capacity budget.maxEvents < applies.length) := by
  rw [← length_pos_iff]
  simp only [withinBudget] at hfull
  cases hmax : budget.maxEvents with
  | finite q =>
    rw [hmax, JsNumber.bounds, decide_eq_false_iff_not, not_le] at hfull
    have hfloor : ⌊q⌋ < (applies.length : Int) := Int.floor_lt.mpr (by exact_mod_cast hfull)
    simp only [capacity]
    omega
  | infinite negative => exact ⟨Nat.zero_le _, id⟩
  | nan => exact ⟨Nat.zero_le _, id⟩

theorem truncated_iff {items : List Finding} {gaps : Gaps} :
    .windowTruncated ∈ (findingSet items gaps).because ↔ gaps.truncated = true := by
  cases h : gaps.truncated <;> simp [findingSet, h]

/-- What a run hands to its detectors, and when it counts as truncated. -/
theorem evaluate_hands_latest [IsStrictWeakOrder Key (· < ·)] (applies : List Event)
    (coverage : Coverage) (timeOf : Event → Key) (ds : List (Detector Event)) (budget : Budget) :
    let fits := withinBudget applies budget
    let k := capacity budget.maxEvents
    let events := if fits then applies else latest timeOf k applies
    let a := evaluate (.read applies coverage timeOf) ds budget
    a.findings.items = found events fits ds ∧ a.detectors = reported events fits ds ∧
      (fits = false → events.length = k) ∧
      (.windowTruncated ∈ a.findings.because ↔
        events.length < applies.length ∨ applies = [] ∧ fits = false) := by
  intro fits k events a
  have hevents : applicable applies timeOf budget = events := by
    cases hfits : withinBudget applies budget with
    | true => simp [applicable, events, fits, hfits]
    | false => simp [applicable, events, fits, hfits, k, mostRecent_eq timeOf applies hfits]
  obtain ⟨hitems, hreports, -⟩ := evaluate_read applies coverage timeOf ds budget
  rw [hevents] at hitems hreports
  have hlength : fits = false → events.length = k := by
    intro hfits
    simp only [events, hfits, Bool.false_eq_true, if_false, latest_length]
    exact Nat.min_eq_left (capacity_le hfits).1
  refine ⟨hitems, hreports, hlength, ?_⟩
  simp only [a, evaluate, truncated_iff, Bool.not_eq_true']
  cases hfits : withinBudget applies budget with
  | true => simp [events, fits, hfits]
  | false =>
    simp only [hlength hfits, fits, hfits, and_true, true_iff]
    by_cases hne : applies = []
    · exact .inr hne
    · exact .inl ((capacity_le hfits).2 hne)

/-! ## Times that compare -/

instance : IsStrictWeakOrder JsString (· < ·) where
  irrefl := List.lt_irrefl
  trans _ _ _ := List.lt_trans
  incomp_trans a b c hab hbc := by
    have hab := List.le_antisymm (List.not_lt.mp hab.2) (List.not_lt.mp hab.1)
    have hbc := List.le_antisymm (List.not_lt.mp hbc.2) (List.not_lt.mp hbc.1)
    rw [hab, hbc]
    exact ⟨List.lt_irrefl c, List.lt_irrefl c⟩

instance : LT JsNumber := ⟨fun x y => x.lt y = true⟩

instance : DecidableLT JsNumber := fun x y => inferInstanceAs (Decidable (x.lt y = true))

theorem number_lt {x y : JsNumber} : x < y ↔ x.lt y = true := Iff.rfl

/-- Numbers compare where none is `NaN`. -/
instance : IsStrictWeakOrder { x : JsNumber // x ≠ .nan } (· < ·) where
  irrefl x h := by
    obtain ⟨x, hx⟩ := x
    cases x <;> simp [← Subtype.coe_lt_coe, number_lt, JsNumber.lt] at h hx
  trans x y z hxy hyz := by
    obtain ⟨x, hx⟩ := x
    obtain ⟨y, hy⟩ := y
    obtain ⟨z, hz⟩ := z
    simp only [← Subtype.coe_lt_coe, number_lt] at *
    cases x <;> cases y <;> cases z <;> simp [JsNumber.lt] at * <;> grind
  incomp_trans x y z hxy hyz := by
    obtain ⟨x, hx⟩ := x
    obtain ⟨y, hy⟩ := y
    obtain ⟨z, hz⟩ := z
    simp only [← Subtype.coe_lt_coe, number_lt] at *
    cases x <;> cases y <;> cases z <;> simp [JsNumber.lt] at * <;> grind

/-- Three events, of which a budget of two leaves the earliest out. -/
theorem evaluate_hands_two :
    let times := [js "2026-01-02", js "2026-01-01", js "2026-01-02"]
    latest id 2 times = [js "2026-01-02", js "2026-01-02"] ∧
      (.windowTruncated ∈ (evaluate (.read times noCoverage id) [] ⟨.ofNat 2⟩).findings.because ↔
        (if withinBudget times ⟨.ofNat 2⟩ then times
          else latest id (capacity (.ofNat 2)) times).length < times.length ∨
          times = [] ∧ withinBudget times ⟨.ofNat 2⟩ = false) := by
  intro times
  exact ⟨by decide +kernel, (evaluate_hands_latest times noCoverage id [] ⟨.ofNat 2⟩).2.2.2⟩

/-! ## Truncation without a loss -/

/-- An empty list is left out of a negative budget, and of times that do not
compare none is the latest. -/
theorem truncated_without_loss :
    (.windowTruncated ∈ (evaluate (.read ([] : List JsNumber) noCoverage id) []
        ⟨.finite (-1)⟩).findings.because ∧
      applicable ([] : List JsNumber) id ⟨.finite (-1)⟩ = []) ∧
    latest id 1 [.ofNat 2, .nan, .ofNat 1] = ([] : List JsNumber) ∧
      (applicable [.ofNat 2, .nan, .ofNat 1] id ⟨.ofNat 1⟩ : List JsNumber).length = 1 := by
  refine ⟨⟨by decide, rfl⟩, by decide, ?_⟩
  simp [applicable, withinBudget, mostRecent, mergeSort, notAfter, number_lt, JsNumber.lt,
    JsNumber.ofNat, JsNumber.bounds, JsNumber.nonpositive, JsNumber.takeTo]
  norm_num

end MostRecent
