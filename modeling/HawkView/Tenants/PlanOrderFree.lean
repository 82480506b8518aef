import HawkView.Tenants.PlanSound

/-!
# What the order of the inputs does to a plan

The eligible inputs are taken by their deadlines, as long as the budget lasts,
and the same are taken wherever they stand in the list of inputs.
-/

namespace PlanOrderFree

open Relation SourceWorkPlanner PlanSound List Option

/-! ## Places in a rearranged list -/

section Places

variable {α : Type}

/-- The places behind the first one, renamed. -/
def behind (e : Nat ≃ Nat) : Nat ≃ Nat where
  toFun
    | 0 => 0
    | i + 1 => e i + 1
  invFun
    | 0 => 0
    | i + 1 => e.symm i + 1
  left_inv := by rintro (_ | i) <;> simp
  right_inv := by rintro (_ | i) <;> simp

/-- Each place holds in one list what its new place holds in the other. -/
def Renames (e : Nat ≃ Nat) (l m : List α) : Prop := ∀ i, m[e i]? = l[i]?

theorem exists_renames {l m : List α} (h : l.Perm m) : ∃ e, Renames e l m := by
  induction h with
  | nil => exact ⟨.refl _, fun _ => rfl⟩
  | cons a _ ih =>
    obtain ⟨e, he⟩ := ih
    refine ⟨behind e, ?_⟩
    rintro (_ | i)
    · rfl
    · exact he i
  | swap a b l =>
    refine ⟨.swap 0 1, ?_⟩
    rintro (_ | _ | i)
    · rfl
    · rfl
    · rw [Equiv.swap_apply_of_ne_of_ne (by omega) (by omega)]
      rfl
  | trans _ _ ih ih' =>
    obtain ⟨e, he⟩ := ih
    obtain ⟨e', he'⟩ := ih'
    exact ⟨e.trans e', fun i => (he' (e i)).trans (he i)⟩

theorem Renames.symm {e : Nat ≃ Nat} {l m : List α} (h : Renames e l m) :
    Renames e.symm m l := by
  intro i
  rw [← h, e.apply_symm_apply]

end Places

section Renamed

variable {work work' : List SourceWorkInput} {now : JsNumber} {e : Nat ≃ Nat}
  {tenantId source : JsString} {item : SourceWorkInput} {dependency : SourceDependency}
  {i k : Nat}

section

variable (h : Renames e work work')
include h

theorem Renames.provides :
    Provides work' tenantId source (e k) ↔ Provides work tenantId source k := by
  rw [Provides, Provides, h]

theorem Renames.only
    (only : ∀ j, Provides work tenantId source j ↔ j = k) :
    ∀ j, Provides work' tenantId source j ↔ j = e k := by
  intro j
  obtain ⟨j, rfl⟩ := e.surjective j
  rw [h.provides, only, e.apply_eq_iff_eq]

theorem Renames.requires (hrequires : Requires work i k) :
    Requires work' (e i) (e k) := by
  obtain ⟨item, dependency, hget, hmem, hprovides⟩ := hrequires
  exact ⟨item, dependency, (h i).trans hget, hmem, h.provides.mpr hprovides⟩

theorem Renames.satisfies
    (hsatisfies : Satisfies work now tenantId dependency k) :
    Satisfies work' now tenantId dependency (e k) where
  only := h.only hsatisfies.only
  checked := by
    obtain ⟨item, check, hget, hchecked⟩ := hsatisfies.checked
    exact ⟨item, check, (h k).trans hget, hchecked⟩

theorem Renames.certified (hcertified : Certified work now i) :
    Certified work' now (e i) := by
  have hback : ∀ j k, Requires work' j k → Requires work (e.symm j) (e.symm k) :=
    fun _ _ => h.symm.requires
  have hreach : ∀ k, ReflTransGen (Requires work') (e i) k →
      ReflTransGen (Requires work) i (e.symm k) := by
    intro k hk
    have hlift := ReflTransGen.lift e.symm hback _ _ hk
    change ReflTransGen _ (e.symm (e i)) (e.symm k) at hlift
    rwa [e.symm_apply_apply] at hlift
  constructor
  · intro k item hk hget dependency hmem
    rw [← h.symm] at hget
    obtain ⟨p, hp⟩ := hcertified.satisfied _ item (hreach k hk) hget dependency hmem
    exact ⟨e p, h.satisfies hp⟩
  · intro k hk hcycle
    exact hcertified.acyclic _ (hreach k hk) (TransGen.lift e.symm hback _ _ hcycle)

theorem Renames.cleared (hcleared : Cleared work now i item) :
    Cleared work' now (e i) item :=
  ⟨hcleared.valid, h.only hcleared.unique, h.certified hcleared.certified⟩

end

end Renamed

variable {work work' : List SourceWorkInput} {now : JsNumber} {budget : Budget}
  {item : SourceWorkInput} {i : Nat}

/-! ## The eligible inputs -/

/-- What a cleared input is collected for, when nothing defers it. -/
structure Wanted (now : JsNumber) (item : SourceWorkInput) : Prop where
  idle : ∀ attempt, item.lastAttempt = some attempt → attempt.outcome ≠ .running
  due : dueReasons now item (dueAt item) ≠ []
  retry : item.retryNotBefore.any now.lt = false

def waiting (now : JsNumber) (item : SourceWorkInput) (i : Nat) : WorkDecision :=
  ⟨i, item.tenantId, item.source, .deferred, dueReasons now item (dueAt item),
    some (dueAt item)⟩

theorem decideOn_named (work : List SourceWorkInput) (now : JsNumber) (item : SourceWorkInput)
    (i : Nat) : (decideOn work now item i).1.inputIndex = i ∧
      (decideOn work now item i).1.tenantId = item.tenantId ∧
      (decideOn work now item i).1.source = item.source := by
  simp only [decideOn]
  split_ifs
  all_goals exact ⟨rfl, rfl, rfl⟩

theorem decideOn_waiting (h : (decideOn work now item i).2 = true) :
    (decideOn work now item i).1 = waiting now item i := by
  simp only [decideOn] at h ⊢
  split_ifs at h ⊢
  rfl

theorem decideOn_eligible (hget : work[i]? = some item) :
    (decideOn work now item i).2 = true ↔ Cleared work now i item ∧ Wanted now item := by
  constructor
  · intro h
    have hcleared := ((decideOn_decided now hget).eligible h).2
    simp only [decideOn] at h
    split_ifs at h with _ _ hrunning _ hfresh hretry
    rw [Bool.not_eq_true] at hrunning hretry
    exact ⟨hcleared, idle_iff.mp hrunning, hfresh, hretry⟩
  · rintro ⟨⟨hvalid, hunique, hcertified⟩, hidle, hdue, hretry⟩
    have hblockers := (dependencyIssues_nil hget hvalid).mpr hcertified
    simp [decideOn, hvalid, (unique_iff hget).mpr hunique, idle_iff.mpr hidle, hblockers, hdue,
      hretry]

/-- The eligible inputs with their places. -/
def eligible (work : List SourceWorkInput) (now : JsNumber) : List (SourceWorkInput × Nat) :=
  work.zipIdx.filter fun entry => (decideOn work now entry.1 entry.2).2

theorem mem_eligible {entry : SourceWorkInput × Nat} : entry ∈ eligible work now ↔
    work[entry.2]? = some entry.1 ∧ Cleared work now entry.2 entry.1 ∧ Wanted now entry.1 := by
  rw [eligible, mem_filter, mem_zipIdx_iff_getElem?]
  exact and_congr_right fun hget => decideOn_eligible hget

/-- Eligible inputs of one tenant and source stand in one place. -/
theorem eligible_inj {a b : SourceWorkInput × Nat} (ha : a ∈ eligible work now)
    (hb : b ∈ eligible work now) (htenant : b.1.tenantId = a.1.tenantId)
    (hsource : b.1.source = a.1.source) : b = a := by
  obtain ⟨hget, hcleared, _⟩ := mem_eligible.mp ha
  have hget' := (mem_eligible.mp hb).1
  have hplace := (hcleared.unique b.2).mp ⟨b.1, hget', htenant, hsource⟩
  rw [hplace, hget, Option.some.injEq] at hget'
  exact Prod.ext hget'.symm hplace

theorem nodup_eligible : ((eligible work now).map Prod.fst).Nodup := by
  refine List.Nodup.map_on ?_ (List.Nodup.filter _ ?_)
  · intro a ha b hb h
    exact eligible_inj hb ha (by rw [h]) (by rw [h])
  · refine List.Nodup.of_map Prod.snd ?_
    rw [zipIdx_map_snd]
    exact nodup_range'

theorem mem_eligible_inputs : item ∈ (eligible work now).map Prod.fst ↔
    ∃ i, work[i]? = some item ∧ Cleared work now i item ∧ Wanted now item := by
  simp only [List.mem_map, Prod.exists, exists_and_right, exists_eq_right, mem_eligible]

/-- The same inputs are eligible when the list is rearranged. -/
theorem eligible_perm (h : work.Perm work') :
    ((eligible work now).map Prod.fst).Perm ((eligible work' now).map Prod.fst) := by
  rw [perm_ext_iff_of_nodup nodup_eligible nodup_eligible]
  obtain ⟨e, he⟩ := exists_renames h
  intro item
  rw [mem_eligible_inputs, mem_eligible_inputs]
  constructor
  · rintro ⟨i, hget, hcleared, hwanted⟩
    exact ⟨e i, (he i).trans hget, he.cleared hcleared, hwanted⟩
  · rintro ⟨i, hget, hcleared, hwanted⟩
    exact ⟨e.symm i, (he.symm i).trans hget, he.symm.cleared hcleared, hwanted⟩

/-! ## Times and costs -/

theorem time_count {x : JsNumber} (h : time x = true) : x.IsCount := by
  rw [time, Bool.and_eq_true] at h
  refine JsNumber.isCount_iff.mpr ⟨?_, h.2⟩
  cases x with
  | finite q =>
    rw [JsNumber.isSafeInteger, Bool.and_eq_true] at h
    exact h.1.1
  | infinite negative => cases h.1
  | nan => cases h.1

theorem valid_counts (h : valid item now = true) :
    (dueAt item).IsCount ∧ item.estimatedCost.IsCount := by
  simp only [valid, positive, Bool.and_eq_true] at h
  obtain ⟨⟨⟨⟨⟨⟨⟨_, hdeadline⟩, hage, _⟩, hcost, _⟩, _⟩, hcheck⟩, _⟩, _⟩ := h
  refine ⟨?_, time_count hcost⟩
  have hdue := time_count hdeadline
  rw [dueAt]
  cases hcomplete : item.lastComplete with
  | none => exact hdue
  | some check =>
    rw [hcomplete, all_some, validCheck] at hcheck
    simp only [Bool.and_eq_true] at hcheck
    obtain ⟨m, hm⟩ := time_count hage
    obtain ⟨c, hc⟩ := time_count hcheck.1.1.1.1
    have hends : (check.checkedAt.add item.maxAgeMs).IsCount :=
      ⟨c + m, by rw [hc, hm, JsNumber.ofNat_add]⟩
    simp only [JsNumber.min]
    split_ifs with hnan
    · obtain ⟨⟨d, hd⟩, ⟨n, hn⟩⟩ := And.intro hdue hends
      simp [hd, hn, JsNumber.ofNat] at hnan
    · exact hends
    · exact hdue

/-! ## The order of the deadlines -/

def amount : JsNumber → ℚ
  | .finite q => q
  | .infinite _ | .nan => 0

/-- What a decision is sorted by. -/
def rank (decision : WorkDecision) : ℚ × JsString × JsString :=
  (amount (decision.dueAt.getD .nan), decision.tenantId, decision.source)

/-- The order of the ranks, as `sortsBefore` has it of times. -/
def Sooner (a b : WorkDecision) : Prop :=
  Prod.Lex (· < ·) (Prod.Lex (· < ·) (· ≤ ·)) (rank a) (rank b)

instance : DecidableRel Sooner := fun a b =>
  Prod.Lex.decidable (· < ·) (Prod.Lex (· < ·) (· ≤ ·)) (rank a) (rank b)

instance : Std.Total Sooner := ⟨fun a b => Std.Total.total (rank a) (rank b)⟩

instance : IsTrans WorkDecision Sooner := ⟨fun a b c => IsTrans.trans (rank a) (rank b) (rank c)⟩

theorem sooner_antisymm {a b : WorkDecision} (hab : Sooner a b) (hba : Sooner b a) :
    a.tenantId = b.tenantId ∧ a.source = b.source := by
  simp only [Sooner, Prod.lex_def, rank] at hab hba
  obtain hab | ⟨hdue, hab⟩ := hab
  · obtain hba | ⟨hdue, _⟩ := hba
    · exact absurd hab (lt_asymm hba)
    · exact absurd hab (hdue ▸ lt_irrefl _)
  · replace hba := (hba.resolve_left (hdue ▸ lt_irrefl _)).2
    obtain hab | ⟨htenant, hab⟩ := hab
    · obtain hba | ⟨htenant, _⟩ := hba
      · exact absurd hab (List.lt_asymm hba)
      · exact absurd hab (htenant ▸ List.lt_irrefl _)
    · exact ⟨htenant, List.le_antisymm hab (hba.resolve_left (htenant ▸ List.lt_irrefl _)).2⟩

theorem sortsBefore_iff {a b : WorkDecision} {x y : JsNumber} (ha : a.dueAt = some x)
    (hb : b.dueAt = some y) (hx : x.IsCount) (hy : y.IsCount) :
    sortsBefore a b = true ↔ Sooner a b := by
  obtain ⟨m, rfl⟩ := hx
  obtain ⟨n, rfl⟩ := hy
  simp [sortsBefore, Sooner, Prod.lex_def, rank, ha, hb, amount, JsNumber.ofNat, JsNumber.lt]

/-! ## The queue -/

def queue (work : List SourceWorkInput) (now : JsNumber) : List WorkDecision :=
  ((eligible work now).map fun entry => waiting now entry.1 entry.2).insertionSort Sooner

variable {decision : WorkDecision}

theorem mem_queue : decision ∈ queue work now ↔
    ∃ entry ∈ eligible work now, waiting now entry.1 entry.2 = decision := by
  rw [queue, mem_insertionSort, List.mem_map]

theorem queue_sortsBefore {a b : WorkDecision} (ha : a ∈ queue work now)
    (hb : b ∈ queue work now) : sortsBefore a b = true ↔ Sooner a b := by
  obtain ⟨x, hx, rfl⟩ := mem_queue.mp ha
  obtain ⟨y, hy, rfl⟩ := mem_queue.mp hb
  exact sortsBefore_iff rfl rfl (valid_counts (mem_eligible.mp hx).2.1.valid).1
    (valid_counts (mem_eligible.mp hy).2.1.valid).1

theorem queue_eq : (((work.zipIdx.map fun entry => decideOn work now entry.1 entry.2).filter
    Prod.snd).map Prod.fst).insertionSort (fun a b => sortsBefore a b = true) =
      queue work now := by
  rw [List.filter_map, List.map_map]
  have hlist : (eligible work now).map (fun entry => (decideOn work now entry.1 entry.2).1) =
      (eligible work now).map fun entry => waiting now entry.1 entry.2 := by
    apply map_congr_left
    intro entry hentry
    exact decideOn_waiting (mem_filter.mp hentry).2
  have hsorted := map_insertionSort (fun a b => sortsBefore a b = true) Sooner id
    ((eligible work now).map fun entry => waiting now entry.1 entry.2) fun a ha b hb =>
      queue_sortsBefore (mem_insertionSort _ |>.mpr ha) (mem_insertionSort _ |>.mpr hb)
  rw [List.map_id, List.map_id, ← hlist] at hsorted
  rw [queue, ← hlist, ← hsorted]
  rfl

theorem queue_places : ((queue work now).map WorkDecision.inputIndex).Nodup := by
  have hperm := (perm_insertionSort Sooner
    ((eligible work now).map fun entry => waiting now entry.1 entry.2)).map WorkDecision.inputIndex
  rw [List.map_map] at hperm
  refine hperm.nodup_iff.mpr (List.Sublist.nodup (List.Sublist.map _ filter_sublist) ?_)
  change (work.zipIdx.map Prod.snd).Nodup
  rw [zipIdx_map_snd]
  exact nodup_range'

/-- No two decisions of the queue tie. -/
theorem queue_strict : (queue work now).Pairwise fun a b =>
    sortsBefore a b = true ∧ sortsBefore b a = false := by
  have hsorted : (queue work now).Pairwise Sooner := pairwise_insertionSort _ _
  refine (hsorted.and (List.Nodup.of_map _ queue_places)).imp_of_mem ?_
  rintro a b ha hb ⟨hab, hne⟩
  refine ⟨(queue_sortsBefore ha hb).mpr hab, ?_⟩
  by_contra hba
  rw [Bool.not_eq_false, queue_sortsBefore hb ha] at hba
  obtain ⟨htenant, hsource⟩ := sooner_antisymm hab hba
  obtain ⟨x, hx, rfl⟩ := mem_queue.mp ha
  obtain ⟨y, hy, rfl⟩ := mem_queue.mp hb
  rw [eligible_inj hy hx htenant hsource] at hne
  exact hne rfl

theorem queue_known (h : decision ∈ queue work now) :
    ∃ item, work[decision.inputIndex]? = some item := by
  obtain ⟨entry, hentry, rfl⟩ := mem_queue.mp h
  exact ⟨_, (mem_eligible.mp hentry).1⟩

/-- The inputs that decisions are about. -/
def inputs (work : List SourceWorkInput) (decisions : List WorkDecision) :
    List SourceWorkInput := decisions.filterMap fun decision => work[decision.inputIndex]?

theorem queue_perm :
    (inputs work (queue work now)).Perm ((eligible work now).map Prod.fst) := by
  refine ((perm_insertionSort _ _).filterMap _).trans ?_
  rw [filterMap_map, ← filterMap_eq_map]
  refine List.Perm.of_eq (filterMap_congr ?_)
  intro entry hentry
  exact (mem_eligible.mp hentry).1

theorem queue_sorted : (inputs work (queue work now)).Pairwise fun x y =>
    Sooner (waiting now x 0) (waiting now y 0) := by
  have hsorted : (queue work now).Pairwise Sooner := pairwise_insertionSort _ _
  refine pairwise_filterMap.mpr (hsorted.imp_of_mem ?_)
  intro a b ha hb hab x hx y hy
  obtain ⟨entry, hentry, rfl⟩ := mem_queue.mp ha
  obtain ⟨entry', hentry', rfl⟩ := mem_queue.mp hb
  cases (mem_eligible.mp hentry).1.symm.trans hx
  cases (mem_eligible.mp hentry').1.symm.trans hy
  exact hab

/-- A rearranged list of inputs has the same queue. -/
theorem queue_order_free (h : work.Perm work') :
    inputs work (queue work now) = inputs work' (queue work' now) := by
  have hperm : (inputs work (queue work now)).Perm (inputs work' (queue work' now)) :=
    queue_perm.trans ((eligible_perm h).trans queue_perm.symm)
  refine List.Perm.eq_of_pairwise ?_ queue_sorted queue_sorted hperm
  intro x y hx hy hxy hyx
  obtain ⟨htenant, hsource⟩ := sooner_antisymm hxy hyx
  obtain ⟨a, ha, rfl⟩ := List.mem_map.mp (queue_perm.mem_iff.mp hx)
  obtain ⟨b, hb, rfl⟩ := List.mem_map.mp (queue_perm.mem_iff.mp (hperm.mem_iff.mpr hy))
  rw [eligible_inj hb ha htenant hsource]

/-! ## Spending the budget -/

def spent (cost : JsNumber) (items : List SourceWorkInput) : JsNumber :=
  items.foldl (fun cost item => cost.add item.estimatedCost) cost

/-- Each of a queue that fits into what the ones before it have left of the budget. -/
def pick (budget : Budget) : Nat → JsNumber → List SourceWorkInput → List SourceWorkInput
  | _, _, [] => []
  | taken, cost, item :: queue =>
    if budget.maxItems.le (.ofNat taken) ∨
        (budget.maxEstimatedCost.sub cost).lt item.estimatedCost then
      pick budget taken cost queue
    else item :: pick budget (taken + 1) (cost.add item.estimatedCost) queue

variable {n : Nat}

theorem pick_within {M C : Nat} (hitems : budget.maxItems = .ofNat M)
    (hcost : budget.maxEstimatedCost = .ofNat C) {queue : List SourceWorkInput}
    (counts : ∀ item ∈ queue, item.estimatedCost.IsCount) {c : Nat} (hn : n ≤ M) (hc : c ≤ C) :
    n + (pick budget n (.ofNat c) queue).length ≤ M ∧
      ∃ t, spent (.ofNat c) (pick budget n (.ofNat c) queue) = .ofNat t ∧ t ≤ C := by
  induction queue generalizing n c with
  | nil => exact ⟨hn, c, rfl, hc⟩
  | cons item queue ih =>
    rw [forall_mem_cons] at counts
    obtain ⟨⟨k, hk⟩, counts⟩ := counts
    rw [pick]
    split_ifs with hfull
    · exact ih counts hn hc
    · rw [not_or, hitems, hcost, hk, JsNumber.ofNat_le] at hfull
      have hfits : c + k ≤ C := by
        have hleft := hfull.2
        simp only [JsNumber.ofNat, JsNumber.sub, JsNumber.neg, JsNumber.add, JsNumber.lt,
          decide_eq_true_eq, not_lt] at hleft
        have : (c : ℚ) + k ≤ C := by linarith
        exact_mod_cast this
      rw [spent, foldl_cons, hk, JsNumber.ofNat_add, length_cons]
      obtain ⟨hlength, htotal⟩ := ih counts (n := n + 1) (by omega) hfits
      exact ⟨by omega, htotal⟩

variable {cost : JsNumber}

theorem spend_places {queue : List WorkDecision} :
    (spend work budget n cost queue).1.map WorkDecision.inputIndex =
      queue.map WorkDecision.inputIndex := by
  induction queue generalizing n cost with
  | nil => rfl
  | cons decision queue ih =>
    rw [spend]
    split_ifs
    all_goals rw [map_cons, map_cons, ih]

/-- The selected decisions are some of the queue, for the inputs that are picked. -/
theorem spend_picks (budget : Budget) (n : Nat) (cost : JsNumber) {queue : List WorkDecision}
    (deferred : ∀ decision ∈ queue, decision.disposition = .deferred)
    (known : ∀ decision ∈ queue, ∃ item, work[decision.inputIndex]? = some item) :
    ∃ taken, taken.Sublist queue ∧
      (spend work budget n cost queue).1.filter
        (fun decision => decision.disposition == .selected) =
          taken.map (fun decision => { decision with disposition := .selected }) ∧
      inputs work taken = pick budget n cost (inputs work queue) ∧
      (spend work budget n cost queue).2 = spent cost (inputs work taken) := by
  induction queue generalizing n cost with
  | nil => exact ⟨[], .slnil, rfl, rfl, rfl⟩
  | cons decision queue ih =>
    rw [forall_mem_cons] at deferred known
    obtain ⟨item, hget⟩ := known.1
    have hinputs : ∀ rest, inputs work (decision :: rest) = item :: inputs work rest :=
      fun rest => filterMap_cons_some hget
    rw [spend, hinputs, pick, hget, map_some, getD_some]
    split_ifs
    · obtain ⟨taken, hsublist, hselected, hpicked⟩ := ih _ _ deferred.2 known.2
      refine ⟨taken, hsublist.cons _, ?_, hpicked⟩
      rw [filter_cons_of_neg (by simp [deferred.1]), hselected]
    · obtain ⟨taken, hsublist, hselected, hpicked, hspent⟩ := ih _ _ deferred.2 known.2
      refine ⟨decision :: taken, hsublist.cons_cons _, ?_, ?_, ?_⟩
      · rw [filter_cons_of_pos (by simp), hselected, map_cons]
      · rw [hinputs, hpicked]
      · rw [hinputs, hspent]
        rfl

/-! ## The plan -/

/-- A decision for every input; of the eligible ones those that fit are selected, the earliest
deadline first. -/
structure Planned (work : List SourceWorkInput) (now : JsNumber) (budget : Budget)
    (plan : SourceWorkPlan) : Prop where
  length : plan.decisions.length = work.length
  decisions : ∀ (i : Nat) (item : SourceWorkInput), work[i]? = some item →
    ∃ decision : WorkDecision, plan.decisions[i]? = some decision ∧ decision.inputIndex = i ∧
      decision.tenantId = item.tenantId ∧ decision.source = item.source
  selected : ∀ decision, decision ∈ plan.selected ↔
    decision ∈ plan.decisions ∧ decision.disposition = .selected
  maxItems : budget.maxItems.bounds plan.selected.length = true
  estimatedCost : plan.estimatedCost = spent (.ofNat 0) (inputs work plan.selected)
  maxEstimatedCost : plan.estimatedCost.le budget.maxEstimatedCost = true
  ordered : plan.selected.Pairwise fun a b => sortsBefore a b = true ∧ sortsBefore b a = false
  greedy : ∃ queue : List WorkDecision,
    (∀ decision, decision ∈ queue ↔ ∃ i item, work[i]? = some item ∧ Cleared work now i item ∧
      Wanted now item ∧ decision = waiting now item i) ∧
    (queue.Pairwise fun a b => sortsBefore a b = true ∧ sortsBefore b a = false) ∧
    inputs work plan.selected = pick budget 0 (.ofNat 0) (inputs work queue)

variable {plan : SourceWorkPlan}

section

variable (h : planSourceWork work now budget = some plan)
include h

/-- The selected decisions are what the budget takes of the queue. -/
theorem plan_picks :
    ∃ taken : List WorkDecision, taken.Sublist (queue work now) ∧
      plan.selected = taken.map (fun decision => { decision with disposition := .selected }) ∧
      inputs work plan.selected = pick budget 0 (.ofNat 0) (inputs work (queue work now)) ∧
      plan.estimatedCost = spent (.ofNat 0) (inputs work plan.selected) := by
  simp only [planSourceWork, queue_eq] at h
  split_ifs at h
  cases h
  have hdeferred : ∀ decision ∈ queue work now, decision.disposition = .deferred := by
    intro decision hmem
    obtain ⟨entry, _, rfl⟩ := mem_queue.mp hmem
    rfl
  obtain ⟨taken, hsublist, hselected, hpicked, hspent⟩ := spend_picks budget 0
    (.ofNat 0) hdeferred fun decision hmem => queue_known hmem
  have hinputs : inputs work (taken.map fun decision =>
      { decision with disposition := .selected }) = inputs work taken := filterMap_map ..
  refine ⟨taken, hsublist, hselected, ?_, ?_⟩
  · rw [hselected, hinputs, hpicked]
  · rw [hselected, hinputs, hspent]

/-- Each input has its decision in its place, and no other is selected for it. -/
theorem plan_decides
    (hget : work[i]? = some item) : ∃ decision : WorkDecision,
      plan.decisions[i]? = some decision ∧ decision.inputIndex = i ∧
      decision.tenantId = item.tenantId ∧ decision.source = item.source ∧
      ∀ other : WorkDecision, other.inputIndex = i →
        (other ∈ plan.selected ↔ other = decision ∧ decision.disposition = .selected) := by
  simp only [planSourceWork, queue_eq] at h
  split_ifs at h
  cases h
  have hnamed := decideOn_named work now item i
  simp only [getElem?_map, List.getElem?_zipIdx, hget, map_some, Nat.zero_add,
    Option.some.injEq, exists_eq_left', mem_filter, beq_iff_eq, hnamed.1]
  have hplaces : ((spend work budget 0 (.ofNat 0) (queue work now)).1.map
      WorkDecision.inputIndex).Nodup := by
    rw [spend_places]
    exact queue_places
  have hjudged := fun d (h : d ∈ (spend work budget 0 (.ofNat 0) (queue work now)).1) =>
    spend_cases h
  generalize (spend work budget 0 (.ofNat 0) (queue work now)).1 = judged at hplaces hjudged ⊢
  cases hfind : judged.find? fun decision => decision.inputIndex == i with
  | none =>
    refine ⟨hnamed.1, hnamed.2.1, hnamed.2.2, fun other hindex => ?_⟩
    refine iff_of_false (fun hother => ?_) fun hother => ?_
    · exact List.find?_eq_none.mp hfind other hother.1 (by simp [hindex])
    · exact (decideOn_decided now hget).unselected hother.2
  | some found =>
    have hindex : found.inputIndex = i := by simpa using find?_some hfind
    have hmem := mem_of_find?_eq_some hfind
    refine ⟨hindex, ?_⟩
    obtain ⟨decision, hdecision, hfound⟩ := hjudged found hmem
    obtain ⟨entry, hentry, rfl⟩ := mem_queue.mp hdecision
    have hsame : found.inputIndex = entry.2 ∧ found.tenantId = entry.1.tenantId ∧
        found.source = entry.1.source := by
      obtain rfl | rfl := hfound
      · exact ⟨rfl, rfl, rfl⟩
      · exact ⟨rfl, rfl, rfl⟩
    have hother := (mem_eligible.mp hentry).1
    rw [← hsame.1, hindex, hget, Option.some.injEq] at hother
    rw [hother]
    refine ⟨hsame.2.1, hsame.2.2, fun other hplace => ?_⟩
    constructor
    · rintro ⟨hin, hselected⟩
      cases inj_on_of_nodup_map hplaces hin hmem (hplace.trans hindex.symm)
      exact ⟨rfl, hselected⟩
    · rintro ⟨rfl, hselected⟩
      exact ⟨hmem, hselected⟩

theorem plan_times :
    ¬ (time now = false ∨ time budget.maxItems = false ∨ time budget.maxEstimatedCost = false) := by
  intro htimes
  rw [planSourceWork, if_pos htimes] at h
  cases h

theorem plan_planned :
    Planned work now budget plan := by
  obtain ⟨taken, hsublist, hselected, hpicked, hcost⟩ := plan_picks h
  have htimes := plan_times h
  simp only [not_or, Bool.not_eq_false] at htimes
  obtain ⟨M, hM⟩ := time_count htimes.2.1
  obtain ⟨C, hC⟩ := time_count htimes.2.2
  have hcounts : ∀ item ∈ inputs work (queue work now), item.estimatedCost.IsCount := by
    intro item hmem
    obtain ⟨entry, hentry, rfl⟩ := List.mem_map.mp (queue_perm.mem_iff.mp hmem)
    exact (valid_counts (mem_eligible.mp hentry).2.1.valid).2
  obtain ⟨hlength, t, htotal, ht⟩ := pick_within hM hC hcounts (Nat.zero_le _) (Nat.zero_le _)
  have hknown : ∀ decision ∈ plan.selected, ∃ item, work[decision.inputIndex]? = some item := by
    intro decision hmem
    rw [hselected] at hmem
    obtain ⟨other, hother, rfl⟩ := List.mem_map.mp hmem
    obtain ⟨item, hget⟩ := queue_known (hsublist.subset hother)
    exact ⟨item, hget⟩
  have hdecisions : plan.decisions.length = work.length := by
    simp only [planSourceWork, if_neg (plan_times h), Option.some.injEq] at h
    simp [← h]
  constructor
  · exact hdecisions
  · intro i item hget
    obtain ⟨decision, hplace, hindex, htenant, hsource, _⟩ := plan_decides h hget
    exact ⟨decision, hplace, hindex, htenant, hsource⟩
  · intro decision
    constructor
    · intro hmem
      obtain ⟨item, hget⟩ := hknown decision hmem
      obtain ⟨other, hplace, _, _, _, honly⟩ := plan_decides h hget
      obtain ⟨rfl, hdisposition⟩ := (honly decision rfl).mp hmem
      exact ⟨mem_of_getElem? hplace, hdisposition⟩
    · rintro ⟨hmem, hdisposition⟩
      obtain ⟨i, hplace⟩ := List.getElem?_of_mem hmem
      obtain ⟨item, hget⟩ : ∃ item, work[i]? = some item := by
        have hi := (List.getElem?_eq_some_iff.mp hplace).1
        exact ⟨_, getElem?_eq_getElem (hdecisions ▸ hi)⟩
      obtain ⟨other, hother, hindex, _, _, honly⟩ := plan_decides h hget
      cases hplace.symm.trans hother
      exact (honly decision hindex).mpr ⟨rfl, hdisposition⟩
  · have hlengths := filterMap_length_eq_length.mpr fun decision hmem =>
      isSome_iff_exists.mpr (hknown decision hmem)
    rw [← hpicked, inputs, hlengths] at hlength
    simpa [hM, JsNumber.ofNat, JsNumber.bounds] using hlength
  · exact hcost
  · rw [hcost, hpicked, htotal, hC, JsNumber.ofNat_le]
    exact ht
  · rw [hselected, pairwise_map]
    exact queue_strict.sublist hsublist
  · refine ⟨queue work now, fun decision => ?_, queue_strict, hpicked⟩
    rw [mem_queue]
    constructor
    · rintro ⟨entry, hentry, rfl⟩
      obtain ⟨hget, hcleared, hwanted⟩ := mem_eligible.mp hentry
      exact ⟨entry.2, entry.1, hget, hcleared, hwanted, rfl⟩
    · rintro ⟨i, item, hget, hcleared, hwanted, rfl⟩
      exact ⟨(item, i), mem_eligible.mpr ⟨hget, hcleared, hwanted⟩, rfl⟩

end

theorem plan_order_free {plan : SourceWorkPlan}
    (h : planSourceWork work now budget = some plan) :
    Planned work now budget plan ∧ ∀ work', work.Perm work' →
      ∃ plan', planSourceWork work' now budget = some plan' ∧
        inputs work' plan'.selected = inputs work plan.selected := by
  refine ⟨plan_planned h, fun work' hperm => ?_⟩
  cases h' : planSourceWork work' now budget with
  | none =>
    rw [planSourceWork, if_neg (plan_times h)] at h'
    cases h'
  | some plan' =>
    obtain ⟨_, _, _, hpicked, _⟩ := plan_picks h
    obtain ⟨_, _, _, hpicked', _⟩ := plan_picks h'
    exact ⟨plan', rfl, by rw [hpicked, hpicked', queue_order_free hperm]⟩

/-- Of two that are due at once the first by its source is taken. -/
def oneItem : Budget := ⟨.ofNat 1, .ofNat 9⟩

theorem plan_order_free_sample :
    ∃ plan, planSourceWork [userWork, checkedRoles] (.ofNat 6) oneItem = some plan ∧
      Planned [userWork, checkedRoles] (.ofNat 6) oneItem plan ∧
      ∃ plan', planSourceWork [checkedRoles, userWork] (.ofNat 6) oneItem = some plan' ∧
        inputs [checkedRoles, userWork] plan'.selected = [checkedRoles] := by
  have hplan : planSourceWork [userWork, checkedRoles] (.ofNat 6) oneItem =
      some ((planSourceWork [userWork, checkedRoles] (.ofNat 6) oneItem).get
        (by decide +kernel)) := (some_get _).symm
  obtain ⟨plan', hplan', hinputs⟩ := (plan_order_free hplan).2 _ (.swap ..)
  exact ⟨_, hplan, (plan_order_free hplan).1, plan', hplan', hinputs.trans (by decide +kernel)⟩

end PlanOrderFree
