import Mathlib.Data.Set.Finite.Basic
import Mathlib.Order.WellFounded

/-!
# Peeling a graph

A vertex is visited when all its prerequisites have been visited, and marks its
dependents when it is marked itself. The visited vertices are the ones below
which there is no cycle, and the marks say what lies below them.
-/

universe u v

namespace Peel

open Relation List

variable {ι : Type u} {μ : Type v}

/-- The prerequisites of every vertex, each as often as it is declared. -/
structure Graph (ι : Type u) where
  vertices : List ι
  nodup : vertices.Nodup
  prerequisites : ι → List ι
  closed : ∀ v ∈ vertices, ∀ p ∈ prerequisites v, p ∈ vertices

namespace Graph

variable (G : Graph ι)

/-- One vertex needs another at once. -/
def Needs (v p : ι) : Prop := p ∈ G.prerequisites v

/-- No cycle lies at or below a vertex. -/
def Grounded (v : ι) : Prop :=
  ∀ k, ReflTransGen G.Needs v k → ¬ TransGen G.Needs k k

variable {v : ι}

theorem reach_known {k : ι} (hv : v ∈ G.vertices) (h : ReflTransGen G.Needs v k) :
    k ∈ G.vertices := by
  induction h with
  | refl => exact hv
  | tail _ hneeds ih => exact G.closed _ ih _ hneeds

variable [DecidableEq ι]

def dependents (p : ι) : List ι :=
  G.vertices.flatMap fun v => List.replicate ((G.prerequisites v).count p) v

theorem count_dependents (hv : v ∈ G.vertices) (p : ι) :
    (G.dependents p).count v = (G.prerequisites v).count p := by
  have hsplit := append_of_mem hv
  obtain ⟨before, after, hvertices⟩ := hsplit
  have hnodup := G.nodup
  rw [hvertices, nodup_append] at hnodup
  have hzero : ∀ others : List ι, v ∉ others →
      (others.flatMap fun w => replicate ((G.prerequisites w).count p) w).count v = 0 := by
    intro others hothers
    rw [count_eq_zero, mem_flatMap]
    rintro ⟨w, hw, hmem⟩
    rw [eq_of_mem_replicate hmem] at hothers
    exact hothers hw
  have hbefore : v ∉ before := fun h => hnodup.2.2 v h v (by simp) rfl
  have hafter : v ∉ after := (nodup_cons.mp hnodup.2.1).1
  rw [dependents, hvertices, flatMap_append, flatMap_cons, count_append,
    count_append, hzero before hbefore, hzero after hafter, count_replicate_self]
  omega

theorem mem_dependents {p : ι} (hv : v ∈ G.vertices) : v ∈ G.dependents p ↔ G.Needs v p := by
  rw [← count_pos_iff, G.count_dependents hv, count_pos_iff]
  rfl

theorem dependents_known {p : ι} (h : v ∈ G.dependents p) : v ∈ G.vertices := by
  obtain ⟨w, hw, hmem⟩ := mem_flatMap.mp h
  rw [eq_of_mem_replicate hmem]
  exact hw

end Graph

/-! ## The loop -/

section Loop

variable [DecidableEq ι]

/-- How many prerequisites of a vertex are left, its marks, and the vertices to visit. -/
structure State (ι : Type u) (μ : Type v) where
  remaining : ι → Int
  marks : ι → List μ
  waiting : List ι

/-- One dependent of a visited vertex. -/
def release (mark : μ) (source : ι) (s : State ι μ) (dependent : ι) : State ι μ where
  marks :=
    if (s.marks source).isEmpty then s.marks
    else Function.update s.marks dependent (s.marks dependent ++ [mark])
  remaining := Function.update s.remaining dependent (s.remaining dependent - 1)
  waiting :=
    if s.remaining dependent - 1 = 0 then s.waiting ++ [dependent] else s.waiting

def run (G : Graph ι) (mark : μ) : Nat → State ι μ → State ι μ
  | 0, s => s
  | fuel + 1, s =>
    match s.waiting with
    | [] => s
    | source :: waiting =>
      run G mark fuel
        ((G.dependents source).foldl (release mark source) { s with waiting := waiting })

/-- The state before the loop. -/
def initial (G : Graph ι) (direct : ι → List μ) : State ι μ where
  remaining v := (G.prerequisites v).length
  marks := direct
  waiting := G.vertices.filter fun v => (G.prerequisites v).length = 0

section Release

variable {mark : μ} {source : ι} {ds : List ι} {s : State ι μ}

theorem release_remaining (j : ι) :
    (ds.foldl (release mark source) s).remaining j = s.remaining j - ds.count j := by
  induction ds generalizing s with
  | nil => simp
  | cons d ds ih =>
    rw [foldl_cons, ih, count_cons]
    by_cases hd : d = j
    · subst hd
      simp [release]
      omega
    · have hj : j ≠ d := fun h => hd h.symm
      simp [release, Function.update_of_ne hj, hd]

theorem release_marks (mark : μ) (hsource : source ∉ ds) (j : ι) :
    (ds.foldl (release mark source) s).marks j =
      s.marks j ++ if (s.marks source).isEmpty then [] else replicate (ds.count j) mark := by
  induction ds generalizing s with
  | nil => simp
  | cons d ds ih =>
    rw [mem_cons, not_or] at hsource
    have hkept : (release mark source s d).marks source = s.marks source := by
      simp only [release]
      split
      · rfl
      · exact Function.update_of_ne hsource.1 _ _
    rw [foldl_cons, ih hsource.2, hkept]
    by_cases hempty : (s.marks source).isEmpty
    · simp [release, hempty]
    · by_cases hd : d = j
      · subst hd
        simp [release, hempty, replicate_succ]
      · have hj : j ≠ d := fun h => hd h.symm
        simp [release, hempty, Function.update_of_ne hj, hd]

theorem release_marked (hsource : source ∉ ds) (j : ι) :
    (ds.foldl (release mark source) s).marks j ≠ [] ↔
      s.marks j ≠ [] ∨ (j ∈ ds ∧ s.marks source ≠ []) := by
  rw [release_marks mark hsource, ← count_pos_iff]
  cases s.marks source with
  | nil => simp
  | cons m ms => simp [Nat.pos_iff_ne_zero, imp_iff_not_or]

/-- Every mark is a direct one or the one that is passed on. -/
theorem run_marks_all {P : μ → Prop} (hmark : P mark) (G : Graph ι) (fuel : Nat)
    (h : ∀ v, ∀ m ∈ s.marks v, P m) : ∀ v, ∀ m ∈ (run G mark fuel s).marks v, P m := by
  have hrelease : ∀ (ds : List ι) (s : State ι μ), (∀ v, ∀ m ∈ s.marks v, P m) →
      ∀ source v, ∀ m ∈ (ds.foldl (release mark source) s).marks v, P m := by
    intro ds
    induction ds with
    | nil => exact fun s hs source => hs
    | cons d ds ih =>
      intro s hs source
      refine ih _ ?_ source
      intro v m hm
      simp only [release] at hm
      split at hm
      · exact hs v m hm
      · by_cases hv : v = d
        · subst hv
          rw [Function.update_self, mem_append, mem_singleton] at hm
          obtain hm | rfl := hm
          · exact hs v m hm
          · exact hmark
        · rw [Function.update_of_ne hv] at hm
          exact hs v m hm
  induction fuel generalizing s with
  | zero => exact h
  | succ fuel ih =>
    rw [run]
    split
    · exact h
    · next source rest _ => exact ih (hrelease _ { s with waiting := rest } h source)

/-- The vertices that are reached are those whose last prerequisite this was, once each. -/
theorem release_waiting (mark : μ) (source : ι) (ds : List ι)
    (enough : ∀ j ∈ ds, (ds.count j : Int) ≤ s.remaining j) :
    ∃ reached, (ds.foldl (release mark source) s).waiting = s.waiting ++ reached ∧
      reached.Nodup ∧ ∀ j, j ∈ reached ↔ j ∈ ds ∧ s.remaining j = ds.count j := by
  induction ds generalizing s with
  | nil => exact ⟨[], by simp, nodup_nil, by simp⟩
  | cons d ds ih =>
    have hself : (ds.count d : Int) + 1 ≤ s.remaining d := by
      have := enough d (by simp)
      rw [count_cons_self] at this
      omega
    have hother : ∀ j, j ≠ d → (release mark source s d).remaining j = s.remaining j :=
      fun j hj => Function.update_of_ne hj _ _
    have hleft : (release mark source s d).remaining d = s.remaining d - 1 :=
      Function.update_self _ _ _
    have hcount : ∀ j, j ≠ d → (d :: ds).count j = ds.count j := by
      intro j hj
      rw [count_cons_of_ne]
      exact fun h => hj h.symm
    obtain ⟨reached, hwaiting, hnodup, hreached⟩ := ih (s := release mark source s d) (by
      intro j hj
      by_cases hd : j = d
      · rw [hd, hleft]
        omega
      · rw [hother j hd, ← hcount j hd]
        exact enough j (by simp [hj]))
    by_cases hlast : s.remaining d - 1 = 0
    · have hnot : d ∉ ds := by
        rw [← count_eq_zero]
        omega
      refine ⟨d :: reached, ?_, ?_, ?_⟩
      · rw [foldl_cons, hwaiting]
        simp [release, hlast]
      · rw [nodup_cons]
        exact ⟨fun h => hnot ((hreached d).mp h).1, hnodup⟩
      · intro j
        rw [mem_cons, hreached]
        by_cases hd : j = d
        · subst hd
          have hzero := count_eq_zero.mpr hnot
          simp only [mem_cons, true_or, count_cons_self, true_and, true_iff]
          omega
        · rw [hother j hd, hcount j hd]
          simp [hd]
    · refine ⟨reached, ?_, hnodup, ?_⟩
      · rw [foldl_cons, hwaiting]
        simp [release, hlast]
      · intro j
        rw [hreached]
        by_cases hd : j = d
        · subst hd
          rw [hleft, count_cons_self]
          simp only [mem_cons, true_or, true_and]
          constructor
          · rintro ⟨_, h⟩
            omega
          · intro h
            refine ⟨?_, by omega⟩
            rw [← count_pos_iff]
            omega
        · rw [hother j hd, hcount j hd]
          simp [hd]

end Release

/-! ## What the loop keeps -/

/-- Between two rounds, with the vertices `done` visited. -/
structure Peeled (G : Graph ι) (direct : ι → List μ) (done : List ι) (s : State ι μ) : Prop where
  nodup : (done ++ s.waiting).Nodup
  known : ∀ v ∈ done ++ s.waiting, v ∈ G.vertices
  counted : ∀ v ∈ G.vertices, s.remaining v = (G.prerequisites v).countP (· ∉ done)
  ready : ∀ v ∈ G.vertices, v ∈ done ++ s.waiting ↔ s.remaining v = 0
  marked : ∀ v ∈ G.vertices,
    s.marks v ≠ [] ↔ direct v ≠ [] ∨ ∃ p ∈ done, G.Needs v p ∧ s.marks p ≠ []
  founded : ∀ v ∈ done, Acc (fun p v => G.Needs v p) v

section Peeled

variable {G : Graph ι} {direct : ι → List μ} {mark : μ} {done : List ι} {s : State ι μ}

theorem initial_peeled (G : Graph ι) (direct : ι → List μ) :
    Peeled G direct [] (initial G direct) where
  nodup := G.nodup.filter _
  known v hv := (mem_filter.mp hv).1
  counted v _ := by simp [initial]
  ready v hv := by simp [initial, hv]
  marked v _ := by simp [initial]
  founded v hv := absurd hv not_mem_nil

variable {v : ι}

/-- All prerequisites of a vertex that is visited or waits have been visited. -/
theorem Peeled.needs_done (h : Peeled G direct done s) {p : ι} (hv : v ∈ done ++ s.waiting)
    (hp : G.Needs v p) : p ∈ done := by
  have hknown := h.known v hv
  have hzero := (h.ready v hknown).mp hv
  rw [h.counted v hknown] at hzero
  have hcount : (G.prerequisites v).countP (· ∉ done) = 0 := by omega
  rw [countP_eq_zero] at hcount
  simpa using hcount p hp

theorem countP_visit {source : ι} (fresh : source ∉ done) (ps : List ι) :
    ps.countP (· ∉ done) = ps.countP (· ∉ done ++ [source]) + ps.count source := by
  induction ps with
  | nil => rfl
  | cons p ps ih =>
    rw [countP_cons, countP_cons, count_cons, ih]
    by_cases hp : p = source
    · subst hp
      simp [fresh]
      omega
    · simp [hp]
      omega

section Visit

variable {source : ι} {rest : List ι}

theorem Peeled.fresh (h : Peeled G direct done s) (hwaiting : s.waiting = source :: rest) :
    source ∉ done := by
  have hnodup := h.nodup
  rw [hwaiting, nodup_append] at hnodup
  exact fun hmem => hnodup.2.2 source hmem source (by simp) rfl

variable {v : ι}

section

variable (h : Peeled G direct done s)
include h

section

variable (hwaiting : s.waiting = source :: rest)
include hwaiting

/-- No visited or waiting vertex depends on the one that is visited next. -/
theorem Peeled.settled
    (hv : v ∈ done ++ s.waiting) : v ∉ G.dependents source := by
  intro hdependent
  exact h.fresh hwaiting (h.needs_done hv ((G.mem_dependents (h.known v hv)).mp hdependent))

theorem Peeled.remaining_visit (hv : v ∈ G.vertices) :
    s.remaining v =
      (G.prerequisites v).countP (· ∉ done ++ [source]) + (G.dependents source).count v := by
  rw [h.counted v hv, countP_visit (h.fresh hwaiting), G.count_dependents hv source]
  simp

/-- A visit marks no vertex that is visited. -/
theorem Peeled.marks_visit
    (mark : μ) {p : ι} (hp : p ∈ done ++ [source]) :
    ((G.dependents source).foldl (release mark source) { s with waiting := rest }).marks p =
      s.marks p := by
  have hsource : source ∈ done ++ s.waiting := by simp [hwaiting]
  have hpmem : p ∈ done ++ s.waiting := by
    rw [mem_append, mem_singleton] at hp
    rw [hwaiting, mem_append, mem_cons]
    exact hp.imp_right Or.inl
  rw [release_marks (s := { s with waiting := rest }) mark (h.settled hwaiting hsource),
    count_eq_zero.mpr (h.settled hwaiting hpmem)]
  simp

theorem Peeled.marked_visit
    (hv : v ∈ G.vertices) :
    ((G.dependents source).foldl (release mark source) { s with waiting := rest }).marks v ≠ [] ↔
      direct v ≠ [] ∨ ∃ p ∈ done ++ [source], G.Needs v p ∧
        ((G.dependents source).foldl (release mark source) { s with waiting := rest }).marks p ≠
          [] := by
  have hkept := fun p (hp : p ∈ done ++ [source]) => h.marks_visit hwaiting mark hp
  have hsource : source ∈ done ++ s.waiting := by simp [hwaiting]
  rw [release_marked (h.settled hwaiting hsource), G.mem_dependents hv]
  simp only
  rw [h.marked v hv]
  constructor
  · rintro ((hdirect | ⟨p, hp, hneeds, hmarked⟩) | ⟨hneeds, hmarked⟩)
    · exact .inl hdirect
    · refine .inr ⟨p, mem_append_left _ hp, hneeds, ?_⟩
      rw [hkept p (mem_append_left _ hp)]
      exact hmarked
    · refine .inr ⟨source, by simp, hneeds, ?_⟩
      rw [hkept source (by simp)]
      exact hmarked
  · rintro (hdirect | ⟨p, hp, hneeds, hmarked⟩)
    · exact .inl (.inl hdirect)
    · rw [hkept p hp] at hmarked
      rw [mem_append, mem_singleton] at hp
      obtain hp | rfl := hp
      · exact .inl (.inr ⟨p, hp, hneeds, hmarked⟩)
      · exact .inr ⟨hneeds, hmarked⟩

theorem Peeled.visit :
    Peeled G direct (done ++ [source])
      ((G.dependents source).foldl (release mark source) { s with waiting := rest }) := by
  obtain ⟨reached, hreachedWaiting, hreachedNodup, hreached⟩ :=
    release_waiting (s := { s with waiting := rest }) mark source (G.dependents source) (by
        intro v hv
        have := h.remaining_visit hwaiting (G.dependents_known hv)
        simp only
        omega)
  have hsplit : done ++ [source] ++ (rest ++ reached) = (done ++ s.waiting) ++ reached := by
    simp [hwaiting]
  refine ⟨?_, ?_, ?_, ?_, fun v hv => h.marked_visit hwaiting hv, ?_⟩
  · rw [hreachedWaiting, hsplit, nodup_append]
    refine ⟨h.nodup, hreachedNodup, ?_⟩
    rintro v hv w hw rfl
    exact h.settled hwaiting hv ((hreached v).mp hw).1
  · rw [hreachedWaiting, hsplit]
    intro v hv
    rw [mem_append] at hv
    obtain hv | hv := hv
    · exact h.known v hv
    · exact G.dependents_known ((hreached v).mp hv).1
  · intro v hv
    rw [release_remaining, h.remaining_visit hwaiting hv]
    omega
  · intro v hv
    rw [hreachedWaiting, hsplit, mem_append, hreached, h.ready v hv, release_remaining,
      ← count_pos_iff]
    have := h.remaining_visit hwaiting hv
    simp only
    omega
  · intro v hv
    rw [mem_append, mem_singleton] at hv
    obtain hv | rfl := hv
    · exact h.founded v hv
    · constructor
      intro p hp
      exact h.founded p (h.needs_done (by simp [hwaiting]) hp)

end

end

end Visit

/-- With fuel for every vertex the loop ends with nothing left to visit. -/
theorem run_peeled (mark : μ) (fuel : Nat) (h : Peeled G direct done s)
    (enough : G.vertices.length ≤ done.length + fuel) :
    ∃ done', Peeled G direct done' (run G mark fuel s) ∧ (run G mark fuel s).waiting = [] := by
  induction fuel generalizing done s with
  | zero =>
    have hsubset : done ++ s.waiting ⊆ G.vertices := h.known
    have hlength := (subperm_of_subset h.nodup hsubset).length_le
    rw [length_append] at hlength
    have hnil : s.waiting = [] := by
      rw [← length_eq_zero_iff]
      omega
    exact ⟨done, h, hnil⟩
  | succ fuel ih =>
    rw [run]
    cases hwaiting : s.waiting with
    | nil => exact ⟨done, h, hwaiting⟩
    | cons source rest =>
      refine ih (h.visit hwaiting) ?_
      rw [length_append, length_singleton]
      omega

/-- At the end the visited vertices are the grounded ones. -/
theorem Peeled.done_iff (h : Peeled G direct done s) (ended : s.waiting = [])
    (hv : v ∈ G.vertices) : v ∈ done ↔ Acc (fun p v => G.Needs v p) v := by
  constructor
  · exact h.founded v
  · intro hacc
    induction hacc with
    | intro v _ ih =>
      have hready := h.ready v hv
      rw [ended, append_nil] at hready
      rw [hready, h.counted v hv]
      have hcount : (G.prerequisites v).countP (· ∉ done) = 0 := by
        rw [countP_eq_zero]
        intro p hp
        simpa using ih p hp (G.closed v hv p hp)
      rw [hcount]
      rfl

/-- At the end a grounded vertex is marked when something at or below it is. -/
theorem Peeled.unmarked_iff (h : Peeled G direct done s) (ended : s.waiting = [])
    (hv : v ∈ G.vertices) (hacc : Acc (fun p v => G.Needs v p) v) :
    s.marks v = [] ↔ ∀ k, ReflTransGen G.Needs v k → direct k = [] := by
  induction hacc with
  | intro v hbelow ih =>
    have hmarked := h.marked v hv
    constructor
    · intro hnil k hk
      have hclean : ¬ (direct v ≠ [] ∨ ∃ p ∈ done, G.Needs v p ∧ s.marks p ≠ []) := by
        rw [← hmarked]
        exact fun hne => hne hnil
      rw [not_or, not_not] at hclean
      obtain rfl | ⟨p, hp, hrest⟩ := hk.cases_head
      · exact hclean.1
      · have hpknown := G.closed v hv p hp
        have hpdone := (h.done_iff ended hpknown).mpr (hbelow p hp)
        refine (ih p hp hpknown).mp ?_ k hrest
        by_contra hne
        exact hclean.2 ⟨p, hpdone, hp, hne⟩
    · intro hclean
      by_contra hne
      obtain hdirect | ⟨p, _, hp, hpmarked⟩ := hmarked.mp hne
      · exact hdirect (hclean v .refl)
      · refine hpmarked ((ih p hp (G.closed v hv p hp)).mpr ?_)
        intro k hk
        exact hclean k (.head hp hk)

end Peeled

end Loop

/-! ## Cycles -/

theorem acc_irrefl {α : Type u} {r : α → α → Prop} {a : α} (h : Acc r a) : ¬ r a a := by
  induction h with
  | intro a _ ih => exact fun hself => ih a hself hself

/-- Below a vertex of a finite graph there is either a cycle or an end on every path. -/
theorem acc_iff_grounded {G : Graph ι} {v : ι} (hv : v ∈ G.vertices) :
    Acc (fun p v => G.Needs v p) v ↔ G.Grounded v := by
  constructor
  · intro hacc k hk
    have hkacc : Acc (fun p v => G.Needs v p) k := by
      induction hk with
      | refl => exact hacc
      | tail _ hneeds ih => exact ih.inv hneeds
    intro hcycle
    exact acc_irrefl hkacc.transGen (transGen_swap.mp hcycle)
  · intro hgrounded
    let Below := {k // ReflTransGen G.Needs v k}
    have hfinite : Finite Below := by
      have hset : Set.Finite {k | ReflTransGen G.Needs v k} :=
        (finite_toSet G.vertices).subset fun k hk => G.reach_known hv hk
      exact hset.to_subtype
    let deeper : Below → Below → Prop := fun p k => TransGen G.Needs k.1 p.1
    have htrans : IsTrans Below deeper := ⟨fun a b c hab hbc => hbc.trans hab⟩
    have hirrefl : Std.Irrefl deeper := ⟨fun a => hgrounded a.1 a.2⟩
    have hwf : WellFounded deeper := Finite.wellFounded_of_trans_of_irrefl deeper
    have hall : ∀ k : Below, Acc (fun p v => G.Needs v p) k.1 := by
      intro k
      induction k using hwf.induction with
      | _ k ih =>
        constructor
        intro p hp
        exact ih ⟨p, k.2.tail hp⟩ (.single hp)
    exact hall ⟨v, .refl⟩

/-- What the whole loop leaves. -/
structure Outcome (G : Graph ι) (direct : ι → List μ) (s : State ι μ) : Prop where
  ended : s.waiting = []
  remaining : ∀ v ∈ G.vertices, s.remaining v ≤ 0 ↔ G.Grounded v
  unmarked : ∀ v ∈ G.vertices, G.Grounded v →
    (s.marks v = [] ↔ ∀ k, ReflTransGen G.Needs v k → direct k = [])

theorem run_outcome [DecidableEq ι] (G : Graph ι) (direct : ι → List μ) (mark : μ) :
    Outcome G direct (run G mark G.vertices.length (initial G direct)) := by
  obtain ⟨done, hpeeled, hended⟩ := run_peeled mark G.vertices.length
    (initial_peeled G direct) (by simp)
  refine ⟨hended, ?_, ?_⟩
  · intro v hv
    have hready := hpeeled.ready v hv
    rw [hended, append_nil] at hready
    have hcounted := hpeeled.counted v hv
    rw [← acc_iff_grounded hv, ← hpeeled.done_iff hended hv, hready]
    omega
  · intro v hv hgrounded
    exact hpeeled.unmarked_iff hended hv ((acc_iff_grounded hv).mpr hgrounded)

end Peel
