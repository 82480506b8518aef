import HawkView.Lib.Runs
import HawkView.RateLimiting.FixedWindow

/-!
# What the counter refuses

A hit is refused when its own key has used up its window, and no key is allowed
more than two windows' worth in an interval as long as a window.
-/

namespace FixedWindow

open List Option

variable {windows : List (JsString × Window)}

theorem soonest_mem {key : JsString} (h : (soonest windows).map Prod.fst = some key) :
    key ∈ windows.map Prod.fst := by
  have hheld : ∀ found : JsString × Int, soonest windows = some found →
      found.1 ∈ windows.map Prod.fst := by
    refine Runs.foldl_carries (P := fun es best => ∀ found : JsString × Int, best = some found →
      found.1 ∈ es.map Prod.fst) (by simp) (fun es e best ih found hfound => ?_) windows
    rw [map_append, mem_append]
    cases best with
    | none =>
      cases hfound
      exact .inr (mem_singleton_self _)
    | some best =>
      simp only at hfound
      split at hfound
      · cases hfound
        exact .inr (mem_singleton_self _)
      · cases hfound
        exact .inl (ih _ rfl)
  obtain ⟨found, hfound, rfl⟩ := map_eq_some_iff.mp h
  exact hheld found hfound

theorem soonest_some (h : windows ≠ []) :
    ∃ key, (soonest windows).map Prod.fst = some key := by
  have hnone : soonest windows = none → windows = [] := by
    refine Runs.foldl_carries (P := fun es best => best = none → es = []) (fun _ => rfl)
      (fun es e best _ hbest => ?_) windows
    cases best with
    | none => cases hbest
    | some best =>
      simp only at hbest
      split at hbest <;> cases hbest
  obtain ⟨found, hfound⟩ := ne_none_iff_exists'.mp (mt hnone h)
  exact ⟨found.1, by rw [hfound]; rfl⟩

namespace FixedWindowCounter

variable {c : FixedWindowCounter} {s : State} {h : Hit} {key : JsString} {w : Window}
  {hits : List Hit}

/-! ## One hit -/

theorem evicted_none {windows : JsMap JsString Window} (hnone : c.evicted windows = none) :
    windows.entries.length < c.maxKeys := by
  rw [evicted] at hnone
  split_ifs at hnone with hlt
  · exact hlt
  · have hne : windows.entries ≠ [] := by
      rintro hnil
      rw [hnil] at hlt
      exact hlt c.maxKeys_pos
    obtain ⟨found, hfound⟩ := soonest_some hne
    rw [hfound] at hnone
    cases hnone

theorem room_size (within : s.size ≤ c.maxKeys) (fresh : s.windows.get? h.key = none) :
    (c.room s h).size < c.maxKeys := by
  rw [room]
  split_ifs with hfull
  · have hswept : (swept s.windows h.at₀).entries.length ≤ s.size := length_filter_le _ _
    simp only [makeRoom]
    cases hout : c.evicted (swept s.windows h.at₀) with
    | none => exact evicted_none hout
    | some out =>
      have hmem : out ∈ (swept s.windows h.at₀).entries.map Prod.fst := by
        rw [evicted] at hout
        split_ifs at hout
        exact soonest_mem hout
      obtain ⟨e, he, hkey⟩ := mem_map.mp hmem
      refine lt_of_lt_of_le (List.length_filter_lt_length_iff_exists.mpr ⟨e, he, ?_⟩)
        (hswept.trans within)
      simp [hkey]
  · rw [full, fresh] at hfull
    simpa using hfull

theorem room_get (hget : (c.room s h).windows.get? key = some w) :
    s.windows.get? key = some w := by
  rw [room] at hget
  split_ifs at hget
  · simp only [makeRoom] at hget
    split at hget
    · exact (JsMap.get?_filter.mp hget).1
    · exact (JsMap.get?_filter.mp (JsMap.get?_filter.mp hget).1).1
  · exact hget

theorem room_keeps (hget : s.windows.get? key = some w) (live : h.at₀ < w.endsAtMs)
    (stays : c.evicts s h ≠ some key) : (c.room s h).windows.get? key = some w := by
  rw [room]
  rw [evicts] at stays
  split_ifs at stays ⊢
  · have hswept : (swept s.windows h.at₀).get? key = some w :=
      JsMap.get?_filter.mpr ⟨hget, by simpa using live⟩
    simp only [makeRoom]
    cases hout : c.evicted (swept s.windows h.at₀) with
    | none => exact hswept
    | some out =>
      refine JsMap.get?_filter.mpr ⟨hswept, ?_⟩
      rw [hout] at stays
      exact decide_eq_true fun heq => stays (congrArg some heq.symm)
  · exact hget

/-- A hit counts in the live window of its key, or opens one. -/
theorem hit_cases (c : FixedWindowCounter) (s : State) (h : Hit) :
    (∃ w, s.windows.get? h.key = some w ∧ h.at₀ < w.endsAtMs ∧
      c.hit s h = ({ s with windows := s.windows.set h.key ⟨w.count + 1, w.endsAtMs⟩ },
        c.stateOf ⟨w.count + 1, w.endsAtMs⟩ h.at₀)) ∨
    ((∀ w, s.windows.get? h.key = some w → w.endsAtMs ≤ h.at₀) ∧
      c.hit s h = (⟨(c.room s h).windows.set h.key ⟨1, h.at₀ + c.windowMs⟩,
        (c.room s h).liveEvictions⟩, c.stateOf ⟨1, h.at₀ + c.windowMs⟩ h.at₀)) := by
  unfold hit
  cases hget : s.windows.get? h.key with
  | none => exact .inr ⟨by simp, rfl⟩
  | some w =>
    by_cases live : h.at₀ < w.endsAtMs
    · refine .inl ⟨w, rfl, live, ?_⟩
      rw [filter_some, if_pos (decide_eq_true live)]
    · refine .inr ⟨fun v hv => ?_, ?_⟩
      · rw [← Option.some.inj hv]
        omega
      · rw [filter_some, if_neg (by simpa using live)]

theorem hit_size (within : s.size ≤ c.maxKeys) : (c.hit s h).1.size ≤ c.maxKeys := by
  obtain ⟨w, hget, -, hstep⟩ | ⟨-, hstep⟩ := hit_cases c s h
  · rw [hstep, State.size, JsMap.length_set, hget]
    exact within
  · rw [hstep, State.size, JsMap.length_set]
    cases hget : s.windows.get? h.key with
    | none =>
      have := room_size within hget
      simp only [State.size] at this
      split_ifs <;> omega
    | some w =>
      have hroom : c.room s h = s := by simp [room, full, hget]
      rw [hroom, hget]
      exact within

/-- A hit gives no window to another key. -/
theorem hit_other (hne : h.key ≠ key) (hget : (c.hit s h).1.windows.get? key = some w) :
    s.windows.get? key = some w := by
  obtain ⟨v, -, -, hstep⟩ | ⟨-, hstep⟩ := hit_cases c s h
  · rwa [hstep, JsMap.get?_set, if_neg hne] at hget
  · rw [hstep, JsMap.get?_set, if_neg hne] at hget
    exact room_get hget

theorem hit_keeps (hne : h.key ≠ key) (hget : s.windows.get? key = some w)
    (live : h.at₀ < w.endsAtMs) (stays : c.evicts s h ≠ some key) :
    (c.hit s h).1.windows.get? key = some w := by
  obtain ⟨v, -, -, hstep⟩ | ⟨-, hstep⟩ := hit_cases c s h
  · rwa [hstep, JsMap.get?_set, if_neg hne]
  · rw [hstep, JsMap.get?_set, if_neg hne]
    exact room_keeps hget live stays

theorem after_size (c : FixedWindowCounter) (hits : List Hit) :
    (c.after hits).size ≤ c.maxKeys := by
  induction hits using reverseRecOn with
  | nil => exact Nat.zero_le _
  | append_singleton hits h ih =>
    rw [after_append]
    exact hit_size ih

/-! ## The current window -/

theorem Opened.more {opening : Hit} {later : List Hit} (o : c.Opened hits key w opening later)
    {n : Nat} (count : n = w.count + if h.key = key then 1 else 0) :
    c.Opened (hits ++ [h]) key ⟨n, w.endsAtMs⟩ opening (later ++ [h]) where
  split := by
    obtain ⟨earlier, hsplit, hover⟩ := o.split
    exact ⟨earlier, by rw [hsplit, append_assoc, cons_append], hover⟩
  opens := o.opens
  ends := o.ends
  count := by
    rw [count, o.count, ← cons_append, countP_append, countP_singleton]
    simp only [decide_eq_true_eq]

/-- Whatever window a key has, one of its hits opened it and the later ones are counted. -/
theorem opened (c : FixedWindowCounter) (hits : List Hit) :
    ∀ {key : JsString} {w : Window}, (c.after hits).windows.get? key = some w →
      ∃ opening later, c.Opened hits key w opening later := by
  induction hits using reverseRecOn with
  | nil => exact fun hget => by cases hget
  | append_singleton hits h ih =>
    intro key w hget
    rw [after_append] at hget
    by_cases hkey : h.key = key
    · subst hkey
      obtain ⟨v, hheld, -, hstep⟩ | ⟨hover, hstep⟩ := hit_cases c (c.after hits) h
      · rw [hstep, JsMap.get?_set, if_pos rfl] at hget
        obtain ⟨opening, later, o⟩ := ih hheld
        cases hget
        exact ⟨opening, later ++ [h], o.more (by rw [if_pos rfl])⟩
      · rw [hstep, JsMap.get?_set, if_pos rfl] at hget
        cases hget
        exact ⟨h, [], ⟨hits, rfl, hover⟩, rfl, rfl, by simp⟩
    · obtain ⟨opening, later, o⟩ := ih (hit_other hkey hget)
      exact ⟨opening, later ++ [h], o.more (by rw [if_neg hkey, Nat.add_zero])⟩

/-- A hit whose key has made more than `limit` hits in its current window. -/
structure Overran (c : FixedWindowCounter) (hits : List Hit) (h opening : Hit)
    (later : List Hit) : Prop where
  current : ∃ w, (c.after hits).windows.get? h.key = some w ∧ c.Opened hits h.key w opening later
  within : ∀ x ∈ opening :: later ++ [h],
    opening.at₀ ≤ x.at₀ ∧ x.at₀ < opening.at₀ + c.windowMs
  many : c.limit < (opening :: later ++ [h]).countP fun x => x.key = h.key

theorem refused_overran (clock : ((hits ++ [h]).map Hit.at₀).Pairwise (· ≤ ·))
    (refused : (c.told hits h).allowed = false) :
    ∃ opening later, c.Overran hits h opening later := by
  rw [told] at refused
  obtain ⟨w, hget, live, hstep⟩ | ⟨-, hstep⟩ := hit_cases c (c.after hits) h
  · obtain ⟨opening, later, o⟩ := opened c hits hget
    have hends := o.ends
    have hcount := o.count
    obtain ⟨earlier, hsplit, -⟩ := o.split
    rw [hstep] at refused
    refine ⟨opening, later, ⟨w, hget, o⟩, fun x hx => ?_, ?_⟩
    · rw [hsplit, append_assoc, map_append, pairwise_append] at clock
      have hsorted := pairwise_map.mp clock.2.1
      have hlast := (pairwise_append.mp hsorted).2.2
      rcases mem_append.mp hx with hwindow | hlate
      · have hbefore := hlast x hwindow h (mem_singleton_self h)
        rcases mem_cons.mp hwindow with rfl | hlater
        · omega
        · have := (pairwise_cons.mp (pairwise_append.mp hsorted).1).1 x hlater
          omega
      · rw [mem_singleton.mp hlate]
        have := hlast opening mem_cons_self h (mem_singleton_self h)
        omega
    · simp only [stateOf, decide_eq_false_iff_not, not_le] at refused
      rw [countP_append, ← hcount, countP_singleton, if_pos (decide_eq_true rfl)]
      exact refused
  · rw [hstep] at refused
    simp only [stateOf, decide_eq_false_iff_not, not_le] at refused
    have := c.limit_pos
    omega

/-! ## What a key is allowed -/

open PacedTimes

/-- The last window of a key opened at `start`. -/
structure Tracks (c : FixedWindowCounter) (hits : List Hit) (key : JsString) (start : Int) :
    Prop where
  paced : Paced c.windowMs c.limit start (c.allowedAt hits key)
  opened : ∃ h ∈ hits, start ≤ h.at₀
  held : ∀ w, (c.after hits).windows.get? key = some w →
    w.endsAtMs = start + c.windowMs ∧ (c.allowedAt hits key).countP (start ≤ ·) ≤ w.count
  gone : (c.after hits).windows.get? key = none → ∃ h ∈ hits, start + c.windowMs ≤ h.at₀

/-- No hit of the key yet, or a last window. -/
def Tracked (c : FixedWindowCounter) (hits : List Hit) (key : JsString) : Prop :=
  (c.allowedAt hits key = [] ∧ (c.after hits).windows.get? key = none) ∨
    ∃ start, c.Tracks hits key start

theorem tracked_other (hne : h.key ≠ key) (stays : c.evicts (c.after hits) h ≠ some key)
    (tracked : c.Tracked hits key) : c.Tracked (hits ++ [h]) key := by
  have hallowed : c.allowedAt (hits ++ [h]) key = c.allowedAt hits key := by
    rw [allowedAt_append, if_neg fun hboth => hne hboth.1, append_nil]
  rcases tracked with ⟨hnone, hfree⟩ | ⟨start, t⟩
  · refine .inl ⟨hallowed.trans hnone, ?_⟩
    rw [after_append]
    cases hget : (c.hit (c.after hits) h).1.windows.get? key with
    | none => rfl
    | some w =>
      rw [hit_other hne hget] at hfree
      cases hfree
  · refine .inr ⟨start, by rw [hallowed]; exact t.paced, ?_, fun w hget => ?_, fun hget => ?_⟩
    · obtain ⟨x, hx, hle⟩ := t.opened
      exact ⟨x, mem_append_left _ hx, hle⟩
    · rw [after_append] at hget
      rw [hallowed]
      exact t.held w (hit_other hne hget)
    · rw [after_append] at hget
      cases hold : (c.after hits).windows.get? key with
      | none =>
        obtain ⟨x, hx, hle⟩ := t.gone hold
        exact ⟨x, mem_append_left _ hx, hle⟩
      | some w =>
        refine ⟨h, mem_append_right _ (mem_singleton_self h), ?_⟩
        rw [← (t.held w hold).1]
        by_contra live
        rw [hit_keeps hne hold (not_le.mp live) stays] at hget
        cases hget

theorem tracked_own (later : ∀ x ∈ hits, x.at₀ ≤ h.at₀) (tracked : c.Tracked hits h.key) :
    c.Tracked (hits ++ [h]) h.key := by
  have hlast : h ∈ hits ++ [h] := mem_append_right _ (mem_singleton_self h)
  obtain ⟨w, hget, live, hstep⟩ | ⟨hover, hstep⟩ := hit_cases c (c.after hits) h
  · obtain ⟨start, t⟩ := tracked.resolve_left fun hnone => by
      rw [hget] at hnone
      cases hnone.2
    obtain ⟨hends, hcount⟩ := t.held w hget
    obtain ⟨x, hx, hle⟩ := t.opened
    have hopened : start ≤ h.at₀ := hle.trans (later x hx)
    have hafter : (c.after (hits ++ [h])).windows.get? h.key =
        some ⟨w.count + 1, w.endsAtMs⟩ := by
      rw [after_append, hstep, JsMap.get?_set, if_pos rfl]
    have htold : (c.told hits h).allowed = decide (w.count + 1 ≤ c.limit) := by
      rw [told, hstep]
      rfl
    refine .inr ⟨start, ?_, ⟨h, hlast, hopened⟩, fun v hv => ?_, fun hnone => ?_⟩
    · rw [allowedAt_append]
      split_ifs with hallowed
      · rw [htold, decide_eq_true_eq] at hallowed
        exact t.paced.grows hopened (by omega) (by omega)
      · rw [append_nil]
        exact t.paced
    · rw [hafter] at hv
      cases hv
      refine ⟨hends, ?_⟩
      rw [allowedAt_append, countP_append]
      have hone : (if h.key = h.key ∧ (c.told hits h).allowed = true then [h.at₀] else
          []).countP (fun t => decide (start ≤ t)) ≤ 1 := by
        split_ifs
        · exact countP_le_length
        · exact Nat.zero_le 1
      exact Nat.add_le_add hcount hone
    · rw [hafter] at hnone
      cases hnone
  · have hafter : (c.after (hits ++ [h])).windows.get? h.key =
        some ⟨1, h.at₀ + c.windowMs⟩ := by
      rw [after_append, hstep, JsMap.get?_set, if_pos rfl]
    have hallowed : c.allowedAt (hits ++ [h]) h.key = c.allowedAt hits h.key ++ [h.at₀] := by
      have htold : (c.told hits h).allowed = true := by
        rw [told, hstep]
        exact decide_eq_true c.limit_pos
      rw [allowedAt_append, if_pos ⟨rfl, htold⟩]
    have hpositive : (0 : Int) < c.windowMs := by exact_mod_cast c.windowMs_pos
    have hfresh : Paced c.windowMs c.limit h.at₀ (c.allowedAt hits h.key ++ [h.at₀]) ∧
        (c.allowedAt hits h.key).countP (h.at₀ ≤ ·) = 0 := by
      rcases tracked with ⟨hnone, -⟩ | ⟨start, t⟩
      · rw [hnone]
        exact ⟨paced_single hpositive c.limit_pos, rfl⟩
      · have hended : start + c.windowMs ≤ h.at₀ := by
          cases hold : (c.after hits).windows.get? h.key with
          | none =>
            obtain ⟨x, hx, hle⟩ := t.gone hold
            exact hle.trans (later x hx)
          | some w =>
            rw [← (t.held w hold).1]
            exact hover w hold
        exact ⟨t.paced.opens hpositive c.limit_pos hended, t.paced.none_after hended⟩
    refine .inr ⟨h.at₀, by rw [hallowed]; exact hfresh.1, ⟨h, hlast, le_refl _⟩, fun v hv => ?_,
      fun hnone => ?_⟩
    · rw [hafter] at hv
      cases hv
      refine ⟨rfl, ?_⟩
      rw [hallowed, countP_append, hfresh.2, Nat.zero_add]
      exact countP_le_length
    · rw [hafter] at hnone
      cases hnone

theorem tracked_run (clock : (hits.map Hit.at₀).Pairwise (· ≤ ·))
    (stays : c.NeverEvicted hits key) : c.Tracked hits key := by
  induction hits using reverseRecOn with
  | nil => exact .inl ⟨rfl, rfl⟩
  | append_singleton hits h ih =>
    rw [map_append, pairwise_append] at clock
    have tracked := ih clock.1 fun before x hx =>
      stays before x (hx.trans (prefix_append hits [h]))
    by_cases hkey : h.key = key
    · subst hkey
      refine tracked_own (fun x hx => ?_) tracked
      exact clock.2.2 _ (mem_map_of_mem hx) _ (mem_singleton_self _)
    · exact tracked_other hkey (stays hits h (prefix_refl _)) tracked

/-- Over every sequence of hits, the counter keeps to its cap, refuses only a key that has used
up its window, and lets no key that stays tracked exceed two windows. -/
theorem hits_bounded (c : FixedWindowCounter) (hits : List Hit)
    (clock : (hits.map Hit.at₀).Pairwise (· ≤ ·)) :
    (∀ before, before <+: hits → (c.after before).size ≤ c.maxKeys) ∧
    (∀ before h, before ++ [h] <+: hits → (c.told before h).allowed = false →
      ∃ opening later, c.Overran before h opening later) ∧
    ∀ key, c.NeverEvicted hits key → ∀ from₀ : Int,
      (c.allowedAt hits key).countP (fun t => from₀ ≤ t ∧ t ≤ from₀ + c.windowMs) ≤
        2 * c.limit := by
  refine ⟨fun before _ => after_size c before, fun before h hbegins refused => ?_,
    fun key stays from₀ => ?_⟩
  · exact refused_overran (clock.sublist (hbegins.sublist.map _)) refused
  · rcases tracked_run clock stays with ⟨hnone, -⟩ | ⟨start, t⟩
    · rw [hnone]
      exact Nat.zero_le _
    · exact t.paced.anywhere from₀

/-! ## Other keys -/

section

variable {s' : State} {t : Int}

/-- The window of a key, where it has not ended. -/
def live (s : State) (key : JsString) (t : Int) : Option Window :=
  (s.windows.get? key).filter fun w => t < w.endsAtMs

theorem live_some {w : Window} :
    live s key t = some w ↔ s.windows.get? key = some w ∧ t < w.endsAtMs := by
  rw [live, Option.filter_eq_some_iff, decide_eq_true_eq]

/-- A hit only looks at the live window of its key. -/
theorem hit_live (same : live s h.key h.at₀ = live s' h.key h.at₀) :
    (c.hit s h).2 = (c.hit s' h).2 ∧
      live (c.hit s h).1 h.key t = live (c.hit s' h).1 h.key t := by
  simp only [live] at same
  simp only [hit, live, same]
  split
  · simp only [JsMap.get?_set, if_true, and_self]
  · simp only [JsMap.get?_set, if_true, and_self]

theorem live_other (hne : h.key ≠ key) (stays : c.evicts s h ≠ some key) (past : h.at₀ ≤ t) :
    live (c.hit s h).1 key t = live s key t := by
  ext w
  rw [live_some, live_some]
  constructor
  · rintro ⟨hget, hlive⟩
    exact ⟨hit_other hne hget, hlive⟩
  · rintro ⟨hget, hlive⟩
    exact ⟨hit_keeps hne hget (by omega) stays, hlive⟩

theorem live_alone (clock : (hits.map Hit.at₀).Pairwise (· ≤ ·)) (stays : c.NeverEvicted hits key)
    (past : ∀ x ∈ hits, x.at₀ ≤ t) :
    live (c.after hits) key t = live (c.after (hits.filter fun x => x.key = key)) key t := by
  induction hits using reverseRecOn generalizing t with
  | nil => rfl
  | append_singleton hits h ih =>
    rw [map_append, pairwise_append] at clock
    have before : ∀ x ∈ hits, x.at₀ ≤ h.at₀ := fun x hx =>
      clock.2.2 _ (mem_map_of_mem hx) _ (by simp)
    have hlast : h.at₀ ≤ t := past h (by simp)
    have alone {t : Int} := @ih t clock.1
      fun earlier x hx => stays earlier x (hx.trans (prefix_append _ _))
    rw [after_append, filter_append]
    by_cases hkey : h.key = key
    · subst hkey
      rw [filter_singleton, decide_eq_true rfl, cond_true, after_append]
      exact (hit_live (alone before)).2
    · rw [filter_singleton, decide_eq_false hkey, cond_false, append_nil,
        live_other hkey (stays hits h (prefix_refl _)) hlast]
      exact alone fun x hx => (before x hx).trans hlast

/-- What the counter says of a key is what it would say were there no other keys. -/
theorem told_alone (c : FixedWindowCounter) (hits : List Hit) (h : Hit)
    (clock : ((hits ++ [h]).map Hit.at₀).Pairwise (· ≤ ·)) (stays : c.NeverEvicted hits h.key) :
    c.told hits h = c.told (hits.filter fun x => x.key = h.key) h := by
  rw [map_append, pairwise_append] at clock
  have before : ∀ x ∈ hits, x.at₀ ≤ h.at₀ := fun x hx =>
    clock.2.2 _ (mem_map_of_mem hx) _ (by simp)
  exact (hit_live (t := h.at₀) (live_alone clock.1 stays before)).1

end

/-! ## A key at the edge of its window -/

def sampleCounter : FixedWindowCounter := ⟨1, 60000, 2, by decide, by decide, by decide⟩

/-- The last hit comes when the window has ended. -/
def sampleHits : List Hit := [⟨js "a", 0⟩, ⟨js "a", 59999⟩, ⟨js "a", 60000⟩]

theorem sampleHits_stay : sampleCounter.NeverEvicted sampleHits (js "a") := by
  rintro before h ⟨rest, hsplit⟩
  rcases before with _ | ⟨x, _ | ⟨y, _ | ⟨z, before⟩⟩⟩ <;>
    simp only [sampleHits, nil_append, cons_append, List.cons.injEq] at hsplit
  · obtain ⟨rfl, -⟩ := hsplit
    decide
  · obtain ⟨rfl, rfl, -⟩ := hsplit
    decide
  · obtain ⟨rfl, rfl, rfl, -⟩ := hsplit
    decide
  · simp at hsplit

theorem hits_bounded_sample :
    sampleCounter.allowedAt sampleHits (js "a") = [0, 60000] ∧
    (sampleCounter.allowedAt sampleHits (js "a")).countP (fun t => 0 ≤ t ∧ t ≤ 0 + 60000) ≤ 2 ∧
    ∃ opening later, sampleCounter.Overran [⟨js "a", 0⟩] ⟨js "a", 59999⟩ opening later := by
  have bounded := hits_bounded sampleCounter sampleHits (by decide)
  refine ⟨by decide, bounded.2.2 _ sampleHits_stay 0, bounded.2.1 _ _ ?_ (by decide)⟩
  exact ⟨[⟨js "a", 60000⟩], rfl⟩

/-- The one request of `b` does not count against `a`. -/
theorem told_alone_sample :
    (sampleCounter.told [⟨js "b", 0⟩] ⟨js "a", 1⟩).allowed = true ∧
    sampleCounter.told [⟨js "b", 0⟩] ⟨js "a", 1⟩ = sampleCounter.told [] ⟨js "a", 1⟩ := by
  refine ⟨by decide, told_alone sampleCounter [⟨js "b", 0⟩] ⟨js "a", 1⟩ (by decide) ?_⟩
  rintro before x ⟨rest, hsplit⟩
  rcases before with _ | ⟨y, _ | ⟨z, before⟩⟩
  · cases hsplit
    decide
  · cases hsplit
  · cases hsplit

end FixedWindowCounter

end FixedWindow
