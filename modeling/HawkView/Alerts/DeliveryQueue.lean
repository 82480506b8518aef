import HawkView.Alerts.RoutingLimit

/-!
# The limit as a queue

The deliveries of one organization and tier form a lane. A tick takes a front
part of every lane, the lanes of more urgent tiers first, and keeps the rest.
-/

namespace DeliveryQueue

open RoutingLimit SendTables StableOrder List

variable {toISOString : Millis → JsString} {carriedOver arriving all : List Delivery}
  {policy : LimitPolicy}

/-- Its cause is one of those carried over. -/
def carried (carriedOver : List Delivery) (d : Delivery) : Bool :=
  decide (d.causeKey ∈ carriedIds carriedOver)

def isTier (tier : RoutingTier) (d : Delivery) : Bool := decide (d.tier = tier)

def rank (carriedOver : List Delivery) (d : Delivery) : Nat :=
  2 * URGENCY d.tier + if carried carriedOver d then 0 else 1

theorem compare_iff (carriedOver : List Delivery) (left right : Delivery) :
    compareDeliveries carriedOver left right ≤ 0 ↔
      rank carriedOver left ≤ rank carriedOver right := by
  simp only [compareDeliveries, rank, carried, number]
  by_cases hl : left.causeKey ∈ carriedIds carriedOver <;>
    by_cases hr : right.causeKey ∈ carriedIds carriedOver <;>
    simp only [hl, hr, decide_true, decide_false, if_true, Bool.false_eq_true, if_false] <;>
    split_ifs <;> omega

theorem ordered_eq (carriedOver all : List Delivery) :
    ordered carriedOver all = sortOn (rank carriedOver) all := by
  unfold ordered sortOn
  congr!
  exact compare_iff carriedOver _ _

theorem ordered_sorted (carriedOver all : List Delivery) :
    (ordered carriedOver all).Pairwise fun a b => rank carriedOver a ≤ rank carriedOver b := by
  rw [ordered_eq]
  exact sortOn_sorted _ _

theorem ordered_perm (carriedOver all : List Delivery) : (ordered carriedOver all).Perm all :=
  perm_insertionSort _ _

theorem urgency_inj {s t : RoutingTier} (h : URGENCY s = URGENCY t) : s = t := by
  cases s <;> cases t <;> first | rfl | cases h

/-- Within a tier, nothing precedes what was carried over but what was carried over. -/
theorem sorted_tier {l : List Delivery}
    (h : l.Pairwise fun a b => rank carriedOver a ≤ rank carriedOver b) (tier : RoutingTier) :
    (l.filter (isTier tier)).Pairwise fun a b => carried carriedOver b → carried carriedOver a := by
  refine ((h.sublist filter_sublist).imp_of_mem ?_)
  intro a b ha hb hle hcarried
  have hta : a.tier = tier := by simpa [isTier] using (mem_filter.mp ha).2
  have htb : b.tier = tier := by simpa [isTier] using (mem_filter.mp hb).2
  by_contra hnot
  simp only [rank, hta, htb, hcarried, if_true, if_neg hnot] at hle
  omega

/-- A tier has two ranks, one for what was carried over and one for what just arrived. -/
theorem rank_block (tier : RoutingTier) (old : Bool) (d : Delivery) :
    ((carried carriedOver d == old) && isTier tier d) =
      decide (rank carriedOver d = 2 * URGENCY tier + if old then 0 else 1) := by
  by_cases ht : d.tier = tier
  · cases old <;> by_cases hc : carried carriedOver d <;> simp [rank, isTier, ht, hc]
  · have hne : URGENCY d.tier ≠ URGENCY tier := fun h => ht (urgency_inj h)
    have hrank : ¬ rank carriedOver d = 2 * URGENCY tier + if old then 0 else 1 := by
      unfold rank
      split_ifs <;> omega
    simp [isTier, ht, hrank]

theorem filter_block (carriedOver all : List Delivery) (tier : RoutingTier) (old : Bool) :
    ((ordered carriedOver all).filter (isTier tier)).filter
      (fun d => carried carriedOver d == old) =
      (all.filter (isTier tier)).filter fun d => carried carriedOver d == old := by
  simp only [filter_filter, rank_block, ordered_eq]
  exact filter_sortOn _ _ _

/-- The order of one tier: what was carried over, then what just arrived, each as it stood. -/
theorem ordered_tier (carriedOver all : List Delivery) (tier : RoutingTier) :
    (ordered carriedOver all).filter (isTier tier) =
      (all.filter (isTier tier)).filter (carried carriedOver) ++
        (all.filter (isTier tier)).filter fun d => !carried carriedOver d := by
  have hcarried := filter_block carriedOver all tier true
  have hfresh := filter_block carriedOver all tier false
  simp only [beq_true, beq_false] at hcarried hfresh
  rw [← hcarried, ← hfresh]
  exact split_sorted (sorted_tier (ordered_sorted carriedOver all) tier)

theorem going_tier (carriedOver : List Delivery) (policy : LimitPolicy) (all : List Delivery)
    (tier : RoutingTier) :
    (goingNow carriedOver policy all).filter (isTier tier) =
      (drained carriedOver policy all).filter (isTier tier) ++
        (fresh carriedOver policy all).filter (isTier tier) := by
  have hsorted := (ordered_sorted carriedOver all).sublist (take_sublist policy.room _)
  have hsplit := split_sorted (sorted_tier hsorted tier)
  rw [filter_comm, filter_comm (fun d => !carried carriedOver d)] at hsplit
  exact hsplit

/-! ## One organization -/

/-- The delivery without its timing, which tells only whether it was withheld. -/
def body (d : Delivery) : Delivery := { d with timing := .immediate }

theorem filter_withheld (carriedOver : List Delivery) (policy : LimitPolicy)
    (all : List Delivery) (tier : RoutingTier) :
    ((withheldOf carriedOver policy all).filter (isTier tier)).map body =
      (((ordered carriedOver all).drop policy.room).filter (isTier tier)).map body := by
  rw [withheldOf, filter_map, List.map_map]
  rfl

/-- What arrives, that of a cause carried over before the rest. -/
def arranged (carriedOver arriving : List Delivery) : List Delivery :=
  arriving.filter (carried carriedOver) ++ arriving.filter fun d => !carried carriedOver d

def ofOrganization (organizationId : JsString) (d : Delivery) : Bool :=
  decide (d.organizationId = organizationId)

/-- The lane of a tier of an organization, apart from timing. -/
def lane (organizationId : JsString) (tier : RoutingTier) (l : List Delivery) : List Delivery :=
  ((l.filter (ofOrganization organizationId)).filter (isTier tier)).map body

theorem lane_append (organizationId : JsString) (tier : RoutingTier) (l m : List Delivery) :
    lane organizationId tier (l ++ m) = lane organizationId tier l ++ lane organizationId tier m := by
  simp [lane]

variable {d : Delivery}

/-- What is carried over is of a cause carried over. -/
theorem carried_of_mem (h : d ∈ carriedOver) : carried carriedOver d = true := by
  rw [carried, carriedIds, decide_eq_true_eq]
  exact mem_map_of_mem h

theorem filter_carriedOver (carriedOver : List Delivery) (p : Delivery → Bool) :
    (carriedOver.filter p).filter (carried carriedOver) = carriedOver.filter p := by
  rw [filter_eq_self]
  intro d hd
  exact carried_of_mem (mem_filter.mp hd).1

theorem filter_notCarried (carriedOver : List Delivery) (p : Delivery → Bool) :
    (carriedOver.filter p).filter (fun d => !carried carriedOver d) = [] := by
  rw [filter_eq_nil_iff]
  intro d hd
  simp [carried_of_mem (mem_filter.mp hd).1]

theorem filter_lane (p q r : Delivery → Bool) (l : List Delivery) :
    ((l.filter p).filter q).filter r = ((l.filter q).filter r).filter p := by
  rw [filter_comm q p l, filter_comm r p]

/-- The tick of one organization and tier: a front part goes, the rest is withheld. -/
theorem group_lane (policy : LimitPolicy) (organizationId : JsString) (tier : RoutingTier)
    (hall : all = (carriedOver ++ arriving).filter (ofOrganization organizationId)) :
    ((drained carriedOver policy all ++ fresh carriedOver policy all).filter (isTier tier)).map body
        ++ ((withheldOf carriedOver policy all).filter (isTier tier)).map body =
      lane organizationId tier carriedOver ++
        lane organizationId tier (arranged carriedOver arriving) := by
  rw [filter_withheld, filter_append, ← going_tier, ← map_append, goingNow,
    ← filter_append, take_append_drop, ordered_tier, hall, ← lane_append]
  unfold lane
  congr 1
  have hkeep := filter_carriedOver carriedOver
    fun d => isTier tier d && ofOrganization organizationId d
  have hnone := filter_notCarried carriedOver
    fun d => isTier tier d && ofOrganization organizationId d
  rw [← filter_filter] at hkeep hnone
  simp only [arranged, filter_append, hkeep, hnone, nil_append, append_assoc]
  rw [filter_lane (carried carriedOver), filter_lane fun d => !carried carriedOver d]

/-! ## One tick -/

/-- The deliveries of an organization at a tick. -/
def groupOf (carriedOver arriving : List Delivery) (organizationId : JsString) : List Delivery :=
  (carriedOver ++ arriving).filter (ofOrganization organizationId)

theorem mem_group {g : JsString × List Delivery}
    (hg : g ∈ grouped Delivery.organizationId (carriedOver ++ arriving)) (hd : d ∈ g.2) :
    d.organizationId = g.1 := by
  rw [(grouped_groups Delivery.organizationId _).members g hg] at hd
  simpa using (mem_filter.mp hd).2

theorem going_mem (h : d ∈ goingNow carriedOver policy all) : d ∈ all :=
  (ordered_perm carriedOver all).mem_iff.mp (mem_of_mem_take h)

theorem withheld_mem (h : d ∈ withheldOf carriedOver policy all) :
    ∃ e ∈ (ordered carriedOver all).drop policy.room, e ∈ all ∧
      d = limitedDelivery policy (ordered carriedOver all).length e := by
  obtain ⟨e, he, rfl⟩ := mem_map.mp h
  exact ⟨e, he, (ordered_perm carriedOver all).mem_iff.mp (mem_of_mem_drop he), rfl⟩

theorem foldl_members (into : Aggregate) (l : List Delivery) :
    (l.foldl fold into).members = into.members ++ l := by
  induction l generalizing into with
  | nil => simp
  | cons d l ih =>
    rw [foldl_cons, ih, fold, append_assoc]
    rfl

theorem released_members (tickAt : Millis) (group : JsString × List Delivery) :
    (releasedBacklog toISOString carriedOver policy tickAt group).flatMap Aggregate.members =
      drained carriedOver policy group.2 := by
  unfold releasedBacklog
  split
  · simp [foldl_members]
  · rename_i hempty
    rw [length_pos_iff, not_not] at hempty
    rw [hempty]
    rfl

theorem empty_group (carriedOver : List Delivery) (policy : LimitPolicy) :
    drained carriedOver policy [] = [] ∧ fresh carriedOver policy [] = [] ∧
      withheldOf carriedOver policy [] = [] := by
  simp [drained, fresh, withheldOf, goingNow, ordered]

variable {tickAt : Millis}

section

variable (organizationId : JsString)
include organizationId

/-- What goes out of one organization. -/
theorem going_organization :
    ((applyLimit toISOString carriedOver arriving policy tickAt).goingOut).filter
        (ofOrganization organizationId) =
      drained carriedOver policy (groupOf carriedOver arriving organizationId) ++
        fresh carriedOver policy (groupOf carriedOver arriving organizationId) := by
  obtain ⟨hdrained, hfresh, _⟩ := empty_group carriedOver policy
  rw [LimitOutcome.goingOut, filter_append, applyLimit, flatMap_assoc]
  simp only [released_members]
  congr 1
  · exact filter_flatMap_grouped (g := fun group => drained carriedOver policy group.2)
      (fun g hg d hd => mem_group hg (going_mem (mem_filter.mp hd).1)) _ hdrained
  · exact filter_flatMap_grouped (g := fun group => fresh carriedOver policy group.2)
      (fun g hg d hd => mem_group hg (going_mem (mem_filter.mp hd).1)) _ hfresh

theorem withheld_organization :
    ((applyLimit toISOString carriedOver arriving policy tickAt).withheld).filter
        (ofOrganization organizationId) =
      withheldOf carriedOver policy (groupOf carriedOver arriving organizationId) := by
  refine filter_flatMap_grouped (g := fun group => withheldOf carriedOver policy group.2)
    (fun g hg d hd => ?_) _ (empty_group carriedOver policy).2.2
  obtain ⟨e, _, he, rfl⟩ := withheld_mem hd
  exact mem_group (d := e) hg he

/-- A tick of a lane: what goes out and then what is withheld is what was carried
over and then what arrived. -/
theorem tick_lane (tier : RoutingTier) :
    lane organizationId tier
        (applyLimit toISOString carriedOver arriving policy tickAt).goingOut ++
      lane organizationId tier
        (applyLimit toISOString carriedOver arriving policy tickAt).withheld =
      lane organizationId tier carriedOver ++
        lane organizationId tier (arranged carriedOver arriving) := by
  rw [lane, going_organization, lane, withheld_organization]
  exact group_lane policy organizationId tier rfl

/-- At most the limit of an organization goes out. -/
theorem tick_limited :
    ((((applyLimit toISOString carriedOver arriving policy tickAt).goingOut).filter
      (ofOrganization organizationId)).length : Int) ≤ max 0 policy.perOrganizationPerTick := by
  have hgoing := (filter_append_perm (carried carriedOver)
    (goingNow carriedOver policy (groupOf carriedOver arriving organizationId))).length_eq
  have htake := length_take_le policy.room
    (ordered carriedOver (groupOf carriedOver arriving organizationId))
  rw [going_organization]
  have hroom : (policy.room : Int) = max 0 policy.perOrganizationPerTick := by
    rw [LimitPolicy.room]
    omega
  have hle : (drained carriedOver policy (groupOf carriedOver arriving organizationId) ++
      fresh carriedOver policy (groupOf carriedOver arriving organizationId)).length ≤
      policy.room := by
    exact hgoing.le.trans htake
  omega

end

/-- Nothing is withheld while a less urgent delivery of its organization goes out. -/
theorem tick_urgent {w : Delivery}
    (hw : w ∈ (applyLimit toISOString carriedOver arriving policy tickAt).withheld)
    (hd : d ∈ (applyLimit toISOString carriedOver arriving policy tickAt).goingOut)
    (h : d.organizationId = w.organizationId) : URGENCY d.tier ≤ URGENCY w.tier := by
  have hw' : w ∈ ((applyLimit toISOString carriedOver arriving policy tickAt).withheld).filter
      (ofOrganization w.organizationId) := mem_filter.mpr ⟨hw, by simp [ofOrganization]⟩
  have hd' : d ∈ ((applyLimit toISOString carriedOver arriving policy tickAt).goingOut).filter
      (ofOrganization w.organizationId) := mem_filter.mpr ⟨hd, by simp [ofOrganization, h]⟩
  rw [withheld_organization] at hw'
  rw [going_organization] at hd'
  obtain ⟨e, he, _, heq⟩ := withheld_mem hw'
  have hgoing : d ∈ goingNow carriedOver policy
      (groupOf carriedOver arriving w.organizationId) := by
    rcases mem_append.mp hd' with hin | hin
    · exact (mem_filter.mp hin).1
    · exact (mem_filter.mp hin).1
  have hsorted := ordered_sorted carriedOver (groupOf carriedOver arriving w.organizationId)
  rw [← take_append_drop policy.room (ordered carriedOver
    (groupOf carriedOver arriving w.organizationId)), pairwise_append] at hsorted
  have hrank := hsorted.2.2 d hgoing e he
  have htier : w.tier = e.tier := by rw [heq, limitedDelivery]
  rw [htier]
  unfold rank at hrank
  split_ifs at hrank <;> omega

/-! ## Ticks in a row -/

/-- What arrives over the ticks, arranged by what each of them carries over. -/
def arrivals (toISOString : Millis → JsString) : List Delivery → List Tick → List Delivery
  | _, [] => []
  | carriedOver, tick :: rest =>
    arranged carriedOver tick.arriving ++ arrivals toISOString
      (applyLimit toISOString carriedOver tick.arriving tick.policy tick.tickAt).withheld rest

/-- Every lane is a queue: what goes out over the ticks, in order, and then the
backlog is what was carried over at first and then what arrived. -/
theorem lane_queue (carriedOver : List Delivery) (ticks : List Tick) (organizationId : JsString)
    (tier : RoutingTier) :
    lane organizationId tier
        ((outcomes toISOString carriedOver ticks).flatMap LimitOutcome.goingOut) ++
      lane organizationId tier (backlog toISOString carriedOver ticks) =
      lane organizationId tier carriedOver ++
        lane organizationId tier (arrivals toISOString carriedOver ticks) := by
  induction ticks generalizing carriedOver with
  | nil => simp [outcomes, backlog, arrivals, lane]
  | cons tick ticks ih =>
    simp only [outcomes, backlog, arrivals, flatMap_cons, lane_append, append_assoc]
    rw [ih, ← append_assoc, tick_lane, append_assoc]

theorem lane_cons (organizationId : JsString) (tier : RoutingTier) (d : Delivery)
    (l : List Delivery) : lane organizationId tier (d :: l) =
      if d.organizationId = organizationId ∧ d.tier = tier then body d :: lane organizationId tier l
      else lane organizationId tier l := by
  by_cases horg : d.organizationId = organizationId
  · by_cases htier : d.tier = tier <;> simp [lane, ofOrganization, isTier, horg, htier]
  · simp [lane, ofOrganization, horg]

/-- A delivery is counted in its own lane. -/
theorem count_lane (x : Delivery) (l : List Delivery) :
    (l.map body).count x = (lane x.organizationId x.tier l).count x := by
  induction l with
  | nil => rfl
  | cons d l ih =>
    rw [map_cons, count_cons, ih, lane_cons]
    by_cases hsame : d.organizationId = x.organizationId ∧ d.tier = x.tier
    · rw [if_pos hsame, count_cons]
    · have hne : ¬ body d = x := by
        rintro rfl
        exact hsame ⟨rfl, rfl⟩
      rw [if_neg hsame]
      simp [hne]

theorem arranged_perm (carriedOver arriving : List Delivery) :
    (arranged carriedOver arriving).Perm arriving :=
  filter_append_perm _ _

theorem arrivals_perm (carriedOver : List Delivery) (ticks : List Tick) :
    (arrivals toISOString carriedOver ticks).Perm (ticks.flatMap Tick.arriving) := by
  induction ticks generalizing carriedOver with
  | nil => exact .nil
  | cons tick ticks ih =>
    rw [arrivals, flatMap_cons]
    exact (arranged_perm _ _).append (ih _)

/-- Nothing is lost or doubled: the deliveries that went out and those still
withheld are those fed in, apart from timing. -/
theorem conserved (toISOString : Millis → JsString) (carriedOver : List Delivery)
    (ticks : List Tick) :
    (((outcomes toISOString carriedOver ticks).flatMap LimitOutcome.goingOut ++
      backlog toISOString carriedOver ticks).map body).Perm
        ((carriedOver ++ ticks.flatMap Tick.arriving).map body) := by
  have hqueue : (((outcomes toISOString carriedOver ticks).flatMap LimitOutcome.goingOut ++
      backlog toISOString carriedOver ticks).map body).Perm
        ((carriedOver ++ arrivals toISOString carriedOver ticks).map body) := by
    rw [perm_iff_count]
    intro x
    rw [count_lane, count_lane, lane_append, lane_append, lane_queue]
  exact hqueue.trans (((List.Perm.refl carriedOver).append (arrivals_perm _ ticks)).map body)

/-- An incident is told by what goes out at some tick, or is still withheld. -/
def Covered (toISOString : Millis → JsString) (carriedOver : List Delivery) (ticks : List Tick)
    (incidentKey : JsString) : Prop :=
  (∃ outcome ∈ outcomes toISOString carriedOver ticks,
    (∃ d ∈ outcome.sent, incidentKey ∈ d.incidentKeys) ∨
      ∃ aggregate ∈ outcome.released, incidentKey ∈ incidentsCoveredBy aggregate) ∨
  ∃ d ∈ backlog toISOString carriedOver ticks, incidentKey ∈ d.incidentKeys

variable {ticks : List Tick}

theorem covered {carriedOver : List Delivery} {incidentKey : JsString}
    (hd : d ∈ carriedOver ++ ticks.flatMap Tick.arriving) (hkey : incidentKey ∈ d.incidentKeys) :
    Covered toISOString carriedOver ticks incidentKey := by
  have hmem := (conserved toISOString carriedOver ticks).mem_iff.mpr
    (mem_map_of_mem (f := body) hd)
  obtain ⟨e, he, hbody⟩ := mem_map.mp hmem
  have hkeys : (body e).incidentKeys = (body d).incidentKeys := by rw [hbody]
  change e.incidentKeys = d.incidentKeys at hkeys
  rw [← hkeys] at hkey
  rcases mem_append.mp he with hout | hback
  · obtain ⟨outcome, hmem, hgoing⟩ := mem_flatMap.mp hout
    left
    refine ⟨outcome, hmem, ?_⟩
    rcases mem_append.mp hgoing with hreleased | hsent
    · obtain ⟨aggregate, hagg, hin⟩ := mem_flatMap.mp hreleased
      exact .inr ⟨aggregate, hagg, mem_flatMap.mpr ⟨e, hin, hkey⟩⟩
    · exact .inl ⟨e, hsent, hkey⟩
  · exact .inr ⟨e, hback, hkey⟩

/-! ## The law of the limit -/

theorem mem_outcomes {carriedOver : List Delivery} {pair : Tick × LimitOutcome}
    (h : pair ∈ ticks.zip (outcomes toISOString carriedOver ticks)) :
    ∃ before, pair.2 =
      applyLimit toISOString before pair.1.arriving pair.1.policy pair.1.tickAt := by
  induction ticks generalizing carriedOver with
  | nil => cases h
  | cons tick ticks ih =>
    rw [outcomes, zip_cons_cons] at h
    rcases mem_cons.mp h with rfl | h
    · exact ⟨carriedOver, rfl⟩
    · exact ih h

/-- What a sequence of ticks does. In a lane, deliveries go out in the order of
the ticks they arrive at, and those of one tick in their order but for the ones
whose cause is carried over already, which stand before the others. -/
structure LimitLaw (toISOString : Millis → JsString) (carriedOver : List Delivery)
    (ticks : List Tick) : Prop where
  conserved : (((outcomes toISOString carriedOver ticks).flatMap LimitOutcome.goingOut ++
    backlog toISOString carriedOver ticks).map body).Perm
      ((carriedOver ++ ticks.flatMap Tick.arriving).map body)
  covered : ∀ d ∈ carriedOver ++ ticks.flatMap Tick.arriving, ∀ incidentKey ∈ d.incidentKeys,
    Covered toISOString carriedOver ticks incidentKey
  limited : ∀ pair ∈ ticks.zip (outcomes toISOString carriedOver ticks), ∀ organizationId,
    ((pair.2.goingOut.filter (ofOrganization organizationId)).length : Int) ≤
      max 0 pair.1.policy.perOrganizationPerTick
  urgent : ∀ pair ∈ ticks.zip (outcomes toISOString carriedOver ticks), ∀ w ∈ pair.2.withheld,
    ∀ d ∈ pair.2.goingOut, d.organizationId = w.organizationId → URGENCY d.tier ≤ URGENCY w.tier
  queue : ∀ organizationId tier,
    lane organizationId tier
        ((outcomes toISOString carriedOver ticks).flatMap LimitOutcome.goingOut) ++
      lane organizationId tier (backlog toISOString carriedOver ticks) =
      lane organizationId tier carriedOver ++
        lane organizationId tier (arrivals toISOString carriedOver ticks)

theorem limit_law (toISOString : Millis → JsString) (carriedOver : List Delivery)
    (ticks : List Tick) : LimitLaw toISOString carriedOver ticks where
  conserved := conserved toISOString carriedOver ticks
  covered _ hd _ hkey := covered hd hkey
  limited pair h organizationId := by
    obtain ⟨before, heq⟩ := mem_outcomes h
    rw [heq]
    exact tick_limited organizationId
  urgent pair h w hw d hd horganization := by
    obtain ⟨before, heq⟩ := mem_outcomes h
    rw [heq] at hw hd
    exact tick_urgent hw hd horganization
  queue := lane_queue carriedOver ticks

/-- In each lane deliveries go out in the order of their arrival. -/
def ArrivalOrder (toISOString : Millis → JsString) (ticks : List Tick) : Prop :=
  ∀ organizationId tier,
    lane organizationId tier ((outcomes toISOString [] ticks).flatMap LimitOutcome.goingOut) ++
      lane organizationId tier (backlog toISOString [] ticks) =
      lane organizationId tier (ticks.flatMap Tick.arriving)

/-- A delivery with one incident, for a test. -/
def sampleDelivery (causeKey incidentKey : JsString) : Delivery where
  organizationId := js "o"
  causeKey := causeKey
  tier := .email
  timing := .immediate
  recipient := .mspSecurityInbox (js "msp@example.test") 0
  tickAt := 0
  affectedTenants := []
  incidentKeys := [incidentKey]

/-- At the second tick cause `b` is carried over, so its second delivery goes out
before that of cause `c`, which arrived first. -/
theorem arrival_order_not_kept :
    ¬ ∀ ticks, ArrivalOrder (fun _ => js "1970-01-01T00:00:00.000Z") ticks := by
  intro h
  have hlane := h
    [⟨[sampleDelivery (js "a") (js "1"), sampleDelivery (js "b") (js "2")], ⟨1⟩, 0⟩,
      ⟨[sampleDelivery (js "c") (js "3"), sampleDelivery (js "b") (js "4")], ⟨2⟩, 1⟩]
    (js "o") .email
  revert hlane
  decide

end DeliveryQueue
