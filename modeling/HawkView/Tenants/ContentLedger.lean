import HawkView.Lib.Runs
import HawkView.Tenants.ActivityContent

/-!
# No blob is lost

A run that ends well has ingested every blob that was discovered, as long as
retention meets completed blobs only, a failure finds its blob not completed, no
blob moves behind a count in progress, and no other than the four content types
is counted as enabled.
-/

namespace ManagementActivity

open List Option

/-! ## The conditions -/

namespace Phase

/-- The run has counted the blobs of the status, and found none of any status so far. -/
def counted : Phase → ContentStatus → Bool
  | .counting _ counts, status => (counts.lookup status).isSome &&
    [.pending, .processing, .retry, .failed].all fun other => (counts.lookup other).all (· == 0)
  | _, _ => false

/-- The number of content types that a run takes to be enabled. -/
def enabledContentTypes : Phase → Option Nat
  | .discovering _ enabled _ => some enabled
  | .selecting p => some p.enabledContentTypes
  | .ingesting p _ => some p.enabledContentTypes
  | .processing p _ _ => some p.enabledContentTypes
  | .failing p _ _ _ => some p.enabledContentTypes
  | .counting p _ => some p.enabledContentTypes
  | _ => none

end Phase

/-- No run has counted the status that a blob gets without that which it had. -/
def System.visible (s : System) (source : Option ContentStatus) (target : ContentStatus) : Bool :=
  s.sessions.all fun phase =>
    !phase.counted target || source.any phase.counted

/-- The steps that do not lose sight of a blob. -/
def Meets (s : System) : Action → Bool
  | .subscribe _ enabled _ => decide (enabled ≤ M365_ACTIVITY_CONTENT_TYPES.length)
  | .discover _ _ page =>
    page.all (fun d => s.ledger.has d.microsoftContentId) || s.visible none .pending
  | .recover i _ =>
    match s.sessions[i]? with
    | some (.recovering now) => s.ledger.rows.all fun c =>
      !Ledger.expiredLease now c || s.visible (some c.status) .retry
    | _ => true
  | .claim i _ =>
    match s.sessions[i]? with
    | some (.ingesting _ (content :: _)) => s.ledger.rows.all fun c =>
      !Ledger.claimable content.id c || s.visible (some c.status) .processing
    | _ => true
  | .release i _ _ =>
    match s.sessions[i]? with
    | some (.failing _ content _ error) => s.ledger.rows.all fun c => c.id != content.id ||
      c.status != .completed &&
        s.visible (some c.status) (if error.permanent then .failed else .retry)
    | _ => true
  | .finish i _ =>
    match s.sessions[i]? with
    | some (.counting p _) => s.ledger.rows.all fun c =>
      c.status == .completed || !decide (c.ledgerExpiresAt ≤ p.now)
    | _ => true
  | _ => true

/-! ## The invariant -/

/-- What was counted to be nothing is nothing still. -/
def Clear (rows : List Content) : Phase → Prop
  | .counting _ counts =>
    (∀ status n, status ≠ .completed → counts.lookup status = some n → n = 0) →
      ∀ c ∈ rows, c.status ≠ .completed → counts.lookup c.status = none
  | _ => True

/-- A run that ended well had every blob stored that was discovered by then. -/
def Ingested (stored : List Nat) : Phase → Prop
  | .ended .succeeded discovered => ∀ id < discovered, id ∈ stored
  | _ => True

structure Kept (s : System) : Prop where
  present : ∀ id < s.ledger.nextId, id ∈ s.stored ∨ ∃ c ∈ s.ledger.rows, c.id = id
  settled : ∀ c ∈ s.ledger.rows, c.status = .completed ↔ c.id ∈ s.stored
  below : ∀ c ∈ s.ledger.rows, c.id < s.ledger.nextId
  stored : ∀ id ∈ s.stored, id < s.ledger.nextId
  enabled : ∀ phase ∈ s.sessions, ∀ n, phase.enabledContentTypes = some n →
    n ≤ M365_ACTIVITY_CONTENT_TYPES.length
  clear : ∀ phase ∈ s.sessions, Clear s.ledger.rows phase
  ingested : ∀ phase ∈ s.sessions, Ingested s.stored phase

theorem counted_of_zero {p : Progress} {counts : List (ContentStatus × Nat)}
    {status : ContentStatus}
    (zero : ∀ other n, other ≠ .completed → counts.lookup other = some n → n = 0)
    (some : counts.lookup status ≠ none) : (Phase.counting p counts).counted status = true := by
  simp only [Phase.counted, Bool.and_eq_true, isSome_iff_ne_none, List.all_eq_true,
    Option.all_eq_true, beq_iff_eq]
  refine ⟨some, ?_⟩
  intro other mem n hn
  refine zero other n ?_ hn
  rintro rfl
  simp at mem

section Steps

variable {s : System}

variable {phase : Phase}

theorem System.visible_counted {source : Option ContentStatus} {target : ContentStatus}
    (h : s.visible source target = true) (mem : phase ∈ s.sessions)
    (counted : phase.counted target = true) : ∃ status, source = some status ∧
      phase.counted status = true := by
  rw [System.visible, List.all_eq_true] at h
  have hphase := h phase mem
  rw [counted, Bool.not_true, Bool.false_or, Option.any_eq_true] at hphase
  exact hphase

/-- A run that moves on. -/
theorem Kept.put (h : Kept s) (i : Nat) (phase : Phase)
    (enabled : ∀ n, phase.enabledContentTypes = some n → n ≤ M365_ACTIVITY_CONTENT_TYPES.length)
    (clear : Clear s.ledger.rows phase) (ingested : Ingested s.stored phase) :
    Kept (s.put i phase) := by
  have hmem : ∀ other ∈ (s.put i phase).sessions, other ∈ s.sessions ∨ other = phase :=
    fun other hother => mem_or_eq_of_mem_set hother
  refine ⟨h.present, h.settled, h.below, h.stored, ?_, ?_, ?_⟩
  · intro other hother
    rcases hmem other hother with hother | rfl
    · exact h.enabled other hother
    · exact enabled
  · intro other hother
    rcases hmem other hother with hother | rfl
    · exact h.clear other hother
    · exact clear
  · intro other hother
    rcases hmem other hother with hother | rfl
    · exact h.ingested other hother
    · exact ingested

/-- Rows that change in the view of the runs that count. -/
structure Change (s : System) (ledger : Ledger) (stored : List Nat) : Prop where
  nextId : ledger.nextId = s.ledger.nextId
  grows : ∀ id ∈ s.stored, id ∈ stored
  bounded : ∀ id ∈ stored, id < s.ledger.nextId
  kept : ∀ c ∈ s.ledger.rows, c.id ∈ stored ∨ ∃ c' ∈ ledger.rows, c'.id = c.id
  origin : ∀ c' ∈ ledger.rows, ∃ c ∈ s.ledger.rows, c'.id = c.id ∧
    (c'.status = .completed ↔ c'.id ∈ stored) ∧ ∀ phase ∈ s.sessions, c'.status ≠ .completed →
      phase.counted c'.status = true → c.status ≠ .completed ∧ phase.counted c.status = true

variable {stored : List Nat}

theorem Ingested.grows {stored' : List Nat} (h : Ingested stored phase)
    (grows : ∀ id ∈ stored, id ∈ stored') : Ingested stored' phase := by
  unfold Ingested at h ⊢
  split
  · exact fun id hid => grows id (h id hid)
  · trivial

theorem Kept.changed (h : Kept s) {ledger : Ledger} (change : Change s ledger stored) :
    Kept { s with ledger, stored } where
  present id hid := by
    rw [change.nextId] at hid
    rcases h.present id hid with hstored | ⟨c, hc, rfl⟩
    · exact .inl (change.grows id hstored)
    · exact change.kept c hc
  settled c' hc' := by
    obtain ⟨_, _, _, hsettled, _⟩ := change.origin c' hc'
    exact hsettled
  below c' hc' := by
    obtain ⟨c, hc, hid, _⟩ := change.origin c' hc'
    rw [hid, change.nextId]
    exact h.below c hc
  stored id hid := by
    rw [change.nextId]
    exact change.bounded id hid
  enabled := h.enabled
  clear phase hphase := by
    have hclear := h.clear phase hphase
    cases phase with
    | counting p counts =>
      intro hzero c' hc' hopen
      obtain ⟨c, hc, _, _, hview⟩ := change.origin c' hc'
      by_contra hcounted
      obtain ⟨hstatus, hbefore⟩ := hview _ hphase hopen (counted_of_zero hzero hcounted)
      have hnone := hclear hzero c hc hstatus
      rw [Phase.counted, hnone] at hbefore
      cases hbefore
    | _ => trivial
  ingested phase hphase := (h.ingested phase hphase).grows change.grows

variable {l : Ledger} {write : Content → Content}

theorem Ledger.mem_update {p : Content → Bool} {c' : Content} (h : c' ∈ (l.update p write).rows) :
    ∃ c ∈ l.rows, p c = true ∧ c' = write c ∨ p c = false ∧ c' = c := by
  obtain ⟨c, hc, rfl⟩ := mem_map.mp h
  refine ⟨c, ?_⟩
  cases hp : p c <;> simp [hc]

/-- An update of blobs that are not completed, to a status that is seen by who counts. -/
theorem Kept.updated (h : Kept s) {p : Content → Bool} (target : ContentStatus)
    (ne : target ≠ .completed) (id : ∀ c, (write c).id = c.id)
    (status : ∀ c, (write c).status = target)
    (meets : ∀ c ∈ s.ledger.rows, p c = true → c.status ≠ .completed ∧
      s.visible (some c.status) target = true) :
    Kept { s with ledger := s.ledger.update p write } := by
  apply h.changed
  refine ⟨rfl, fun _ hid => hid, h.stored, ?_, ?_⟩
  · intro c hc
    right
    refine ⟨if p c then write c else c, mem_map_of_mem hc, ?_⟩
    split
    · exact id c
    · rfl
  · intro c' hc'
    obtain ⟨c, hc, ⟨hp, rfl⟩ | ⟨hp, rfl⟩⟩ := Ledger.mem_update hc'
    · obtain ⟨hopen, hvisible⟩ := meets c hc hp
      refine ⟨c, hc, id c, ?_, ?_⟩
      · rw [status, id, ← h.settled c hc]
        simp [ne, hopen]
      · intro phase hphase _ hcounted
        rw [status] at hcounted
        obtain ⟨_, hsource, hmem⟩ := System.visible_counted hvisible hphase hcounted
        cases hsource
        exact ⟨hopen, hmem⟩
    · exact ⟨c', hc, rfl, h.settled c' hc, fun _ _ hopen hcounted => ⟨hopen, hcounted⟩⟩

/-- A blob is completed together with its records. -/
theorem Kept.completed (h : Kept s) {id : Nat} (present : ∃ c ∈ s.ledger.rows, c.id = id)
    (ingestedAt : Int) :
    Kept { s with ledger := s.ledger.complete id ingestedAt, stored := id :: s.stored } := by
  obtain ⟨found, hfound, rfl⟩ := present
  apply h.changed
  refine ⟨rfl, fun _ => mem_cons_of_mem _, ?_, ?_, ?_⟩
  · exact forall_mem_cons.mpr ⟨h.below found hfound, h.stored⟩
  · intro c hc
    right
    refine ⟨_, mem_map_of_mem hc, ?_⟩
    split <;> rfl
  · intro c' hc'
    obtain ⟨c, hc, ⟨hp, rfl⟩ | ⟨hp, rfl⟩⟩ := Ledger.mem_update hc'
    · rw [beq_iff_eq] at hp
      exact ⟨c, hc, rfl, by simp [hp], fun _ _ hopen => absurd rfl hopen⟩
    · rw [beq_eq_false_iff_ne] at hp
      exact ⟨c', hc, rfl, by simp [h.settled c' hc, hp], fun _ _ hopen hcounted =>
        ⟨hopen, hcounted⟩⟩

/-- Retention that meets completed blobs only. -/
theorem Kept.expired (h : Kept s) {now : Int}
    (meets : ∀ c ∈ s.ledger.rows, c.ledgerExpiresAt ≤ now → c.status = .completed) :
    Kept { s with ledger := s.ledger.expire now } := by
  apply h.changed
  refine ⟨rfl, fun _ hid => hid, h.stored, ?_, ?_⟩
  · intro c hc
    by_cases hexpired : c.ledgerExpiresAt ≤ now
    · exact .inl ((h.settled c hc).mp (meets c hc hexpired))
    · exact .inr ⟨c, mem_filter.mpr ⟨hc, by simpa using hexpired⟩, rfl⟩
  · intro c' hc'
    obtain ⟨hc, _⟩ := mem_filter.mp hc'
    exact ⟨c', hc, rfl, h.settled c' hc, fun _ _ hopen hcounted => ⟨hopen, hcounted⟩⟩

theorem Kept.created (h : Kept s) (visible : s.visible none .pending = true) (at' : Int)
    (d : Discovered) : Kept { s with ledger := s.ledger.create at' d } := by
  unfold Ledger.create
  split
  · exact h
  refine ⟨?_, ?_, ?_, ?_, h.enabled, ?_, h.ingested⟩
  · intro id hid
    rcases Nat.lt_succ_iff_lt_or_eq.mp hid with hid | rfl
    · rcases h.present id hid with hstored | ⟨c, hc, heq⟩
      · exact .inl hstored
      · exact .inr ⟨c, mem_append_left _ hc, heq⟩
    · exact .inr ⟨_, mem_append_right _ mem_cons_self, rfl⟩
  · intro c hc
    rcases mem_append.mp hc with hc | hc
    · exact h.settled c hc
    · rw [mem_singleton] at hc
      subst hc
      have hnew : s.ledger.nextId ∉ s.stored := fun hmem => Nat.lt_irrefl _ (h.stored _ hmem)
      simp [hnew]
  · intro c hc
    rcases mem_append.mp hc with hc | hc
    · exact Nat.lt_succ_of_lt (h.below c hc)
    · rw [mem_singleton] at hc
      subst hc
      exact Nat.lt_succ_self _
  · exact fun id hid => Nat.lt_succ_of_lt (h.stored id hid)
  · intro phase hphase
    have hclear := h.clear phase hphase
    cases hphase' : phase with
    | counting p counts =>
      rw [hphase'] at hphase hclear
      intro hzero c hc hopen
      rcases mem_append.mp hc with hc | hc
      · exact hclear hzero c hc hopen
      · rw [mem_singleton] at hc
        subst hc
        by_contra hcounted
        obtain ⟨_, hsource, _⟩ := System.visible_counted visible hphase
          (counted_of_zero hzero hcounted)
        cases hsource
    | _ => trivial

theorem Kept.createdMany (h : Kept s) (visible : s.visible none .pending = true) (at' : Int)
    (page : List Discovered) : Kept { s with ledger := s.ledger.createMany at' page } := by
  induction page generalizing s with
  | nil => exact h
  | cons d page ih => exact ih (h.created visible at' d) visible

theorem Ledger.createMany_known {page : List Discovered} (at' : Int)
    (known : page.all (fun d => l.has d.microsoftContentId) = true) :
    l.createMany at' page = l := by
  induction page with
  | nil => rfl
  | cons d page ih =>
    simp only [all_cons, Bool.and_eq_true] at known
    have hcreate : l.create at' d = l := by
      rw [Ledger.create, if_pos known.1]
    rw [Ledger.createMany, foldl_cons, hcreate]
    exact ih known.2

variable {p : Progress} {counts : List (ContentStatus × Nat)}

/-- A count sees what there is. -/
theorem Clear.count {rows : List Content} (clear : Clear rows (.counting p counts))
    {status : ContentStatus} (first : counts.lookup status = none) :
    Clear rows (.counting p ((status, rows.countP (·.status == status)) :: counts)) := by
  intro hzero c hc hopen
  have hother : ∀ other, other ≠ status → ((status, rows.countP (·.status == status)) ::
      counts).lookup other = counts.lookup other := by
    intro other hne
    rw [lookup_cons, beq_false_of_ne hne]
  by_cases heq : c.status = status
  · have hcount := hzero status _ (heq ▸ hopen) lookup_cons_self
    rw [countP_eq_zero] at hcount
    exact absurd (by simp [heq]) (hcount c hc)
  · rw [hother c.status heq]
    refine clear (fun other n hne hn => hzero other n hne ?_) c hc hopen
    rw [hother other (by rintro rfl; rw [first] at hn; cases hn)]
    exact hn

variable {b : Backlog}

/-- A run that ends well counted nothing. -/
theorem succeeded_zero {at' : Int} {state : SyncState}
    (enabled : p.enabledContentTypes ≤ M365_ACTIVITY_CONTENT_TYPES.length)
    (h : (p.outcome b at' state).status = .succeeded) :
    b.pending = 0 ∧ b.processing = 0 ∧ b.retry = 0 ∧ b.failed = 0 := by
  unfold Progress.outcome at h
  split at h
  · cases h
  rename_i hfailed
  split at h
  · cases h
  rename_i hblocked
  simp only [Progress.blocked, Progress.subscriptionBacklog] at hblocked
  split at hblocked <;> omega

theorem backlogOf_some (h : backlogOf counts = some b) : counts.lookup .pending = some b.pending ∧
      counts.lookup .processing = some b.processing ∧ counts.lookup .retry = some b.retry ∧
      counts.lookup .failed = some b.failed := by
  unfold backlogOf at h
  obtain ⟨pending, hpending, h⟩ := bind_eq_some_iff.mp h
  obtain ⟨processing, hprocessing, h⟩ := bind_eq_some_iff.mp h
  obtain ⟨retry, hretry, h⟩ := bind_eq_some_iff.mp h
  obtain ⟨failed, hfailed, h⟩ := bind_eq_some_iff.mp h
  cases h
  exact ⟨hpending, hprocessing, hretry, hfailed⟩

/-- With all four counts at nothing, every blob is stored. -/
theorem Kept.all_stored (h : Kept s) (mem : Phase.counting p counts ∈ s.sessions)
    (hb : backlogOf counts = some b)
    (zero : b.pending = 0 ∧ b.processing = 0 ∧ b.retry = 0 ∧ b.failed = 0) :
    ∀ id < s.ledger.nextId, id ∈ s.stored := by
  obtain ⟨hpending, hprocessing, hretry, hfailed⟩ := backlogOf_some hb
  obtain ⟨hp, hq, hr, hf⟩ := zero
  have hclear := h.clear _ mem
  have hzero : ∀ status n, status ≠ .completed → counts.lookup status = some n → n = 0 := by
    intro status n hne hn
    cases status <;> simp_all
  intro id hid
  rcases h.present id hid with hstored | ⟨c, hc, rfl⟩
  · exact hstored
  · rw [← h.settled c hc]
    by_contra hopen
    have hnone := hclear hzero c hc hopen
    cases hstatus : c.status <;> simp_all

theorem Kept.withSync (h : Kept s) (sync : Option SyncState) : Kept { s with sync } :=
  ⟨h.present, h.settled, h.below, h.stored, h.enabled, h.clear, h.ingested⟩

/-- A run that starts. -/
theorem Kept.started (h : Kept s) (phase : Phase) (enabled : phase.enabledContentTypes = none)
    (clear : Clear s.ledger.rows phase) (ingested : Ingested s.stored phase) :
    Kept { s with sessions := s.sessions ++ [phase] } := by
  refine ⟨h.present, h.settled, h.below, h.stored, ?_, ?_, ?_⟩
  · intro other hother n hn
    rcases mem_append.mp hother with hother | hother
    · exact h.enabled other hother n hn
    · rw [mem_singleton.mp hother, enabled] at hn
      cases hn
  · exact forall_mem_append.mpr ⟨h.clear, forall_mem_singleton.mpr clear⟩
  · exact forall_mem_append.mpr ⟨h.ingested, forall_mem_singleton.mpr ingested⟩

theorem Kept.finished (h : Kept s) {i : Nat} {at' : Int} {s' : System}
    (mem : Phase.counting p counts ∈ s.sessions) (hb : backlogOf counts = some b)
    (meets : ∀ c ∈ s.ledger.rows, c.ledgerExpiresAt ≤ p.now → c.status = .completed)
    (hfinish : finishRun s i p b at' = some s') : Kept s' := by
  obtain ⟨state, _, rfl⟩ := map_eq_some_iff.mp hfinish
  have hkept : Kept { s with ledger := s.ledger.expire p.now } := h.expired meets
  refine Kept.withSync (hkept.put i (.ended _ _) nofun trivial ?_) _
  cases hstatus : (p.outcome b at' state).status with
  | succeeded =>
    have henabled := h.enabled _ mem _ rfl
    exact h.all_stored mem hb (succeeded_zero henabled hstatus)
  | _ => trivial

variable {config : Config} {s' : System} {a : Action}

theorem step_kept (h : Kept s) (meets : Meets s a = true) (hstep : step config s a = some s') :
    Kept s' := by
  cases a with
  | start now =>
    simp only [step] at hstep
    split at hstep
    · cases hstep
      exact h.started .returned rfl trivial trivial
    · cases hstep
      exact (h.started (.recovering now) rfl trivial trivial).withSync _
  | recover i at' =>
    simp only [step] at hstep
    split at hstep
    · rename_i now hphase
      cases hstep
      simp only [Meets, hphase, List.all_eq_true] at meets
      have hkept : Kept { s with ledger := s.ledger.recoverLeases now at' } := by
        refine h.updated .retry (by decide) (fun _ => rfl) (fun _ => rfl) ?_
        intro c hc hexpired
        have hvisible := meets c hc
        rw [hexpired, Bool.not_true, Bool.false_or] at hvisible
        simp only [Ledger.expiredLease, Bool.and_eq_true, beq_iff_eq] at hexpired
        exact ⟨by simp [hexpired.1], hvisible⟩
      exact hkept.put i (.subscribing now) nofun trivial trivial
    · cases hstep
  | subscribe i enabled failed =>
    simp only [step] at hstep
    split at hstep
    · cases hstep
      refine h.put i (.discovering _ enabled failed) ?_ trivial trivial
      rintro n ⟨⟩
      simpa [Meets] using meets
    · cases hstep
  | discover i at' page =>
    simp only [step] at hstep
    split at hstep
    · split at hstep
      · cases hstep
        simp only [Meets, Bool.or_eq_true] at meets
        rcases meets with hknown | hvisible
        · rw [Ledger.createMany_known at' hknown]
          exact h
        · exact h.createdMany hvisible at' page
      · cases hstep
    · cases hstep
  | discovered i hasBacklog =>
    simp only [step] at hstep
    split at hstep
    · rename_i now enabled failed hphase
      have henabled := h.enabled _ (mem_of_getElem? hphase)
      cases hstep
      exact h.put i (.selecting _) henabled trivial trivial
    · cases hstep
  | select i =>
    simp only [step] at hstep
    split at hstep
    · rename_i p hphase
      have henabled := h.enabled _ (mem_of_getElem? hphase)
      cases hstep
      exact h.put i (.ingesting p _) henabled trivial trivial
    · cases hstep
  | claim i at' =>
    simp only [step] at hstep
    split at hstep
    · rename_i p content queue hphase
      have henabled := h.enabled _ (mem_of_getElem? hphase)
      split at hstep
      · cases hstep
        simp only [Meets, hphase, List.all_eq_true] at meets
        have hkept : Kept { s with ledger := s.ledger.claim content.id at' } := by
          refine h.updated .processing (by decide) (fun _ => rfl) (fun _ => rfl) ?_
          intro c hc hclaimable
          have hvisible := meets c hc
          rw [hclaimable, Bool.not_true, Bool.false_or] at hvisible
          simp only [Ledger.claimable, Bool.and_eq_true, Bool.or_eq_true, beq_iff_eq] at hclaimable
          refine ⟨?_, hvisible⟩
          rcases hclaimable.2 with hpending | hretry
          · simp [hpending]
          · simp [hretry]
        exact hkept.put i (.processing p content queue) henabled trivial trivial
      · cases hstep
        exact h.put i (.ingesting p queue) henabled trivial trivial
    · cases hstep
  | stop i =>
    simp only [step] at hstep
    split at hstep
    · rename_i p queue hphase
      have henabled := h.enabled _ (mem_of_getElem? hphase)
      cases hstep
      refine h.put i (.counting p []) henabled ?_ trivial
      exact fun _ _ _ _ => rfl
    · cases hstep
  | commit i ingestedAt =>
    simp only [step] at hstep
    split at hstep
    · rename_i p content queue hphase
      split at hstep
      · rename_i hpresent
        cases hstep
        have hfound : ∃ c ∈ s.ledger.rows, c.id = content.id := by simpa using hpresent
        have henabled := h.enabled _ (mem_of_getElem? hphase)
        exact (h.completed hfound ingestedAt).put i (.ingesting p queue) henabled trivial trivial
      · cases hstep
    · cases hstep
  | fail i error =>
    simp only [step] at hstep
    split at hstep
    · rename_i p content queue hphase
      have henabled := h.enabled _ (mem_of_getElem? hphase)
      cases hstep
      exact h.put i (.failing p content queue error) henabled trivial trivial
    · cases hstep
  | release i at' delay =>
    simp only [step] at hstep
    split at hstep
    · rename_i p content queue error hphase
      cases hstep
      simp only [Meets, hphase, List.all_eq_true, Bool.or_eq_true, Bool.and_eq_true,
        bne_iff_ne] at meets
      have hkept : Kept { s with ledger := s.ledger.fail content.id error at' delay } := by
        have htarget : (if error.permanent then ContentStatus.failed else .retry) ≠ .completed := by
          split <;> decide
        refine h.updated _ htarget (fun _ => rfl) (fun _ => rfl) ?_
        intro c hc hid
        exact (meets c hc).resolve_left (by simpa using hid)
      have henabled := h.enabled _ (mem_of_getElem? hphase)
      split
      · exact hkept.put i (.throwing error) nofun trivial trivial
      · exact hkept.put i (.ingesting p queue) henabled trivial trivial
    · cases hstep
  | count i status =>
    simp only [step] at hstep
    split at hstep
    · rename_i p counts hphase
      have hmem := mem_of_getElem? hphase
      split at hstep
      · rename_i hfirst
        cases hstep
        have henabled := h.enabled _ hmem
        have hclear := Clear.count (h.clear _ hmem) hfirst.2
        exact h.put i (.counting p _) henabled hclear trivial
      · cases hstep
    · cases hstep
  | finish i at' =>
    simp only [step] at hstep
    split at hstep
    · rename_i p counts hphase
      obtain ⟨b, hb, hfinish⟩ := bind_eq_some_iff.mp hstep
      simp only [Meets, hphase, List.all_eq_true, Bool.or_eq_true, beq_iff_eq,
        Bool.not_eq_true', decide_eq_false_iff_not] at meets
      refine h.finished (mem_of_getElem? hphase) hb ?_ hfinish
      intro c hc hexpired
      exact (meets c hc).resolve_right (not_not_intro hexpired)
    · cases hstep
  | throw i error =>
    simp only [step] at hstep
    split at hstep
    case h_7 =>
      cases hstep
      exact h.put i (.throwing error) nofun trivial trivial
    all_goals cases hstep
  | settle i =>
    simp only [step] at hstep
    split at hstep
    · rename_i error hphase
      obtain ⟨state, _, rfl⟩ := map_eq_some_iff.mp hstep
      refine Kept.withSync (h.put i (.ended _ _) nofun trivial ?_) _
      have hstatus : (error.outcome state).status ≠ .succeeded := by
        cases error <;> simp [SyncError.outcome]
      cases houtcome : (error.outcome state).status with
      | succeeded => exact absurd houtcome hstatus
      | _ => trivial
    · cases hstep
  | crash i =>
    simp only [step] at hstep
    split at hstep
    · cases hstep
      exact h.put i .crashed nofun trivial trivial
    · cases hstep

/-- What is stored stays stored. -/
theorem step_stored (hstep : step config s a = some s') {id : Nat} (mem : id ∈ s.stored) :
    id ∈ s'.stored := by
  cases a with
  | finish i at' =>
    simp only [step] at hstep
    split at hstep
    · obtain ⟨b, _, hfinish⟩ := bind_eq_some_iff.mp hstep
      obtain ⟨state, _, rfl⟩ := map_eq_some_iff.mp hfinish
      exact mem
    · cases hstep
  | settle i =>
    simp only [step] at hstep
    split at hstep
    · obtain ⟨state, _, rfl⟩ := map_eq_some_iff.mp hstep
      exact mem
    · cases hstep
  | commit i ingestedAt =>
    simp only [step] at hstep
    split at hstep
    · split at hstep
      · cases hstep
        exact mem_cons_of_mem _ mem
      · cases hstep
    · cases hstep
  | _ =>
    simp only [step] at hstep
    repeat' split at hstep
    all_goals cases hstep
    all_goals exact mem

end Steps

/-! ## Runs -/

/-- The tables before the first run. -/
def System.initial (sync : Option SyncState) : System := ⟨⟨[], 0⟩, sync, [], []⟩

/-- Every blob that was discovered is stored or in the ledger, where those that are stored
are the completed ones, and a run that ended well had stored all that were discovered. -/
structure Lossless (s : System) : Prop where
  present : ∀ id < s.ledger.nextId, id ∈ s.stored ∨ ∃ c ∈ s.ledger.rows, c.id = id
  settled : ∀ c ∈ s.ledger.rows, c.status = .completed ↔ c.id ∈ s.stored
  ingested : ∀ discovered, .ended .succeeded discovered ∈ s.sessions →
    ∀ id < discovered, id ∈ s.stored

theorem Kept.lossless {s : System} (h : Kept s) : Lossless s :=
  ⟨h.present, h.settled, fun _ mem => h.ingested _ mem⟩

theorem initial_kept (sync : Option SyncState) : Kept (.initial sync) := by
  constructor <;> simp [System.initial]

/-- In a run that meets the conditions no blob is lost, and none that is completed returns. -/
theorem syncTenant_lossless (config : Config) (sync : Option SyncState) (as bs : List Action)
    (s t : System) (meets : Runs.Along (step config) (fun s a => Meets s a = true)
      (.initial sync) (as ++ bs))
    (before : Runs.run (step config) (.initial sync) as = some s)
    (after : Runs.run (step config) s bs = some t) :
    Lossless t ∧ ∀ c ∈ s.ledger.rows, c.status = .completed →
      ∀ c' ∈ t.ledger.rows, c'.id = c.id → c'.status = .completed := by
  have hs : Kept s := Runs.invariant_along (fun _ _ _ h meets hstep => step_kept h meets hstep)
    (initial_kept sync) (Runs.along_left meets) before
  have ht : Kept t := Runs.invariant_along (fun _ _ _ h meets hstep => step_kept h meets hstep)
    (initial_kept sync) meets (Runs.run_append.mpr ⟨s, before, after⟩)
  refine ⟨ht.lossless, ?_⟩
  intro c hc hcompleted c' hc' hid
  rw [ht.settled c' hc', hid]
  have hstored := (hs.settled c hc).mp hcompleted
  exact Runs.invariant (fun _ _ _ mem hstep => step_stored hstep mem) hstored after

/-! ## Samples -/

namespace Sample

def config : Config := ⟨12, 15⟩

def blob : Discovered :=
  ⟨.general, js "blob", js "https://manage.office.com/blob", none, none, CONTENT_LEDGER_RETENTION_MS⟩

/-- The first run discovers a blob. -/
def discovery : List Action :=
  [.start 0, .recover 0 0, .subscribe 0 4 [], .discover 0 0 [blob]]

def ingestion : List Action := [.discovered 0 false, .select 0, .claim 0 1, .commit 0 2]

/-- The run stops and counts what is left. -/
def conclusion (i : Nat) (at' : Int) : List Action :=
  [.stop i, .count i .pending, .count i .processing, .count i .retry, .count i .failed,
    .finish i at']

/-- A run that has no time for a blob. -/
def idleRun (i : Nat) (now : Int) : List Action :=
  [.start now, .recover i now, .subscribe i 4 [], .discovered i false, .select i] ++
    conclusion i now

end Sample

open Sample in
/-- A blob that is ingested in the run which discovered it. -/
theorem syncTenant_lossless_ingested :
    ∃ s t, Runs.run (step config) (.initial none) (discovery ++ ingestion) = some s ∧
      Runs.run (step config) s (conclusion 0 3) = some t ∧
      t.sessions = [.ended .succeeded 1] ∧ Lossless t := by
  refine ⟨_, _, rfl, rfl, rfl, ?_⟩
  exact (syncTenant_lossless config none (discovery ++ ingestion) (conclusion 0 3) _ _
    (by decide +kernel) rfl rfl).1

open Sample in
/-- A run that is cut off leaves a blob behind, which retention deletes a month later. -/
theorem expired_blob_lost : ¬ ∀ (config : Config) (sync : Option SyncState) (as : List Action)
    (s : System), Runs.run (step config) (.initial sync) as = some s → Lossless s := by
  intro h
  have hrun : ∃ s, Runs.run (step config) (.initial none) (discovery ++ [.crash 0] ++
      idleRun 1 (31 * DAY) ++ idleRun 2 (32 * DAY)) = some s ∧
      s.sessions = [.crashed, .ended .running 1, .ended .succeeded 1] ∧ s.stored = [] :=
    ⟨_, rfl, rfl, rfl⟩
  obtain ⟨s, hs, hsessions, hstored⟩ := hrun
  have hlossless := h config none _ s hs
  have hmem := hlossless.ingested 1 (by simp [hsessions]) 0 Nat.one_pos
  rw [hstored] at hmem
  cases hmem

end ManagementActivity
