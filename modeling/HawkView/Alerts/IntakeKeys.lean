import HawkView.Alerts.DecisionSound
import HawkView.Alerts.Intake

/-!
# The intake on sets of keys

What the store holds is, up to the content of its rows, four sets of keys.
Settling a chunk adds the incidents of its findings, one notice for each of
them, and the jobs of the incidents that it opens. Committing a chunk in a tick
settles it, whatever earlier chunks and earlier ticks have stored.
-/

namespace IntakeKeys

open IncidentKey SendTables FindingPipeline FindingDecision DecisionSound PipelineStore Intake
open List Option

@[ext] structure StoredKeys where
  incidents : Set ScopedKey
  notified : Set ScopedKey
  withheld : Set ScopedKey
  jobs : Set MessageId

def keysOf (t : PipelineTables) : StoredKeys where
  incidents := {k | (t.incident k).isSome}
  notified := {k | (t.notification k).isSome}
  withheld := {k | (t.withheldNotice k).isSome}
  jobs := {m | (t.job m).isSome}

def incidentOf (f : FindingRow) (t : AlertTypeId) : ScopedKey :=
  (f.organizationId, incidentKeyOf f t)

def noticeOf (f : FindingRow) : ScopedKey := (f.organizationId, noticeKeyFor f)

/-- The finding that opens its incident: the first of the list, if it is not open. -/
def FirstOf (incidents : Set ScopedKey) (fs : List FindingRow) (f : FindingRow)
    (t : AlertTypeId) : Prop :=
  ∃ before after, fs = before ++ f :: after ∧ openType f = some t ∧ incidentOf f t ∉ incidents ∧
    ∀ g ∈ before, ∀ u, openType g = some u → incidentOf g u ≠ incidentOf f t

/-- The settings that every tick over the same findings has in common. -/
structure Policy where
  dispositions : Dispositions
  watermark : Watermark

def Policy.context (p : Policy) (tickAtIso : Millis) (alreadyDecided : List JsString) : Context where
  dispositions := p.dispositions
  watermark := p.watermark
  tickAtIso := tickAtIso
  alreadyDecided := alreadyDecided

section Settle

variable (p : Policy)

def tier (f : FindingRow) (t : AlertTypeId) : Severity := (p.context 0 []).effectiveTier f t

/-- The notices that findings call for, kept apart by the tier. -/
def calls (fs : List FindingRow) (recordOnly : Prop) : Set ScopedKey :=
  {k | ∃ f ∈ fs, ∃ t, openType f = some t ∧ (tier p f t = .recordOnly ↔ recordOnly) ∧
    noticeOf f = k}

def settle (keys : StoredKeys) (fs : List FindingRow) : StoredKeys where
  incidents := keys.incidents ∪ {k | ∃ f ∈ fs, ∃ t, openType f = some t ∧ incidentOf f t = k}
  notified := keys.notified ∪ (calls p fs False \ keys.withheld)
  withheld := keys.withheld ∪
    (calls p fs True \ (keys.notified ∪ (calls p fs False \ keys.withheld)))
  jobs := keys.jobs ∪ {m | ∃ f t, FirstOf keys.incidents fs f t ∧
    silence (p.context 0 []) f t = none ∧ messageIdFor f.organizationId (incidentKeyOf f t) = m}

/-- Every open finding with a type has its incident and a notice of one kind. -/
def Covered (keys : StoredKeys) (fs : List FindingRow) : Prop :=
  ∀ f ∈ fs, ∀ t, openType f = some t →
    incidentOf f t ∈ keys.incidents ∧ noticeOf f ∈ keys.notified ∪ keys.withheld

variable {keys : StoredKeys} {fs : List FindingRow}

/-- Settling what is covered changes nothing. -/
theorem settle_covered (covered : Covered keys fs) :
    settle p keys fs = keys := by
  have hcalls : ∀ r k, k ∈ calls p fs r → k ∈ keys.notified ∪ keys.withheld := by
    rintro r _ ⟨f, hf, t, ht, _, rfl⟩
    exact (covered f hf t ht).2
  ext k
  · simp only [settle, Set.mem_union, Set.mem_ofPred_eq, or_iff_left_iff_imp]
    rintro ⟨f, hf, t, ht, rfl⟩
    exact (covered f hf t ht).1
  · simp only [settle, Set.mem_union, Set.mem_sdiff, or_iff_left_iff_imp]
    rintro ⟨hcall, hwithheld⟩
    exact (hcalls _ k hcall).resolve_right hwithheld
  · simp only [settle, Set.mem_union, Set.mem_sdiff, or_iff_left_iff_imp]
    rintro ⟨hcall, hnotified⟩
    exact (hcalls _ k hcall).resolve_left fun h => hnotified (.inl h)
  · simp only [settle, Set.mem_union, Set.mem_ofPred_eq, or_iff_left_iff_imp]
    rintro ⟨f, t, ⟨before, after, rfl, ht, hfresh, _⟩, _⟩
    exact absurd (covered f (by simp) t ht).1 hfresh

/-- A chunk is covered once it is settled. -/
theorem covered_settle (keys : StoredKeys) (fs : List FindingRow) :
    Covered (settle p keys fs) fs := by
  intro f hf t ht
  refine ⟨.inr ⟨f, hf, t, ht, rfl⟩, ?_⟩
  by_cases htier : tier p f t = .recordOnly
  · have hcall : noticeOf f ∈ calls p fs True := ⟨f, hf, t, ht, by simp [htier], rfl⟩
    by_cases hnotified : noticeOf f ∈ keys.notified ∪ (calls p fs False \ keys.withheld)
    · exact .inl hnotified
    · exact .inr (.inr ⟨hcall, hnotified⟩)
  · have hcall : noticeOf f ∈ calls p fs False := ⟨f, hf, t, ht, by simp [htier], rfl⟩
    by_cases hwithheld : noticeOf f ∈ keys.withheld
    · exact .inr (.inl hwithheld)
    · exact .inl (.inr ⟨hcall, hwithheld⟩)

/-- What is covered stays covered. -/
theorem Covered.settle (covered : Covered keys fs) (gs : List FindingRow) :
    Covered (settle p keys gs) fs := by
  intro f hf t ht
  obtain ⟨hincident, hnotice⟩ := covered f hf t ht
  refine ⟨.inl hincident, ?_⟩
  obtain hnotified | hwithheld := hnotice
  · exact .inl (.inl hnotified)
  · exact .inr (.inl hwithheld)

def settleAll (keys : StoredKeys) (chunks : List (List FindingRow)) : StoredKeys :=
  chunks.foldl (settle p) keys

theorem settleAll_append (keys : StoredKeys) (cs ds : List (List FindingRow)) :
    settleAll p keys (cs ++ ds) = settleAll p (settleAll p keys cs) ds :=
  foldl_append

theorem Covered.settleAll (covered : Covered keys fs) (cs : List (List FindingRow)) :
    Covered (settleAll p keys cs) fs := by
  induction cs generalizing keys with
  | nil => exact covered
  | cons c cs ih => exact ih (covered.settle p c)

theorem covered_settleAll (keys : StoredKeys) (cs : List (List FindingRow)) :
    ∀ c ∈ cs, Covered (settleAll p keys cs) c := by
  induction cs generalizing keys with
  | nil => simp
  | cons c cs ih =>
    intro d hd
    obtain rfl | hd := mem_cons.mp hd
    · exact (covered_settle p keys d).settleAll p cs
    · exact ih (settle p keys c) d hd

theorem settleAll_covered {cs : List (List FindingRow)} (covered : ∀ c ∈ cs, Covered keys c) :
    settleAll p keys cs = keys := by
  induction cs with
  | nil => rfl
  | cons c cs ih =>
    have hrest := ih fun d hd => covered d (mem_cons_of_mem _ hd)
    rw [settleAll, foldl_cons, settle_covered p (covered c (mem_cons_self ..))]
    exact hrest

/-- Starting over after some of the chunks continues behind them. -/
theorem settleAll_resume (keys : StoredKeys) (cs : List (List FindingRow)) (i j : Nat) :
    settleAll p (settleAll p keys (cs.take i)) (cs.take j) =
      settleAll p keys (cs.take (max i j)) := by
  have hcovered := covered_settleAll p keys (cs.take i)
  obtain hle | hle := Nat.le_total j i
  · rw [Nat.max_eq_left hle]
    apply settleAll_covered
    intro c hc
    apply hcovered
    exact (take_prefix_take_left hle).subset hc
  · obtain ⟨d, rfl⟩ := Nat.exists_eq_add_of_le hle
    rw [Nat.max_eq_right hle, take_add, settleAll_append, settleAll_append,
      settleAll_covered p hcovered]

end Settle

/-! ## A committed chunk is settled -/

section Commit

variable {p : Policy} {fs : List FindingRow} {existing : List ExistingIncident}
  {tickAtIso : Millis} {decided : List JsString} {keys : StoredKeys}

/-- What a tick has read agrees with what is stored, as far as the findings go. -/
structure Matches (existing : List ExistingIncident) (decided : List JsString)
    (keys : StoredKeys) (fs : List FindingRow) : Prop where
  incidents : ∀ f ∈ fs, ∀ key, (⟨f.organizationId, key⟩ : ExistingIncident) ∈ existing ↔
    (f.organizationId, key) ∈ keys.incidents
  decided : ∀ f ∈ fs, scopedNoticeKey f.organizationId (noticeKeyFor f) ∈ decided →
    noticeOf f ∈ keys.notified ∪ keys.withheld

variable {c : Context} {opened : List JsString}

theorem mem_opens {k : JsString} (h : k ∈ (entries c opened fs).flatMap Entry.opens) :
    ∃ f ∈ fs, ∃ t, openType f = some t ∧ incidentScope f t = k := by
  obtain ⟨e, he, hk⟩ := mem_flatMap.mp h
  obtain ⟨before, after, hfs, hentry⟩ := entries_split he
  refine ⟨e.finding, by simp [hfs], ?_⟩
  rw [hentry] at hk
  cases ht : openType e.finding with
  | none => simp [entry, ht, Entry.opens] at hk
  | some t =>
    rw [entry_typed ht] at hk
    split at hk
    · simp [Entry.opens] at hk
    · refine ⟨t, rfl, ?_⟩
      simpa [Entry.opens, scope_incidentFor, eq_comm] using hk

theorem mem_incidents {w : IncidentWrite}
    (h : w ∈ (FindingPipeline.decide fs existing c).incidents) :
    ∃ f ∈ fs, ∃ t, openType f = some t ∧ incidentOf f t = IncidentWrite.key w := by
  rw [decide_incidents, mem_filterMap] at h
  obtain ⟨e, he, hw⟩ := h
  have hscope : FindingDecision.IncidentWrite.scope w ∈
      (decisionEntries fs existing c).flatMap Entry.opens := by
    rw [mem_flatMap]
    exact ⟨e, he, by simp [Entry.opens, hw]⟩
  obtain ⟨f, hf, t, ht, hkey⟩ := mem_opens hscope
  obtain ⟨horganization, hincident⟩ := scopedText_injective hkey
  exact ⟨f, hf, t, ht, Prod.ext horganization hincident⟩

theorem notificationFor_some (f : FindingRow) (t : AlertTypeId) (key : JsString) (tier : Severity) :
    ∃ w, notificationFor f t key tier = some w ∧ NotificationWrite.key w = noticeOf f := by
  have hdeclared : ∃ declared, alertCatalog.find? (fun type => type.id = t) = some declared := by
    cases t <;> exact ⟨_, rfl⟩
  obtain ⟨declared, hdeclared⟩ := hdeclared
  simp only [notificationFor, hdeclared, map_some]
  exact ⟨_, rfl, rfl⟩

variable {f : FindingRow} {t : AlertTypeId} {k : ScopedKey}

theorem notified_iff :
    (∃ w ∈ notified c f t, NotificationWrite.key w = k) ↔
      c.decidedBefore f = false ∧ c.effectiveTier f t ≠ .recordOnly ∧ noticeOf f = k := by
  obtain ⟨w, hw, hkey⟩ :=
    notificationFor_some f t (incidentKeyOf f t) (c.effectiveTier f t)
  simp only [notified, hw]
  split
  · next h =>
    simp only [mem_def, reduceCtorEq, false_and, exists_false, false_iff, not_and]
    intro hdecided htier
    obtain h | h := h
    · rw [hdecided] at h
      cases h
    · exact absurd h htier
  · next h =>
    simp only [not_or, Bool.not_eq_true] at h
    simp [h.1, h.2, hkey]

theorem withholds_iff :
    (∃ w ∈ withholds c f t, WithheldNoticeWrite.key w = k) ↔
      c.decidedBefore f = false ∧ c.effectiveTier f t = .recordOnly ∧ noticeOf f = k := by
  have hkey : WithheldNoticeWrite.key (withheldFor f t) = noticeOf f := rfl
  simp only [withholds]
  split
  · next h =>
    simp only [Bool.not_eq_true] at h
    simp [h.1, h.2, hkey]
  · next h =>
    simp only [mem_def, reduceCtorEq, false_and, exists_false, false_iff, not_and]
    intro hdecided htier
    simp [hdecided, htier] at h

/-- The entry of every open finding with a type carries its notices. -/
theorem entry_notices (ht : openType f = some t) :
    (entry c opened f).notification = notified c f t ∧
      (entry c opened f).withheld = withholds c f t := by
  rw [entry_typed ht]
  split <;> exact ⟨rfl, rfl⟩

theorem entry_untyped (ht : openType f = none) : (entry c opened f).notification = none ∧
      (entry c opened f).withheld = none := by
  simp [entry, ht]

/-- Every finding has its entry. -/
theorem entries_of_mem (c : Context) (opened : List JsString) (hf : f ∈ fs) :
    ∃ opened', entry c opened' f ∈ entries c opened fs := by
  obtain ⟨before, after, rfl⟩ := append_of_mem hf
  exact ⟨_, by rw [entries_append, entries]; exact mem_append_right _ (mem_cons_self ..)⟩

variable {α : Type}

/-- What the entries write is what their findings give rise to. -/
theorem mem_written {note : Entry → Option α} {key : α → ScopedKey}
    {made : FindingRow → AlertTypeId → Option α} {P : FindingRow → AlertTypeId → Prop}
    (typed : ∀ {opened f t}, openType f = some t → note (entry c opened f) = made f t)
    (untyped : ∀ {opened f}, openType f = none → note (entry c opened f) = none)
    (written : ∀ {f t}, (∃ w ∈ made f t, key w = k) ↔ P f t) :
    (∃ w ∈ (decisionEntries fs existing c).filterMap note, key w = k) ↔
      ∃ f ∈ fs, ∃ t, openType f = some t ∧ P f t := by
  simp only [mem_filterMap]
  constructor
  · rintro ⟨w, ⟨e, he, hw⟩, hk⟩
    obtain ⟨before, after, hfs, hentry⟩ := entries_split he
    rw [hentry] at hw
    cases ht : openType e.finding with
    | none => simp [untyped ht] at hw
    | some t =>
      rw [typed ht] at hw
      exact ⟨e.finding, by simp [hfs], t, ht, written.mp ⟨w, hw, hk⟩⟩
  · rintro ⟨f, hf, t, ht, h⟩
    obtain ⟨w, hw, hk⟩ := written.mpr h
    obtain ⟨opened, he⟩ := entries_of_mem c (openBefore existing) hf
    exact ⟨w, ⟨_, he, by rw [typed ht]; exact hw⟩, hk⟩

theorem mem_notifications :
    (∃ w ∈ (FindingPipeline.decide fs existing c).notifications, NotificationWrite.key w = k) ↔
    ∃ f ∈ fs, ∃ t, openType f = some t ∧
      c.decidedBefore f = false ∧ c.effectiveTier f t ≠ .recordOnly ∧ noticeOf f = k := by
  rw [decide_notifications]
  exact mem_written (fun ht => (entry_notices ht).1) (fun ht => (entry_untyped ht).1) notified_iff

theorem mem_withheld :
    (∃ w ∈ (FindingPipeline.decide fs existing c).withheld, WithheldNoticeWrite.key w = k) ↔
    ∃ f ∈ fs, ∃ t, openType f = some t ∧
      c.decidedBefore f = false ∧ c.effectiveTier f t = .recordOnly ∧ noticeOf f = k := by
  rw [decide_withheld]
  exact mem_written (fun ht => (entry_notices ht).2) (fun ht => (entry_untyped ht).2) withholds_iff

theorem mem_jobs {incidents : Set ScopedKey} {m : MessageId}
    (stored : ∀ f ∈ fs, ∀ key, (⟨f.organizationId, key⟩ : ExistingIncident) ∈ existing ↔
      (f.organizationId, key) ∈ incidents) :
    (∃ w ∈ (FindingPipeline.decide fs existing c).jobs, w.messageId = m) ↔
    ∃ f t, FirstOf incidents fs f t ∧ silence c f t = none ∧
      messageIdFor f.organizationId (incidentKeyOf f t) = m := by
  simp only [decide_jobs, mem_filterMap]
  constructor
  · rintro ⟨w, ⟨e, he, hw⟩, rfl⟩
    obtain ⟨before, after, hfs, hentry⟩ := entries_split he
    have hjob : e.outcome = .job w := by
      cases houtcome : e.outcome <;> simp [Entry.toJob, houtcome, Outcome.toJob] at hw
      rw [hw]
    rw [hentry] at hjob
    obtain ⟨t, ht, hfresh, _, htold⟩ := entry_job hjob
    obtain ⟨hsilence, rfl⟩ := told_job htold
    refine ⟨e.finding, t, ⟨before, after, hfs, ht, ?_, ?_⟩, hsilence, rfl⟩
    · intro hincident
      apply hfresh
      apply mem_append_left
      exact mem_openBefore.mpr ((stored e.finding (by simp [hfs]) _).mpr hincident)
    · intro g hg u hu hsame
      apply hfresh
      simp only [incidentOf, Prod.mk.injEq] at hsame
      have hopened := scope_opened c (openBefore existing) hg hu
      rwa [incidentScope, hsame.1, hsame.2] at hopened
  · rintro ⟨f, t, ⟨before, after, rfl, ht, hfresh, hfirst⟩, hsilence, rfl⟩
    have hnot : incidentScope f t ∉ openBefore existing ++
        (entries c (openBefore existing) before).flatMap Entry.opens := by
      intro hmem
      obtain hmem | hmem := mem_append.mp hmem
      · exact hfresh ((stored f (by simp) _).mp (mem_openBefore.mp hmem))
      · obtain ⟨g, hg, u, hu, hscope⟩ := mem_opens hmem
        obtain ⟨horganization, hkey⟩ := scopedText_injective hscope
        exact hfirst g hg u hu (Prod.ext horganization hkey)
    have hentry : entry c (openBefore existing ++
        (entries c (openBefore existing) before).flatMap Entry.opens) f ∈
        decisionEntries (before ++ f :: after) existing c := by
      rw [decisionEntries, entries_append, entries]
      exact mem_append_right _ (mem_cons_self ..)
    refine ⟨jobFor c f t, ⟨_, hentry, ?_⟩, rfl⟩
    simp [entry_typed ht, hnot, Entry.toJob, told, hsilence, Outcome.toJob]

theorem find_isSome {β : Type} [DecidableEq β] {l : List α} {g : α → β} {k : β} :
    (l.find? (g · = k)).isSome ↔ ∃ x ∈ l, g x = k := by
  simp [find?_isSome]

theorem isSome_or_guard {o o' : Option α} {g : Prop} [Decidable g] :
    (o.or (if g then o' else none)).isSome ↔ o.isSome ∨ g ∧ o'.isSome := by
  by_cases hg : g <;> simp [hg]

theorem not_withheld {t : PipelineTables} :
    (t.withheldNotice k).isNone = true ↔ k ∉ (keysOf t).withheld := by
  simp [keysOf]

theorem not_notified {t : PipelineTables} :
    (t.notification k).isNone = true ↔ k ∉ (keysOf t).notified := by
  simp [keysOf]

/-- A committed decision settles its findings. -/
theorem keysOf_committed {t t' : PipelineTables} {createdAt : Micros}
    (stored : Matches existing decided (keysOf t) fs)
    (h : Committed t createdAt
      (FindingPipeline.decide fs existing (p.context tickAtIso decided)) t') :
    keysOf t' = settle p (keysOf t) fs := by
  have hundecided : ∀ f ∈ fs, noticeOf f ∉ (keysOf t).notified →
      noticeOf f ∉ (keysOf t).withheld →
      (p.context tickAtIso decided).decidedBefore f = false := by
    intro f hf hnotified hwithheld
    rw [Context.decidedBefore, decide_eq_false_iff_not]
    intro hdecided
    exact (stored.decided f hf hdecided).elim hnotified hwithheld
  have hnotified : (keysOf t').notified = (settle p (keysOf t) fs).notified := by
    ext k
    change (t'.notification k).isSome ↔ _
    rw [h.notifications k, isSome_or_guard, not_withheld, isSome_map, find_isSome,
      mem_notifications]
    constructor
    · rintro (hstored | ⟨hwithheld, f, hf, u, hu, _, htier, hk⟩)
      · exact .inl hstored
      · exact .inr ⟨⟨f, hf, u, hu, iff_of_false htier id, hk⟩, hwithheld⟩
    · rintro (hstored | ⟨⟨f, hf, u, hu, htier, rfl⟩, hwithheld⟩)
      · exact .inl hstored
      · by_cases hstored : noticeOf f ∈ (keysOf t).notified
        · exact .inl hstored
        · exact .inr ⟨hwithheld, f, hf, u, hu, hundecided f hf hstored hwithheld,
            fun hrecord => htier.mp hrecord, rfl⟩
  ext k
  · change (t'.incident k).isSome ↔ _
    rw [h.incidents k, isSome_or, Bool.or_eq_true, isSome_map, find_isSome]
    constructor
    · rintro (hstored | ⟨w, hw, rfl⟩)
      · exact .inl hstored
      · exact .inr (mem_incidents hw)
    · rintro (hstored | ⟨f, hf, u, hu, rfl⟩)
      · exact .inl hstored
      · obtain hexisting | ⟨w, hw, horganization, hkey⟩ :=
          incident_exists existing (p.context tickAtIso decided) f hf u hu
        · exact .inl ((stored.incidents f hf _).mp hexisting)
        · exact .inr ⟨w, hw, Prod.ext horganization hkey⟩
  · rw [hnotified]
  · change (t'.withheldNotice k).isSome ↔ _
    rw [h.withheld k, isSome_or_guard, not_notified, hnotified, isSome_map, find_isSome,
      mem_withheld]
    constructor
    · rintro (hstored | ⟨hfree, f, hf, u, hu, _, htier, hk⟩)
      · exact .inl hstored
      · exact .inr ⟨⟨f, hf, u, hu, iff_of_true htier trivial, hk⟩, hfree⟩
    · rintro (hstored | ⟨⟨f, hf, u, hu, htier, rfl⟩, hfree⟩)
      · exact .inl hstored
      · by_cases hstored : noticeOf f ∈ (keysOf t).withheld
        · exact .inl hstored
        · exact .inr ⟨hfree, f, hf, u, hu,
            hundecided f hf (fun hn => hfree (.inl hn)) hstored, htier.mpr trivial, rfl⟩
  · change (t'.job k).isSome ↔ _
    rw [h.jobs k, isSome_or, Bool.or_eq_true, isSome_map, find_isSome,
      mem_jobs stored.incidents]
    rfl

end Commit

end IntakeKeys
