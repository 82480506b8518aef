import HawkView.Alerts.EmailDelivery

/-!
# What the ledger keeps

Whatever is accepted and recorded, in any order: a provider id names one job,
every event is counted once, the first outcome of a job stays, and a collision
is reported when two messages were accepted under one id.
-/

namespace DeliveryLedger

open EmailDelivery List Option

inductive Operation
  | accept (attempt : SendAttempt) (acceptance : Acceptance)
  | record (received : Received)

def step (ledger : Ledger) : Operation → Ledger
  | .accept attempt acceptance => accept ledger attempt acceptance
  | .record received => record ledger received

def ledgerAfter (ops : List Operation) : Ledger := ops.foldl step emptyLedger

theorem ledgerAfter_append (ops more : List Operation) :
    ledgerAfter (ops ++ more) = more.foldl step (ledgerAfter ops) := foldl_append

/-! ## The history -/

/-- The provider id and the message of a send that was accepted. -/
def acceptance : Operation → Option (JsString × JsString)
  | .accept attempt (.accepted providerId _) => some (providerId, attempt.messageId)
  | .accept _ (.refused _ _) | .record _ => none

def acceptances (ops : List Operation) : List (JsString × JsString) := ops.filterMap acceptance

def isRecord : Operation → Bool
  | .record _ => true
  | .accept _ _ => false

def recorded (ops : List Operation) : Nat := ops.countP isRecord

/-- Two messages were accepted under one id. -/
def Collided (ops : List Operation) (providerId : JsString) : Prop :=
  ∃ m m', m ≠ m' ∧ (providerId, m) ∈ acceptances ops ∧ (providerId, m') ∈ acceptances ops

/-! ## Replacing one job -/

section Modify

variable {α β : Type} {f : α → α}

theorem filterMap_modify {g : α → Option β} (same : ∀ a, g (f a) = g a) (l : List α) (i : Nat) :
    (l.modify i f).filterMap g = l.filterMap g := by
  induction l generalizing i with
  | nil => simp
  | cons a l ih =>
    cases i with
    | zero => simp [filterMap_cons, same]
    | succ i => simp [filterMap_cons, ih]

theorem countP_modify {p : α → Bool} {l : List α} {i : Nat} {a : α} (held : l[i]? = some a)
    (before : p a = false) (after : p (f a) = true) :
    (l.modify i f).countP p = l.countP p + 1 := by
  induction l generalizing i with
  | nil => simp at held
  | cons b l ih =>
    cases i with
    | zero =>
      cases held
      simp [before, after]
    | succ i =>
      simp only [modify_succ_cons, countP_cons]
      have := ih held
      omega

end Modify

/-- A job stays, or gets its outcome. -/
inductive Continues : Job → Job → Prop
  | same (job : Job) : Continues job job
  | resolved (messageId providerId acceptedAtIso since : JsString) (outcome : Outcome) :
    Continues (.unresolved messageId providerId acceptedAtIso since)
      (.resolved messageId providerId acceptedAtIso outcome)

theorem Continues.trans {a b c : Job} (hab : Continues a b) (hbc : Continues b c) :
    Continues a c := by
  cases hab with
  | same => exact hbc
  | resolved =>
    cases hbc
    constructor

theorem continues_resolve (job : Job) (outcome : Outcome) :
    Continues job (job.resolve outcome) := by
  cases job with
  | unresolved => exact .resolved _ _ _ _ _
  | resolved => exact .same _
  | refused => exact .same _

theorem binding_resolve (outcome : Outcome) (job : Job) :
    (job.resolve outcome).binding = job.binding := by
  cases job <;> rfl

variable {providerId : JsString} {job : Job}

theorem holds_iff :
    job.holds providerId = true ↔ ∃ m, job.binding = some (providerId, m) := by
  rw [Job.holds]
  cases job.binding with
  | none => simp
  | some bound =>
    obtain ⟨p, m⟩ := bound
    simp

variable {ledger : Ledger}

theorem mem_bindings {bound : JsString × JsString} :
    bound ∈ bindings ledger ↔ ∃ job ∈ ledger.jobs, job.binding = some bound :=
  mem_filterMap

/-- What one event does: it resolves a job that waits, or it is listed. -/
theorem record_cases (ledger : Ledger) (received : Received) :
    (∃ event place job, received = .authentic event ∧ ledger.jobs[place]? = some job ∧
      job.isUnresolved = true ∧ job.holds event.providerId = true ∧
      record ledger received =
        { ledger with jobs := ledger.jobs.modify place (Job.resolve (outcomeOf event)) }) ∨
    ∃ unmatched, record ledger received =
      { ledger with unmatched := ledger.unmatched ++ [unmatched] } := by
  cases received with
  | rejected rejected => exact .inr ⟨rejected, rfl⟩
  | authentic event =>
    rw [record]
    cases htarget : target ledger event.providerId with
    | none => exact .inr ⟨_, rfl⟩
    | some place =>
      obtain ⟨hlt, hjob, _⟩ := List.findIdx?_eq_some_iff_getElem.mp htarget
      rw [Bool.and_eq_true] at hjob
      exact .inl ⟨event, place, ledger.jobs[place], rfl, getElem?_eq_getElem hlt, hjob.1,
        hjob.2, rfl⟩

theorem accept_cases (ledger : Ledger) (attempt : SendAttempt) (answer : Acceptance) :
    (∃ providerId atIso, answer = .accepted providerId atIso ∧
      (∃ m, (providerId, m) ∈ bindings ledger) ∧
      accept ledger attempt answer = { ledger with
        retries := ledger.retries ++ [⟨providerId, attempt.messageId, atIso⟩] }) ∨
    (∃ providerId atIso, answer = .accepted providerId atIso ∧
      (∀ m, (providerId, m) ∉ bindings ledger) ∧
      accept ledger attempt answer = { ledger with
        jobs := ledger.jobs ++ [.unresolved attempt.messageId providerId atIso atIso] }) ∨
    ∃ code atIso, answer = .refused code atIso ∧ accept ledger attempt answer = { ledger with
      jobs := ledger.jobs ++ [.refused attempt.messageId atIso code] } := by
  cases answer with
  | refused code atIso => exact .inr (.inr ⟨code, atIso, rfl, rfl⟩)
  | accepted providerId atIso =>
    rw [accept]
    cases hheld : ledger.jobs.find? (Job.holds providerId) with
    | some job =>
      obtain ⟨m, hbinding⟩ := holds_iff.mp (find?_some hheld)
      exact .inl ⟨providerId, atIso, rfl,
        ⟨m, mem_bindings.mpr ⟨job, mem_of_find?_eq_some hheld, hbinding⟩⟩, rfl⟩
    | none =>
      refine .inr (.inl ⟨providerId, atIso, rfl, ?_, rfl⟩)
      intro m hmem
      obtain ⟨job, hjob, hbinding⟩ := mem_bindings.mp hmem
      rw [find?_eq_none] at hheld
      exact hheld job hjob (holds_iff.mpr ⟨m, hbinding⟩)

/-! ## The books -/

/-- What holds of the ledger after a history. -/
structure Books (ops : List Operation) (ledger : Ledger) : Prop where
  unique : ((bindings ledger).map Prod.fst).Nodup
  counted : resolvedCount ledger + ledger.unmatched.length = recorded ops
  told : ∀ bound, bound ∈ acceptances ops ↔
    bound ∈ bindings ledger ∨ ∃ retry ∈ ledger.retries, (retry.providerId, retry.messageId) = bound
  held : ∀ retry ∈ ledger.retries, ∃ m, (retry.providerId, m) ∈ bindings ledger

section Books

variable {ops : List Operation} {ledger : Ledger}

theorem empty_books : Books [] emptyLedger where
  unique := nodup_nil
  counted := rfl
  told bound := by simp [acceptances, bindings, emptyLedger]
  held retry h := absurd h not_mem_nil

variable {ops' : List Operation} {ledger' : Ledger}

section

variable (h : Books ops ledger)
include h

/-- An operation that binds nothing and starts no retry. -/
theorem Books.carry (bound : bindings ledger' = bindings ledger)
    (retries : ledger'.retries = ledger.retries) (accepted : acceptances ops' = acceptances ops)
    (counted : resolvedCount ledger' + ledger'.unmatched.length = recorded ops') :
    Books ops' ledger' where
  unique := bound ▸ h.unique
  counted := counted
  told := by
    rw [accepted, bound, retries]
    exact h.told
  held := by
    rw [bound, retries]
    exact h.held

/-- An acceptance of a provider id that is bound becomes a retry. -/
theorem Books.retry {retry : Retry}
    (bound : ∃ m, (retry.providerId, m) ∈ bindings ledger)
    (accepted : acceptances ops' = acceptances ops ++ [(retry.providerId, retry.messageId)])
    (same : recorded ops' = recorded ops) :
    Books ops' { ledger with retries := ledger.retries ++ [retry] } where
  unique := h.unique
  counted := h.counted.trans same.symm
  told := by
    intro pair
    rw [accepted, mem_append, h.told, mem_singleton]
    constructor
    · rintro ((hpair | ⟨other, hother, hsame⟩) | rfl)
      · exact .inl hpair
      · exact .inr ⟨other, mem_append_left _ hother, hsame⟩
      · exact .inr ⟨retry, mem_append_right _ (mem_singleton.mpr rfl), rfl⟩
    · rintro (hpair | ⟨other, hother, hsame⟩)
      · exact .inl (.inl hpair)
      · rw [mem_append, mem_singleton] at hother
        obtain hother | rfl := hother
        · exact .inl (.inr ⟨other, hother, hsame⟩)
        · exact .inr hsame.symm
  held := by
    intro other hother
    rw [mem_append, mem_singleton] at hother
    obtain hother | rfl := hother
    · exact h.held other hother
    · exact bound

/-- An acceptance of a new provider id is bound. -/
theorem Books.bind (pair : JsString × JsString)
    (fresh : ∀ m, (pair.1, m) ∉ bindings ledger)
    (bound : bindings ledger' = bindings ledger ++ [pair])
    (retries : ledger'.retries = ledger.retries)
    (accepted : acceptances ops' = acceptances ops ++ [pair])
    (counted : resolvedCount ledger' + ledger'.unmatched.length = recorded ops') :
    Books ops' ledger' where
  unique := by
    rw [bound, map_append, nodup_append]
    refine ⟨h.unique, nodup_singleton _, ?_⟩
    rintro q hq r hr rfl
    obtain ⟨⟨q, m⟩, hmem, rfl⟩ := mem_map.mp hq
    rw [map_singleton, mem_singleton] at hr
    rw [show q = pair.1 from hr] at hmem
    exact fresh m hmem
  counted := counted
  told := by
    intro other
    rw [accepted, bound, retries, mem_append, mem_append, h.told]
    constructor
    · rintro ((hother | hretry) | hnew)
      · exact .inl (.inl hother)
      · exact .inr hretry
      · exact .inl (.inr hnew)
    · rintro ((hother | hnew) | hretry)
      · exact .inl (.inl hother)
      · exact .inr hnew
      · exact .inl (.inr hretry)
  held := by
    intro retry hretry
    rw [retries] at hretry
    obtain ⟨m, hm⟩ := h.held retry hretry
    rw [bound]
    exact ⟨m, mem_append_left _ hm⟩

theorem Books.accept (attempt : SendAttempt) (answer : Acceptance) :
    Books (ops ++ [.accept attempt answer]) (EmailDelivery.accept ledger attempt answer) := by
  have hrecorded : recorded (ops ++ [.accept attempt answer]) = recorded ops := by
    simp [recorded, isRecord]
  obtain ⟨p, atIso, rfl, hbound, heq⟩ | ⟨p, atIso, rfl, hfresh, heq⟩ | ⟨code, atIso, rfl, heq⟩ :=
    accept_cases ledger attempt answer
  · rw [heq]
    exact h.retry hbound (by simp [acceptances, acceptance]) hrecorded
  · rw [heq]
    refine h.bind (p, attempt.messageId) hfresh ?_ rfl ?_ ?_
    · simp [bindings, Job.binding]
    · simp [acceptances, acceptance]
    · rw [hrecorded, ← h.counted]
      simp [resolvedCount, Job.isResolved]
  · rw [heq]
    refine h.carry ?_ rfl ?_ ?_
    · simp [bindings, Job.binding]
    · simp [acceptances, acceptance]
    · rw [hrecorded, ← h.counted]
      simp [resolvedCount, Job.isResolved]

theorem Books.record (received : Received) :
    Books (ops ++ [.record received]) (EmailDelivery.record ledger received) := by
  have hrecorded : recorded (ops ++ [.record received]) = recorded ops + 1 := by
    simp [recorded, isRecord]
  have hcounted := h.counted
  obtain ⟨event, place, job, rfl, hjob, hwaits, _, heq⟩ | ⟨unmatched, heq⟩ :=
    record_cases ledger received
  · have hresolved : resolvedCount (EmailDelivery.record ledger (.authentic event)) =
        resolvedCount ledger + 1 := by
      rw [heq]
      apply countP_modify hjob
      · cases job <;> trivial
      · cases job <;> trivial
    rw [heq] at hresolved ⊢
    refine h.carry (filterMap_modify (binding_resolve _) _ _) rfl ?_ ?_
    · simp [acceptances, acceptance]
    · rw [hrecorded, hresolved]
      simp only
      omega
  · rw [heq]
    refine h.carry rfl rfl ?_ ?_
    · simp [acceptances, acceptance]
    · rw [hrecorded, length_append, length_singleton]
      simp only [resolvedCount] at hcounted ⊢
      omega

end

theorem books (ops : List Operation) : Books ops (ledgerAfter ops) := by
  induction ops using reverseRecOn with
  | nil => exact empty_books
  | append_singleton ops op ih =>
    rw [ledgerAfter_append, foldl_cons, foldl_nil]
    cases op with
    | accept attempt answer => exact ih.accept attempt answer
    | record received => exact ih.record received

end Books

/-! ## Jobs over time -/

variable {i : Nat}

theorem step_continues (ledger : Ledger) (op : Operation) (h : ledger.jobs[i]? = some job) :
    ∃ job', (step ledger op).jobs[i]? = some job' ∧ Continues job job' := by
  have hlt := (List.getElem?_eq_some_iff.mp h).1
  cases op with
  | accept attempt answer =>
    refine ⟨job, ?_, .same job⟩
    obtain ⟨_, _, _, _, heq⟩ | ⟨_, _, _, _, heq⟩ | ⟨_, _, _, heq⟩ :=
      accept_cases ledger attempt answer
    · rw [step, heq]
      exact h
    · rw [step, heq, getElem?_append_left hlt]
      exact h
    · rw [step, heq, getElem?_append_left hlt]
      exact h
  | record received =>
    obtain ⟨event, place, _, _, _, _, _, heq⟩ | ⟨_, heq⟩ := record_cases ledger received
    · rw [step, heq, List.getElem?_modify, h]
      by_cases hplace : place = i
      · exact ⟨job.resolve (outcomeOf event), by simp [hplace], continues_resolve job _⟩
      · exact ⟨job, by simp [hplace], .same job⟩
    · rw [step, heq]
      exact ⟨job, h, .same job⟩

theorem run_continues (ledger : Ledger) (more : List Operation) (h : ledger.jobs[i]? = some job) :
    ∃ job', (more.foldl step ledger).jobs[i]? = some job' ∧ Continues job job' := by
  induction more generalizing ledger job with
  | nil => exact ⟨job, h, .same job⟩
  | cons op more ih =>
    obtain ⟨next, hnext, hstep⟩ := step_continues ledger op h
    obtain ⟨last, hlast, hrest⟩ := ih (step ledger op) hnext
    exact ⟨last, hlast, hstep.trans hrest⟩

variable {ops : List Operation}

/-- In two places the ledger has two ids. -/
theorem Books.place_unique (h : Books ops ledger) {j : Nat} {a b : Job}
    (ha : ledger.jobs[i]? = some a) (hb : ledger.jobs[j]? = some b)
    (haholds : a.holds providerId = true) (hbholds : b.holds providerId = true) : i = j := by
  obtain ⟨m, ham⟩ := holds_iff.mp haholds
  obtain ⟨m', hbm⟩ := holds_iff.mp hbholds
  have hpairwise := h.unique
  rw [bindings, Nodup, pairwise_map, pairwise_filterMap] at hpairwise
  by_contra hne
  obtain ⟨hi, rfl⟩ := List.getElem?_eq_some_iff.mp ha
  obtain ⟨hj, rfl⟩ := List.getElem?_eq_some_iff.mp hb
  obtain hlt | hlt := Nat.lt_or_gt_of_ne hne
  · exact pairwise_iff_getElem.mp hpairwise i j hi hj hlt _ ham _ hbm rfl
  · exact pairwise_iff_getElem.mp hpairwise j i hj hi hlt _ hbm _ ham rfl

/-- A waiting job gets the outcome of the first event for it. -/
theorem Books.first_outcome (h : Books ops ledger) {event : AuthenticEvent} {m a since : JsString}
    (hjob : ledger.jobs[i]? = some (.unresolved m event.providerId a since)) :
    (EmailDelivery.record ledger (.authentic event)).jobs[i]? =
      some (.resolved m event.providerId a (outcomeOf event)) := by
  have hwaits : ∀ unmatched, EmailDelivery.record ledger (.authentic event) ≠
      { ledger with unmatched := ledger.unmatched ++ [unmatched] } := by
    intro unmatched hsame
    have hnone : target ledger event.providerId ≠ none := by
      intro hnone
      have hall := List.findIdx?_eq_none_iff.mp hnone _ (mem_of_getElem? hjob)
      simp [Job.isUnresolved, Job.holds, Job.binding] at hall
    obtain ⟨place, hplace⟩ := ne_none_iff_exists'.mp hnone
    have hlength := congrArg (fun l => l.unmatched.length) hsame
    simp [EmailDelivery.record, hplace] at hlength
  obtain ⟨other, place, job, hevent, hplace, _, hholds, heq⟩ | ⟨unmatched, heq⟩ :=
    record_cases ledger (.authentic event)
  · cases hevent
    have hsame : place = i :=
      h.place_unique hplace hjob hholds (by simp [Job.holds, Job.binding])
    subst hsame
    rw [heq, List.getElem?_modify, hjob]
    simp [Job.resolve]
  · exact absurd heq (hwaits unmatched)

/-! ## What is reported -/

section Reported

variable {ops : List Operation} {ledger : Ledger}

theorem Books.messageFor (h : Books ops ledger) {p m : JsString}
    (hmem : (p, m) ∈ bindings ledger) : (JsMap.ofList (bindings ledger)).get? p = some m :=
  JsMap.get?_ofList h.unique hmem

theorem Books.collision_iff (h : Books ops ledger) (p : JsString) :
    (∃ m held, Problem.collision p m held ∈ collisions ledger) ↔ Collided ops p := by
  constructor
  · rintro ⟨m, held, hmem⟩
    obtain ⟨retry, hretry, hproblem⟩ := mem_filterMap.mp hmem
    obtain ⟨holder, hholder⟩ := h.held retry hretry
    simp only [h.messageFor hholder] at hproblem
    split_ifs at hproblem with hne
    cases hproblem
    exact ⟨held, retry.messageId, hne, (h.told _).mpr (.inl hholder),
      (h.told _).mpr (.inr ⟨retry, hretry, rfl⟩)⟩
  · rintro ⟨m, m', hne, hm, hm'⟩
    -- at most one of the two messages holds the id, the other came as a retry
    have hretried : ∀ {a b : JsString}, a ≠ b → (p, a) ∈ bindings ledger →
        (p, b) ∈ acceptances ops → ∃ m held, Problem.collision p m held ∈ collisions ledger := by
      intro a b hab ha hb
      obtain hb | ⟨retry, hretry, hsame⟩ := (h.told _).mp hb
      · have hequal := (h.messageFor ha).symm.trans (h.messageFor hb)
        exact absurd (Option.some.inj hequal) hab
      · cases hsame
        refine ⟨retry.messageId, a, mem_filterMap.mpr ⟨retry, hretry, ?_⟩⟩
        simp only [h.messageFor ha, if_pos hab]
    obtain hm | ⟨retry, hretry, hsame⟩ := (h.told _).mp hm
    · exact hretried hne hm hm'
    · cases hsame
      obtain ⟨holder, hholder⟩ := h.held retry hretry
      by_cases hsame : holder = retry.messageId
      · exact hretried (hsame ▸ hne) hholder hm'
      · exact hretried hsame hholder hm

theorem tally_get? (bounds : List (JsString × JsString)) (m : JsMap JsString Nat) (p : JsString) :
    ((bounds.foldl tally m).get? p).getD 0 = (m.get? p).getD 0 + (bounds.map Prod.fst).count p := by
  induction bounds generalizing m with
  | nil => simp
  | cons bound bounds ih =>
    rw [foldl_cons, ih, map_cons, count_cons, tally, JsMap.get?_set]
    by_cases hp : bound.1 = p
    · subst hp
      simp
      omega
    · simp [hp]

/-- No two jobs share a provider id. -/
theorem Books.unshared (h : Books ops ledger) (count : Nat) (p : JsString) (n : Nat) :
    Problem.shared count p ∉ problems ledger n := by
  intro hmem
  simp only [problems, mem_append] at hmem
  obtain (hmem | hmem) | hmem := hmem
  · obtain ⟨retry, _, hproblem⟩ := mem_filterMap.mp hmem
    split at hproblem
    · split_ifs at hproblem
      cases hproblem
    · cases hproblem
  · split_ifs at hmem
    · cases mem_singleton.mp hmem
    · cases hmem
  · obtain ⟨⟨q, c⟩, hentry, hproblem⟩ := mem_filterMap.mp hmem
    split_ifs at hproblem with hmany
    have htally := tally_get? (bindings ledger) .empty q
    rw [← byProvider, JsMap.get?_eq_some.mpr hentry] at htally
    have honce := List.nodup_iff_count_le_one.mp h.unique q
    simp only [getD_some, JsMap.get?_empty, getD_none] at htally
    omega

/-- The text of a collision, and of no other problem, begins with the provider's id. -/
def announced : JsString := js "provider id "

theorem not_announced (n : Nat) (rest : JsString) :
    (JsString.decimal n ++ rest).startsWith announced = false := by
  have hp : 0x70 ∉ JsString.decimal n := by
    intro hmem
    obtain ⟨c, hc, hunit⟩ := mem_map.mp hmem
    have hdigit := Nat.isDigit_of_mem_toDigits (b := 10) (by omega) (by omega) hc
    have hchar := JsString.unit_digit hdigit
    rw [hunit] at hchar
    rw [← hchar] at hdigit
    exact absurd hdigit (by decide)
  cases hdecimal : JsString.decimal n with
  | nil =>
    have hdigits := JsString.decimal_digits n
    rw [hdecimal] at hdigits
    exact absurd hdigits.symm Nat.toDigits_ne_nil
  | cons u us =>
    rw [hdecimal, mem_cons, not_or] at hp
    have hhead : announced = 0x70 :: js "rovider id " := by decide
    rw [JsString.startsWith, hhead, cons_append, isPrefixOf_cons_cons]
    simp [hp.1]

theorem announced_iff (problem : Problem) : problem.text.startsWith announced = true ↔
    ∃ p m held, problem = .collision p m held := by
  cases problem with
  | collision p m held =>
    have hstart : (Problem.collision p m held).text.startsWith announced = true := by
      simp [Problem.text, JsString.startsWith, announced]
    simp [hstart]
  | unaccounted n resolved unmatched =>
    simp [Problem.text, append_assoc, not_announced]
  | shared count p => simp [Problem.text, append_assoc, not_announced]

end Reported

theorem count_bindings (ledger : Ledger) (p : JsString) :
    ((bindings ledger).map Prod.fst).count p = ledger.jobs.countP (Job.holds p) := by
  rw [bindings, List.count, countP_map, countP_filterMap]
  apply countP_congr
  intro job _
  rw [Job.holds]
  cases job.binding with
  | none => simp
  | some bound => simp

/-- The event is counted once: it resolves a job, or it is listed as unmatched. -/
def CountedOnce (before after : Ledger) : Prop :=
  (resolvedCount after = resolvedCount before + 1 ∧ after.unmatched = before.unmatched) ∨
  (after.jobs = before.jobs ∧ ∃ event, after.unmatched = before.unmatched ++ [event])

/-- What the ledger keeps after a history. -/
structure Kept (ops : List Operation) : Prop where
  bound : ∀ p, (ledgerAfter ops).jobs.countP (Job.holds p) ≤ 1
  counted : resolvedCount (ledgerAfter ops) + (ledgerAfter ops).unmatched.length = recorded ops
  once : ∀ received, CountedOnce (ledgerAfter ops) (record (ledgerAfter ops) received)
  jobs : ∀ (more : List Operation) (i : Nat) (job : Job), (ledgerAfter ops).jobs[i]? = some job →
    ∃ job', (ledgerAfter (ops ++ more)).jobs[i]? = some job' ∧ Continues job job'
  first : ∀ (event : AuthenticEvent) (i : Nat) (m a since : JsString),
    (ledgerAfter ops).jobs[i]? = some (.unresolved m event.providerId a since) →
    (record (ledgerAfter ops) (.authentic event)).jobs[i]? =
      some (.resolved m event.providerId a (outcomeOf event))
  unshared : ∀ (count : Nat) (p : JsString) (n : Nat),
    Problem.shared count p ∉ problems (ledgerAfter ops) n
  collided : ∀ p n, (∃ m held, Problem.collision p m held ∈ problems (ledgerAfter ops) n) ↔
    Collided ops p
  reported : ∀ n, (∃ text ∈ accounting (ledgerAfter ops) n, text.startsWith announced = true) ↔
    ∃ p, Collided ops p

theorem ledger_kept (ops : List Operation) : Kept ops := by
  have hbooks := books ops
  have hcollision : ∀ p n, (∃ m held, Problem.collision p m held ∈ problems (ledgerAfter ops) n) ↔
      Collided ops p := by
    intro p n
    rw [← hbooks.collision_iff]
    have hmem : ∀ m held, Problem.collision p m held ∈ problems (ledgerAfter ops) n ↔
        Problem.collision p m held ∈ collisions (ledgerAfter ops) := by
      intro m held
      simp [problems]
    simp only [hmem]
  refine ⟨?_, hbooks.counted, ?_, ?_, ?_, hbooks.unshared, hcollision, ?_⟩
  · intro p
    rw [← count_bindings]
    exact List.nodup_iff_count_le_one.mp hbooks.unique p
  · intro received
    obtain ⟨event, place, job, rfl, hjob, hwaits, _, heq⟩ | ⟨unmatched, heq⟩ :=
      record_cases (ledgerAfter ops) received
    · left
      rw [heq]
      refine ⟨countP_modify hjob ?_ ?_, rfl⟩
      · cases job <;> trivial
      · cases job <;> trivial
    · right
      rw [heq]
      exact ⟨rfl, unmatched, rfl⟩
  · intro more i job hjob
    rw [ledgerAfter_append]
    exact run_continues _ more hjob
  · intro event i m a since hjob
    exact hbooks.first_outcome hjob
  · intro n
    constructor
    · rintro ⟨text, htext, hstarts⟩
      obtain ⟨problem, hproblem, rfl⟩ := mem_map.mp htext
      obtain ⟨p, m, held, rfl⟩ := (announced_iff problem).mp hstarts
      exact ⟨p, (hcollision p n).mp ⟨m, held, hproblem⟩⟩
    · rintro ⟨p, hcollided⟩
      obtain ⟨m, held, hproblem⟩ := (hcollision p n).mpr hcollided
      exact ⟨_, mem_map_of_mem hproblem, (announced_iff _).mpr ⟨p, m, held, rfl⟩⟩

end DeliveryLedger
