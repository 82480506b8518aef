import HawkView.Lib.Runs
import Mathlib.Data.List.Basic

/-!
# Transactions under locks

A transaction takes its locks one by one, reads as it goes, and gives them all
back when it commits, together with all that it writes. What it has read under a
lock stays as it is until then, since nobody commits against the lock.
-/

universe u v w x

namespace Locking

open List

inductive Mode
  | shared | exclusive
  deriving DecidableEq, Repr

/-- Two sessions may hold one lock in these modes. -/
def Mode.admits : Mode → Mode → Bool
  | .shared, .shared => true
  | _, _ => false

theorem Mode.admits_comm (m n : Mode) : m.admits n = n.admits m := by cases m <;> cases n <;> rfl

variable {L : Type u} {D : Type v} {P : Type w} {X : Type x}

/-- What a transaction does next. A commit is told the number of its session and draws on `X` for
what the store does not say. -/
inductive Move (L : Type u) (D : Type v) (P : Type w) (X : Type x)
  | acquire (lock : L) (mode : Mode) (next : D → P)
  | observe (next : D → P)
  | commit (write : Nat → X → D → Option (D × P))
  | rest

/-- The transactions that may run, by phase. -/
structure Program (L : Type u) (D : Type v) (P : Type w) (X : Type x) where
  starts : P → Bool
  move : P → Move L D P X
  aborted : P → P

structure Session (L : Type u) (P : Type w) where
  phase : P
  held : List (L × Mode)

structure State (L : Type u) (D : Type v) (P : Type w) where
  db : D
  sessions : List (Session L P)

inductive Action (P : Type w) (X : Type x)
  | start (p : P)
  | advance (i : Nat) (x : X)
  | abort (i : Nat)

/-- Nobody holds the lock in a mode that refuses this one. -/
def free [DecidableEq L] (lock : L) (mode : Mode) (others : List (Session L P)) : Bool :=
  others.all fun t => t.held.all fun h => h.1 != lock || h.2.admits mode

/-- Two sessions hold nothing against each other. -/
def Apart (t u : Session L P) : Prop :=
  ∀ a ∈ t.held, ∀ b ∈ u.held, a.1 = b.1 → a.2.admits b.2 = true

variable {t u : Session L P}

theorem Apart.symm (h : Apart t u) : Apart u t := by
  intro b hb a ha heq
  rw [Mode.admits_comm]
  exact h a ha b hb heq.symm

theorem Apart.of_empty {p : P} (u : Session L P) : Apart ⟨p, []⟩ u := by
  intro a ha
  cases ha

/-- An exclusive lock of one session is not held by the other. -/
theorem Apart.exclusive (h : Apart t u) {lock : L} {mode : Mode}
    (ht : (lock, .exclusive) ∈ t.held) (hu : (lock, mode) ∈ u.held) : False := by
  have hadmits := h _ ht _ hu rfl
  cases hadmits

def step [DecidableEq L] (prog : Program L D P X) (s : State L D P) :
    Action P X → Option (State L D P)
  | .start p =>
    if prog.starts p then some { s with sessions := s.sessions ++ [⟨p, []⟩] } else none
  | .advance i x => (s.sessions[i]?).bind fun t =>
    match prog.move t.phase with
    | .acquire lock mode next =>
      if free lock mode (s.sessions.eraseIdx i) then
        some { s with sessions := s.sessions.set i ⟨next s.db, (lock, mode) :: t.held⟩ }
      else none
    | .observe next => some { s with sessions := s.sessions.set i ⟨next s.db, t.held⟩ }
    | .commit write => (write i x s.db).map fun (db, p) => ⟨db, s.sessions.set i ⟨p, []⟩⟩
    | .rest => none
  | .abort i => (s.sessions[i]?).map fun t =>
    { s with sessions := s.sessions.set i ⟨prog.aborted t.phase, []⟩ }

/-- What the sessions keep: `G` of the store, and `K` of what each session knows of it. -/
structure Discipline (prog : Program L D P X) (since : Nat) (G : D → Prop)
    (K : D → Nat → Session L P → Prop) : Prop where
  start : ∀ {db i p}, G db → since ≤ i → prog.starts p = true → K db i ⟨p, []⟩
  acquire : ∀ {db i t lock mode next}, G db → K db i t →
    prog.move t.phase = .acquire lock mode next → K db i ⟨next db, (lock, mode) :: t.held⟩
  observe : ∀ {db i t next}, G db → K db i t → prog.move t.phase = .observe next →
    K db i ⟨next db, t.held⟩
  commit : ∀ {db i t write x db' p}, G db → K db i t → prog.move t.phase = .commit write →
    write i x db = some (db', p) → G db' ∧ K db' i ⟨p, []⟩
  stable : ∀ {db i t write x db' p j u}, G db → K db i t → prog.move t.phase = .commit write →
    write i x db = some (db', p) → i ≠ j → K db j u → Apart t u → K db' j u
  abort : ∀ {db i t}, G db → K db i t → K db i ⟨prog.aborted t.phase, []⟩

structure Holds (since : Nat) (G : D → Prop) (K : D → Nat → Session L P → Prop)
    (s : State L D P) : Prop where
  later : since ≤ s.sessions.length
  store : G s.db
  known : ∀ (i : Nat) (t : Session L P), s.sessions[i]? = some t → K s.db i t
  apart : ∀ (i j : Nat) (t u : Session L P), i ≠ j → s.sessions[i]? = some t →
    s.sessions[j]? = some u → Apart t u

section Rules

variable {prog : Program L D P X} {since : Nat} {G : D → Prop}
  {K : D → Nat → Session L P → Prop} {s s' : State L D P}

theorem free_apart [DecidableEq L] {lock : L} {mode : Mode} {sessions : List (Session L P)}
    {i j : Nat} {u : Session L P} (h : free lock mode (sessions.eraseIdx i) = true) (hij : i ≠ j)
    (hu : sessions[j]? = some u) : ∀ b ∈ u.held, b.1 = lock → b.2.admits mode = true := by
  have hmem : u ∈ sessions.eraseIdx i := by
    rw [mem_eraseIdx_iff_getElem?]
    exact ⟨j, hij.symm, hu⟩
  rw [free, List.all_eq_true] at h
  intro b hb heq
  have hheld := List.all_eq_true.mp (h u hmem) b hb
  simpa [heq] using hheld

/-- Replacing one session by a compatible one that knows what it should. -/
theorem Holds.set (h : Holds since G K s) {i : Nat} {t : Session L P} (db : D) (store : G db)
    (others : ∀ j u, i ≠ j → s.sessions[j]? = some u → K db j u)
    (known : K db i t)
    (apart : ∀ j u, i ≠ j → s.sessions[j]? = some u → Apart t u) :
    Holds since G K ⟨db, s.sessions.set i t⟩ := by
  have hget : ∀ j u, (s.sessions.set i t)[j]? = some u →
      i = j ∧ u = t ∨ i ≠ j ∧ s.sessions[j]? = some u := by
    intro j u hu
    rw [List.getElem?_set] at hu
    split at hu
    · rename_i heq
      split at hu
      · exact .inl ⟨heq, (Option.some.inj hu).symm⟩
      · cases hu
    · rename_i hne
      exact .inr ⟨hne, hu⟩
  refine ⟨by simpa using h.later, store, ?_, ?_⟩
  · intro j u hu
    rcases hget j u hu with ⟨rfl, rfl⟩ | ⟨hne, hu⟩
    · exact known
    · exact others j u hne hu
  · intro j k u v hjk hu hv
    rcases hget j u hu with ⟨rfl, rfl⟩ | ⟨hj, hju⟩
    · rcases hget k v hv with ⟨rfl, _⟩ | ⟨hk, hkv⟩
      · exact absurd rfl hjk
      · exact apart k v hk hkv
    · rcases hget k v hv with ⟨rfl, rfl⟩ | ⟨hk, hkv⟩
      · exact Apart.symm (apart j u hj hju)
      · exact h.apart j k u v hjk hju hkv

theorem step_holds [DecidableEq L] (d : Discipline prog since G K) (h : Holds since G K s)
    {a : Action P X} (hstep : step prog s a = some s') : Holds since G K s' := by
  cases a with
  | start p =>
    simp only [step] at hstep
    split at hstep
    · rename_i hstarts
      cases hstep
      have hget : ∀ j u, (s.sessions ++ [⟨p, []⟩])[j]? = some u →
          s.sessions[j]? = some u ∨ j = s.sessions.length ∧ u = ⟨p, []⟩ := by
        intro j u hu
        rw [getElem?_append] at hu
        split at hu
        · exact .inl hu
        · rename_i hj
          obtain ⟨hlt, heq⟩ := List.getElem?_eq_some_iff.mp hu
          simp only [length_singleton] at hlt
          right
          refine ⟨by omega, ?_⟩
          simpa using heq.symm
      refine ⟨?_, h.store, ?_, ?_⟩
      · have := h.later
        simp only [length_append, length_singleton]
        omega
      · intro j u hu
        rcases hget j u hu with hu | ⟨rfl, rfl⟩
        · exact h.known j u hu
        · exact d.start h.store h.later hstarts
      · intro j k u v hjk hu hv
        rcases hget j u hu with hu | ⟨rfl, rfl⟩
        · rcases hget k v hv with hv | ⟨rfl, rfl⟩
          · exact h.apart j k u v hjk hu hv
          · exact (Apart.of_empty u).symm
        · exact Apart.of_empty v
    · cases hstep
  | advance i x =>
    simp only [step, Option.bind_eq_some_iff] at hstep
    obtain ⟨t, ht, hmove⟩ := hstep
    have hknown := h.known i t ht
    split at hmove
    · rename_i lock mode next hnext
      split at hmove
      · rename_i hfree
        cases hmove
        apply h.set s.db h.store (fun j u _ hu => h.known j u hu) (d.acquire h.store hknown hnext)
        intro j u hij hu a ha b hb heq
        rcases mem_cons.mp ha with rfl | ha
        · rw [Mode.admits_comm]
          exact free_apart hfree hij hu b hb heq.symm
        · exact h.apart i j t u hij ht hu a ha b hb heq
      · cases hmove
    · rename_i next hnext
      cases hmove
      exact h.set s.db h.store (fun j u _ hu => h.known j u hu) (d.observe h.store hknown hnext)
        fun j u hij hu => h.apart i j t u hij ht hu
    · rename_i write hwrite
      simp only [Option.map_eq_some_iff, Prod.exists] at hmove
      obtain ⟨db, p, hdb, rfl⟩ := hmove
      obtain ⟨hstore, hown⟩ := d.commit h.store hknown hwrite hdb
      apply h.set db hstore _ hown fun j u _ _ => Apart.of_empty u
      intro j u hij hu
      exact d.stable h.store hknown hwrite hdb hij (h.known j u hu) (h.apart i j t u hij ht hu)
    · cases hmove
  | abort i =>
    simp only [step, Option.map_eq_some_iff] at hstep
    obtain ⟨t, ht, rfl⟩ := hstep
    exact h.set s.db h.store (fun j u _ hu => h.known j u hu) (d.abort h.store (h.known i t ht))
      fun j u _ _ => Apart.of_empty u

/-- A discipline that every kind of step keeps holds along every run. -/
theorem run_holds [DecidableEq L] (d : Discipline prog since G K) (h : Holds since G K s)
    {as : List (Action P X)} (hrun : Runs.run (step prog) s as = some s') : Holds since G K s' :=
  Runs.invariant (fun _ _ _ h hstep => step_holds d h hstep) h hrun

/-- At the start there is only the store. -/
theorem holds_initial {db : D} (store : G db) : Holds (L := L) (P := P) 0 G K ⟨db, []⟩ where
  later := Nat.zero_le _
  store := store
  known i t ht := by cases ht
  apart i j t u _ ht := by cases ht

end Rules

end Locking
