import HawkView.Lib.JsMap
import HawkView.Lib.JsNumber
import HawkView.Lib.JsString
import HawkView.Lib.PacedTimes

/-!
# A fixed-window counter of requests

A key has a window from its first request on, and its requests are counted until
the window ends. Only so many keys are tracked: where there is no room, the
windows that have ended go, or the one that ends soonest.
-/

namespace FixedWindow

open List

structure WindowState where
  allowed : Bool
  count : Nat
  limit : Nat
  retryAfterSeconds : Int
  deriving DecidableEq, Repr

structure Window where
  count : Nat
  endsAtMs : Int
  deriving DecidableEq, Repr

/-- What the constructor is given, after its checks. -/
structure FixedWindowCounter where
  limit : Nat
  windowMs : Nat
  maxKeys : Nat
  limit_pos : 0 < limit
  windowMs_pos : 0 < windowMs
  maxKeys_pos : 0 < maxKeys

/-- A whole number of at least one. -/
def wholeOf : JsNumber → Option { n : Nat // 0 < n }
  | .finite q => if h : q.den = 1 ∧ 0 < q.num.toNat then some ⟨q.num.toNat, h.2⟩ else none
  | .infinite _ => none
  | .nan => none

def create (limit windowMs maxKeys : JsNumber) : Except JsString FixedWindowCounter :=
  match wholeOf limit with
  | none => .error (js "A rate limit must be a whole number of at least one request.")
  | some limit =>
    match wholeOf windowMs with
    | none =>
      .error (js "A rate limit window must be a positive whole number of milliseconds.")
    | some windowMs =>
      match wholeOf maxKeys with
      | none => .error (js "A rate limit key cap must be a positive whole number.")
      | some maxKeys =>
        .ok ⟨limit.1, windowMs.1, maxKeys.1, limit.2, windowMs.2, maxKeys.2⟩

structure State where
  windows : JsMap JsString Window
  liveEvictions : Nat

def initial : State := ⟨.empty, 0⟩

def State.size (s : State) : Nat := s.windows.entries.length

/-- The loop over the windows, which keeps the first of those that end soonest. -/
def soonest (windows : List (JsString × Window)) : Option (JsString × Int) :=
  windows.foldl (fun soonest entry =>
    match soonest with
    | none => some (entry.1, entry.2.endsAtMs)
    | some (key, endsAtMs) =>
      if entry.2.endsAtMs < endsAtMs then some (entry.1, entry.2.endsAtMs)
      else some (key, endsAtMs)) none

structure Hit where
  key : JsString
  at₀ : Int
  deriving DecidableEq

namespace FixedWindowCounter

variable (c : FixedWindowCounter)

/-- A wait is rounded up to whole seconds, of which there is at least one. -/
def stateOf (window : Window) (nowMs : Int) : WindowState where
  allowed := decide (window.count ≤ c.limit)
  count := window.count
  limit := c.limit
  retryAfterSeconds := max 1 (-((nowMs - window.endsAtMs) / 1000))

/-- What is left when the windows that have ended are dropped. -/
def swept (windows : JsMap JsString Window) (nowMs : Int) : JsMap JsString Window :=
  windows.filter fun _ window => !decide (window.endsAtMs ≤ nowMs)

/-- The live key that has to go. -/
def evicted (windows : JsMap JsString Window) : Option JsString :=
  if windows.entries.length < c.maxKeys then none else (soonest windows.entries).map Prod.fst

def makeRoom (s : State) (nowMs : Int) : State :=
  let windows := swept s.windows nowMs
  match c.evicted windows with
  | none => { s with windows }
  | some soonest => ⟨windows.filter fun key _ => key ≠ soonest, s.liveEvictions + 1⟩

def full (s : State) (key : JsString) : Bool :=
  (s.windows.get? key).isNone && decide (c.maxKeys ≤ s.size)

/-- The state in which a key can be given a window. -/
def room (s : State) (h : Hit) : State := if c.full s h.key then c.makeRoom s h.at₀ else s

def hit (s : State) (h : Hit) : State × WindowState :=
  match (s.windows.get? h.key).filter fun existing => h.at₀ < existing.endsAtMs with
  | some existing =>
    let window := { existing with count := existing.count + 1 }
    ({ s with windows := s.windows.set h.key window }, c.stateOf window h.at₀)
  | none =>
    let s := c.room s h
    let fresh := ⟨1, h.at₀ + c.windowMs⟩
    ({ s with windows := s.windows.set h.key fresh }, c.stateOf fresh h.at₀)

/-! ## Sequences of hits -/

def after (hits : List Hit) : State := hits.foldl (fun s h => (c.hit s h).1) initial

/-- What the counter says of one more hit. -/
def told (hits : List Hit) (h : Hit) : WindowState := (c.hit (c.after hits) h).2

/-- Each hit with what the counter said of it. -/
def answers (s : State) : List Hit → List (Hit × WindowState)
  | [] => []
  | h :: hits => (h, (c.hit s h).2) :: answers (c.hit s h).1 hits

/-- When the hits of a key were allowed. -/
def allowedAt (hits : List Hit) (key : JsString) : List Int :=
  ((c.answers initial hits).filter fun answer => answer.1.key = key ∧ answer.2.allowed = true).map
    fun answer => answer.1.at₀

/-- The key that a hit evicts while its window is live. -/
def evicts (s : State) (h : Hit) : Option JsString :=
  if c.full s h.key then c.evicted (swept s.windows h.at₀) else none

def NeverEvicted (hits : List Hit) (key : JsString) : Prop :=
  ∀ before h, before ++ [h] <+: hits → c.evicts (c.after before) h ≠ some key

/-- The hits of a key in the window that is its current one after `hits`. -/
structure Opened (hits : List Hit) (key : JsString) (window : Window) (opening : Hit)
    (later : List Hit) : Prop where
  split : ∃ earlier, hits = earlier ++ opening :: later ∧
    ∀ old, (c.after earlier).windows.get? key = some old → old.endsAtMs ≤ opening.at₀
  opens : opening.key = key
  ends : window.endsAtMs = opening.at₀ + c.windowMs
  count : window.count = (opening :: later).countP fun h => h.key = key

@[simp] theorem after_append (hits : List Hit) (h : Hit) :
    c.after (hits ++ [h]) = (c.hit (c.after hits) h).1 := by
  rw [after, foldl_append]
  rfl

theorem answers_append (hits : List Hit) (h : Hit) :
    c.answers initial (hits ++ [h]) = c.answers initial hits ++ [(h, c.told hits h)] := by
  have hfrom : ∀ s, c.answers s (hits ++ [h]) = c.answers s hits ++
      [(h, (c.hit (hits.foldl (fun s h => (c.hit s h).1) s) h).2)] := by
    induction hits with
    | nil => exact fun _ => rfl
    | cons first hits ih =>
      intro s
      rw [cons_append, answers, answers, ih, foldl_cons, cons_append]
  exact hfrom initial

theorem allowedAt_append (hits : List Hit) (h : Hit) (key : JsString) :
    c.allowedAt (hits ++ [h]) key = c.allowedAt hits key ++
      if h.key = key ∧ (c.told hits h).allowed = true then [h.at₀] else [] := by
  rw [allowedAt, answers_append, filter_append, map_append, ← allowedAt]
  by_cases hallowed : h.key = key ∧ (c.told hits h).allowed = true
  · simp [hallowed]
  · simp [hallowed]

end FixedWindowCounter

end FixedWindow
