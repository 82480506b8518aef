import HawkView.Lib.JsonSize
import HawkView.RiskyUsers.FleetSummary

/-!
# Documents within the budget

What a document of a run may be made of to be within the budget of the summary.
-/

namespace FleetSummary

open Json RunRecord EvaluationContract List Option

/-- Not too deep, without a forbidden key, and of finite numbers. -/
inductive Storable : Nat → Json → Prop
  | null {depth : Nat} (shallow : depth ≤ 20) : Storable depth .null
  | bool {depth : Nat} (shallow : depth ≤ 20) (b : Bool) : Storable depth (.bool b)
  | string {depth : Nat} (shallow : depth ≤ 20) (s : JsString) : Storable depth (.string s)
  | number {depth : Nat} (shallow : depth ≤ 20) {n : NumberText} (finite : finiteNumber n = true) :
      Storable depth (.number n)
  | array {depth : Nat} (shallow : depth ≤ 20) {items : List Json}
      (inner : ∀ v ∈ items, Storable (depth + 1) v) : Storable depth (.array items)
  | object {depth : Nat} (shallow : depth ≤ 20) {entries : Fields}
      (allowed : ∀ e ∈ entries, e.1 ∉ forbiddenKeys)
      (inner : ∀ e ∈ entries, Storable (depth + 1) e.2) : Storable depth (.object entries)

variable {depth : Nat}

theorem spend_some {budget : Nat} (shallow : depth ≤ 20) (enough : 1 ≤ budget) :
    spend depth budget = some (budget - 1) := by
  cases budget with
  | zero => omega
  | succ left => simp [spend, Nat.not_lt.mpr shallow]

/-- What a value costs, whatever is left of the budget. -/
def Costs (depth : Nat) (v : Json) : Prop :=
  ∀ budget, nodes v ≤ budget → safeDocument depth v budget = some (budget - nodes v)

theorem safeItems_some {items : List Json} (h : ∀ v ∈ items, Costs depth v) :
    ∀ budget, nodesOfItems items ≤ budget →
      safeItems depth items budget = some (budget - nodesOfItems items) := by
  induction items with
  | nil => exact fun _ _ => rfl
  | cons v rest ih =>
    intro budget hbudget
    simp only [nodesOfItems] at hbudget ⊢
    rw [safeItems, h v mem_cons_self budget (by omega), bind_some,
      ih (fun w hw => h w (mem_cons_of_mem _ hw)) _ (by omega), Nat.sub_sub]

theorem safeEntries_some {entries : Fields} (allowed : ∀ e ∈ entries, e.1 ∉ forbiddenKeys)
    (h : ∀ e ∈ entries, Costs depth e.2) :
    ∀ budget, nodesOfEntries entries ≤ budget →
      safeEntries depth entries budget = some (budget - nodesOfEntries entries) := by
  induction entries with
  | nil => exact fun _ _ => rfl
  | cons e rest ih =>
    obtain ⟨name, v⟩ := e
    intro budget hbudget
    have hname : forbiddenKeys.contains name = false := by
      simpa using allowed (name, v) mem_cons_self
    have hv : Costs depth v := h (name, v) mem_cons_self
    simp only [nodesOfEntries] at hbudget ⊢
    rw [safeEntries, hname, if_neg Bool.false_ne_true, hv budget (by omega), bind_some,
      ih (fun f hf => allowed f (mem_cons_of_mem _ hf))
        (fun f hf => h f (mem_cons_of_mem _ hf)) _ (by omega), Nat.sub_sub]

variable {v : Json}

theorem Storable.costs (h : Storable depth v) : Costs depth v := by
  induction h with
  | null shallow => exact fun _ hbudget => spend_some shallow hbudget
  | bool shallow _ => exact fun _ hbudget => spend_some shallow hbudget
  | string shallow _ => exact fun _ hbudget => spend_some shallow hbudget
  | number shallow finite =>
    intro budget hbudget
    rw [safeDocument, if_pos finite]
    exact spend_some shallow hbudget
  | array shallow _ ih =>
    intro budget hbudget
    simp only [nodes] at hbudget ⊢
    rw [safeDocument, spend_some shallow (by omega), bind_some,
      safeItems_some ih _ (by omega), Nat.sub_sub]
  | object shallow allowed _ ih =>
    intro budget hbudget
    simp only [nodes] at hbudget ⊢
    rw [safeDocument, spend_some shallow (by omega), bind_some,
      safeEntries_some allowed ih _ (by omega), Nat.sub_sub]

theorem Storable.safe (h : Storable 0 v) (within : nodes v ≤ 50000) :
    isSafeDocument (some v) = true := by
  rw [isSafeDocument, any_some, h.costs 50000 within]
  rfl

theorem Storable.nil (shallow : depth ≤ 20) : Storable depth (.object []) :=
  .object shallow nofun nofun

theorem Storable.cons {name : JsString} {rest : Fields} (allowed : name ∉ forbiddenKeys)
    (hv : Storable (depth + 1) v) (hrest : Storable depth (.object rest)) :
    Storable depth (.object ((name, v) :: rest)) := by
  cases hrest with
  | object shallow allowedRest innerRest =>
    refine .object shallow ?_ ?_
    · exact forall_mem_cons.mpr ⟨allowed, allowedRest⟩
    · exact forall_mem_cons.mpr ⟨hv, innerRest⟩

/-- A count that is a number of the language. -/
def Exact (n : Nat) : Prop := n < 2 ^ 53

theorem Storable.count {n : Nat} (shallow : depth ≤ 20) (h : Exact n) :
    Storable depth (ofCount n) := by
  apply Storable.number shallow
  have hsmall : (n : ℚ) < 2 ^ 53 := by exact_mod_cast h
  have habs : |(n : ℚ)| = n := abs_of_nonneg (by positivity)
  have hlimit : (2 : ℚ) ^ 53 ≤ 2 ^ 1024 - 2 ^ 970 := by
    have hone : (1 : ℚ) ≤ 2 ^ 970 := one_le_pow₀ (by norm_num)
    have hsplit : (2 : ℚ) ^ 1024 = 2 ^ 54 * 2 ^ 970 := by rw [← pow_add]
    rw [hsplit]
    generalize (2 : ℚ) ^ 970 = unit at hone
    norm_num
    linarith
  simp only [finiteNumber, NumberText.value_ofInt, any_some, decide_eq_true_eq,
    Int.cast_natCast, habs]
  exact hsmall.trans_le hlimit

theorem Storable.list {α : Type} {items : List α} {f : α → Json} (shallow : depth ≤ 20)
    (h : ∀ a ∈ items, Storable (depth + 1) (f a)) :
    Storable depth (.array (items.map f)) := by
  refine .array shallow fun v hv => ?_
  obtain ⟨a, ha, rfl⟩ := mem_map.mp hv
  exact h a ha

theorem Storable.texts (shallow : depth + 1 ≤ 20) (texts : List JsString) :
    Storable depth (textsJson texts) :=
  .list (by omega) fun s _ => .string shallow s

theorem Storable.counts {counts : Counts} (shallow : depth + 1 ≤ 20)
    (h : ∀ e ∈ counts, e.1 ∉ forbiddenKeys ∧ Exact e.2) : Storable depth (countsJson counts) := by
  induction counts with
  | nil => exact .nil (by omega)
  | cons e rest ih =>
    have he := h e mem_cons_self
    exact .cons he.1 (.count shallow he.2) (ih fun f hf => h f (mem_cons_of_mem _ hf))

theorem Storable.nullable (shallow : depth ≤ 20) (s : Option JsString) :
    Storable depth (nullable s) := by
  cases s with
  | none => exact .null shallow
  | some s => exact .string shallow s

end FleetSummary
