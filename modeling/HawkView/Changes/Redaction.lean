import HawkView.Changes.ChangeEvidence

/-!
# What redaction hides

Redaction replaces what is held under a sensitive key. Two values have one
redaction exactly when they differ only in what such keys hold.
-/

namespace ChangeEvidence

open Json List

/-- Values under one key that differ only in what is held under sensitive keys. -/
inductive KeyHidden : JsString → Json → Json → Prop
  | hidden {key : JsString} (v w : Json) (sensitive : sensitiveKey key = true) :
      KeyHidden key v w
  | same (key : JsString) (v : Json) : KeyHidden key v v
  | items (key : JsString) {items others : List Json} (size : items.length = others.length)
      (inner : ∀ (i : Nat) (v w : Json), items[i]? = some v → others[i]? = some w →
        KeyHidden [] v w) :
      KeyHidden key (.array items) (.array others)
  | entries (key : JsString) {entries others : Entries} (same : names entries = names others)
      (inner : ∀ (i : Nat) (e o : JsString × Json), entries[i]? = some e → others[i]? = some o →
        KeyHidden e.1 e.2 o.2) :
      KeyHidden key (.object entries) (.object others)

theorem redactItems_eq (items : List Json) :
    redactItems items = items.map (redactSensitiveValues []) := by
  induction items with
  | nil => rfl
  | cons v items ih => rw [redactItems, ih, map_cons]

theorem redactEntries_eq (entries : Entries) :
    redactEntries entries = entries.map fun e => (e.1, redactSensitiveValues e.1 e.2) := by
  induction entries with
  | nil => rfl
  | cons e entries ih => rw [redactEntries, ih, map_cons]

variable {key : JsString}

theorem redact_sensitive (h : sensitiveKey key = true) (v : Json) :
    redactSensitiveValues key v = REDACTED := by
  rw [redactSensitiveValues.eq_def, if_pos h]

theorem redact_open (h : ¬sensitiveKey key = true) (v : Json) :
    redactSensitiveValues key v = match v with
      | .array items => .array (items.map (redactSensitiveValues []))
      | .object entries => .object (entries.map fun e => (e.1, redactSensitiveValues e.1 e.2))
      | v => v := by
  rw [redactSensitiveValues.eq_def, if_neg h]
  cases v with
  | array items => exact congrArg Json.array (redactItems_eq items)
  | object entries => exact congrArg Json.object (redactEntries_eq entries)
  | _ => rfl

variable {v w : Json}

theorem redact_of_hidden (h : KeyHidden key v w) :
    redactSensitiveValues key v = redactSensitiveValues key w := by
  induction h with
  | hidden v w sensitive => rw [redact_sensitive sensitive, redact_sensitive sensitive]
  | same key v => rfl
  | items key size inner ih =>
    by_cases hkey : sensitiveKey key = true
    · rw [redact_sensitive hkey, redact_sensitive hkey]
    · rw [redact_open hkey, redact_open hkey]
      exact congrArg Json.array (Traverse.map_eq_iff.mpr ⟨size, ih⟩)
  | entries key same inner ih =>
    by_cases hkey : sensitiveKey key = true
    · rw [redact_sensitive hkey, redact_sensitive hkey]
    · rw [redact_open hkey, redact_open hkey]
      obtain ⟨size, hnames⟩ := Traverse.map_eq_iff.mp same
      refine congrArg Json.object (Traverse.map_eq_iff.mpr ⟨size, ?_⟩)
      intro i e o he ho
      have hname := hnames i e o he ho
      have hvalue := ih i e o he ho
      rw [hname] at hvalue ⊢
      rw [hvalue]

theorem hidden_of_redact (h : redactSensitiveValues key v = redactSensitiveValues key w) :
    KeyHidden key v w := by
  induction v using induct generalizing key w with
  | array items ih =>
    by_cases hkey : sensitiveKey key = true
    · exact .hidden _ _ hkey
    · cases w with
      | array others =>
        rw [redact_open hkey, redact_open hkey] at h
        obtain ⟨size, inner⟩ := Traverse.map_eq_iff.mp (Json.array.inj h)
        refine .items key size fun i v w hv hw => ?_
        exact ih v (mem_of_getElem? hv) (inner i v w hv hw)
      | _ => rw [redact_open hkey, redact_open hkey] at h; cases h
  | object entries ih =>
    by_cases hkey : sensitiveKey key = true
    · exact .hidden _ _ hkey
    · cases w with
      | object others =>
        rw [redact_open hkey, redact_open hkey] at h
        obtain ⟨size, inner⟩ := Traverse.map_eq_iff.mp (Json.object.inj h)
        refine .entries key (Traverse.map_eq_iff.mpr ⟨size, fun i e o he ho => ?_⟩) fun i e o he ho => ?_
        · exact (Prod.mk.inj (inner i e o he ho)).1
        · obtain ⟨hname, hvalue⟩ := Prod.mk.inj (inner i e o he ho)
          apply ih e (mem_of_getElem? he)
          rw [hvalue, hname]
      | _ => rw [redact_open hkey, redact_open hkey] at h; cases h
  | _ =>
    by_cases hkey : sensitiveKey key = true
    · exact .hidden _ _ hkey
    · cases w <;> simp only [redact_open hkey] at h <;> cases h
      exact .same key _

/-- Redaction hides the difference of two values when it is under sensitive keys only. -/
theorem redact_eq_iff :
    redactSensitiveValues key v = redactSensitiveValues key w ↔ KeyHidden key v w :=
  ⟨hidden_of_redact, redact_of_hidden⟩

theorem hidden_redacted (key : JsString) (v : Json) :
    KeyHidden key v (redactSensitiveValues key v) := by
  induction v using induct generalizing key with
  | array items ih =>
    refine (em _).elim (.hidden _ _) fun hkey => ?_
    rw [redact_open hkey]
    refine .items key (length_map _).symm fun i v w hv hw => ?_
    rw [getElem?_map, hv] at hw
    cases hw
    exact ih v (mem_of_getElem? hv) []
  | object entries ih =>
    refine (em _).elim (.hidden _ _) fun hkey => ?_
    rw [redact_open hkey]
    refine .entries key (by simp [names]) fun i e o he ho => ?_
    rw [getElem?_map, he] at ho
    cases ho
    exact ih e (mem_of_getElem? he) e.1
  | _ =>
    refine (em _).elim (.hidden _ _) fun hkey => ?_
    rw [redact_open hkey]
    exact .same key _

/-- A value is redacted to the one of its class: what differs from it under sensitive keys only
is redacted to the same, and redacting that again changes nothing. -/
theorem redacted_canonical (key : JsString) (v w : Json) :
    KeyHidden key v (redactSensitiveValues key v) ∧
    (KeyHidden key v w ↔ redactSensitiveValues key v = redactSensitiveValues key w) ∧
    redactSensitiveValues key (redactSensitiveValues key v) = redactSensitiveValues key v :=
  ⟨hidden_redacted key v, redact_eq_iff.symm, (redact_of_hidden (hidden_redacted key v)).symm⟩

end ChangeEvidence
