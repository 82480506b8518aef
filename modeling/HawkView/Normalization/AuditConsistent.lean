import HawkView.Normalization.ProviderFacts

/-!
# What an audit record is classified by

An outcome agrees with the operation, with the reason that stands first and with
the result code, where the reported codes are one. Other reasons and codes that
differ are not looked at, and of the properties only the first hundred are.
-/

namespace Normalization

open Json List Option

/-! ## The reported codes -/

/-- The result codes of a record, as its reader finds them. -/
def reportedCodes (record : Json) : List (Option Shape) :=
  ([js "LoginStatus", js "ErrorCode"].map (seen record)).filter Option.isSome ++
    auditExtendedValues record AUDIT_CODE_PROPERTY_NAMES

/-- What `readAuditErrorCode` makes of the codes that it found. -/
def agreedAuditCode : List (Option Shape) → AuditCode
  | [] => ⟨none, false⟩
  | code :: rest =>
    match canonicalCode code with
    | none => ⟨none, true⟩
    | some text =>
      if rest.all fun other => canonicalCode other == some text then
        ⟨(IsoTime.readDigits text.length text).map Prod.fst, true⟩
      else ⟨none, true⟩

theorem readAuditErrorCode_eq (record : Json) :
    readAuditErrorCode record = agreedAuditCode (reportedCodes record) := rfl

/-- All of these are the number. -/
def AreCode (codes : List (Option Shape)) (code : Nat) : Prop :=
  codes ≠ [] ∧ ∃ text, (∀ v ∈ codes, canonicalCode v = some text) ∧
    (IsoTime.readDigits text.length text).map Prod.fst = some code

variable {codes codes' : List (Option Shape)} {code : Nat}

theorem AreCode.of_perm (perm : codes.Perm codes') (h : AreCode codes code) :
    AreCode codes' code := by
  obtain ⟨hne, text, hall, hread⟩ := h
  exact ⟨fun hnil => hne (List.perm_nil.mp (hnil ▸ perm)), text,
    fun v hv => hall v (perm.mem_iff.mpr hv), hread⟩

theorem agreedAuditCode_code :
    (agreedAuditCode codes).code = some code ↔ AreCode codes code := by
  rw [AreCode]
  cases codes with
  | nil => simp [agreedAuditCode]
  | cons v rest =>
    simp only [agreedAuditCode, ne_eq, reduceCtorEq, not_false_eq_true, true_and,
      forall_mem_cons]
    cases hv : canonicalCode v with
    | none => simp
    | some text =>
      simp only [Option.some.injEq, List.all_eq_true, beq_iff_eq]
      split_ifs with hall
      · constructor
        · exact fun h => ⟨text, ⟨rfl, hall⟩, h⟩
        · rintro ⟨text', ⟨rfl, -⟩, h⟩
          exact h
      · constructor
        · nofun
        · rintro ⟨text', ⟨rfl, hrest⟩, -⟩
          exact absurd hrest hall

theorem agreedAuditCode_reported (codes : List (Option Shape)) :
    (agreedAuditCode codes).reported = !codes.isEmpty := by
  cases codes with
  | nil => rfl
  | cons v rest =>
    rw [agreedAuditCode]
    split
    · rfl
    · split_ifs <;> rfl

/-- The order of the codes does not matter. -/
theorem agreedAuditCode_perm (perm : codes.Perm codes') :
    agreedAuditCode codes = agreedAuditCode codes' := by
  have hcode : (agreedAuditCode codes).code = (agreedAuditCode codes').code := by
    refine Option.ext fun code => ?_
    rw [agreedAuditCode_code, agreedAuditCode_code]
    exact ⟨AreCode.of_perm perm, AreCode.of_perm perm.symm⟩
  have hreported : (agreedAuditCode codes).reported = (agreedAuditCode codes').reported := by
    rw [agreedAuditCode_reported, agreedAuditCode_reported, perm.isEmpty_eq]
  cases hleft : agreedAuditCode codes
  cases hright : agreedAuditCode codes'
  rw [hleft, hright] at hcode hreported
  cases hcode
  cases hreported
  rfl

/-! ## The reported reasons -/

/-- The names of reasons, in the order in which they are looked for. -/
def reportedReasons (record : Json) : List JsString :=
  (readAuditLogonErrors record).filterMap reasonAt

theorem reasonName_eq (record : Json) :
    reasonName record = (reportedReasons record).head?.filter fun s =>
      !Auth.isString (seen record (js "Operation")) s := by
  rw [reasonName, reportedReasons, List.head?_filterMap]

/-! ## Agreement -/

/-- The code of a result does not speak against the outcome. -/
def CodeAgrees (code : Nat) (outcome : EventOutcome) : Prop :=
  code = 1 ∨ (code = 0 ↔ outcome = .passwordAcceptedCompleted) ∧
    ∀ other, providerFacts.dispositionForCode code = .applies other → other = outcome

theorem code_not_completed {n : Nat} :
    providerFacts.dispositionForCode ((n + 1 : Nat) : Int) ≠
      .applies .passwordAcceptedCompleted := by
  intro h
  rcases disposition_mem h with hunknown | ⟨entry, hentry, hdisposition⟩
  · cases hunknown
  · have hall : ∀ row ∈ RESULT_CODES,
        row.2.disposition = .applies .passwordAcceptedCompleted → row.1 = 0 := by
      decide +kernel
    have hzero : ((n + 1 : Nat) : Int) = 0 := hall _ hentry hdisposition
    omega

variable {name : JsString}

theorem reason_not_completed :
    providerFacts.auditReasonEntry name ≠ some (.applies .passwordAcceptedCompleted) := by
  intro h
  have hall : .applies .passwordAcceptedCompleted ∉ AUDIT_REASON_NAMES.map Prod.snd := by
    decide +kernel
  exact hall (auditReason_mem h)

theorem zero_agrees : CodeAgrees 0 .passwordAcceptedCompleted := by
  refine .inr ⟨Iff.intro (fun _ => rfl) fun _ => rfl, fun other h => ?_⟩
  have hzero : providerFacts.dispositionForCode ((0 : Nat) : Int) =
    .applies .passwordAcceptedCompleted := rfl
  exact (EventClassification.applies.inj (hzero.symm.trans h)).symm

/-- What stands for an outcome in a record. -/
structure Consistent (record : Json) (outcome : EventOutcome) : Prop where
  operation : Auth.isString (seen record (js "Operation")) (js "UserLoggedIn") = true ↔
    outcome = .passwordAcceptedCompleted
  reason : ∀ name, (reportedReasons record).head? = some name →
    Auth.isString (seen record (js "Operation")) name = false →
      providerFacts.auditReasonEntry name = some (.applies outcome)
  code : ∀ code, AreCode (reportedCodes record) code → CodeAgrees code outcome

/-- A code other than 1 is looked at. -/
theorem looked_at {code : Option Nat} {n : Nat} (h : code = some n) :
    n = 1 ∨ (if code = some 1 then none else code) = some n := by
  subst h
  by_cases hone : n = 1
  · exact .inl hone
  · exact .inr (if_neg (by simpa using hone))

variable {record : Json} {outcome : EventOutcome}

/-- The code of a record without a reason agrees with an outcome that it is given. -/
theorem unnamed_agrees (unnamed : reasonName record = none)
    (h : (classifyAuditRecord providerFacts record).1 = .applies outcome) :
    (Auth.isString (seen record (js "Operation")) (js "UserLoggedIn") = true ↔
      outcome = .passwordAcceptedCompleted) ∧
    ∀ code, (readAuditErrorCode record).code = some code → CodeAgrees code outcome := by
  have hlooked := @looked_at (readAuditErrorCode record).code
  simp only [classifyAuditRecord, unnamed] at h
  cases hop : Auth.isString (seen record (js "Operation")) (js "UserLoggedIn") with
  | true =>
    simp only [hop, if_true] at h
    generalize (if (readAuditErrorCode record).code = some 1 then none
      else (readAuditErrorCode record).code) = looked at h hlooked
    split at h
    · cases h
    · cases h
      refine ⟨by simp, fun code hcode => ?_⟩
      rcases hlooked hcode with rfl | hzero
      · exact .inl rfl
      · cases hzero
        exact zero_agrees
    · cases h
      refine ⟨by simp, fun code hcode => .inl ?_⟩
      exact (hlooked hcode).resolve_right nofun
  | false =>
    simp only [hop, Bool.false_eq_true, if_false] at h
    generalize (if (readAuditErrorCode record).code = some 1 then none
      else (readAuditErrorCode record).code) = looked at h hlooked
    split at h
    · have hne : outcome ≠ .passwordAcceptedCompleted := by
        rintro rfl
        exact code_not_completed h
      refine ⟨by simp [hne], fun code hcode => ?_⟩
      rcases hlooked hcode with rfl | hsome
      · exact .inl rfl
      · cases hsome
        refine .inr ⟨by simp [hne], fun other hother => ?_⟩
        exact EventClassification.applies.inj (hother.symm.trans h)
    · cases h
    · cases h

/-- So does the code of a record with a reason, whose outcome is that of the reason. -/
theorem named_agrees (named : reasonName record = some name)
    (h : (classifyAuditRecord providerFacts record).1 = .applies outcome) :
    providerFacts.auditReasonEntry name = some (.applies outcome) ∧
      Auth.isString (seen record (js "Operation")) (js "UserLoggedIn") = false ∧
      ∀ code, (readAuditErrorCode record).code = some code → CodeAgrees code outcome := by
  have hlooked := @looked_at (readAuditErrorCode record).code
  simp only [classifyAuditRecord, named] at h
  generalize (if (readAuditErrorCode record).code = some 1 then none
    else (readAuditErrorCode record).code) = looked at h hlooked
  cases hentry : providerFacts.auditReasonEntry name with
  | none =>
    rw [hentry] at h
    cases h
  | some disposition =>
    rw [hentry] at h
    cases disposition with
    | applies found =>
      have hne : found ≠ .passwordAcceptedCompleted := by
        rintro rfl
        exact reason_not_completed hentry
      simp only [hne, decide_false, and_true] at h
      split at h
      · cases h
      rename_i hop
      split at h
      · cases h
      rename_i hzero
      have hcode : found = outcome ∧ ∀ code, looked = some code → ∀ other,
          providerFacts.dispositionForCode code = .applies other → other = found := by
        split at h
        · split at h
          · rename_i other hother
            split_ifs at h with hdiffers
            cases h
            refine ⟨rfl, fun code hsome again hagain => ?_⟩
            cases hsome
            have hsame := EventClassification.applies.inj (hagain.symm.trans hother)
            exact hsame.trans (not_not.mp hdiffers)
          · rename_i hother
            cases h
            refine ⟨rfl, fun code hsome again hagain => ?_⟩
            cases hsome
            exact absurd hagain (hother again)
        · rename_i hother
          cases h
          refine ⟨rfl, fun code hsome => ?_⟩
          cases code with
          | zero => exact absurd hsome hzero
          | succ n => exact absurd hsome (hother n)
      obtain ⟨rfl, hother⟩ := hcode
      refine ⟨rfl, by simpa using hop, fun code hread => ?_⟩
      rcases hlooked hread with rfl | hsome
      · exact .inl rfl
      · have hcode : code ≠ 0 := fun hcode => hzero (hcode ▸ hsome)
        exact .inr ⟨by simp [hcode, hne], hother code hsome⟩
    | doesNotApply reason => cases h
    | notYetCited reason => cases h
    | unknown observation => cases h

theorem classified_consistent
    (h : (classifyAuditRecord providerFacts record).1 = .applies outcome) :
    Consistent record outcome := by
  have hhead : ∀ name, (reportedReasons record).head? = some name →
      Auth.isString (seen record (js "Operation")) name = false →
        reasonName record = some name := by
    intro name hname hop
    rw [reasonName_eq, hname]
    simp [Option.filter, hop]
  cases hread : reasonName record with
  | none =>
    obtain ⟨hop, hcode⟩ := unnamed_agrees hread h
    refine ⟨hop, fun name hname hdiffers => ?_, fun code hare => ?_⟩
    · exact absurd ((hhead name hname hdiffers).symm.trans hread) nofun
    · exact hcode code (agreedAuditCode_code.mpr hare)
  | some name =>
    obtain ⟨hentry, hop, hcode⟩ := named_agrees hread h
    have hne : outcome ≠ .passwordAcceptedCompleted := by
      rintro rfl
      exact reason_not_completed hentry
    refine ⟨by simp [hop, hne], fun other hother hdiffers => ?_, fun code hare => ?_⟩
    · obtain rfl := Option.some.inj (hread.symm.trans (hhead other hother hdiffers))
      exact hentry
    · exact hcode code (agreedAuditCode_code.mpr hare)

/-! ## The order of the properties -/

/-- The record with other items in its property list. -/
def withProperties (before after : List (JsString × Json)) (items : List Json) : Json :=
  .object (before ++ (js "ExtendedProperties", .array items) :: after)

section Properties

variable {before after : List (JsString × Json)} {items items' : List Json}

theorem seen_withProperties {name : JsString} (h : name ≠ js "ExtendedProperties") :
    seen (withProperties before after items) name =
      seen (withProperties before after items') name := by
  have hchild : child (withProperties before after items) (.key name) =
      child (withProperties before after items') (.key name) := by
    simp only [withProperties, child, lookup_append, lookup_cons,
      beq_eq_false_iff_ne.mpr h]
  rw [seen, seen, shapeAt, shapeAt, hchild]

theorem auditExtendedValues_perm (perm : items.Perm items') (few : items.length ≤ 100)
    (names : List JsString) :
    (auditExtendedValues (withProperties before after items) names).Perm
      (auditExtendedValues (withProperties before after items') names) := by
  have few' : items'.length ≤ 100 := perm.length_eq ▸ few
  cases hbefore : before.lookup (js "ExtendedProperties") with
  | some v =>
    have hsame : Auth.propertiesOf (withProperties before after items) =
        Auth.propertiesOf (withProperties before after items') := by
      simp only [Auth.propertiesOf, withProperties, child, lookup_append, hbefore,
        some_or]
    rw [auditExtendedValues, hsame]
    exact List.Perm.refl _
  | none =>
    have hread : ∀ list : List Json, Auth.propertiesOf (withProperties before after list) =
        some (list.map fun item =>
          ⟨item.shape, seen item (js "Name"), seen item (js "Value")⟩) := by
      intro list
      simp only [Auth.propertiesOf, withProperties, child, lookup_append, hbefore,
        none_or, lookup_cons_self]
    simp only [auditExtendedValues, hread, getD_some]
    rw [take_of_length_le (by simpa using few), take_of_length_le (by simpa using few')]
    exact (perm.map _).filterMap _

theorem classifyAuditRecord_perm {f : ProviderFacts} (perm : items.Perm items')
    (few : items.length ≤ 100)
    (first : (reportedReasons (withProperties before after items)).head? =
      (reportedReasons (withProperties before after items')).head?) :
    classifyAuditRecord f (withProperties before after items) =
      classifyAuditRecord f (withProperties before after items') := by
  have hseen : ∀ name ≠ js "ExtendedProperties",
      seen (withProperties before after items) name =
        seen (withProperties before after items') name := fun _ => seen_withProperties
  have hop := hseen (js "Operation") (by decide)
  have hcode : readAuditErrorCode (withProperties before after items) =
      readAuditErrorCode (withProperties before after items') := by
    rw [readAuditErrorCode_eq, readAuditErrorCode_eq]
    refine agreedAuditCode_perm ?_
    rw [reportedCodes, reportedCodes, map_cons, map_cons, map_nil,
      hseen (js "LoginStatus") (by decide), hseen (js "ErrorCode") (by decide)]
    exact (auditExtendedValues_perm perm few _).append_left _
  have hreason : reasonName (withProperties before after items) =
      reasonName (withProperties before after items') := by
    rw [reasonName_eq, reasonName_eq, first, hop]
  simp only [classifyAuditRecord, hcode, hreason, hop]

end Properties

/-- What a record is classified by, and that it is not by the order of its properties. -/
theorem classifyAuditRecord_consistent (record : Json) :
    (∀ outcome, (classifyAuditRecord providerFacts record).1 = .applies outcome →
      Consistent record outcome) ∧
    ∀ before after items items', record = withProperties before after items →
      items.Perm items' → items.length ≤ 100 →
        (reportedReasons record).head? =
          (reportedReasons (withProperties before after items')).head? →
        classifyAuditRecord providerFacts record =
          classifyAuditRecord providerFacts (withProperties before after items') := by
  refine ⟨fun outcome h => classified_consistent h, ?_⟩
  rintro before after items items' rfl perm few first
  exact classifyAuditRecord_perm perm few first

/-! ## What is not looked at -/

def auditProperty (name value : JsString) : Json :=
  .object [(js "Name", .string name), (js "Value", .string value)]

/-- A sign-in of this operation, with these properties. -/
def auditRecord (operation : JsString) (items : List Json) : Json :=
  withProperties [(js "Operation", .string operation)] [] items

def twoCodes : Json :=
  auditRecord (js "UserLoggedIn")
    [auditProperty (js "ErrorCode") (js "0"), auditProperty (js "ErrorNumber") (js "50126")]

def twoReasons : List Json :=
  [auditProperty (js "LogonError") (js "InvalidUserNameOrPassword"),
    auditProperty (js "LoginError") (js "IdsLocked")]

theorem classifyAuditRecord_consistent_failed :
    let failed := auditRecord (js "UserLoginFailed")
    let reason := auditProperty (js "LogonError") (js "IdsLocked")
    let code := auditProperty (js "ErrorCode") (js "50053")
    Consistent (failed twoReasons) .passwordRejected ∧
      classifyAuditRecord providerFacts (failed [reason, code]) =
        classifyAuditRecord providerFacts (failed [code, reason]) := by
  intro failed reason code
  refine ⟨(classifyAuditRecord_consistent _).1 _ (by decide +kernel), ?_⟩
  exact (classifyAuditRecord_consistent _).2 [(js "Operation", .string (js "UserLoginFailed"))] []
    [reason, code] [code, reason] rfl (.swap code reason []) (by decide) (by decide +kernel)

/-- Of two reasons the first is taken, whichever that is, and of two codes neither. -/
theorem contradictions_preferred :
    (classifyAuditRecord providerFacts twoCodes).1 = .applies .passwordAcceptedCompleted ∧
      ¬CodeAgrees 50126 .passwordAcceptedCompleted ∧
    (classifyAuditRecord providerFacts (auditRecord (js "UserLoginFailed") twoReasons)).1 =
      .applies .passwordRejected ∧
    (classifyAuditRecord providerFacts (auditRecord (js "UserLoginFailed") twoReasons.reverse)).1 =
      .applies .lockedOutAfterRepeatedFailures := by
  refine ⟨by decide +kernel, ?_, by decide +kernel, by decide +kernel⟩
  rintro (hone | ⟨hzero, -⟩)
  · cases hone
  · cases hzero.mpr rfl

end Normalization
