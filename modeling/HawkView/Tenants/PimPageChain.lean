import HawkView.Tenants.PimPageAssembly
import Mathlib.Data.List.Chain

/-!
# Page chains that are complete

The pages are accepted exactly when each of them can be read, their tokens are
distinct, each continuation is the token of the next page and the last page has
none. Their rows are observed as one list.
-/

namespace PimObservation

open List Option

/-- What a page says. -/
structure ReadPage where
  token : JsString
  rows : List JsData
  next : Option JsString

/-- A page with a token that is not blank and an envelope with a dense array. -/
structure IsPage (page : JsData) (r : ReadPage) : Prop where
  read : ∃ own envelope length rows, pageToken page = some (own, r.token) ∧
    pageEnvelope own = some (envelope, length, rows) ∧ JsData.dense length rows = true ∧
    continuationOf envelope = .ok r.next ∧ r.rows = rows.filterMap Property.value

/-- Pages of distinct tokens, each after the one whose continuation is its token. -/
structure Linked (chain : List ReadPage) : Prop where
  distinct : (chain.map ReadPage.token).Nodup
  linked : chain.IsChain fun a b => a.next = some b.token

/-- The pages of a chain, in order and to its end. -/
structure CompleteChain (chain : List ReadPage) : Prop extends Linked chain where
  ended : ∀ last ∈ chain.getLast?, last.next = none

def rowsOf (chain : List ReadPage) : List JsData := chain.flatMap ReadPage.rows

/-- What has been assembled of the pages of a chain. -/
def assembled (chain : List ReadPage) : Assembly where
  index := chain.length
  seen := chain.map ReadPage.token
  rowPages := chain.map ReadPage.rows
  rowCount := (rowsOf chain).length
  expected := chain.getLast?.bind ReadPage.next

/-- The page goes on where the chain stopped, with a token of its own. -/
def Follows (chain : List ReadPage) (r : ReadPage) : Prop :=
  r.token ∉ chain.map ReadPage.token ∧ ∀ last ∈ chain.getLast?, last.next = some r.token

section Chain

variable {chain : List ReadPage} {page : JsData} {r : ReadPage} {maxInputRows : Nat}

theorem dense_length {length : Nat} {rows : List (Property JsData)}
    (h : JsData.dense length rows = true) : (rows.filterMap Property.value).length = length := by
  rw [JsData.dense, Bool.and_eq_true, beq_iff_eq] at h
  have hlength := congrArg List.length h.1
  rw [length_map, JsData.indices, length_map, length_range] at hlength
  rw [← hlength, filterMap_length_eq_length]
  intro p hp
  have hplain := List.all_eq_true.mp h.2 p hp
  rw [JsData.plain, Bool.and_eq_true] at hplain
  exact hplain.2

theorem assembled_more (chain : List ReadPage) (r : ReadPage) :
    assembled (chain ++ [r]) =
      { index := (assembled chain).index + 1
        seen := (assembled chain).seen ++ [r.token]
        rowPages := (assembled chain).rowPages ++ [r.rows]
        rowCount := (assembled chain).rowCount + r.rows.length
        expected := r.next } := by
  simp [assembled, rowsOf]

/-- The checks on the token of a page, against those before it. -/
theorem follows_iff (chain : List ReadPage) (r : ReadPage) :
    Follows chain r ↔ ¬ (0 < (assembled chain).index ∧ (assembled chain).expected = none) ∧
      r.token ∉ (assembled chain).seen ∧
      ¬ (0 < (assembled chain).index ∧ some r.token ≠ (assembled chain).expected) := by
  rw [Follows, assembled]
  cases hlast : chain.getLast? with
  | none =>
    rw [getLast?_eq_none_iff] at hlast
    simp [hlast]
  | some last =>
    have hpos : 0 < chain.length := by
      rw [length_pos_iff]
      rintro rfl
      cases hlast
    simp only [hpos, true_and, mem_def, Option.some.injEq, forall_eq', bind_some,
      ne_eq, not_not]
    constructor
    · rintro ⟨hfresh, hnext⟩
      rw [hnext]
      exact ⟨by simp, hfresh, rfl⟩
    · rintro ⟨_, hfresh, hnext⟩
      exact ⟨hfresh, hnext.symm⟩

/-- The turn of a page that follows the chain. -/
theorem followPage_follows (isPage : IsPage page r) (follows : Follows chain r) :
    followPage maxInputRows (assembled chain) page =
      if maxInputRows - (rowsOf chain).length < r.rows.length then
        .error (.normalization (.rejected .inputRowLimitExceeded))
      else .ok (assembled (chain ++ [r])) := by
  obtain ⟨own, envelope, length, rows, htoken, henvelope, hdense, hnext, hrows⟩ := isPage.read
  obtain ⟨hgoing, hfresh, hlink⟩ := (follows_iff chain r).mp follows
  have hlength := dense_length hdense
  rw [← hrows] at hlength
  subst hlength
  rw [followPage, if_neg hgoing, htoken]
  simp only
  rw [if_neg hfresh, if_neg hlink, henvelope]
  simp only [hdense, hnext, ← hrows]
  rw [assembled_more]
  rfl

variable {a : Assembly}

/-- A page that is accepted can be read, and follows the chain. -/
theorem followPage_ok (h : followPage maxInputRows (assembled chain) page = .ok a) :
    ∃ r, IsPage page r ∧ Follows chain r ∧ a = assembled (chain ++ [r]) := by
  rw [followPage] at h
  split at h
  · cases h
  rename_i hgoing
  split at h
  · cases h
  rename_i own token htoken
  split at h
  · cases h
  rename_i hfresh
  split at h
  · cases h
  rename_i hlink
  split at h
  · cases h
  rename_i envelope length rows henvelope
  split at h
  · cases h
  split at h
  · cases h
  rename_i hdense
  rw [Bool.not_eq_true', Bool.not_eq_false] at hdense
  obtain ⟨next, hnext, rfl⟩ := Traverse.map_ok.mp h
  have isPage : IsPage page ⟨token, rows.filterMap Property.value, next⟩ :=
    ⟨own, envelope, length, rows, htoken, henvelope, hdense, hnext, rfl⟩
  refine ⟨_, isPage, (follows_iff chain _).mpr ⟨hgoing, hfresh, hlink⟩, ?_⟩
  rw [assembled_more, dense_length hdense]

theorem linked_append : Linked (chain ++ [r]) ↔ Linked chain ∧ Follows chain r := by
  constructor
  · rintro ⟨hdistinct, hlinked⟩
    rw [map_append, nodup_append] at hdistinct
    rw [isChain_append] at hlinked
    refine ⟨⟨hdistinct.1, hlinked.1⟩, ?_, ?_⟩
    · intro hmem
      exact hdistinct.2.2 _ hmem _ (by simp) rfl
    · intro last hlast
      exact hlinked.2.2 last hlast r (by simp)
  · rintro ⟨⟨hdistinct, hlinked⟩, hfresh, hlast⟩
    constructor
    · rw [map_append, nodup_append]
      refine ⟨hdistinct, by simp, ?_⟩
      intro token htoken other hother
      rw [map_singleton, mem_singleton] at hother
      rintro rfl
      exact hfresh (hother ▸ htoken)
    · rw [isChain_append]
      refine ⟨hlinked, isChain_singleton r, ?_⟩
      intro last hmem next hnext
      rw [head?_cons, mem_def, Option.some.injEq] at hnext
      exact hnext ▸ hlast last hmem

theorem rowsOf_append (chain more : List ReadPage) :
    rowsOf (chain ++ more) = rowsOf chain ++ rowsOf more := flatMap_append

variable {pages : List JsData}

/-- Pages of a chain are assembled as far as their rows are within the bound. -/
theorem follow_linked {more : List ReadPage} (isPages : Forall₂ IsPage pages more)
    (linked : Linked (chain ++ more)) (within : (rowsOf chain).length ≤ maxInputRows) :
    pages.foldlM (followPage maxInputRows) (assembled chain) =
      if maxInputRows < (rowsOf (chain ++ more)).length then
        .error (.normalization (.rejected .inputRowLimitExceeded))
      else .ok (assembled (chain ++ more)) := by
  induction isPages generalizing chain with
  | nil =>
    rw [append_nil, if_neg (Nat.not_lt.mpr within)]
    rfl
  | @cons page r pages more isPage _ ih =>
    have hsplit : chain ++ r :: more = (chain ++ [r]) ++ more := by simp
    rw [hsplit] at linked ⊢
    have hone : Linked (chain ++ [r]) := by
      constructor
      · have hdistinct := linked.distinct
        rw [map_append] at hdistinct
        exact hdistinct.of_append_left
      · exact (isChain_append.mp linked.linked).1
    rw [foldlM_cons, followPage_follows isPage (linked_append.mp hone).2]
    have hcount : (rowsOf (chain ++ [r])).length = (rowsOf chain).length + r.rows.length := by
      simp [rowsOf]
    have htotal : (rowsOf (chain ++ [r])).length ≤ (rowsOf (chain ++ [r] ++ more)).length := by
      rw [rowsOf_append (chain ++ [r]), length_append]
      exact Nat.le_add_right _ _
    by_cases hmore : maxInputRows - (rowsOf chain).length < r.rows.length
    · rw [if_pos hmore, if_pos (by omega)]
      rfl
    · rw [if_neg hmore]
      exact ih linked (by omega)

/-- Pages that are assembled are a chain. -/
theorem follow_ok (linked : Linked chain)
    (h : pages.foldlM (followPage maxInputRows) (assembled chain) = .ok a) :
    ∃ more, Forall₂ IsPage pages more ∧ Linked (chain ++ more) ∧
      a = assembled (chain ++ more) := by
  induction pages generalizing chain with
  | nil =>
    cases h
    exact ⟨[], .nil, by rwa [append_nil], by rw [append_nil]⟩
  | cons page pages ih =>
    rw [foldlM_cons] at h
    obtain ⟨a₁, hpage, hrest⟩ := Traverse.bind_ok.mp h
    obtain ⟨r, isPage, follows, rfl⟩ := followPage_ok hpage
    obtain ⟨more, isPages, hlinked, rfl⟩ := ih (linked_append.mpr ⟨linked, follows⟩) hrest
    rw [append_assoc, singleton_append] at *
    exact ⟨r :: more, .cons isPage isPages, hlinked, rfl⟩

end Chain

/-! ## The whole chain -/

section Assembly

variable {context : PageContext} {bounds : PimPageAssemblyBounds} {pages more : List JsData}

/-- The bounds and the context are valid, and there are pages, not more than allowed. -/
structure Within (context : PageContext) (bounds : PimPageAssemblyBounds)
    (pages : List JsData) : Prop where
  limits : (bounds.limits?).isSome
  count : ∃ maxPages, boundOf bounds.maxPages = some maxPages ∧ pages.length ≤ maxPages
  nonempty : pages ≠ []
  tenantId : context.tenantId ≠ []

section

variable (within : Within context bounds pages)
include within

theorem assemble_eq :
    ∃ limits, bounds.limits? = some limits ∧
      assemblePimSchedulePages context pages bounds =
        (pages.foldlM (followPage limits.maxInputRows) (assembled [])).bind fun a =>
          if a.expected ≠ none then .error .missingContinuationPage
          else ((normalizePimScheduleObservations (context.input a.rowPages.flatten)
            bounds.toPimObservationBounds).mapError .normalization).map fun observations =>
              ⟨pages.length, observations⟩ := by
  obtain ⟨limits, hlimits⟩ := isSome_iff_exists.mp within.limits
  obtain ⟨maxPages, hmax, hcount⟩ := within.count
  refine ⟨limits, hlimits, ?_⟩
  rw [assemblePimSchedulePages, hmax, hlimits]
  simp only [elim_some, bind, Except.bind, if_neg within.tenantId, if_neg within.nonempty,
    if_neg (Nat.not_lt.mpr hcount), pure, Except.pure]
  have hstart : assembled [] = ⟨0, [], [], 0, none⟩ := rfl
  rw [hstart]
  cases pages.foldlM (followPage limits.maxInputRows) ⟨0, [], [], 0, none⟩ with
  | error e => rfl
  | ok a =>
    simp only
    split
    · rfl
    · cases (normalizePimScheduleObservations (context.input a.rowPages.flatten)
        bounds.toPimObservationBounds) <;> rfl

/-- The rows of a complete chain are normalised as one list. -/
theorem assemble_complete {chain : List ReadPage}
    (isPages : Forall₂ IsPage pages chain) (complete : CompleteChain chain) :
    assemblePimSchedulePages context pages bounds =
      ((normalizePimScheduleObservations (context.input (rowsOf chain))
        bounds.toPimObservationBounds).mapError .normalization).map fun observations =>
          ⟨pages.length, observations⟩ := by
  obtain ⟨limits, hlimits, heq⟩ := assemble_eq within
  have hfollow : pages.foldlM (followPage limits.maxInputRows) (assembled []) = _ :=
    follow_linked isPages complete.toLinked (Nat.zero_le _)
  rw [nil_append] at hfollow
  rw [heq, hfollow]
  by_cases hrows : limits.maxInputRows < (rowsOf chain).length
  · rw [if_pos hrows, normalizePimScheduleObservations, hlimits]
    simp only [PageContext.input, length_map]
    rw [if_pos hrows]
    rfl
  · have hended : (assembled chain).expected = none := by
      rw [assembled]
      cases hlast : chain.getLast? with
      | none => rfl
      | some last => exact complete.ended last hlast
    have hflatten : (assembled chain).rowPages.flatten = rowsOf chain := by
      rw [assembled, rowsOf, flatMap_def]
    rw [if_neg hrows]
    show (if (assembled chain).expected ≠ none then _ else _) = _
    rw [hended, if_neg (by simp), hflatten]

/-- Pages that are accepted are a complete chain. -/
theorem complete_of_ok {result : PageAssembly}
    (h : assemblePimSchedulePages context pages bounds = .ok result) :
    ∃ chain, Forall₂ IsPage pages chain ∧ CompleteChain chain := by
  obtain ⟨limits, _, heq⟩ := assemble_eq within
  rw [heq] at h
  obtain ⟨a, hfollow, h⟩ := Traverse.bind_ok.mp h
  have hnil : Linked [] := ⟨by simp, .nil⟩
  obtain ⟨chain, isPages, linked, rfl⟩ := follow_ok hnil hfollow
  rw [nil_append] at *
  split at h
  · cases h
  · rename_i hended
    refine ⟨chain, isPages, linked, ?_⟩
    intro last hlast
    rw [not_not, assembled, show chain.getLast? = some last from hlast] at hended
    exact hended

end

/-- The rows that a result returns. -/
def returned : Except PageFailure PageAssembly → List Json
  | .error _ => []
  | .ok result =>
    (result.observations.instances.flatMap fun x => x.variants.map fun v => .object v.raw) ++
      result.observations.rejected.map RejectedRow.raw

/-- The pages are accepted exactly when they are a complete chain whose rows are normalised, what
is observed depends on the rows only, and a failure returns none of them. -/
theorem assembly_exact (within : Within context bounds pages) :
    (∀ result, assemblePimSchedulePages context pages bounds = .ok result ↔
      result.pageCount = pages.length ∧ ∃ chain, List.Forall₂ IsPage pages chain ∧
        CompleteChain chain ∧
        normalizePimScheduleObservations (context.input (rowsOf chain))
          bounds.toPimObservationBounds = .ok result.observations) ∧
    (∀ chain more others, List.Forall₂ IsPage pages chain → CompleteChain chain →
      Within context bounds more → List.Forall₂ IsPage more others → CompleteChain others →
      rowsOf others = rowsOf chain →
      (assemblePimSchedulePages context more bounds).map PageAssembly.observations =
        (assemblePimSchedulePages context pages bounds).map PageAssembly.observations) ∧
    ∀ failure, assemblePimSchedulePages context pages bounds = .error failure →
      returned (assemblePimSchedulePages context pages bounds) = [] := by
  refine ⟨?_, ?_, ?_⟩
  · intro result
    constructor
    · intro h
      obtain ⟨chain, isPages, complete⟩ := complete_of_ok within h
      rw [assemble_complete within isPages complete] at h
      obtain ⟨observations, hok, rfl⟩ := Traverse.map_ok.mp h
      refine ⟨rfl, chain, isPages, complete, ?_⟩
      cases hrows : normalizePimScheduleObservations (context.input (rowsOf chain))
          bounds.toPimObservationBounds with
      | error failure =>
        rw [hrows] at hok
        cases hok
      | ok o =>
        rw [hrows] at hok
        cases hok
        rfl
    · rintro ⟨hcount, chain, isPages, complete, hok⟩
      rw [assemble_complete within isPages complete, hok]
      cases result
      cases hcount
      rfl
  · intro chain more others isPages complete within' isPages' complete' hrows
    rw [assemble_complete within isPages complete, assemble_complete within' isPages' complete',
      hrows]
    cases normalizePimScheduleObservations (context.input (rowsOf chain))
      bounds.toPimObservationBounds <;> rfl
  · intro failure h
    rw [h]
    rfl

end Assembly

/-! ## A sample -/

/-- An envelope without rows. -/
def sampleEnvelope (next : JsData) : List (Property JsData) :=
  [⟨.name (js "value"), true, some (.array 2 0 [])⟩,
    ⟨.name (js "@odata.nextLink"), true, some next⟩]

def sampleProperties (token : JsString) (next : JsData) : List (Property JsData) :=
  [⟨.name (js "requestedPageToken"), true, some (.string token)⟩,
    ⟨.name (js "envelope"), true, some (.object 1 .object (sampleEnvelope next))⟩]

def samplePage (token : JsString) (next : JsData) : JsData :=
  .object 0 .object (sampleProperties token next)

def samplePages : List JsData :=
  [samplePage (js "first") (.string (js "second")), samplePage (js "second") .null]

def sampleChain : List ReadPage :=
  [⟨js "first", [], some (js "second")⟩, ⟨js "second", [], none⟩]

def samplePageBounds : PimPageAssemblyBounds :=
  ⟨⟨.ofNat 5, .ofNat 500, .ofNat 3, .ofNat 300⟩, .ofNat 2⟩

theorem samplePage_isPage {token : JsString} {next : JsData} {link : Option JsString}
    (htoken : token.blank = false) (hnext : continuationOf (sampleEnvelope next) = .ok link) :
    IsPage (samplePage token next) ⟨token, [], link⟩ := by
  refine ⟨sampleProperties token next, sampleEnvelope next, 0, [], ?_, rfl, rfl, hnext, rfl⟩
  show ((nonBlank (.string token)).bind fun t => some (sampleProperties token next, t)) = _
  rw [nonBlank, htoken]
  rfl

theorem assembly_exact_sample :
    assemblePimSchedulePages ⟨js "tenant", .active⟩ samplePages samplePageBounds =
      .ok ⟨2, ⟨[], []⟩⟩ := by
  have within : Within ⟨js "tenant", .active⟩ samplePageBounds samplePages :=
    ⟨by decide, ⟨2, by decide, by decide⟩, by simp [samplePages], by decide⟩
  have isPages : Forall₂ IsPage samplePages sampleChain :=
    .cons (samplePage_isPage (by decide) rfl) (.cons (samplePage_isPage (by decide) rfl) .nil)
  have complete : CompleteChain sampleChain := by
    refine ⟨⟨by decide, ?_⟩, ?_⟩
    · exact .cons_cons rfl (.singleton _)
    · intro last hlast
      cases hlast
      rfl
  exact ((assembly_exact within).1 _).mpr ⟨rfl, sampleChain, isPages, complete, rfl⟩

end PimObservation
