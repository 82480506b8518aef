import HawkView.Lib.IsoTime
import Mathlib.Data.List.DropRight

/-!
# The address a request came from

The header lists the peers that were seen on the way. Only its last entries were
written by proxies that are trusted, so the address is counted from the right.
-/

namespace ClientAddress

open JsString IsoTime List

/-- `x-forwarded-for`, which comes as a list where a request repeats it. -/
inductive ForwardedFor
  | absent
  | single (value : JsString)
  | repeated (values : List JsString)

/-! ## One address -/

/-- `^\[([^\]]+)\](?::\d+)?$`, as what stands between the brackets. -/
def bracketed : JsString → Option JsString
  | 0x5B :: rest =>
    let inner := rest.takeWhile (· != 0x5D)
    match rest.dropWhile (· != 0x5D) with
    | [0x5D] => if inner ≠ [] then some inner else none
    | 0x5D :: 0x3A :: port =>
      if inner ≠ [] ∧ port ≠ [] ∧ port.all isDigit then some inner else none
    | _ => none
  | _ => none

/-- `^::ffff:((?:\d{1,3}\.){3}\d{1,3})$` in any case, as the part after the prefix. -/
def mapped (candidate : JsString) : Option JsString :=
  let groups := (candidate.drop 7).splitOn 0x2E
  if lowerLatin (candidate.take 7) = js "::ffff:" ∧ groups.length = 4 ∧
      groups.all fun group => group.all isDigit && decide (1 ≤ group.length ∧ group.length ≤ 3) then
    some (candidate.drop 7)
  else none

/-- A character of `ADDRESS_SHAPE`. -/
def addressCharacter (c : UInt16) : Bool :=
  isDigit c || decide (0x41 ≤ c ∧ c ≤ 0x46) || decide (0x61 ≤ c ∧ c ≤ 0x66) ||
  [0x2E, 0x3A, 0x25].contains c

/-- An IPv4 address is cut off before its port. -/
def withoutPort (candidate : JsString) : JsString :=
  match bracketed candidate with
  | some inner => inner
  | none =>
    if candidate.count 0x3A = 1 ∧ candidate.contains 0x2E then candidate.takeWhile (· != 0x3A)
    else candidate

def normalize (value : Option JsString) : Option JsString :=
  let candidate := (value.map trim).getD []
  if candidate = [] then none
  else
    let candidate := withoutPort candidate
    let candidate := (mapped candidate).getD candidate
    if candidate ≠ [] ∧ candidate.all addressCharacter then some (lowerLatin candidate) else none

/-! ## The chain -/

def ForwardedFor.joined : ForwardedFor → JsString
  | .absent => []
  | .single value => value
  | .repeated values => List.intercalate [0x2C] values

/-- What stands between the commas. -/
def pieces (forwardedFor : ForwardedFor) : List JsString := forwardedFor.joined.splitOn 0x2C

/-- The pieces that are not blank. -/
def entries (forwardedFor : ForwardedFor) : List JsString :=
  ((pieces forwardedFor).map trim).filter (· ≠ [])

/-- `hops` is `none` while the deployment has not stated it. -/
def clientAddress (forwardedFor : ForwardedFor) (socketAddress : Option JsString) :
    Option Nat → Option JsString
  | none => none
  | some 0 => normalize socketAddress
  | some hops =>
    let entries := entries forwardedFor
    if entries.length < hops then none else normalize entries[entries.length - hops]?

/-! ## What the caller cannot change -/

variable {f f' : ForwardedFor} {socket socket' : Option JsString} {hops : Nat}

theorem length_rtake {α : Type} (l : List α) (n : Nat) : (l.rtake n).length = min n l.length := by
  rw [rtake, length_drop]
  omega

/-- The address is read off the last entries alone. -/
theorem clientAddress_rtake (trusted : 1 ≤ hops) : clientAddress f socket (some hops) =
    let last := (entries f).rtake hops
    if last.length < hops then none else normalize last.head? := by
  obtain ⟨n, rfl⟩ : ∃ n, hops = n + 1 := ⟨hops - 1, by omega⟩
  simp only [clientAddress, length_rtake]
  by_cases hfew : (entries f).length < n + 1
  · rw [if_pos hfew, if_pos (by omega)]
  · rw [if_neg hfew, if_neg (by omega), rtake, List.head?_drop]

theorem same_last (trusted : 1 ≤ hops) (agree : (entries f).rtake hops = (entries f').rtake hops) :
    clientAddress f socket (some hops) = clientAddress f' socket' (some hops) := by
  rw [clientAddress_rtake trusted, clientAddress_rtake trusted, agree]

/-- The header ends in the text that trusted proxies wrote, after whatever was there. -/
def EndsWith (f : ForwardedFor) (trusted : JsString) : Prop := trusted.splitOn 0x2C <:+ pieces f

theorem rtake_suffix {α : Type} {l l' : List α} {n : Nat} (h : l <:+ l') (long : n ≤ l.length) :
    l'.rtake n = l.rtake n := by
  obtain ⟨front, rfl⟩ := h
  rw [rtake, rtake, length_append, drop_append]
  rw [drop_eq_nil_of_le (by omega), nil_append]
  congr 1
  omega

variable {trusted : JsString}

/-- Where none of the last pieces is blank, they are the last entries. -/
theorem entries_endsWith (ends : EndsWith f trusted)
    (written : ∀ piece ∈ trusted.splitOn 0x2C, trim piece ≠ []) :
    (trusted.splitOn 0x2C).map trim <:+ entries f := by
  obtain ⟨front, hsplit⟩ := ends
  refine ⟨(front.map trim).filter (· ≠ []), ?_⟩
  rw [entries, ← hsplit, map_append, filter_append]
  congr 1
  rw [eq_comm, filter_eq_self]
  intro e he
  obtain ⟨piece, hpiece, rfl⟩ := mem_map.mp he
  exact decide_eq_true (written piece hpiece)

/-! ## A blank piece among the last ones -/

/-- A caller that repeats an address before what the proxies write. -/
def flooded (address : JsString) (times : Nat) (trusted : JsString) : JsString :=
  (List.replicate times (address ++ [0x2C])).flatten ++ trusted

variable {address : JsString}

theorem pieces_flooded (plain : 0x2C ∉ address) (times : Nat) (trusted : JsString) :
    (flooded address times trusted).splitOn 0x2C =
      replicate times address ++ trusted.splitOn 0x2C := by
  induction times with
  | zero => rfl
  | succ times ih =>
    have hfirst : flooded address (times + 1) trusted =
        address ++ 0x2C :: flooded address times trusted := by
      simp [flooded, replicate_succ]
    rw [hfirst, splitOn_append_cons_self, ih, splitOn_eq_singleton plain]
    rfl

/-- With a blank piece among the last `hops`, an entry of the caller is read. -/
theorem clientAddress_flooded (plain : 0x2C ∉ address) (shown : trim address = address)
    (full : address ≠ []) (long : (trusted.splitOn 0x2C).length = hops)
    (blank : ∃ piece ∈ trusted.splitOn 0x2C, trim piece = []) :
    clientAddress (.single (flooded address hops trusted)) socket (some hops) =
      normalize (some address) := by
  have hpositive : 1 ≤ hops := by
    rw [← long]
    exact length_pos_iff.mpr (splitOn_ne_nil 0x2C trusted)
  have hentries : entries (.single (flooded address hops trusted)) =
      replicate hops address ++ ((trusted.splitOn 0x2C).map trim).filter (· ≠ []) := by
    rw [entries, pieces, ForwardedFor.joined, pieces_flooded plain, map_append,
      filter_append, map_replicate, shown, filter_replicate_of_pos (by simpa using full)]
  have hfew : (((trusted.splitOn 0x2C).map trim).filter (· ≠ [])).length < hops := by
    obtain ⟨piece, hpiece, hblank⟩ := blank
    have hlength : ((trusted.splitOn 0x2C).map trim).length = hops := by
      rw [length_map, long]
    rw [← hlength]
    have hmem : trim piece ∈ (trusted.splitOn 0x2C).map trim := mem_map_of_mem hpiece
    refine List.length_filter_lt_length_iff_exists.mpr ⟨trim piece, hmem, ?_⟩
    simp [hblank]
  rw [clientAddress_rtake hpositive, hentries]
  have hlength : ¬ ((replicate hops address ++
      ((trusted.splitOn 0x2C).map trim).filter (· ≠ [])).rtake hops).length < hops := by
    rw [length_rtake, length_append, length_replicate]
    omega
  simp only [if_neg hlength]
  rw [rtake, List.head?_drop, length_append, length_replicate, Nat.add_sub_cancel_left,
    getElem?_append_left (by rw [length_replicate]; exact hfew),
    List.getElem?_replicate_of_lt hfew]

/-- The last entries decide the address whatever the caller sends; the last pieces decide it
exactly when none of them is blank. -/
theorem clientAddress_unspoofed (hops : Nat) (trusted : 1 ≤ hops) :
    (∀ (f f' : ForwardedFor) (socket socket' : Option JsString),
      (entries f).rtake hops = (entries f').rtake hops →
      clientAddress f socket (some hops) = clientAddress f' socket' (some hops)) ∧
    ∀ written : JsString, (written.splitOn 0x2C).length = hops →
      ((∀ (f f' : ForwardedFor) (socket socket' : Option JsString),
        EndsWith f written → EndsWith f' written →
        clientAddress f socket (some hops) = clientAddress f' socket' (some hops)) ↔
      ∀ piece ∈ written.splitOn 0x2C, trim piece ≠ []) := by
  refine ⟨fun f f' socket socket' => same_last trusted, fun written long => ⟨fun same => ?_,
    fun shown f f' socket socket' ends ends' => ?_⟩⟩
  · by_contra hblank
    push Not at hblank
    have hends : ∀ address : JsString, 0x2C ∉ address →
        EndsWith (.single (flooded address hops written)) written := by
      intro address plain
      exact ⟨replicate hops address, (pieces_flooded plain hops written).symm⟩
    have hsame := same _ _ none none (hends (js "1.1.1.1") (by decide))
      (hends (js "2.2.2.2") (by decide))
    rw [clientAddress_flooded (by decide) (by decide) (by decide) long hblank,
      clientAddress_flooded (by decide) (by decide) (by decide) long hblank] at hsame
    revert hsame
    decide
  · have hlast {f : ForwardedFor} (ends : EndsWith f written) :
        (entries f).rtake hops = ((written.splitOn 0x2C).map trim).rtake hops :=
      rtake_suffix (entries_endsWith ends shown) (by rw [length_map, long])
    exact same_last trusted ((hlast ends).trans (hlast ends').symm)

/-- Two callers behind one proxy. -/
theorem clientAddress_unspoofed_sample :
    clientAddress (.single (js "6.6.6.6, 198.51.100.23")) none (some 1) =
      clientAddress (.repeated [js "x", js ",", js "7.7.7.7 , 198.51.100.23"]) none (some 1) :=
  (clientAddress_unspoofed 1 (by decide)).1 _ _ _ _ (by decide)

/-- A blank piece at the end is no entry, and the caller's own is read. -/
theorem blank_piece_skipped : ¬ ∀ (hops : Nat) (f f' : ForwardedFor) (socket : Option JsString),
    1 ≤ hops → (pieces f).rtake hops = (pieces f').rtake hops →
    clientAddress f socket (some hops) = clientAddress f' socket (some hops) := by
  intro h
  have hsame := h 1 (.single (js "6.6.6.6,")) (.single (js "7.7.7.7,")) none (by decide) (by decide)
  revert hsame
  decide

end ClientAddress
