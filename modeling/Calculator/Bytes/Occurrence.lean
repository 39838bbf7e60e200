import Calculator.Bytes

/-!
# Occurrences of a byte string

The first and the last place where a needle stands in a byte string. The window of bytes that the
needle would cover has a weight, which is carried along from place to place; only where it is the
weight of the needle are the bytes compared. `firstOccurrence?_eq` and `lastOccurrence?_eq` say that
this finds what trying every place finds.
-/

namespace Calculator.Bytes

def leads : Bytes → Bytes → Bool
  | [], _ => true
  | _ :: _, [] => false
  | wanted :: needle, byte :: rest => if wanted = byte then leads needle rest else false

/-- How much more a byte weighs than the one behind it. -/
def weightBase : UInt64 := 1099511628211

/-- A sum in which each byte counts by its place. -/
def weight (bytes : Bytes) : UInt64 :=
  bytes.foldl (fun total byte => total * weightBase + byte.toUInt64) 0

/-- What a byte weighs that stands before `count` others. -/
def placeWeight : Nat → UInt64
  | 0 => 1
  | count + 1 => placeWeight count * weightBase

/-- Looks for the needle at the front of `window`, then place by place as long as there is a byte
behind the window to take in. `carried` is the weight of the window, `leading` what its first byte
weighs. -/
def scan (needle : Bytes) (target leading : UInt64) : Nat → UInt64 → Bytes → Bytes → Option Nat
  | position, carried, window, [] =>
      if carried == target && leads needle window then some position else none
  | position, carried, window, entering :: ahead =>
      if carried == target && leads needle window then some position
      else
        scan needle target leading (position + 1)
          ((carried - (window.headD 0).toUInt64 * leading) * weightBase + entering.toUInt64)
          window.tail ahead

/-- The first place where the needle stands; the first byte counts as `start`. -/
def firstOccurrence? (needle : Bytes) (start : Nat) (bytes : Bytes) : Option Nat :=
  if bytes.length < needle.length then none
  else
    scan needle (weight needle) (placeWeight (needle.length - 1)) start
      (weight (bytes.take needle.length)) bytes (bytes.drop needle.length)

/-- The last place where the needle stands: the first one, seen from behind. -/
def lastOccurrence? (needle : Bytes) (start : Nat) (bytes : Bytes) : Option Nat :=
  (firstOccurrence? needle.reverse 0 bytes.reverse).map fun behind =>
    start + (bytes.length - needle.length - behind)

theorem leads_iff (needle bytes : Bytes) :
    leads needle bytes = true ↔ bytes.take needle.length = needle := by
  fun_induction leads needle bytes with
  | case1 bytes => simp
  | case2 wanted needle => simp
  | case3 needle byte rest ih => simp [ih]
  | case4 wanted needle byte rest differs => simp [Ne.symm differs]

theorem weight_from (total : UInt64) (bytes : Bytes) :
    bytes.foldl (fun total byte => total * weightBase + byte.toUInt64) total
      = total * placeWeight bytes.length + weight bytes := by
  induction bytes generalizing total with
  | nil => simp [placeWeight, weight]
  | cons byte rest ih =>
      simp only [weight, List.foldl_cons, List.length_cons, placeWeight]
      rw [ih, ih (0 * weightBase + byte.toUInt64)]
      grind

theorem weight_cons (byte : UInt8) (rest : Bytes) :
    weight (byte :: rest) = byte.toUInt64 * placeWeight rest.length + weight rest := by
  rw [weight, List.foldl_cons, weight_from]
  grind

theorem weight_concat (bytes : Bytes) (byte : UInt8) :
    weight (bytes ++ [byte]) = weight bytes * weightBase + byte.toUInt64 := by
  rw [weight, List.foldl_append]
  rfl

theorem weight_slide (leaving entering : UInt8) (bytes : Bytes) :
    weight (bytes ++ [entering])
      = (weight (leaving :: bytes) - leaving.toUInt64 * placeWeight bytes.length) * weightBase
          + entering.toUInt64 := by
  rw [weight_concat, weight_cons]
  grind

theorem weight_beq_and_leads (needle window : Bytes) :
    (weight (window.take needle.length) == weight needle && leads needle window)
      = leads needle window := by
  by_cases stands : leads needle window = true
  · rw [(leads_iff needle window).mp stands]
    simp
  · simp [stands]

theorem scan_eq (needle : Bytes) (position : Nat) (window ahead : Bytes)
    (follows : window.drop needle.length = ahead) (fits : needle.length ≤ window.length) :
    scan needle (weight needle) (placeWeight (needle.length - 1)) position
        (weight (window.take needle.length)) window ahead
      = ((List.range (ahead.length + 1)).find? fun skipped => leads needle (window.drop skipped)).map
          (position + ·) := by
  induction ahead generalizing position window with
  | nil =>
      rw [scan, weight_beq_and_leads]
      by_cases stands : leads needle window = true <;> simp [stands, List.range_succ]
  | cons entering ahead ih =>
      rw [scan, weight_beq_and_leads, List.length_cons, List.range_succ_eq_map, List.find?_cons,
        List.drop_zero]
      by_cases stands : leads needle window = true
      · simp [stands]
      · cases needle with
        | nil => simp [leads] at stands
        | cons wanted needle =>
            cases window with
            | nil => simp at fits
            | cons leaving window =>
                simp only [List.length_cons, List.drop_succ_cons] at follows fits
                have next : window.take (needle.length + 1) = window.take needle.length ++ [entering] := by
                  rw [List.take_add_one, ← List.head?_drop, follows]
                  rfl
                have passed : window.drop (needle.length + 1) = ahead := by
                  rw [← List.drop_drop, follows]
                  rfl
                have held : (window.take needle.length).length = needle.length := by
                  rw [List.length_take]
                  omega
                have room : needle.length + 1 ≤ window.length := by
                  have := congrArg List.length follows
                  simp only [List.length_drop, List.length_cons] at this
                  omega
                have slid := weight_slide leaving entering (window.take needle.length)
                rw [held, ← next] at slid
                have rest := ih (position + 1) window passed room
                simp only [List.length_cons, Nat.add_sub_cancel] at rest ⊢
                rw [List.headD_cons, List.take_succ_cons, List.tail_cons, ← slid, rest]
                have shifted : (fun skipped => position + 1 + skipped)
                    = (fun skipped => position + skipped) ∘ Nat.succ := by
                  funext skipped
                  simp only [Function.comp_apply]
                  omega
                simp only [stands, List.find?_map, Option.map_map]
                rw [if_neg Bool.false_ne_true, shifted]
                rfl

theorem firstOccurrence?_eq (needle : Bytes) (start : Nat) (bytes : Bytes) :
    firstOccurrence? needle start bytes
      = ((List.range (bytes.length + 1 - needle.length)).find? fun skipped =>
          leads needle (bytes.drop skipped)).map (start + ·) := by
  rw [firstOccurrence?]
  split
  · rename_i short
    rw [show bytes.length + 1 - needle.length = 0 by omega]
    rfl
  · rw [scan_eq needle start bytes _ rfl (by omega), List.length_drop,
      show bytes.length - needle.length + 1 = bytes.length + 1 - needle.length by omega]

/-- Standing at a place is, seen from behind, standing at the place as far from the end. -/
theorem leads_reverse (needle bytes : Bytes) (behind : Nat)
    (fits : behind + needle.length ≤ bytes.length) :
    leads needle.reverse (bytes.reverse.drop behind)
      = leads needle (bytes.drop (bytes.length - needle.length - behind)) := by
  rw [Bool.eq_iff_iff, leads_iff, leads_iff, List.length_reverse, List.drop_reverse,
    List.take_reverse, List.length_take, List.drop_take, List.reverse_inj,
    show min (bytes.length - behind) bytes.length - needle.length
      = bytes.length - needle.length - behind by omega,
    show bytes.length - behind - (bytes.length - needle.length - behind) = needle.length by omega]

theorem find?_eq_of_mem (places : List Nat) (first second : Nat → Bool)
    (same : ∀ place ∈ places, first place = second place) :
    places.find? first = places.find? second := by
  induction places with
  | nil => rfl
  | cons place rest ih =>
      rw [List.find?_cons, List.find?_cons, same place (by simp),
        ih fun other member => same other (by simp [member])]

theorem lastOccurrence?_eq (needle : Bytes) (start : Nat) (bytes : Bytes) :
    lastOccurrence? needle start bytes
      = ((List.range (bytes.length + 1 - needle.length)).reverse.find? fun skipped =>
          leads needle (bytes.drop skipped)).map (start + ·) := by
  have turned : (List.range (bytes.length + 1 - needle.length)).reverse
      = (List.range (bytes.length + 1 - needle.length)).map fun behind =>
          bytes.length - needle.length - behind := by
    rw [List.range_eq_range', List.reverse_range', List.range_eq_range']
    apply List.map_congr_left
    intro behind member
    simp only [List.mem_range'_1] at member
    omega
  rw [lastOccurrence?, firstOccurrence?_eq, turned, List.find?_map, Option.map_map, Option.map_map,
    List.length_reverse, List.length_reverse]
  rw [find?_eq_of_mem _ _ ((fun skipped => leads needle (bytes.drop skipped)) ∘ fun behind =>
    bytes.length - needle.length - behind)]
  · congr 1
    funext behind
    simp
  · intro behind member
    rw [List.mem_range] at member
    exact leads_reverse needle bytes behind (by omega)

end Calculator.Bytes
