import Calculator.Proofs.Host
import Calculator.Proofs.PlainFile

/-!
# What a search finds

The host looks for a needle a stretch at a time. Over a regular file this finds the first, or the last,
place of the whole range where the needle stands.
-/

namespace Calculator

namespace Bytes

theorem leads_eq_false_of_short {needle disk : Bytes} {place : Nat} (nonempty : needle ≠ [])
    (short : disk.length < place + needle.length) : leads needle (disk.drop place) = false := by
  have wanted : 0 < needle.length := List.length_pos_iff.mpr nonempty
  rw [Bool.eq_false_iff]
  intro stands
  have covered := congrArg List.length ((leads_iff needle (disk.drop place)).mp stands)
  rw [List.length_take, List.length_drop] at covered
  omega

theorem leads_stretch (needle disk : Bytes) (start skipped length : Nat)
    (covered : skipped + needle.length ≤ length) :
    leads needle (((disk.drop start).take length).drop skipped)
      = leads needle (disk.drop (start + skipped)) := by
  rw [Bool.eq_iff_iff, leads_iff, leads_iff, List.drop_take, List.drop_drop, List.take_take,
    Nat.min_eq_left (by omega)]

theorem stretch_places {needle disk : Bytes} (nonempty : needle ≠ []) (start count place : Nat)
    (beyond : ((disk.drop start).take (Host.span needle count)).length + 1 - needle.length ≤ place)
    (within : place < count) : leads needle (disk.drop (start + place)) = false := by
  have wanted : 0 < needle.length := List.length_pos_iff.mpr nonempty
  apply leads_eq_false_of_short nonempty
  rw [List.length_take, List.length_drop, Host.span] at beyond
  omega

/-- The places of a stretch: those that the needle fits, and the rest up to `count`. -/
theorem stretch_range (needle disk : Bytes) (start count : Nat) (nonempty : needle ≠ []) :
    ∃ rest, List.range count
        = List.range (((disk.drop start).take (Host.span needle count)).length + 1 - needle.length)
          ++ rest
      ∧ ∀ place ∈ rest, leads needle (disk.drop (start + place)) = false := by
  have wanted : 0 < needle.length := List.length_pos_iff.mpr nonempty
  generalize fits : ((disk.drop start).take (Host.span needle count)).length + 1 - needle.length = held
  have fewer : held ≤ count := by
    rw [← fits, List.length_take, Host.span]
    omega
  refine ⟨(List.range (count - held)).map (held + ·), ?_, ?_⟩
  · rw [← List.range_add, Nat.add_sub_cancel' fewer]
  · intro place member
    obtain ⟨further, bound, rfl⟩ := List.mem_map.mp member
    rw [List.mem_range] at bound
    exact stretch_places nonempty start count (held + further) (by omega) (by omega)

theorem stretch_leads {needle disk : Bytes} (nonempty : needle ≠ []) (start count : Nat) (place : Nat)
    (member : place ∈ List.range
      (((disk.drop start).take (Host.span needle count)).length + 1 - needle.length)) :
    leads needle (((disk.drop start).take (Host.span needle count)).drop place)
      = leads needle (disk.drop (start + place)) := by
  have wanted : 0 < needle.length := List.length_pos_iff.mpr nonempty
  rw [List.mem_range, List.length_take] at member
  apply leads_stretch
  omega

theorem firstOccurrence?_stretch {needle : Bytes} (disk : Bytes) (nonempty : needle ≠ [])
    (start count : Nat) :
    firstOccurrence? needle start ((disk.drop start).take (Host.span needle count))
      = (List.range' start count).find? fun place => leads needle (disk.drop place) := by
  obtain ⟨rest, places, nowhere⟩ := stretch_range needle disk start count nonempty
  have none : rest.find? (fun place => leads needle (disk.drop (start + place))) = none := by
    rw [List.find?_eq_none]
    intro place member
    simp [nowhere place member]
  rw [firstOccurrence?_eq, List.range'_eq_map_range, List.find?_map, places, List.find?_append,
    find?_eq_of_mem _ _ _ (stretch_leads nonempty start count)]
  simp only [Function.comp_def, none, Option.or_none]

theorem lastOccurrence?_stretch {needle : Bytes} (disk : Bytes) (nonempty : needle ≠ [])
    (start count : Nat) :
    lastOccurrence? needle start ((disk.drop start).take (Host.span needle count))
      = (List.range' start count).reverse.find? fun place => leads needle (disk.drop place) := by
  obtain ⟨rest, places, nowhere⟩ := stretch_range needle disk start count nonempty
  have none : rest.reverse.find? (fun place => leads needle (disk.drop (start + place))) = none := by
    rw [List.find?_eq_none]
    intro place member
    simp [nowhere place (List.mem_reverse.mp member)]
  rw [lastOccurrence?_eq, List.range'_eq_map_range, ← List.map_reverse, List.find?_map, places,
    List.reverse_append, List.find?_append,
    find?_eq_of_mem _ _ (fun place => leads needle (disk.drop (start + place)))]
  · simp only [Function.comp_def, none, Option.none_or]
  · intro place member
    exact stretch_leads nonempty start count place (List.mem_reverse.mp member)

end Bytes

namespace Host

section Peeked

variable {host : Host} {id : DescriptorId} {disk needle : Bytes}
  (peeks : ∀ start count, host.peek id start count = (disk.drop start).take count)
  (nonempty : needle ≠ [])

include peeks nonempty

theorem firstOccurrence?_peeked (start finish : Nat) :
    host.firstOccurrence? id needle start finish
      = PlainFile.firstPlace? needle disk start finish := by
  have wanted : 0 < needle.length := List.length_pos_iff.mpr nonempty
  fun_induction firstOccurrence? host id needle start finish with
  | case1 start before count bytes position found =>
      have covered : count ≤ finish - start := Nat.min_le_right _ _
      simp only [bytes] at found
      rw [peeks, Bytes.firstOccurrence?_stretch disk nonempty] at found
      rw [PlainFile.firstPlace?, ← Nat.add_sub_cancel' covered, ← List.range'_append_1,
        List.find?_append, found]
      rfl
  | case2 start before count bytes missed short =>
      have covered : count ≤ finish - start := Nat.min_le_right _ _
      simp only [bytes] at missed short
      rw [peeks, Bytes.firstOccurrence?_stretch disk nonempty] at missed
      rw [PlainFile.firstPlace?, ← Nat.add_sub_cancel' covered, ← List.range'_append_1,
        List.find?_append, missed, Option.none_or, Eq.comm, List.find?_eq_none]
      intro place member
      -- The stretch met the end of the file, so no later place has room for the needle.
      rw [List.mem_range'_1] at member
      rw [peeks, List.length_take, List.length_drop, span] at short
      rw [Bytes.leads_eq_false_of_short nonempty (by omega)]
      simp
  | case3 start before count bytes missed long ih =>
      have covered : count ≤ finish - start := Nat.min_le_right _ _
      simp only [bytes] at missed
      rw [peeks, Bytes.firstOccurrence?_stretch disk nonempty] at missed
      rw [ih, PlainFile.firstPlace?, PlainFile.firstPlace?, ← Nat.add_sub_cancel' covered,
        ← List.range'_append_1, List.find?_append, missed, Option.none_or, Nat.sub_sub]
  | case4 start before =>
      rw [PlainFile.firstPlace?, show finish - start = 0 by omega]
      rfl

theorem lastOccurrence?_peeked (last bound : Nat) :
    host.lastOccurrence? id needle last bound
      = (List.range' last (bound - last)).reverse.find? fun place =>
          Bytes.leads needle (disk.drop place) := by
  fun_induction lastOccurrence? host id needle last bound with
  | case1 bound before count position found =>
      have covered : count ≤ bound - last := Nat.min_le_right _ _
      rw [peeks, Bytes.lastOccurrence?_stretch disk nonempty] at found
      rw [show bound - last = bound - last - count + count by omega, ← List.range'_append_1,
        List.reverse_append, List.find?_append, show last + (bound - last - count) = bound - count by omega,
        found]
      rfl
  | case2 bound before count missed ih =>
      have covered : count ≤ bound - last := Nat.min_le_right _ _
      rw [peeks, Bytes.lastOccurrence?_stretch disk nonempty] at missed
      rw [ih, show bound - last = bound - last - count + count by omega, ← List.range'_append_1,
        List.reverse_append, List.find?_append, show last + (bound - last - count) = bound - count by omega,
        missed, Option.none_or, show bound - count - last = bound - last - count by omega]
  | case3 bound before =>
      rw [show bound - last = 0 by omega]
      rfl

end Peeked

variable {host : Host} {id : DescriptorId} {node : NodeId} {offset : Nat} {disk needle : Bytes}

theorem firstOccurrence?_regular (holds : host.Holds id node offset disk) (nonempty : needle ≠ [])
    (start finish : Nat) :
    host.firstOccurrence? id needle start finish
      = PlainFile.firstPlace? needle disk start finish :=
  firstOccurrence?_peeked (peek_regular holds) nonempty start finish

theorem lastOccurrence?_regular (holds : host.Holds id node offset disk) (nonempty : needle ≠ [])
    (last bound : Nat) :
    host.lastOccurrence? id needle last bound
      = (List.range' last (bound - last)).reverse.find? fun place =>
          Bytes.leads needle (disk.drop place) :=
  lastOccurrence?_peeked (peek_regular holds) nonempty last bound

end Host

end Calculator
