import Calculator.Value.Association
import Mathlib.Data.List.Induction

/-!
# Insertions

What an association holds after insertions: keys that were inserted, no two of them equal, and values
that were inserted.
-/

namespace Calculator

namespace Association

def Distinct (entries : Association) : Prop :=
  (entries.map Prod.fst).Pairwise fun earlier later => Value.sameList earlier later = false

@[simp] theorem insert_nil (key : List Value) (value : Value) : insert [] key value = [(key, value)] :=
  rfl

theorem insert_cons (entry : List Value × Value) (rest : Association) (key : List Value)
    (value : Value) :
    insert (entry :: rest) key value
      = if Value.sameList entry.1 key then (entry.1, value) :: rest
        else entry :: insert rest key value := by
  rw [insert, put]
  split
  · rfl
  · rfl

theorem insert_found {entry : List Value × Value} {key : List Value}
    (found : Value.sameList entry.1 key = true) (rest : Association) (value : Value) :
    insert (entry :: rest) key value = (entry.1, value) :: rest := by
  rw [insert_cons, if_pos found]

theorem insert_passed {entry : List Value × Value} {key : List Value}
    (different : Value.sameList entry.1 key = false) (rest : Association) (value : Value) :
    insert (entry :: rest) key value = entry :: insert rest key value := by
  rw [insert_cons, if_neg (Bool.eq_false_iff.mp different)]

theorem ofEntries_concat (inserted : List (List Value × Value)) (entry : List Value × Value) :
    ofEntries (inserted ++ [entry]) = insert (ofEntries inserted) entry.1 entry.2 := by
  simp [ofEntries]

/-- An insertion under a new key adds the key behind the others; any other one keeps the keys. -/
theorem keys_insert (entries : Association) (key : List Value) (value : Value) :
    (insert entries key value).map Prod.fst
      = if entries.any fun entry => Value.sameList entry.1 key then entries.map Prod.fst
        else entries.map Prod.fst ++ [key] := by
  induction entries with
  | nil => simp
  | cons entry rest ih =>
      rw [insert_cons]
      by_cases found : Value.sameList entry.1 key = true
      · simp [found]
      · rw [if_neg found, List.map_cons, ih, List.any_cons, Bool.eq_false_iff.mpr found,
          Bool.false_or]
        split
        · rfl
        · rfl

theorem Distinct.insert {entries : Association} (distinct : entries.Distinct) (key : List Value)
    (value : Value) : (entries.insert key value).Distinct := by
  rw [Distinct, keys_insert]
  split
  · exact distinct
  · rename_i missing
    apply List.pairwise_append.mpr
    refine ⟨distinct, List.pairwise_singleton _ _, ?_⟩
    intro earlier present added own
    rw [List.mem_singleton] at own
    obtain ⟨entry, member, rfl⟩ := List.mem_map.mp present
    simp only [List.any_eq_true, not_exists, not_and, Bool.not_eq_true] at missing
    rw [own]
    exact missing entry member

theorem distinct_ofEntries (inserted : List (List Value × Value)) : (ofEntries inserted).Distinct := by
  induction inserted using List.reverseRecOn with
  | nil => exact List.Pairwise.nil
  | append_singleton inserted entry ih =>
      rw [ofEntries_concat]
      exact ih.insert entry.1 entry.2

theorem mem_insert {entries : Association} {key : List Value} {value : Value}
    {entry : List Value × Value} (present : entry ∈ entries.insert key value) :
    (entry.1 = key ∨ ∃ old ∈ entries, old.1 = entry.1)
      ∧ (entry.2 = value ∨ ∃ old ∈ entries, old.2 = entry.2) := by
  induction entries with
  | nil =>
      rw [insert_nil, List.mem_singleton] at present
      simp [present]
  | cons first rest ih =>
      rw [insert_cons] at present
      split at present
      · rcases List.mem_cons.mp present with own | later
        · simp [own]
        · exact ⟨.inr ⟨entry, by simp [later], rfl⟩, .inr ⟨entry, by simp [later], rfl⟩⟩
      · rcases List.mem_cons.mp present with own | later
        · simp [own]
        · obtain ⟨keys, values⟩ := ih later
          simp only [List.mem_cons, exists_eq_or_imp]
          tauto

theorem mem_ofEntries {inserted : List (List Value × Value)} {entry : List Value × Value}
    (present : entry ∈ ofEntries inserted) :
    (∃ one ∈ inserted, one.1 = entry.1) ∧ ∃ one ∈ inserted, one.2 = entry.2 := by
  induction inserted using List.reverseRecOn generalizing entry with
  | nil => simp [ofEntries] at present
  | append_singleton inserted last ih =>
      rw [ofEntries_concat] at present
      obtain ⟨keys, values⟩ := mem_insert present
      constructor
      · rcases keys with own | ⟨old, member, equal⟩
        · exact ⟨last, by simp, own.symm⟩
        · obtain ⟨one, inside, same⟩ := (ih member).1
          exact ⟨one, by simp [inside], same.trans equal⟩
      · rcases values with own | ⟨old, member, equal⟩
        · exact ⟨last, by simp, own.symm⟩
        · obtain ⟨one, inside, same⟩ := (ih member).2
          exact ⟨one, by simp [inside], same.trans equal⟩

theorem insert_missing {entries : Association} {key : List Value}
    (missing : ∀ entry ∈ entries, Value.sameList entry.1 key = false) (value : Value) :
    entries.insert key value = entries ++ [(key, value)] := by
  induction entries with
  | nil => rfl
  | cons entry rest ih =>
      rw [insert_passed (missing entry List.mem_cons_self),
        ih fun other member => missing other (List.mem_cons_of_mem entry member), List.cons_append]

theorem Distinct.ofEntries {entries : Association} (distinct : entries.Distinct) :
    ofEntries entries = entries := by
  induction entries using List.reverseRecOn with
  | nil => rfl
  | append_singleton entries last ih =>
      rw [Distinct, List.map_append] at distinct
      obtain ⟨before, _, apart⟩ := List.pairwise_append.mp distinct
      rw [ofEntries_concat, ih before]
      apply insert_missing
      intro entry member
      exact apart entry.1 (List.mem_map_of_mem member) last.1 (by simp)

end Association

end Calculator
