import Calculator.Proofs.ValueVariants
import Mathlib.Data.List.Permutation

/-!
# Associations as ordered maps

Whatever has been inserted, an association holds one of each of the keys, as it was first inserted and
in that order, and under each key the value that was inserted last. Keys are the same here when they
are equal, whatever stands in them; so their bits tell nothing about what is found.
-/

namespace Calculator

namespace Association

open Value

def lastValue? (inserted : List (List Value × Value)) (key : List Value) : Option Value :=
  (inserted.reverse.find? fun entry => sameList entry.1 key).map Prod.snd

def firstKeys : List (List Value × Value) → List (List Value)
  | [] => []
  | entry :: rest => entry.1 :: (firstKeys rest).filter fun key => !sameList entry.1 key

/-- One of each of the inserted keys. -/
structure Represents (keys : List (List Value)) (inserted : List (List Value × Value)) : Prop where
  formed : ∀ key ∈ keys, FormedKey key
  apart : keys.Pairwise fun one other => sameList one other = false ∧ sameList other one = false
  known : ∀ key ∈ keys, ∃ entry ∈ inserted, sameList key entry.1 = true
  reached : ∀ entry ∈ inserted, ∃ key ∈ keys, sameList entry.1 key = true

variable {inserted : List (List Value × Value)} {entries : Association} {key other : List Value}

theorem fst_put (entries : Association) (key : List Value) (value : Value) :
    (put entries key value).1 = find? entries key := by
  induction entries with
  | nil => rfl
  | cons entry rest ih =>
      rw [put, find?, List.find?_cons]
      cases sameList entry.1 key with
      | true => rfl
      | false => exact ih

theorem put_eq (entries : Association) (key : List Value) (value : Value) :
    put entries key value = (find? entries key, insert entries key value) :=
  Prod.ext (fst_put entries key value) rfl

theorem lastValue?_concat (inserted : List (List Value × Value)) (entry : List Value × Value)
    (key : List Value) :
    lastValue? (inserted ++ [entry]) key
      = if sameList entry.1 key then some entry.2 else lastValue? inserted key := by
  rw [lastValue?, List.reverse_concat, List.find?_cons]
  cases sameList entry.1 key with
  | true => rfl
  | false => rfl

theorem lastValue?_isSome (inserted : List (List Value × Value)) (key : List Value) :
    (lastValue? inserted key).isSome = inserted.any fun entry => sameList entry.1 key := by
  rw [lastValue?, Option.isSome_map, Bool.eq_iff_iff, List.find?_isSome, List.any_eq_true]
  simp

theorem find?_isSome (entries : Association) (key : List Value) :
    (find? entries key).isSome = entries.any fun entry => sameList entry.1 key := by
  rw [find?, Option.isSome_map, Bool.eq_iff_iff, List.find?_isSome, List.any_eq_true]

theorem firstKeys_concat (inserted : List (List Value × Value)) (entry : List Value × Value) :
    firstKeys (inserted ++ [entry])
      = if inserted.any fun one => sameList one.1 entry.1 then firstKeys inserted
        else firstKeys inserted ++ [entry.1] := by
  induction inserted with
  | nil => rfl
  | cons first rest ih =>
      rw [List.cons_append, firstKeys, ih, List.any_cons, firstKeys]
      cases met : rest.any fun one => sameList one.1 entry.1 with
      | true => simp
      | false =>
          cases equal : sameList first.1 entry.1 with
          | true => simp [equal]
          | false => simp [equal]

/-- An insertion is seen under the keys that equal its own, and under no other. -/
theorem find?_insert (keys : ∀ entry ∈ entries, FormedKey entry.1) (formed : FormedKey key)
    (others : FormedKey other) (value : Value) :
    find? (entries.insert key value) other
      = if sameList key other then some value else find? entries other := by
  induction entries with
  | nil =>
      rw [insert_nil, find?, List.find?_cons]
      cases sameList key other with
      | true => rfl
      | false => rfl
  | cons entry rest ih =>
      have entryFormed := keys entry List.mem_cons_self
      rw [insert_cons]
      cases found : sameList entry.1 key with
      | true =>
          have alike : sameList entry.1 other = sameList key other :=
            (coherent_key entryFormed).alike key other formed others found
          cases equal : sameList key other with
          | true => simp [find?, alike, equal]
          | false => simp [find?, alike, equal]
      | false =>
          cases equal : sameList entry.1 other with
          | true =>
              have different : sameList key other = false := by
                rw [Bool.eq_false_iff]
                intro reached
                have back := sameList_of_both entryFormed formed others equal reached
                rw [found] at back
                cases back
              simp [find?, equal, different]
          | false =>
              have below := ih fun one member => keys one (List.mem_cons_of_mem entry member)
              simpa [find?, equal] using below

theorem formed_ofEntries (keys : ∀ entry ∈ inserted, FormedKey entry.1) :
    ∀ entry ∈ ofEntries inserted, FormedKey entry.1 := by
  intro entry present
  obtain ⟨one, member, own⟩ := (mem_ofEntries present).1
  exact own ▸ keys one member

theorem find?_ofEntries (keys : ∀ entry ∈ inserted, FormedKey entry.1) (formed : FormedKey key) :
    find? (ofEntries inserted) key = lastValue? inserted key := by
  induction inserted using List.reverseRecOn with
  | nil => rfl
  | append_singleton inserted last ih =>
      have before : ∀ entry ∈ inserted, FormedKey entry.1 :=
        fun entry member => keys entry (List.mem_append_left [last] member)
      rw [ofEntries_concat, find?_insert (formed_ofEntries before) (keys last (by simp)) formed,
        lastValue?_concat, ih before]

theorem any_ofEntries (keys : ∀ entry ∈ inserted, FormedKey entry.1) (formed : FormedKey key) :
    ((ofEntries inserted).any fun entry => sameList entry.1 key)
      = inserted.any fun entry => sameList entry.1 key := by
  rw [← find?_isSome, find?_ofEntries keys formed, lastValue?_isSome]

theorem keys_ofEntries (keys : ∀ entry ∈ inserted, FormedKey entry.1) :
    (ofEntries inserted).map Prod.fst = firstKeys inserted := by
  induction inserted using List.reverseRecOn with
  | nil => rfl
  | append_singleton inserted last ih =>
      have before : ∀ entry ∈ inserted, FormedKey entry.1 :=
        fun entry member => keys entry (List.mem_append_left [last] member)
      rw [ofEntries_concat, keys_insert, any_ofEntries before (keys last (by simp)), ih before,
        firstKeys_concat]

/-- Keys that are not equal, and that equal some of others each, are not more than those. -/
theorem length_le_of_reached {left right : List (List Value)}
    (apart : left.Pairwise fun one other => sameList one other = false)
    (formed : ∀ one ∈ left, FormedKey one) (others : ∀ one ∈ right, FormedKey one)
    (reached : ∀ one ∈ left, ∃ other ∈ right, sameList one other = true) :
    left.length ≤ right.length := by
  choose! counterpart within equal using reached
  have different : (left.map counterpart).Nodup := by
    apply Coherent.nodup_counterparts id id (by simpa using apart)
    · exact fun one member => coherent_key (formed one member)
    · exact formed
    · exact fun one member => others _ (within one member)
    · exact equal
  have inside : left.map counterpart ⊆ right := by
    intro other image
    obtain ⟨one, member, rfl⟩ := List.mem_map.mp image
    exact within one member
  simpa using (List.subperm_of_subset different inside).length_le

theorem Represents.length_eq {left right : List (List Value)} (first : Represents left inserted)
    (second : Represents right inserted) (keys : ∀ entry ∈ inserted, FormedKey entry.1) :
    left.length = right.length := by
  have within {one others : List (List Value)} (first : Represents one inserted)
      (second : Represents others inserted) : one.length ≤ others.length := by
    apply length_le_of_reached (first.apart.imp And.left) first.formed second.formed
    intro key member
    obtain ⟨entry, present, equal⟩ := first.known key member
    obtain ⟨other, inside, same⟩ := second.reached entry present
    have formed := first.formed key member
    exact ⟨other, inside,
      (coherent_key formed).trans (keys entry present) (second.formed other inside) equal same⟩
  exact Nat.le_antisymm (within first second) (within second first)

theorem keyed_ofEntries (keys : ∀ entry ∈ inserted, FormedKey entry.1) :
    (ofEntries inserted).Keyed where
  distinct := distinct_ofEntries inserted
  formed := formed_ofEntries keys

theorem represents_ofEntries (keys : ∀ entry ∈ inserted, FormedKey entry.1) :
    Represents ((ofEntries inserted).map Prod.fst) inserted := by
  have keyed := keyed_ofEntries keys
  constructor
  · simpa using keyed.formed
  · exact List.pairwise_map.mpr keyed.apart
  · intro key present
    obtain ⟨entry, member, rfl⟩ := List.mem_map.mp present
    obtain ⟨one, inside, own⟩ := (mem_ofEntries member).1
    refine ⟨one, inside, ?_⟩
    rw [own]
    exact (coherent_key (keyed.formed entry member)).itself
  · intro entry member
    have formed := keys entry member
    have itself := (coherent_key formed).itself
    have inside : (ofEntries inserted).any (fun stored => sameList stored.1 entry.1) = true := by
      rw [any_ofEntries keys formed]
      exact List.any_eq_true.mpr ⟨entry, member, itself⟩
    obtain ⟨stored, present, equal⟩ := List.any_eq_true.mp inside
    refine ⟨stored.1, List.mem_map_of_mem present, ?_⟩
    exact (coherent_key (keyed.formed stored present)).symm (keyed.formed stored present) formed equal

theorem lastValue?_cons (entry : List Value × Value) (rest : List (List Value × Value))
    (key : List Value) :
    lastValue? (entry :: rest) key
      = (lastValue? rest key).or (if sameList entry.1 key then some entry.2 else none) := by
  rw [lastValue?, List.reverse_cons, List.find?_append, Option.map_or, lastValue?,
    List.find?_singleton]
  cases sameList entry.1 key with
  | true => rfl
  | false => rfl

/-- The keys of the insertions may change where they are found by the same keys. -/
theorem lastValue?_congr {left right : List (List Value × Value)} (length : left.length = right.length)
    (each : ∀ pair ∈ left.zip right,
      sameList pair.1.1 key = sameList pair.2.1 other ∧ pair.1.2 = pair.2.2) :
    lastValue? left key = lastValue? right other := by
  have paired : List.Forall₂ (fun one changed : List Value × Value =>
      sameList one.1 key = sameList changed.1 other ∧ one.2 = changed.2) left right :=
    List.forall₂_iff_zip.mpr ⟨length, fun member => each _ member⟩
  clear length each
  induction paired with
  | nil => rfl
  | cons head _ ih => rw [lastValue?_cons, lastValue?_cons, ih, head.1, head.2]

end Association

namespace Value

def KeyVariant (left right : List Value) : Prop :=
  left.length = right.length ∧ ∀ pair ∈ left.zip right, Variant pair.1 pair.2

theorem KeyVariant.same_of_formed {left right : List Value} (variant : KeyVariant left right)
    (formed : FormedKey left) : sameList left right = true ∧ FormedKey right := by
  apply sameList_of_zip variant.1
  intro pair member
  exact (variant.2 pair member).same_of_formed (formed pair.1 (List.of_mem_zip member).1)

theorem sameList_congr {one changed key other : List Value} (formed : FormedKey one)
    (changedFormed : FormedKey changed) (keyFormed : FormedKey key) (otherFormed : FormedKey other)
    (first : sameList one changed = true) (second : sameList key other = true) :
    sameList one key = sameList changed other := by
  have coherent := coherent_key changedFormed
  rw [(coherent_key formed).alike changed key changedFormed keyFormed first, Bool.eq_iff_iff]
  constructor
  · intro equal
    exact coherent.trans keyFormed otherFormed equal second
  · intro equal
    have back := (coherent_key keyFormed).symm keyFormed otherFormed second
    exact coherent.trans otherFormed keyFormed equal back

end Value

namespace Association

open Value

variable {inserted marked : List (List Value × Value)} {key other : List Value}

/-- Bits in the keys do not change what is found. -/
theorem find?_of_variants (keys : ∀ entry ∈ inserted, FormedKey entry.1) (formed : FormedKey key)
    (length : inserted.length = marked.length)
    (each : ∀ pair ∈ inserted.zip marked, KeyVariant pair.1.1 pair.2.1 ∧ pair.1.2 = pair.2.2)
    (variant : KeyVariant key other) :
    find? (ofEntries marked) other = find? (ofEntries inserted) key := by
  obtain ⟨equal, otherFormed⟩ := variant.same_of_formed formed
  have markedKeys : ∀ entry ∈ marked, FormedKey entry.1 := by
    intro entry present
    obtain ⟨one, member, both⟩ := paired_with_left length present
    exact ((each _ both).1.same_of_formed (keys one member)).2
  rw [find?_ofEntries markedKeys otherFormed, find?_ofEntries keys formed]
  symm
  apply lastValue?_congr length
  intro pair member
  have pairFormed := keys pair.1 (List.of_mem_zip member).1
  obtain ⟨sameKey, changedFormed⟩ := (each pair member).1.same_of_formed pairFormed
  exact ⟨sameList_congr pairFormed changedFormed formed otherFormed sameKey equal,
    (each pair member).2⟩

/-- The association is the ordered map of the insertions. -/
structure Follows (stored : Association) (inserted : List (List Value × Value)) : Prop where
  represents : Represents (stored.map Prod.fst) inserted
  ordered : stored.map Prod.fst = firstKeys inserted
  size : ∀ keys, Represents keys inserted → stored.length = keys.length
  found : ∀ key, FormedKey key → stored.find? key = lastValue? inserted key
  replaced : ∀ key value, FormedKey key →
    stored.put key value = (lastValue? inserted key, ofEntries (inserted ++ [(key, value)]))
  kept : ∀ key value, FormedKey key → (∃ entry ∈ inserted, sameList entry.1 key = true) →
    (stored.put key value).2.map Prod.fst = stored.map Prod.fst
  unmarked : ∀ key other marked, FormedKey key → KeyVariant key other →
    inserted.length = marked.length →
    (∀ pair ∈ inserted.zip marked, KeyVariant pair.1.1 pair.2.1 ∧ pair.1.2 = pair.2.2) →
    (ofEntries marked).find? other = stored.find? key

theorem associations_follow_insertions (inserted : List (List Value × Value))
    (keys : ∀ entry ∈ inserted, FormedKey entry.1) : (ofEntries inserted).Follows inserted := by
  have represents := represents_ofEntries keys
  constructor
  · exact represents
  · exact keys_ofEntries keys
  · intro others represented
    have sizes := represents.length_eq represented keys
    simpa using sizes
  · exact fun key formed => find?_ofEntries keys formed
  · intro key value formed
    rw [put_eq, find?_ofEntries keys formed, ofEntries_concat]
  · intro key value formed present
    rw [put_eq, keys_insert, if_pos]
    rw [any_ofEntries keys formed]
    exact List.any_eq_true.mpr present
  · intro key other marked formed variant length each
    exact find?_of_variants keys formed length each variant

namespace OrderSample

def inner : Value := .plain (.association (ofEntries [([.ofInt 1], .ofText [0x61])]))

def named : List Value := [.plain (.list [inner]), .ofInt 2]

def guarded : List Value :=
  [⟨.list [{ inner with protection := .noCopyTo }], .noNewValue⟩, ⟨.number (.fresh (.ofInt 2)), .noAssignTo⟩]

def insertions : List (List Value × Value) :=
  [(named, .ofInt 10), ([.null], .ofInt 20), (guarded, .ofInt 30)]

theorem formed_inner : inner.Formed := by
  apply Formed.association .none
  · intro entry member part within
    rw [List.mem_singleton.mp member] at within
    rw [List.mem_singleton.mp within]
    exact .simple .none rfl
  · intro entry member
    rw [List.mem_singleton.mp member]
    exact .simple .none rfl

theorem formed_keys : ∀ entry ∈ insertions, FormedKey entry.1 := by
  have list (bits otherBits : Protection) :
      Formed ⟨.list [{ inner with protection := bits }], otherBits⟩ := by
    apply Formed.list otherBits
    intro item member
    rw [List.mem_singleton.mp member]
    exact formed_inner.protect bits
  have number (bits : Protection) : Formed ⟨.number (.fresh (.ofInt 2)), bits⟩ := .simple bits rfl
  have empty : Value.null.Formed := .simple .none rfl
  have namedFormed : FormedKey named := by
    simpa [FormedKey, named] using ⟨list .none .none, number .none⟩
  have guardedFormed : FormedKey guarded := by
    simpa [FormedKey, guarded] using ⟨list .noCopyTo .noNewValue, number .noAssignTo⟩
  simpa [insertions] using ⟨namedFormed, by simpa [FormedKey] using empty, guardedFormed⟩

/-- The third insertion replaces the value of the first one, under the key of the first one. -/
theorem guarded_key_is_found :
    (∀ entry ∈ insertions, FormedKey entry.1)
      ∧ (ofEntries insertions).map Prod.fst = [named, [.null]]
      ∧ (ofEntries insertions).find? named = some (.ofInt 30)
      ∧ ((ofEntries insertions).put guarded (.ofInt 40)).1 = some (.ofInt 30)
      ∧ ((ofEntries insertions).put guarded (.ofInt 40)).2.map Prod.fst = [named, [.null]] := by
  have follows := associations_follow_insertions insertions formed_keys
  have namedFormed : FormedKey named := formed_keys (named, .ofInt 10) (by simp [insertions])
  have guardedFormed : FormedKey guarded := formed_keys (guarded, .ofInt 30) (by simp [insertions])
  have order : firstKeys insertions = [named, [.null]] := by cbv
  have lastNamed : lastValue? insertions named = some (.ofInt 30) := by cbv
  have lastGuarded : lastValue? insertions guarded = some (.ofInt 30) := by cbv
  have known : ∃ entry ∈ insertions, sameList entry.1 guarded = true :=
    ⟨(named, .ofInt 10), by simp [insertions], by cbv⟩
  refine ⟨formed_keys, follows.ordered.trans order, ?_, ?_, ?_⟩
  · rw [follows.found named namedFormed, lastNamed]
  · rw [follows.replaced guarded (.ofInt 40) guardedFormed, lastGuarded]
  · rw [follows.kept guarded (.ofInt 40) guardedFormed known, follows.ordered, order]

end OrderSample

end Association

end Calculator
