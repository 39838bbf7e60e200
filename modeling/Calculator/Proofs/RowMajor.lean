import Calculator.Proofs.CopyWindows
import Calculator.Value.Matrix
import Mathlib.Algebra.BigOperators.Group.List.Basic
import Mathlib.Data.List.Forall2
import Mathlib.Data.List.Lex
import Mathlib.Tactic.Ring

/-!
# Row-major matrices

The offsets of a matrix count its index tuples in lexicographic order, each once, from zero up to the
number of its elements. They are found without a result that a machine word does not hold, and copies
keep bounds and number of elements, so that an index never leads past the table.
-/

namespace Calculator.Matrix

def maxExtent : Nat := 9223372036854775807

def volume (bounds : List Bounds) : Nat :=
  (bounds.map extent).prod

/-- The index tuple has one index for each dimension, and each is within the bounds of its own. -/
def Within (bounds : List Bounds) (index : List Int) : Prop :=
  List.Forall₂ (fun dimension place => dimension.1 ≤ place ∧ place ≤ dimension.2) bounds index

variable {bounds : List Bounds} {index other rest : List Int} {dimension : Bounds}

theorem volume_cons (dimension : Bounds) (bounds : List Bounds) :
    volume (dimension :: bounds) = extent dimension * volume bounds := by
  rw [volume, List.map_cons, List.prod_cons, volume]

theorem extent_pos (ordered : dimension.1 ≤ dimension.2) : 0 < extent dimension := by
  rw [extent]
  omega

theorem volume_pos (ordered : ∀ dimension ∈ bounds, dimension.1 ≤ dimension.2) : 0 < volume bounds := by
  induction bounds with
  | nil => exact Nat.one_pos
  | cons dimension bounds ih =>
      rw [volume_cons]
      exact Nat.mul_pos (extent_pos (ordered dimension List.mem_cons_self))
        (ih fun later member => ordered later (List.mem_cons_of_mem _ member))

section Size

theorem signedWord_natCast {result : Nat} (small : result ≤ maxExtent) :
    signedWord result = pure (result : Int) := by
  have fits : Number.fitsWord result = true := by
    rw [maxExtent] at small
    rw [Number.fitsWord, Bool.and_eq_true, decide_eq_true_eq, decide_eq_true_eq]
    omega
  rw [signedWord, if_pos fits]
  rfl

theorem extentInWords_eq (ordered : dimension.1 ≤ dimension.2) (narrow : extent dimension ≤ maxExtent) :
    extentInWords dimension = pure (extent dimension : Int) := by
  have span : dimension.2 - dimension.1 = ((extent dimension - 1 : Nat) : Int) := by
    rw [extent]
    omega
  have count : ((extent dimension - 1 : Nat) : Int) + 1 = (extent dimension : Int) := by
    rw [extent]
    omega
  rw [extentInWords, span, signedWord_natCast (by omega), pure_bind, count, signedWord_natCast narrow]

theorem extentInWords_overflows (ordered : dimension.1 ≤ dimension.2)
    (wide : maxExtent < extent dimension) :
    ∃ reason, extentInWords dimension = throw reason := by
  have beyond : Number.fitsWord (dimension.2 - dimension.1 + 1) = false := by
    rw [maxExtent, extent] at wide
    rw [Number.fitsWord, Bool.and_eq_false_iff, decide_eq_false_iff_not, decide_eq_false_iff_not]
    omega
  unfold extentInWords
  by_cases fits : Number.fitsWord (dimension.2 - dimension.1) = true
  · rw [signedWord, if_pos fits]
    refine ⟨⟨dimension.2 - dimension.1 + 1⟩, ?_⟩
    show signedWord (dimension.2 - dimension.1 + 1) = _
    rw [signedWord, if_neg (Bool.not_eq_true _ ▸ beyond)]
    rfl
  · rw [signedWord, if_neg fits]
    exact ⟨_, rfl⟩

/-- The product is found exactly where no extent and not the whole of it is too large; extents are
positive, so that no part of it is larger. -/
theorem lengthFrom_eq_some_iff (ordered : ∀ dimension ∈ bounds, dimension.1 ≤ dimension.2)
    {total : Nat} (small : total ≤ maxLength) {size : Nat} :
    lengthFrom total bounds = .ok (some size)
      ↔ (∀ dimension ∈ bounds, extent dimension ≤ maxExtent) ∧ total * volume bounds ≤ maxLength
        ∧ total * volume bounds = size := by
  induction bounds generalizing total with
  | nil =>
      have whole : total * volume [] = total := Nat.mul_one total
      rw [lengthFrom, whole]
      exact ⟨fun found => ⟨nofun, small, Option.some.inj (Except.ok.inj found)⟩,
        fun found => congrArg (Except.ok ∘ some) found.2.2⟩
  | cons dimension bounds ih =>
      have ordered_first := ordered dimension List.mem_cons_self
      have ordered_rest : ∀ later ∈ bounds, later.1 ≤ later.2 := fun later member =>
        ordered later (List.mem_cons_of_mem _ member)
      have whole : total * volume (dimension :: bounds) = total * extent dimension * volume bounds := by
        rw [volume_cons, Nat.mul_assoc]
      rw [lengthFrom, whole, List.forall_mem_cons]
      by_cases narrow : extent dimension ≤ maxExtent
      · rw [extentInWords_eq ordered_first narrow, pure_bind, Int.toNat_natCast]
        by_cases product : total * extent dimension ≤ maxLength
        · rw [if_pos ⟨Int.natCast_nonneg _, product⟩]
          exact (ih ordered_rest product).trans
            ⟨fun found => ⟨⟨narrow, found.1⟩, found.2⟩, fun found => ⟨found.1.2, found.2⟩⟩
        · have larger : total * extent dimension ≤ total * extent dimension * volume bounds :=
            Nat.le_mul_of_pos_right _ (volume_pos ordered_rest)
          rw [if_neg fun both => product both.2]
          exact ⟨nofun, fun found => absurd (Nat.le_trans larger found.2.1) product⟩
      · obtain ⟨reason, overflows⟩ := extentInWords_overflows ordered_first (Nat.lt_of_not_le narrow)
        rw [overflows]
        exact ⟨nofun, fun found => absurd found.1.1 narrow⟩

theorem lengthFrom_of_narrow (ordered : ∀ dimension ∈ bounds, dimension.1 ≤ dimension.2)
    (narrow : ∀ dimension ∈ bounds, extent dimension ≤ maxExtent) (total : Nat) :
    ∃ size, lengthFrom total bounds = .ok size := by
  induction bounds generalizing total with
  | nil => exact ⟨_, rfl⟩
  | cons dimension bounds ih =>
      rw [lengthFrom, extentInWords_eq (ordered dimension List.mem_cons_self)
        (narrow dimension List.mem_cons_self), pure_bind]
      split
      · exact ih (fun later member => ordered later (List.mem_cons_of_mem _ member))
          (fun later member => narrow later (List.mem_cons_of_mem _ member)) _
      · exact ⟨none, rfl⟩

theorem size?_of_narrow (narrow : ∀ dimension ∈ bounds, extent dimension ≤ maxExtent) :
    ∃ size, size? bounds = .ok size := by
  rw [size?]
  split
  · rename_i checked
    have shaped : bounds.length ≤ maxDimensions ∧ ∀ dimension ∈ bounds, dimension.1 ≤ dimension.2 := by
      simpa using checked
    exact lengthFrom_of_narrow shaped.2 narrow 1
  · exact ⟨none, rfl⟩

/-- When there is a new matrix, and which elements it has. -/
theorem zeroed?_eq_some_iff {zero : Value} {slots : List Value} :
    zeroed? bounds zero = .ok (some slots)
      ↔ bounds.length ≤ maxDimensions
        ∧ (∀ dimension ∈ bounds, dimension.1 ≤ dimension.2 ∧ extent dimension ≤ maxExtent)
        ∧ volume bounds ≤ maxLength ∧ slots = List.replicate (volume bounds) zero := by
  have made : zeroed? bounds zero = .ok (some slots)
      ↔ ∃ size, size? bounds = .ok (some size) ∧ List.replicate size zero = slots := by
    unfold zeroed?
    rcases size? bounds with reason | _ | size
    · exact ⟨nofun, nofun⟩
    · exact ⟨nofun, nofun⟩
    · exact ⟨fun found => ⟨size, rfl, Option.some.inj (Except.ok.inj found)⟩,
        fun ⟨_, same, filled⟩ => by
          cases same
          rw [← filled]
          rfl⟩
  rw [made, size?]
  by_cases shaped : bounds.length ≤ maxDimensions ∧ ∀ dimension ∈ bounds, dimension.1 ≤ dimension.2
  · have checked : (bounds.length ≤ maxDimensions
        && bounds.all fun dimension => dimension.1 ≤ dimension.2) = true := by
      simpa using shaped
    rw [if_pos checked]
    constructor
    · rintro ⟨size, found, rfl⟩
      obtain ⟨narrow, small, rfl⟩ := (lengthFrom_eq_some_iff shaped.2 (by decide)).mp found
      rw [Nat.one_mul] at small ⊢
      exact ⟨shaped.1, fun dimension member => ⟨shaped.2 dimension member, narrow dimension member⟩,
        small, rfl⟩
    · rintro ⟨_, each, small, rfl⟩
      rw [← Nat.one_mul (volume bounds)] at small
      refine ⟨1 * volume bounds, (lengthFrom_eq_some_iff shaped.2 (by decide)).mpr
        ⟨fun dimension member => (each dimension member).2, small, rfl⟩, ?_⟩
      rw [Nat.one_mul]
  · have unchecked : ¬ (bounds.length ≤ maxDimensions
        && bounds.all fun dimension => dimension.1 ≤ dimension.2) = true := by
      simpa using shaped
    rw [if_neg unchecked]
    exact ⟨nofun, fun found => absurd ⟨found.1, fun dimension member => (found.2.1 dimension member).1⟩
      shaped⟩

end Size

section Offset

theorem offsetFrom_cons (offset : Nat) (dimension : Bounds) (bounds : List Bounds) (place : Int)
    (rest : List Int) :
    offsetFrom offset (dimension :: bounds) (place :: rest)
      = if dimension.1 ≤ place ∧ place ≤ dimension.2 then
          offsetFrom (offset * extent dimension + (place - dimension.1).toNat) bounds rest
        else none := by
  rw [offsetFrom]
  simp only [Bool.and_eq_true, decide_eq_true_eq]

theorem offsetFrom_eq (offset : Nat) (bounds : List Bounds) (index : List Int) :
    offsetFrom offset bounds index
      = (offset? bounds index).map fun place => offset * volume bounds + place := by
  rw [offset?]
  induction bounds generalizing offset index with
  | nil => cases index <;> simp [offsetFrom, volume]
  | cons dimension bounds ih =>
      cases index with
      | nil => rfl
      | cons place rest =>
          rw [offsetFrom_cons, offsetFrom_cons]
          by_cases inside : dimension.1 ≤ place ∧ place ≤ dimension.2
          · rw [if_pos inside, if_pos inside, ih, ih (0 * _ + _), Option.map_map]
            congr 1
            funext later
            simp only [Function.comp_apply, volume_cons]
            ring
          · rw [if_neg inside, if_neg inside, Option.map_none]

theorem offset?_cons (dimension : Bounds) (bounds : List Bounds) (place : Int) (rest : List Int) :
    offset? (dimension :: bounds) (place :: rest)
      = if dimension.1 ≤ place ∧ place ≤ dimension.2 then
          (offset? bounds rest).map fun later => (place - dimension.1).toNat * volume bounds + later
        else none := by
  rw [offset?, offsetFrom_cons, Nat.zero_mul, Nat.zero_add, offsetFrom_eq]

theorem offset?_cons_eq_some {place : Int} {offset : Nat} :
    offset? (dimension :: bounds) (place :: rest) = some offset
      ↔ (dimension.1 ≤ place ∧ place ≤ dimension.2) ∧ ∃ later, offset? bounds rest = some later
        ∧ (place - dimension.1).toNat * volume bounds + later = offset := by
  rw [offset?_cons]
  by_cases inside : dimension.1 ≤ place ∧ place ≤ dimension.2
  · rw [if_pos inside, Option.map_eq_some_iff]
    exact (and_iff_right inside).symm
  · rw [if_neg inside]
    exact ⟨nofun, fun found => absurd found.1 inside⟩

theorem offset?_isSome_iff : (offset? bounds index).isSome ↔ Within bounds index := by
  induction bounds generalizing index with
  | nil =>
      cases index with
      | nil => exact ⟨fun _ => .nil, fun _ => rfl⟩
      | cons place rest => exact ⟨nofun, nofun⟩
  | cons dimension bounds ih =>
      cases index with
      | nil => exact ⟨nofun, nofun⟩
      | cons place rest =>
          rw [Within, List.forall₂_cons, offset?_cons]
          by_cases inside : dimension.1 ≤ place ∧ place ≤ dimension.2
          · rw [if_pos inside, Option.isSome_map, ih, and_iff_right inside]
            rfl
          · rw [if_neg inside]
            exact ⟨nofun, fun found => absurd found.1 inside⟩

theorem offset?_lt {offset : Nat} (found : offset? bounds index = some offset) :
    offset < volume bounds := by
  induction bounds generalizing index offset with
  | nil =>
      cases index with
      | nil =>
          cases found
          exact Nat.one_pos
      | cons place rest => cases found
  | cons dimension bounds ih =>
      cases index with
      | nil => cases found
      | cons place rest =>
          obtain ⟨inside, later, tail, rfl⟩ := offset?_cons_eq_some.mp found
          have below : (place - dimension.1).toNat + 1 ≤ extent dimension := by
            rw [extent]
            omega
          calc (place - dimension.1).toNat * volume bounds + later
              < (place - dimension.1).toNat * volume bounds + volume bounds :=
                Nat.add_lt_add_left (ih tail) _
            _ = ((place - dimension.1).toNat + 1) * volume bounds := (Nat.succ_mul _ _).symm
            _ ≤ extent dimension * volume bounds := Nat.mul_le_mul_right _ below
            _ = volume (dimension :: bounds) := (volume_cons dimension bounds).symm

theorem row_lt_iff {row line width later after : Nat} (inside : later < width) (within : after < width) :
    row * width + later < line * width + after ↔ row < line ∨ row = line ∧ later < after := by
  rcases Nat.lt_trichotomy row line with less | rfl | more
  · have room : row * width + width ≤ line * width := by
      rw [← Nat.succ_mul]
      exact Nat.mul_le_mul_right _ less
    omega
  · omega
  · have room : line * width + width ≤ row * width := by
      rw [← Nat.succ_mul]
      exact Nat.mul_le_mul_right _ more
    omega

theorem offset?_lt_iff {offset next : Nat} (found : offset? bounds index = some offset)
    (also : offset? bounds other = some next) : index < other ↔ offset < next := by
  induction bounds generalizing index other offset next with
  | nil =>
      cases index with
      | cons place rest => cases found
      | nil =>
          cases other with
          | cons place rest => cases also
          | nil =>
              cases found
              cases also
              exact ⟨fun before => absurd before (List.not_lt_nil _), nofun⟩
  | cons dimension bounds ih =>
      cases index with
      | nil => cases found
      | cons place rest =>
          cases other with
          | nil => cases also
          | cons behind tail =>
              obtain ⟨inside, later, reached, rfl⟩ := offset?_cons_eq_some.mp found
              obtain ⟨within, after, ends, rfl⟩ := offset?_cons_eq_some.mp also
              rw [List.cons_lt_cons_iff, ih reached ends]
              rw [row_lt_iff (offset?_lt reached) (offset?_lt ends)]
              omega

theorem offset?_surjective {offset : Nat} (below : offset < volume bounds) :
    ∃ index, offset? bounds index = some offset := by
  induction bounds generalizing offset with
  | nil =>
      have zero : offset = 0 := Nat.lt_one_iff.mp below
      exact ⟨[], by rw [zero]; rfl⟩
  | cons dimension bounds ih =>
      rw [volume_cons] at below
      have some_tail : 0 < volume bounds := Nat.pos_of_ne_zero fun none => by
        rw [none, Nat.mul_zero] at below
        exact Nat.not_lt_zero _ below
      obtain ⟨rest, tail⟩ := ih (Nat.mod_lt offset some_tail)
      have first : offset / volume bounds < extent dimension :=
        (Nat.div_lt_iff_lt_mul some_tail).mpr below
      have parts := Nat.div_add_mod' offset (volume bounds)
      generalize offset / volume bounds = row at first parts
      have back : (dimension.1 + row - dimension.1).toNat = row := by omega
      rw [extent] at first
      refine ⟨(dimension.1 + row) :: rest, offset?_cons_eq_some.mpr ⟨by omega, _, tail, ?_⟩⟩
      rw [back, parts]

theorem offset?_injective {offset : Nat} (found : offset? bounds index = some offset)
    (also : offset? bounds other = some offset) : index = other := by
  rcases lt_trichotomy index other with before | same | behind
  · exact absurd ((offset?_lt_iff found also).mp before) (Nat.lt_irrefl _)
  · exact same
  · exact absurd ((offset?_lt_iff also found).mp behind) (Nat.lt_irrefl _)

end Offset

section Words

def unsignedWord (result : Int) : Except Overflow Nat :=
  if 0 ≤ result ∧ result ≤ maxLength then .ok result.toNat else .error ⟨result⟩

/-- The offset with one more dimension. Bounds and indices are signed words, and so are their
differences; what they become is unsigned. -/
def stepInWords (offset : Nat) (dimension : Bounds) (place : Int) : Except Overflow Nat := do
  let count ← unsignedWord (← extentInWords dimension)
  let scaled ← unsignedWord (offset * count : Nat)
  let distance ← unsignedWord (← signedWord (place - dimension.1))
  unsignedWord (scaled + distance : Nat)

def offsetInWordsFrom : Nat → List Bounds → List Int → Except Overflow (Option Nat)
  | offset, [], [] => .ok (some offset)
  | offset, dimension :: bounds, place :: rest =>
      if dimension.1 ≤ place ∧ place ≤ dimension.2 then do
        offsetInWordsFrom (← stepInWords offset dimension place) bounds rest
      else .ok none
  | _, _, _ => .ok none

/-- The row-major offset of an index, computed in words; a tuple of another length is out of bounds. -/
def offsetInWords (bounds : List Bounds) (index : List Int) : Except Overflow (Option Nat) :=
  if index.length ≠ bounds.length then .ok none else offsetInWordsFrom 0 bounds index

theorem unsignedWord_natCast {result : Nat} (small : result ≤ maxLength) :
    unsignedWord result = pure result := by
  rw [unsignedWord, if_pos ⟨Int.natCast_nonneg result, Int.ofNat_le.mpr small⟩, Int.toNat_natCast]
  rfl

/-- No result of a step is too large where the offsets of the rows up to the next one are not. -/
theorem stepInWords_eq {place : Int} (inside : dimension.1 ≤ place ∧ place ≤ dimension.2)
    (narrow : extent dimension ≤ maxExtent) {offset : Nat}
    (room : (offset + 1) * extent dimension ≤ maxLength) :
    stepInWords offset dimension place
      = .ok (offset * extent dimension + (place - dimension.1).toNat) := by
  have below : (place - dimension.1).toNat < extent dimension := by
    rw [extent]
    omega
  have distance : place - dimension.1 = ((place - dimension.1).toNat : Int) := by omega
  rw [Nat.add_mul, Nat.one_mul] at room
  have wide : extent dimension ≤ maxLength := by omega
  rw [stepInWords, extentInWords_eq (by omega) narrow, pure_bind, unsignedWord_natCast wide, pure_bind,
     unsignedWord_natCast (by omega), pure_bind, distance,
    signedWord_natCast (by omega), pure_bind, Int.toNat_natCast, unsignedWord_natCast (by omega),
    pure_bind, unsignedWord_natCast (by omega)]
  rfl

theorem offsetInWordsFrom_eq (ordered : ∀ dimension ∈ bounds, dimension.1 ≤ dimension.2)
    (narrow : ∀ dimension ∈ bounds, extent dimension ≤ maxExtent) {offset : Nat}
    (room : (offset + 1) * volume bounds ≤ maxLength) (index : List Int) :
    offsetInWordsFrom offset bounds index = .ok (offsetFrom offset bounds index) := by
  induction bounds generalizing offset index with
  | nil => cases index <;> rfl
  | cons dimension bounds ih =>
      cases index with
      | nil => rfl
      | cons place rest =>
          have later : ∀ later ∈ bounds, later.1 ≤ later.2 := fun later member =>
            ordered later (List.mem_cons_of_mem _ member)
          rw [offsetInWordsFrom, offsetFrom_cons]
          by_cases inside : dimension.1 ≤ place ∧ place ≤ dimension.2
          · have next : offset * extent dimension + (place - dimension.1).toNat + 1
                ≤ (offset + 1) * extent dimension := by
              have below : (place - dimension.1).toNat < extent dimension := by
                rw [extent]
                omega
              rw [Nat.add_mul, Nat.one_mul]
              omega
            rw [volume_cons, ← Nat.mul_assoc] at room
            rw [if_pos inside, if_pos inside, stepInWords_eq inside
              (narrow dimension List.mem_cons_self)
              (Nat.le_trans (Nat.le_mul_of_pos_right _ (volume_pos later)) room)]
            exact ih later (fun other member => narrow other (List.mem_cons_of_mem _ member))
              (Nat.le_trans (Nat.mul_le_mul_right _ next) room) rest
          · rw [if_neg inside, if_neg inside]

theorem offsetInWords_of_from
    (same : offsetInWordsFrom 0 bounds index = .ok (offset? bounds index)) :
    offsetInWords bounds index = .ok (offset? bounds index) := by
  rw [offsetInWords]
  split
  · rename_i apart
    have outside : offset? bounds index = none := by
      rw [← Option.not_isSome_iff_eq_none, offset?_isSome_iff]
      exact fun within => apart within.length_eq.symm
    rw [outside]
  · exact same

theorem offsetInWords_eq (ordered : ∀ dimension ∈ bounds, dimension.1 ≤ dimension.2)
    (narrow : ∀ dimension ∈ bounds, extent dimension ≤ maxExtent)
    (room : volume bounds ≤ maxLength) (index : List Int) :
    offsetInWords bounds index = .ok (offset? bounds index) := by
  rw [← Nat.one_mul (volume bounds)] at room
  exact offsetInWords_of_from (offsetInWordsFrom_eq ordered narrow room index)

theorem extent_vectorBounds (count : Nat) : extent (0, (count : Int) - 1) = count := by
  rw [extent]
  omega

theorem volume_vectorBounds (count : Nat) : volume (vectorBounds count) = count := by
  rw [vectorBounds, volume_cons, extent_vectorBounds]
  exact Nat.mul_one count

theorem offsetInWords_vectorBounds {count : Nat} (counted : count ≤ maxExtent) (index : List Int) :
    offsetInWords (vectorBounds count) index = .ok (offset? (vectorBounds count) index) := by
  by_cases some_values : 0 < count
  · apply offsetInWords_eq
    · intro dimension member
      rw [List.mem_singleton.mp member]
      dsimp only
      omega
    · intro dimension member
      rw [List.mem_singleton.mp member, extent_vectorBounds]
      exact counted
    · rw [volume_vectorBounds]
      exact Nat.le_trans counted (by decide)
  · have outside (place : Int) : ¬ (0 ≤ place ∧ place ≤ (count : Int) - 1) := by omega
    apply offsetInWords_of_from
    cases index with
    | nil => rfl
    | cons place rest =>
        rw [offset?, vectorBounds, offsetFrom_cons, offsetInWordsFrom, if_neg (outside place),
          if_neg (outside place)]

end Words

/-- The index tuples within the bounds are the places of the table, in order, and an index leads to the
element at its place or out of bounds. -/
structure RowMajor (bounds : List Bounds) (slots : List Value) : Prop where
  answered : ∀ index, (offset? bounds index).isSome ↔ Within bounds index
  below : ∀ index place, offset? bounds index = some place → place < slots.length
  reached : ∀ place, place < slots.length → ∃! index, offset? bounds index = some place
  ordered : ∀ index other place next, offset? bounds index = some place →
    offset? bounds other = some next → (index < other ↔ place < next)
  found : ∀ index place, offset? bounds index = some place →
    ∃ element, slots[place]? = some element ∧ get bounds slots index = .ok (some element)
  missed : ∀ index, ¬ Within bounds index → get bounds slots index = .ok none

theorem rowMajor_of_length {slots : List Value} (full : slots.length = volume bounds) :
    RowMajor bounds slots where
  answered := fun _ => offset?_isSome_iff
  below := by
    intro index place found
    rw [full]
    exact offset?_lt found
  reached := by
    intro place below
    rw [full] at below
    obtain ⟨index, found⟩ := offset?_surjective below
    exact ⟨index, found, fun other also => offset?_injective also found⟩
  ordered := fun _ _ _ _ => offset?_lt_iff
  found := by
    intro index place found
    have inside : place < slots.length := by
      rw [full]
      exact offset?_lt found
    refine ⟨slots[place], List.getElem?_eq_getElem inside, ?_⟩
    simp only [get, found, List.getElem?_eq_getElem inside]
  missed := by
    intro index outside
    have none := Option.not_isSome_iff_eq_none.mp (mt offset?_isSome_iff.mp outside)
    simp only [get, none]

/-- The matrices of some bounds: new ones, vectors of values, and what copies leave of them. -/
inductive Made : List Bounds → Value → Prop where
  | zeroed {bounds : List Bounds} {zero : Value} {slots : List Value}
      (made : zeroed? bounds zero = .ok (some slots)) (protection : Protection) :
      Made bounds ⟨.matrix bounds slots, protection⟩
  | vector (values : List Value) (protection : Protection) :
      Made (vectorBounds values.length) ⟨.matrix (vectorBounds values.length) values, protection⟩
  | copied {bounds : List Bounds} {source destination after : Value} {start count position : Int}
      {exclusive : Bool} {machine last : Machine} (made : Made bounds destination)
      (copied : Copy.copy source start count destination position exclusive machine
        = (.ok after, last)) :
      Made bounds after

theorem Made.full {value : Value} (made : Made bounds value) :
    ∃ slots, value.data = .matrix bounds slots ∧ slots.length = volume bounds := by
  induction made with
  | zeroed made protection =>
      obtain ⟨_, _, _, rfl⟩ := zeroed?_eq_some_iff.mp made
      exact ⟨_, rfl, List.length_replicate⟩
  | vector values protection => exact ⟨values, rfl, (volume_vectorBounds _).symm⟩
  | copied made copied ih =>
      obtain ⟨slots, held, full⟩ := ih
      obtain ⟨_, stored, rfl, overlaid, _⟩ := Copy.copy_into_slots (.matrix _) held copied
      exact ⟨stored, rfl, overlaid.length.trans full⟩

/-- There is a new matrix exactly where dimensions, extents and volume are not too many or too large,
and it has a zero at every place. The offsets of a matrix, also after copies into it, are its places in
the order of the tuples, and none is computed through a result that is too large for its word. -/
theorem matrices_are_row_major :
    (∀ bounds zero slots, zeroed? bounds zero = .ok (some slots)
        ↔ bounds.length ≤ maxDimensions
          ∧ (∀ dimension ∈ bounds, dimension.1 ≤ dimension.2 ∧ extent dimension ≤ maxExtent)
          ∧ volume bounds ≤ maxLength ∧ slots = List.replicate (volume bounds) zero)
      ∧ (∀ bounds value, Made bounds value →
          ∃ slots, value.data = .matrix bounds slots ∧ RowMajor bounds slots)
      ∧ (∀ bounds zero slots, zeroed? bounds zero = .ok (some slots) →
          ∀ index, offsetInWords bounds index = .ok (offset? bounds index))
      ∧ ∀ count, count ≤ maxExtent →
          ∀ index, offsetInWords (vectorBounds count) index
            = .ok (offset? (vectorBounds count) index) := by
  refine ⟨fun _ _ _ => zeroed?_eq_some_iff, ?_, ?_, fun _ => offsetInWords_vectorBounds⟩
  · intro bounds value made
    obtain ⟨slots, held, full⟩ := made.full
    exact ⟨slots, held, rowMajor_of_length full⟩
  · intro bounds zero slots made
    obtain ⟨_, each, small, _⟩ := zeroed?_eq_some_iff.mp made
    exact offsetInWords_eq (fun dimension member => (each dimension member).1)
      (fun dimension member => (each dimension member).2) small

namespace MatrixSample

def twoRows : List Bounds := [(-1, 0), (5, 7)]

def zeros : List Value := List.replicate 6 (.ofInt 0)

def rewritten : Except CopyError Value × Machine :=
  Copy.copy (.plain (.list [.ofInt 8, .ofInt 9])) 0 (-1) (.plain (.matrix twoRows zeros)) 4 false
    Copy.oneBlock

theorem rewritten_rows_are_row_major :
    zeroed? twoRows (.ofInt 0) = .ok (some zeros)
      ∧ (∃ after last slots, rewritten = (.ok after, last) ∧ Made twoRows after
          ∧ after.data = .matrix twoRows slots ∧ RowMajor twoRows slots
          ∧ ∃ element, get twoRows slots [0, 6] = .ok (some element) ∧ element.integer? = some 8)
      ∧ offset? twoRows [0, 6] = some 4 ∧ offset? twoRows [1, 5] = none
      ∧ offsetInWords twoRows [0, 6] = .ok (offset? twoRows [0, 6])
      ∧ 3 ≤ maxExtent ∧ offsetInWords (vectorBounds 3) [2] = .ok (offset? (vectorBounds 3) [2]) := by
  obtain ⟨anew, shaped, inWords, vectors⟩ := matrices_are_row_major
  have made : zeroed? twoRows (.ofInt 0) = .ok (some zeros) :=
    (anew twoRows (.ofInt 0) zeros).mpr ⟨by decide, by decide, by decide, rfl⟩
  obtain ⟨after, answered⟩ : ∃ after, rewritten = (.ok after, Copy.oneBlock) := ⟨_, rfl⟩
  have still : Made twoRows after := .copied (.zeroed made Protection.none) answered
  obtain ⟨slots, held, rowMajor⟩ := shaped twoRows after still
  refine ⟨made, ⟨after, _, slots, answered, still, held, rowMajor, ?_⟩, rfl, rfl,
    inWords twoRows _ _ made _, by decide, vectors 3 (by decide) [2]⟩
  obtain ⟨element, there, got⟩ := rowMajor.found [0, 6] 4 rfl
  refine ⟨element, got, ?_⟩
  cases answered
  cases held
  cases there
  rfl

end MatrixSample

end Calculator.Matrix
