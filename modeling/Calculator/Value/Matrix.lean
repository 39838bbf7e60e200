import Calculator.Number.Literal
import Calculator.Value.Basic

/-!
# Matrices

A matrix has up to four dimensions with inclusive bounds, and lists its elements in row-major order.
-/

namespace Calculator.Matrix

def maxDimensions : Nat := 4

/-- Largest number of elements that a matrix may be asked to have. -/
def maxLength : Nat := 18446744073709551615

def extent (bounds : Bounds) : Nat :=
  (bounds.2 - bounds.1 + 1).toNat

/-- A result that the word it is computed in does not hold. -/
structure Overflow where
  result : Int
  deriving DecidableEq, Repr

def signedWord (result : Int) : Except Overflow Int :=
  if Number.fitsWord result then .ok result else .error ⟨result⟩

/-- The extent of a dimension, computed in signed words. -/
def extentInWords (dimension : Bounds) : Except Overflow Int := do
  let span ← signedWord (dimension.2 - dimension.1)
  signedWord (span + 1)

/-- The product of the extents, with that of the dimensions before. There is none where a product is too
large. -/
def lengthFrom : Nat → List Bounds → Except Overflow (Option Nat)
  | total, [] => .ok (some total)
  | total, dimension :: bounds => do
      let count ← extentInWords dimension
      if 0 ≤ count ∧ total * count.toNat ≤ maxLength then lengthFrom (total * count.toNat) bounds
      else return none

/-- The number of elements of a matrix with these bounds. There is none past four dimensions or with
inverted bounds. -/
def size? (bounds : List Bounds) : Except Overflow (Option Nat) :=
  if bounds.length ≤ maxDimensions && bounds.all (fun dimension => dimension.1 ≤ dimension.2) then
    lengthFrom 1 bounds
  else .ok none

/-- Elements of a new matrix: every slot is `zero`. -/
def zeroed? (bounds : List Bounds) (zero : Value) : Except Overflow (Option (List Value)) := do
  let size ← size? bounds
  return size.map fun size => List.replicate size zero

/-- Bounds of the one-dimensional matrix that holds `count` elements from index zero on. -/
def vectorBounds (count : Nat) : List Bounds :=
  [(0, (count : Int) - 1)]

/-- Row-major offset of an index, starting from the offset of the dimensions before. -/
def offsetFrom : Nat → List Bounds → List Int → Option Nat
  | offset, [], [] => some offset
  | offset, dimension :: bounds, index :: rest =>
      if dimension.1 ≤ index && index ≤ dimension.2 then
        offsetFrom (offset * extent dimension + (index - dimension.1).toNat) bounds rest
      else none
  | _, _, _ => none

/-- Row-major offset of `index`, or nothing when it is out of bounds. -/
def offset? (bounds : List Bounds) (index : List Int) : Option Nat :=
  offsetFrom 0 bounds index

/-- A place that a table of elements does not reach. -/
structure PastTable where
  place : Nat
  length : Nat
  deriving DecidableEq, Repr

/-- The element at `index`, or nothing when it is out of bounds. A table that ends before the offset is
told apart from both. -/
def get (bounds : List Bounds) (slots : List Value) (index : List Int) :
    Except PastTable (Option Value) :=
  match offset? bounds index with
  | none => .ok none
  | some place =>
      match slots[place]? with
      | some element => .ok (some element)
      | none => .error ⟨place, slots.length⟩

end Calculator.Matrix
