import Calculator.Value.Basic

/-!
# Equality of values

Two values are equal when their data is: protection bits, marks, and capacity and chunk of blocks do
not count, at any depth. Associations are equal when they map equal keys to equal values, in
whatever order.
-/

namespace Calculator

namespace OctetTarget

def same : OctetTarget → OctetTarget → Bool
  | text left, text right => left.content == right.content
  | namedBlock left, namedBlock right => left == right
  | _, _ => false

end OctetTarget

mutual

def Value.same : Value → Value → Bool
  | ⟨left, _⟩, ⟨right, _⟩ => Value.sameData left right
termination_by structural left => left

def Value.sameData : Data Value → Data Value → Bool
  | .null, .null => true
  | .number left, .number right => left.content == right.content
  | .complex leftRe leftIm, .complex rightRe rightIm =>
      leftRe.content == rightRe.content && leftIm.content == rightIm.content
  | .text left, .text right => left.content == right.content
  | .block left, .block right => left.same right
  | .namedBlock left, .namedBlock right => left == right
  | .octet left i, .octet right j => left.same right && i == j
  | .matrix leftBounds left, .matrix rightBounds right =>
      leftBounds == rightBounds && Value.sameList left right
  | .list left, .list right => Value.sameList left right
  | .association left, .association right =>
      left.length == right.length && Value.sameEntries left right
  | .file left, .file right => left == right
  | .error left, .error right => left == right
  | _, _ => false
termination_by structural left => left

def Value.sameList : List Value → List Value → Bool
  | [], [] => true
  | left :: leftRest, right :: rightRest =>
      Value.same left right && Value.sameList leftRest rightRest
  | _, _ => false
termination_by structural left => left

/-- Every entry on the left has its counterpart on the right. -/
def Value.sameEntries : List (List Value × Value) → List (List Value × Value) → Bool
  | [], _ => true
  | entry :: rest, right => Value.sameEntry entry right && Value.sameEntries rest right
termination_by structural left => left

/-- The entry of the right-hand association under an equal key holds an equal value. -/
def Value.sameEntry : List Value × Value → List (List Value × Value) → Bool
  | (key, value), right =>
      match right.find? (fun entry => Value.sameList key entry.1) with
      | some entry => Value.same value entry.2
      | none => false
termination_by structural left => left

end

end Calculator
