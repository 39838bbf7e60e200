import Calculator.Positional

/-!
# Broken invariants

A request that names a slot which does not exist, or a write outside a block, is a fault of the
caller's own code. It is refused as a breach and changes nothing.
-/

namespace Calculator

inductive Breach where
  | freedSlot (label : String) (index : Nat)
  | badIndex (label : String) (index : Nat)
  | writePastCapacity (finish capacity : Nat)
  deriving DecidableEq, Repr

namespace Breach

def reason : Breach → String
  | freedSlot label index => label ++ " " ++ Positional.decimal index ++ " was already freed"
  | badIndex label index => "bad " ++ label ++ " index " ++ Positional.decimal index
  | writePastCapacity finish capacity =>
      "block write to " ++ Positional.decimal finish ++ " exceeds capacity "
        ++ Positional.decimal capacity

def message (breach : Breach) : String :=
  "internal invariant violated: " ++ breach.reason

end Breach

end Calculator
