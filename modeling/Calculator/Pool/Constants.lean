import Calculator.Number.Digits
import Calculator.Payload
import Calculator.Pool.Basic

/-!
# Numeric constants

The pool of numeric literals. Small constants are there from the start and stay.
-/

namespace Calculator

instance : Internable (Payload Number) where
  rejects left right := left.content.profile != right.content.profile
  same left right := left.content == right.content

abbrev Constants := Pool (Payload Number)

namespace Constants

def preloaded : List Int := [0, 1, 2, 3, 4, 5, 10, 20]

/-- The preloaded constants, marked by their index. -/
def new (chunk : Nat) : Constants :=
  preloaded.foldl
    (fun pool value =>
      pool.pushPinned { content := Number.ofInt value, mark := some pool.size })
    (Pool.empty "constant" chunk)

def listing (constants : Constants) : String :=
  let rows := constants.entries.map fun (index, payload, links) =>
    Positional.column 5 index ++ " " ++ Positional.column 6 links ++ "  "
      ++ payload.content.display ++ "\n"
  "\nIndex  Links  Value\n" ++ String.join rows ++ "\nNumber: "
    ++ Positional.decimal constants.heldCount ++ "\n"

end Constants

end Calculator
