import Calculator.Bytes
import Calculator.Payload
import Calculator.Pool.Basic
import Calculator.Text.Decoding

/-!
# String literals

The pool of string literals. Index zero is always the empty string.
-/

namespace Calculator

instance : Internable (Payload Bytes) where
  rejects left right :=
    left.content.length != right.content.length || left.content.head? != right.content.head?
  same left right := left.content == right.content

abbrev Literals := Pool (Payload Bytes)

namespace Literals

def new (chunk : Nat) : Literals :=
  (Pool.empty "string constant" chunk).pushPinned { content := [], mark := some 0 }

def listing (literals : Literals) : String :=
  let rows := literals.entries.map fun (index, payload, links) =>
    Positional.column 5 index ++ " " ++ Positional.column 6 links ++ " "
      ++ Positional.column 7 payload.content.length ++ "  \"" ++ Text.decode payload.content
      ++ "\"\n"
  "Index  Links  Length  String\n" ++ String.join rows

end Literals

end Calculator
