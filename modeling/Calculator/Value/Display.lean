import Calculator.Text.Decoding
import Calculator.Value.Basic

/-!
# Values as text
-/

namespace Calculator.Value

/-- One line that shows a value, or names its kind and size. Null shows nothing. -/
def display (value : Value) : String :=
  match value.data with
  | .null => ""
  | .number payload => payload.content.display
  | .complex re im => Number.displayComplex re.content im.content
  | .text payload => "\"" ++ Text.decode payload.content ++ "\""
  | .block block => "block: " ++ block.display
  | .namedBlock id => "nblock " ++ Positional.decimal id.place
  | .octet _ index => "octet [" ++ Positional.decimal index ++ "]"
  | .matrix _ slots => "mat [" ++ Positional.decimal slots.length ++ "]"
  | .list items => "list (" ++ Positional.decimal items.length ++ " elements)"
  | .association entries => "assoc (" ++ Positional.decimal entries.length ++ " elements)"
  | .file id => "FILE " ++ id.display
  | .error code => code.describe

end Calculator.Value
