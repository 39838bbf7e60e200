import Calculator.Value.Equality

/-!
# Associations

An association maps lists of values to values and keeps the order in which its keys first came.
Keys are found by equality of values.
-/

namespace Calculator

abbrev Association := List (List Value × Value)

namespace Association

def find? (entries : Association) (key : List Value) : Option Value :=
  (List.find? (fun entry => Value.sameList entry.1 key) entries).map Prod.snd

/-- Puts `value` under `key`: in the place of an equal key, which is kept, or at the end. Returns the
value that was under the key before. -/
def put : Association → List Value → Value → Option Value × Association
  | [], key, value => (none, [(key, value)])
  | entry :: rest, key, value =>
      if Value.sameList entry.1 key then (some entry.2, (entry.1, value) :: rest)
      else
        let (replaced, changed) := put rest key value
        (replaced, entry :: changed)

def insert (entries : Association) (key : List Value) (value : Value) : Association :=
  (put entries key value).2

def ofEntries (entries : List (List Value × Value)) : Association :=
  entries.foldl (fun built entry => insert built entry.1 entry.2) []

end Association

end Calculator
