import Calculator.ErrorCode

/-!
# Faults of the host

What the operating system answers when it refuses a request. Most faults have a number of their own;
the others count as input or output errors.
-/

namespace Calculator

inductive Fault where
  | noEntry
  | badDescriptor
  | notDirectory
  | isDirectory
  | invalidArgument
  | fileTooLarge
  | noSpace
  | illegalSeek
  | nameTooLong
  | nulInName
  | failedBeforeClose
  | nothingTried
  deriving DecidableEq, Repr

namespace Fault

/-- Number and words of the system's own faults. -/
def numbered? : Fault → Option (Nat × String)
  | noEntry => some (2, "No such file or directory")
  | badDescriptor => some (9, "Bad file descriptor")
  | notDirectory => some (20, "Not a directory")
  | isDirectory => some (21, "Is a directory")
  | invalidArgument => some (22, "Invalid argument")
  | fileTooLarge => some (27, "File too large")
  | noSpace => some (28, "No space left on device")
  | illegalSeek => some (29, "Illegal seek")
  | nameTooLong => some (36, "File name too long")
  | nulInName => none
  | failedBeforeClose => none
  | nothingTried => none

/-- Words of the faults that have no number. -/
def words : Fault → String
  | nulInName => "file name contained an unexpected NUL byte"
  | failedBeforeClose => "error on stream before close"
  | nothingTried => "entity not found"
  | _ => ""

def message (fault : Fault) : String :=
  match fault.numbered? with
  | some (number, words) => words ++ " (os error " ++ Positional.decimal number ++ ")"
  | none => fault.words

def code (fault : Fault) : ErrorCode :=
  match fault.numbered? with
  | some (number, _) => ⟨number⟩
  | none => ErrorCode.inputOutput

end Fault

end Calculator
