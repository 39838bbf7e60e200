import Calculator.File.Table
import Calculator.Machine

/-!
# Arguments and results of builtins

A builtin takes a list of values. What fails inside it comes back as an error value; only a call that
is malformed, with an unknown name or the wrong number of arguments, is refused.
-/

namespace Calculator

inductive CallError where
  | unknownBuiltin (name : String)
  | wrongArgumentCount (name : String)
  | refused (message : String)
  deriving DecidableEq, Repr

namespace CallError

def message : CallError → String
  | unknownBuiltin name => "Unknown builtin: " ++ name
  | wrongArgumentCount name => name ++ ": Wrong number of arguments"
  | refused message => message

end CallError

abbrev CallM := ExceptT CallError (StateM Machine)

/-- Bodies of builtins may end early with an error code, which is what they return then. -/
abbrev BuiltinM := ExceptT ErrorCode (StateM Machine)

namespace Builtin

/-- An error code becomes the error value that the call returns. -/
def settle (body : BuiltinM Value) : CallM Value := fun machine =>
  match body machine with
  | (.ok value, machine) => (.ok value, machine)
  | (.error code, machine) => (.ok (Value.ofError code), machine)

/-- Runs the body with at least `least` and at most `most` arguments. -/
def counted (name : String) (least most : Nat) (body : List Value → BuiltinM Value)
    (arguments : List Value) : CallM Value := do
  if arguments.length < least || most < arguments.length then throw (.wrongArgumentCount name)
  settle (body arguments)

def countedFrom (name : String) (least : Nat) (body : List Value → BuiltinM Value)
    (arguments : List Value) : CallM Value := do
  if arguments.length < least then throw (.wrongArgumentCount name)
  settle (body arguments)

def argument (arguments : List Value) (index : Nat) : Value :=
  arguments.getD index Value.null

def optional (arguments : List Value) (index : Nat) : Option Value :=
  match arguments[index]? with
  | some value => if value.isNull then none else some value
  | none => none

def fileOr (code : ErrorCode) (value : Value) : BuiltinM FileId :=
  match value.file? with
  | some id => return id
  | none => throw code

def textOr (code : ErrorCode) (value : Value) : BuiltinM Bytes :=
  match value.text? with
  | some bytes => return bytes
  | none => throw code

def wordOr (code : ErrorCode) (value : Value) : BuiltinM Int :=
  match value.word? with
  | some integer => return integer
  | none => throw code

def integerOr (code : ErrorCode) (value : Value) : BuiltinM Int :=
  match value.integer? with
  | some integer => return integer
  | none => throw code

/-- Faults of the host keep their code, any other error has the given one. -/
def hostFaultOr (code : ErrorCode) : FileError → ErrorCode
  | .host fault => fault.code
  | _ => code

def onFiles {α : Type} (fault : FileError → ErrorCode) (operation : FileM α) : BuiltinM α :=
  fun machine =>
    let (result, files) := operation machine.files
    (result.mapError fault, { machine with files })

end Builtin

end Calculator
