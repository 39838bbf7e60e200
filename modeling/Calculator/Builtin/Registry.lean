import Calculator.Builtin.Block
import Calculator.Builtin.File

/-!
# The registry of builtins

Builtins are called by name. A name that is registered again keeps its place in the order and takes
the new builtin.
-/

namespace Calculator

abbrev Implementation := List Value → CallM Value

structure Registry where
  entries : List (String × Implementation)

namespace Registry

def empty : Registry := ⟨[]⟩

/-- Puts a builtin in the place of its name, or at the end. -/
def put (name : String) (implementation : Implementation) :
    List (String × Implementation) → List (String × Implementation)
  | [] => [(name, implementation)]
  | entry :: rest =>
      if entry.1 == name then (name, implementation) :: rest
      else entry :: put name implementation rest

def register (registry : Registry) (name : String) (implementation : Implementation) : Registry :=
  ⟨put name implementation registry.entries⟩

def find? (registry : Registry) (name : String) : Option Implementation :=
  registry.entries.lookup name

def names (registry : Registry) : List String :=
  registry.entries.map Prod.fst

def call (registry : Registry) (name : String) (arguments : List Value) : CallM Value :=
  match registry.find? name with
  | some implementation => implementation arguments
  | none => throw (.unknownBuiltin name)

def ofList (entries : List (String × Implementation)) : Registry :=
  entries.foldl (fun registry entry => registry.register entry.1 entry.2) empty

/-- A builtin with its name and the number of arguments that it takes. -/
def counted (name : String) (least most : Nat) (body : List Value → BuiltinM Value) :
    String × Implementation :=
  (name, Builtin.counted name least most body)

/-- A builtin that takes any number of arguments from `least` on. -/
def countedFrom (name : String) (least : Nat) (body : List Value → BuiltinM Value) :
    String × Implementation :=
  (name, Builtin.countedFrom name least body)

/-- The builtins of the calculator. -/
def standard : Registry :=
  ofList
    [counted "fopen" 1 2 Builtin.fopen,
     counted "fpathopen" 1 3 Builtin.fpathopen,
     counted "freopen" 2 3 Builtin.freopen,
     countedFrom "fclose" 0 Builtin.fclose,
     countedFrom "fflush" 0 Builtin.fflush,
     counted "fputc" 2 2 Builtin.fputc,
     countedFrom "fputs" 2 Builtin.fputs,
     countedFrom "fputstr" 2 Builtin.fputstr,
     counted "fgetc" 1 1 Builtin.fgetc,
     counted "fgets" 1 1 Builtin.fgets,
     counted "fgetline" 1 1 Builtin.fgetline,
     counted "fgetstr" 1 1 Builtin.fgetstr,
     counted "fgetfield" 1 1 Builtin.fgetfield,
     counted "fgetfile" 1 1 Builtin.fgetfile,
     counted "ungetc" 2 2 Builtin.ungetc,
     counted "ftell" 1 1 Builtin.ftell,
     counted "fseek" 2 3 Builtin.fseek,
     counted "fsize" 1 1 Builtin.fsize,
     counted "feof" 1 1 Builtin.feof,
     counted "ferror" 1 1 Builtin.ferror,
     counted "isatty" 1 1 Builtin.isatty,
     countedFrom "rewind" 0 Builtin.rewind,
     counted "files" 0 1 Builtin.files,
     counted "search" 2 4 Builtin.search,
     counted "rsearch" 2 4 Builtin.rsearch,
     counted "blk" 0 3 Builtin.blk,
     counted "blkfree" 1 1 Builtin.blkfree,
     counted "blocks" 0 1 Builtin.blocks,
     counted "copy" 2 5 Builtin.copy,
     counted "blkcpy" 2 5 Builtin.blkcpy]

end Registry

end Calculator
