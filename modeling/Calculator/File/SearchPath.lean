import Calculator.File.Table

/-!
# Search paths

A file can be looked for in a list of directories, separated by colons. An empty entry is the current
directory, and a leading `~` stands for the home directory. Names that are absolute or start with `./`
or `../` are not looked for.
-/

namespace Calculator.SearchPath

/-- A directory and a name in it. An absolute name stands alone, and an empty directory adds
nothing. -/
def join (directory name : String) : String :=
  if Host.isAbsolute name || directory.isEmpty then name
  else if directory.endsWith "/" then directory ++ name
  else directory ++ "/" ++ name

/-- The directory that an entry of a path stands for; none when it needs a home that is not set. -/
def expand (home : Option String) (entry : String) : Option String :=
  match entry.toList with
  | ['~'] => home
  | '~' :: '/' :: rest => home.map fun directory => join directory (String.ofList rest)
  | _ => some entry

def isDirect (name : String) : Bool :=
  name.startsWith "/" || name.startsWith "./" || name.startsWith "../"

def candidates (home : Option String) (path name : String) : List String :=
  (path.splitOn ":").filterMap fun entry => (expand home entry).map fun directory =>
    join directory name

end Calculator.SearchPath

namespace Calculator.Files

/-- Opens the first candidate that can be opened; `failure` is the error when none can. -/
def openFirst (mode : Mode) (failure : FileError) : List String → FileM FileId
  | [] => throw failure
  | candidate :: rest => do
      let files ← get
      match files.host.openName candidate mode.request with
      | (.ok descriptor, host) =>
          let (id, files) := ({ files with host } : Files).enter descriptor candidate mode
          set files
          return id
      | (.error fault, host) =>
          set ({ files with host } : Files)
          openFirst mode (.host fault) rest

/-- Opens a file along a search path. The entry records the name that could be opened. -/
def openAlong (name mode path : String) : FileM FileId := do
  let parsed ← parseMode mode
  requireRoom
  if SearchPath.isDirect name || path.isEmpty then openFile name mode
  else
    let home := (← get).host.home
    openFirst parsed (.host .nothingTried) (SearchPath.candidates home path name)

end Calculator.Files
