import Calculator.Builtin.Argument
import Calculator.File.Reader
import Calculator.File.Search
import Calculator.File.SearchPath
import Calculator.Text.Decoding

/-!
# File builtins
-/

namespace Calculator.Builtin

/-- Where files are looked for when neither the call nor the host says so. -/
def defaultSearchPath : String := ".:./cal:~/.cal"

/-- A mode given as text, `r` when it is left out. -/
def modeArgument (code : ErrorCode) (arguments : List Value) (index : Nat) : BuiltinM String :=
  match optional arguments index with
  | some value => return Text.decode (← textOr code value)
  | none => return "r"

def textOrNull : Option Bytes → Value
  | some bytes => Value.ofText bytes
  | none => Value.null

def fopen (arguments : List Value) : BuiltinM Value := do
  let name ← textOr .fopenName (argument arguments 0)
  let mode ← modeArgument .fopenMode arguments 1
  let id ← onFiles FileError.code (Files.openFile (Text.decode name) mode)
  return Value.ofFile id

/-- A bad mode has a code of its own here. -/
def pathOpenFault : FileError → ErrorCode
  | .badMode _ => .fpathopenMode
  | error => error.code

def fpathopen (arguments : List Value) : BuiltinM Value := do
  let name ← textOr .fpathopenArgument (argument arguments 0)
  let mode ← modeArgument .fpathopenArgument arguments 1
  let path ←
    match optional arguments 2 with
    | some value => Text.decode <$> textOr .fpathopenArgument value
    | none => pure ((← get).files.host.searchPath.getD defaultSearchPath)
  let id ← onFiles pathOpenFault (Files.openAlong (Text.decode name) mode path)
  return Value.ofFile id

def freopen (arguments : List Value) : BuiltinM Value := do
  let id ← fileOr .freopenFile (argument arguments 0)
  let mode ← textOr .freopenMode (argument arguments 1)
  let name ←
    match optional arguments 2 with
    | some value => (some ∘ Text.decode) <$> textOr .freopenName value
    | none => pure none
  let id ← onFiles FileError.code (Files.reopen id (Text.decode mode) name)
  return Value.ofFile id

/-- Closes the files given, or all but the standard streams. All arguments are checked first. -/
def fclose (arguments : List Value) : BuiltinM Value := do
  if arguments.isEmpty then
    onFiles (hostFaultOr .fcloseFile) Files.closeAll
    return Value.null
  let ids ← arguments.mapM (fileOr .fcloseFile)
  ids.forM fun id => onFiles FileError.code (Files.close id)
  return Value.null

/-- Flushes the files given one after the other, or all. -/
def fflush (arguments : List Value) : BuiltinM Value := do
  if arguments.isEmpty then
    onFiles (hostFaultOr .fflushFile) Files.flushAll
    return Value.null
  arguments.forM fun value => do
    let id ← fileOr .fflushFile value
    onFiles (hostFaultOr .fflushFile) (Files.flush id)
  return Value.null

/-- Writes the first byte of a text, or a NUL for the empty one. -/
def fputc (arguments : List Value) : BuiltinM Value := do
  let id ← fileOr .fputcFile (argument arguments 0)
  let text ← textOr .fputcText (argument arguments 1)
  onFiles (hostFaultOr .fputcWrite) (Files.write id [text.headD 0])
  return Value.null

/-- Writes texts in turn. All arguments are checked first. -/
def putTexts (fileCode textCode writeCode : ErrorCode) (put : FileId → Bytes → FileM Unit)
    (arguments : List Value) : BuiltinM Value := do
  let id ← fileOr fileCode (argument arguments 0)
  let texts ← (arguments.drop 1).mapM (textOr textCode)
  texts.forM fun text => onFiles (hostFaultOr writeCode) (put id text)
  return Value.null

def fputs : List Value → BuiltinM Value :=
  putTexts .fputsFile .fputsText .fputsWrite Files.write

def fputstr : List Value → BuiltinM Value :=
  putTexts .fputstrFile .fputstrText .fputstrWrite Files.writeTerminated

def fgetc (arguments : List Value) : BuiltinM Value := do
  let id ← fileOr .fgetcFile (argument arguments 0)
  let byte ← onFiles (hostFaultOr .fgetcRead) (Files.readChar id)
  return textOrNull (byte.map fun byte => [byte])

/-- Reads one text, or null at the end of the file. -/
def getText (fileCode : ErrorCode) (fault : FileError → ErrorCode) (options : ReadOptions)
    (arguments : List Value) : BuiltinM Value := do
  let id ← fileOr fileCode (argument arguments 0)
  return textOrNull (← onFiles fault (Files.readText id options))

def fgets : List Value → BuiltinM Value :=
  getText .fgetsFile (hostFaultOr .fgetsRead) ReadOptions.line

def fgetline : List Value → BuiltinM Value :=
  getText .fgetlineFile (hostFaultOr .fgetlineRead) ReadOptions.strippedLine

def fgetstr : List Value → BuiltinM Value :=
  getText .fgetstrFile (hostFaultOr .fgetstrRead) ReadOptions.terminated

def fgetfield : List Value → BuiltinM Value :=
  getText .fgetfieldFile (hostFaultOr .fgetfieldRead) ReadOptions.word

/-- A file that is not open for reading has a code of its own here. -/
def wholeFileFault : FileError → ErrorCode
  | .notOpen _ => .fgetfileNotReadable
  | .notReadable _ => .fgetfileNotReadable
  | error => hostFaultOr .fgetfileRead error

def fgetfile : List Value → BuiltinM Value :=
  getText .fgetfileFile wholeFileFault ReadOptions.everything

def ungetc (arguments : List Value) : BuiltinM Value := do
  let id ← fileOr .ungetcFile (argument arguments 0)
  match ← textOr .ungetcText (argument arguments 1) with
  | [] => throw .ungetcText
  | byte :: _ =>
      onFiles FileError.code (Files.unreadChar id byte)
      return Value.null

def ftell (arguments : List Value) : BuiltinM Value := do
  let id ← fileOr .ftellFile (argument arguments 0)
  return Value.ofInt (← onFiles (hostFaultOr .ftellRead) (Files.tell id))

def fseek (arguments : List Value) : BuiltinM Value := do
  let id ← fileOr .fseekFile (argument arguments 0)
  let offset ← integerOr .fseekTarget (argument arguments 1)
  let whence ←
    match optional arguments 2 with
    | some value => wordOr .fseekTarget value
    | none => pure 0
  onFiles FileError.code (Files.seek id offset whence)
  return Value.null

def fsize (arguments : List Value) : BuiltinM Value := do
  let id ← fileOr .fsizeFile (argument arguments 0)
  return Value.ofInt (← onFiles (hostFaultOr .fsizeRead) (Files.size id))

def feof (arguments : List Value) : BuiltinM Value := do
  let id ← fileOr .feofFile (argument arguments 0)
  return Value.ofBool (← onFiles (hostFaultOr .feofRead) (Files.isEof id))

def ferror (arguments : List Value) : BuiltinM Value := do
  let id ← fileOr .ferrorFile (argument arguments 0)
  return Value.ofBool (← onFiles (hostFaultOr .ferrorRead) (Files.isFailed id))

/-- What is not a file is not a terminal either. -/
def isatty (arguments : List Value) : BuiltinM Value := do
  match (argument arguments 0).file? with
  | some id => return Value.ofBool (← onFiles FileError.code (Files.isTerminal id))
  | none => return Value.ofBool false

/-- Rewinds the files given one after the other, or all. -/
def rewind (arguments : List Value) : BuiltinM Value := do
  if arguments.isEmpty then
    onFiles FileError.code Files.rewindAll
    return Value.null
  arguments.forM fun value => do
    let id ← fileOr .rewindFile value
    onFiles FileError.code (Files.rewind id)
  return Value.null

/-- The limit of the table, or the file at a place in its order. -/
def files (arguments : List Value) : BuiltinM Value := do
  let table := (← get).files.table
  match arguments with
  | [] => return Value.ofInt (Word.signed64 table.maxFiles)
  | value :: _ =>
      let index ← wordOr .filesIndex value
      if index < 0 then return Value.null
      match table.atIndex? index.toNat with
      | some id => return Value.ofFile id
      | none => return Value.null

/-- What the two searches work on. -/
structure Window where
  id : FileId
  needle : Bytes
  start : Option Int
  finish : Option Int
  size : Int

/-- A negative start counts from the end of the file, and stays at least zero. -/
def resolveStart (size start : Int) : Int :=
  if start < 0 then max (start + size) 0 else start

/-- An end that is not positive counts from the end of the file, any other is at most the size. -/
def resolveFinish (size finish : Int) : Int :=
  if finish ≤ 0 then finish + size else min finish size

/-- Error codes of a search. -/
structure SearchCodes where
  file : ErrorCode
  text : ErrorCode
  start : ErrorCode
  finish : ErrorCode
  read : ErrorCode
  notReadable : ErrorCode

def integerArgument? (code : ErrorCode) (arguments : List Value) (index : Nat) :
    BuiltinM (Option Int) :=
  match optional arguments index with
  | some value => some <$> integerOr code value
  | none => return none

/-- The arguments of a search. With two of them, or with four of which one bound is null, the position
of the file stands for a bound: for the end when that is null, else for the start. -/
def window (codes : SearchCodes) (arguments : List Value) : BuiltinM Window := do
  let id ← fileOr codes.file (argument arguments 0)
  let needle ← textOr codes.text (argument arguments 1)
  let start ← integerArgument? codes.start arguments 2
  let finish ← integerArgument? codes.finish arguments 3
  let size ← onFiles (fun _ => codes.read) (Files.size id)
  let start := start.map (resolveStart size)
  let finish := finish.map (resolveFinish size)
  let count := arguments.length
  if count = 2 || (count = 4 && (start.isNone || finish.isNone)) then
    let position ← onFiles (fun _ => codes.read) (Files.tell id)
    if count = 2 || finish.isSome then return ⟨id, needle, some position, finish, size⟩
    else return ⟨id, needle, start, some position, size⟩
  else return ⟨id, needle, start, finish, size⟩

def searchFault (codes : SearchCodes) : FileError → ErrorCode
  | .notReadable _ => codes.notReadable
  | .notOpen _ => codes.notReadable
  | error => hostFaultOr codes.read error

def positionOrNull : Option Int → Value
  | some position => Value.ofInt position
  | none => Value.null

def searchCodes : SearchCodes :=
  ⟨.searchFile, .searchText, .searchStart, .searchEnd, .searchRead, .searchNotReadable⟩

/-- The first place in the window where the text fits entirely. -/
def search (arguments : List Value) : BuiltinM Value := do
  let window ← window searchCodes arguments
  let start := window.start.getD 0
  let limit := window.finish.getD window.size - window.needle.length + 1
  if limit ≤ start then return Value.null
  return positionOrNull
    (← onFiles (searchFault searchCodes) (Files.search window.id window.needle start limit))

def rsearchCodes : SearchCodes :=
  ⟨.rsearchFile, .rsearchText, .rsearchStart, .rsearchEnd, .rsearchRead, .rsearchNotReadable⟩

/-- The last place in the window where the text fits. With fewer than four arguments the start is the
highest place that is tried. -/
def rsearch (arguments : List Value) : BuiltinM Value := do
  let window ← window rsearchCodes arguments
  let top := window.size - window.needle.length
  let low := if arguments.length < 4 then 0 else window.start.getD 0
  let bound :=
    if arguments.length < 4 then window.start
    else window.finish.map fun finish => finish - window.needle.length
  let high :=
    match bound with
    | some bound => min bound top
    | none => top
  if high < low then return Value.null
  return positionOrNull
    (← onFiles (searchFault rsearchCodes) (Files.searchBack window.id window.needle high low))

end Calculator.Builtin
