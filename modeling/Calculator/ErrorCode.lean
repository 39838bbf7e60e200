import Calculator.Positional

/-!
# Error codes

Error values carry a number. Numbers below the base are those of the operating system; the others
belong to the calculator, a few for each builtin.
-/

namespace Calculator

structure ErrorCode where
  number : Nat
  deriving DecidableEq, Repr, Inhabited

namespace ErrorCode

/-- First number that the operating system does not use. -/
def base : Nat := 10000

def isSystem (code : ErrorCode) : Bool :=
  code.number < base

def describe (code : ErrorCode) : String :=
  "Error " ++ Positional.decimal code.number

/-- Stands for a failure of the system that has no number of its own. -/
def inputOutput : ErrorCode := ⟨5⟩

def divisionByZero : ErrorCode := ⟨10001⟩
def evaluation : ErrorCode := ⟨10049⟩
def exponentTooBig : ErrorCode := ⟨10116⟩

def fputcFile : ErrorCode := ⟨10053⟩
def fputcText : ErrorCode := ⟨10054⟩
def fputcWrite : ErrorCode := ⟨10055⟩
def fgetcFile : ErrorCode := ⟨10056⟩
def fgetcRead : ErrorCode := ⟨10057⟩
def fopenName : ErrorCode := ⟨10058⟩
def fopenMode : ErrorCode := ⟨10059⟩
def freopenFile : ErrorCode := ⟨10060⟩
def freopenMode : ErrorCode := ⟨10061⟩
def freopenName : ErrorCode := ⟨10062⟩
def fcloseFile : ErrorCode := ⟨10063⟩
def fflushFile : ErrorCode := ⟨10064⟩
def fputsFile : ErrorCode := ⟨10065⟩
def fputsText : ErrorCode := ⟨10066⟩
def fputsWrite : ErrorCode := ⟨10067⟩
def fgetsFile : ErrorCode := ⟨10068⟩
def fgetsRead : ErrorCode := ⟨10069⟩
def fputstrFile : ErrorCode := ⟨10070⟩
def fputstrText : ErrorCode := ⟨10071⟩
def fputstrWrite : ErrorCode := ⟨10072⟩
def fgetstrFile : ErrorCode := ⟨10073⟩
def fgetstrRead : ErrorCode := ⟨10074⟩
def fgetlineFile : ErrorCode := ⟨10075⟩
def fgetlineRead : ErrorCode := ⟨10076⟩
def fgetfieldFile : ErrorCode := ⟨10077⟩
def fgetfieldRead : ErrorCode := ⟨10078⟩
def rewindFile : ErrorCode := ⟨10079⟩
def filesIndex : ErrorCode := ⟨10080⟩
def ftellFile : ErrorCode := ⟨10102⟩
def ftellRead : ErrorCode := ⟨10103⟩
def fseekFile : ErrorCode := ⟨10104⟩
def fseekTarget : ErrorCode := ⟨10105⟩
def fseekRange : ErrorCode := ⟨10106⟩
def fsizeFile : ErrorCode := ⟨10107⟩
def fsizeRead : ErrorCode := ⟨10108⟩
def feofFile : ErrorCode := ⟨10109⟩
def feofRead : ErrorCode := ⟨10110⟩
def ferrorFile : ErrorCode := ⟨10111⟩
def ferrorRead : ErrorCode := ⟨10112⟩
def ungetcFile : ErrorCode := ⟨10113⟩
def ungetcState : ErrorCode := ⟨10114⟩
def ungetcText : ErrorCode := ⟨10115⟩
def searchFile : ErrorCode := ⟨10121⟩
def searchText : ErrorCode := ⟨10122⟩
def searchStart : ErrorCode := ⟨10123⟩
def searchEnd : ErrorCode := ⟨10124⟩
def searchRead : ErrorCode := ⟨10125⟩
def searchNotReadable : ErrorCode := ⟨10126⟩
def rsearchFile : ErrorCode := ⟨10127⟩
def rsearchText : ErrorCode := ⟨10128⟩
def rsearchStart : ErrorCode := ⟨10129⟩
def rsearchEnd : ErrorCode := ⟨10130⟩
def rsearchRead : ErrorCode := ⟨10131⟩
def rsearchNotReadable : ErrorCode := ⟨10132⟩
def tooManyOpen : ErrorCode := ⟨10133⟩
def fileNotOpen : ErrorCode := ⟨10134⟩

def blkLengthType : ErrorCode := ⟨10202⟩
def blkLengthRange : ErrorCode := ⟨10203⟩
def blkChunkType : ErrorCode := ⟨10204⟩
def blkChunkRange : ErrorCode := ⟨10205⟩
def blkfreeName : ErrorCode := ⟨10206⟩
def blkfreeIndex : ErrorCode := ⟨10207⟩
def blkfreeUnknown : ErrorCode := ⟨10208⟩
def blkfreeType : ErrorCode := ⟨10209⟩
def blkfreeProtected : ErrorCode := ⟨10210⟩
def blocksIndex : ErrorCode := ⟨10211⟩
def blocksUnknown : ErrorCode := ⟨10212⟩

def copySourceIndex : ErrorCode := ⟨10213⟩
def copySourceIndexRange : ErrorCode := ⟨10214⟩
def copyCount : ErrorCode := ⟨10216⟩
def copyCountRange : ErrorCode := ⟨10217⟩
def copyDestinationIndex : ErrorCode := ⟨10218⟩
def copyDestinationIndexRange : ErrorCode := ⟨10219⟩
def copyFreedSource : ErrorCode := ⟨10220⟩
def copySourceType : ErrorCode := ⟨10221⟩
def copyFreedDestination : ErrorCode := ⟨10222⟩
def copyDestinationType : ErrorCode := ⟨10223⟩
def copyUnsupported : ErrorCode := ⟨10224⟩
def copySourceProtected : ErrorCode := ⟨10225⟩
def copyDestinationProtected : ErrorCode := ⟨10226⟩
def copyNamedSourceProtected : ErrorCode := ⟨10227⟩
def copyNamedDestinationProtected : ErrorCode := ⟨10228⟩
def copyNoRealloc : ErrorCode := ⟨10229⟩
def copyFileNotOpen : ErrorCode := ⟨10230⟩
def copyFileSeek : ErrorCode := ⟨10231⟩
def copyFileWrite : ErrorCode := ⟨10232⟩
def copyFileRead : ErrorCode := ⟨10233⟩

def fpathopenArgument : ErrorCode := ⟨10410⟩
def fpathopenMode : ErrorCode := ⟨10411⟩
def fgetfileFile : ErrorCode := ⟨10415⟩
def fgetfileNotReadable : ErrorCode := ⟨10416⟩
def fgetfileRead : ErrorCode := ⟨10417⟩

end ErrorCode

end Calculator
