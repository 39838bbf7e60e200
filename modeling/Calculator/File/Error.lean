import Calculator.Host.Fault
import Calculator.Value.Basic

/-!
# Errors of the file table
-/

namespace Calculator

inductive FileError where
  | notOpen (id : FileId)
  | notReadable (id : FileId)
  | notWritable (id : FileId)
  | standardStream (id : FileId)
  | badMode (mode : String)
  | tooManyOpen
  | nameRequired (id : FileId)
  | badWhence (whence : Int)
  | negativePosition
  | positionOutOfRange
  | notReading (id : FileId)
  | host (fault : Fault)
  deriving DecidableEq, Repr

namespace FileError

def message : FileError → String
  | notOpen id => "file " ++ id.display ++ " is not open"
  | notReadable id => "file " ++ id.display ++ " is not open for reading"
  | notWritable id => "file " ++ id.display ++ " is not open for writing"
  | standardStream id => "operation not allowed on standard stream " ++ id.display
  | badMode mode => "unrecognized file mode `" ++ mode ++ "`"
  | tooManyOpen => "too many open files"
  | nameRequired id => "a file name is required to reopen file " ++ id.display
  | badWhence whence => "bad whence " ++ Positional.signedDecimal whence ++ " for seek"
  | negativePosition => "negative file position"
  | positionOutOfRange => "file position out of range"
  | notReading id => "ungetc without a preceding read on file " ++ id.display
  | host fault => fault.message

def code : FileError → ErrorCode
  | notOpen _ => ErrorCode.fileNotOpen
  | notReadable _ => ErrorCode.fgetsRead
  | notWritable _ => ErrorCode.fputsWrite
  | standardStream _ => ErrorCode.fileNotOpen
  | badMode _ => ErrorCode.fopenMode
  | tooManyOpen => ErrorCode.tooManyOpen
  | nameRequired _ => ErrorCode.fileNotOpen
  | badWhence _ => ErrorCode.fseekTarget
  | negativePosition => ErrorCode.fseekTarget
  | positionOutOfRange => ErrorCode.fseekRange
  | notReading _ => ErrorCode.ungetcState
  | host fault => fault.code

end FileError

end Calculator
