import Calculator.File.Error
import Calculator.NamedBlock

/-!
# Errors of the copy gateway
-/

namespace Calculator

inductive CopyError where
  | negativeIndex
  | destinationIndexTooLarge
  | freedSource
  | badSourceType (kind : Kind)
  | freedDestination
  | badDestinationType (kind : Kind)
  | unsupported (source destination : Kind)
  | sourceProtected
  | destinationProtected
  | namedSourceProtected (id : BlockId)
  | namedDestinationProtected (id : BlockId)
  | noRealloc
  | fileNotOpen (id : FileId)
  | sourceTooLarge
  | seekFailed (error : FileError)
  | shortWrite (error : FileError)
  | shortRead
  deriving DecidableEq, Repr

namespace CopyError

def message : CopyError → String
  | negativeIndex => "negative source index for copy"
  | destinationIndexTooLarge => "destination index too large for copy"
  | freedSource => "freed block source for copy"
  | badSourceType kind => "unsuitable source type " ++ kind.name ++ " for copy"
  | freedDestination => "freed block destination for copy"
  | badDestinationType kind => "unsuitable destination type " ++ kind.name ++ " for copy"
  | unsupported source destination =>
      "cannot copy " ++ source.name ++ " to " ++ destination.name
  | sourceProtected => "no-copy-from source variable"
  | destinationProtected => "no-copy-to destination variable"
  | namedSourceProtected id => "no-copy-from source named block " ++ id.display
  | namedDestinationProtected id => "no-copy-to destination named block " ++ id.display
  | noRealloc => "no-relocate destination for copy"
  | fileNotOpen id => "file " ++ id.display ++ " not open for copy"
  | sourceTooLarge => "source file too large for copy"
  | seekFailed error => "seek or size failure for copy: " ++ error.message
  | shortWrite error => "short write for copy: " ++ error.message
  | shortRead => "short read for copy"

def code : CopyError → ErrorCode
  | negativeIndex => ErrorCode.copySourceIndex
  | destinationIndexTooLarge => ErrorCode.copyDestinationIndexRange
  | freedSource => ErrorCode.copyFreedSource
  | badSourceType _ => ErrorCode.copySourceType
  | freedDestination => ErrorCode.copyFreedDestination
  | badDestinationType _ => ErrorCode.copyDestinationType
  | unsupported _ _ => ErrorCode.copyUnsupported
  | sourceProtected => ErrorCode.copySourceProtected
  | destinationProtected => ErrorCode.copyDestinationProtected
  | namedSourceProtected _ => ErrorCode.copyNamedSourceProtected
  | namedDestinationProtected _ => ErrorCode.copyNamedDestinationProtected
  | noRealloc => ErrorCode.copyNoRealloc
  | fileNotOpen _ => ErrorCode.copyFileNotOpen
  | sourceTooLarge => ErrorCode.copyFileSeek
  | seekFailed _ => ErrorCode.copyFileSeek
  | shortWrite _ => ErrorCode.copyFileWrite
  | shortRead => ErrorCode.copyFileRead

end CopyError

end Calculator
