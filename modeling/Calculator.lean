import Calculator.Bytes
import Calculator.Bytes.Occurrence
import Calculator.Content
import Calculator.Positional
import Calculator.Word
import Calculator.Protection
import Calculator.Breach
import Calculator.ErrorCode
import Calculator.Text.Blank
import Calculator.Text.Decoding
import Calculator.Number.Basic
import Calculator.Number.Literal
import Calculator.Number.Digits
import Calculator.Payload
import Calculator.Block
import Calculator.Value.Basic
import Calculator.Value.Matrix
import Calculator.Value.Equality
import Calculator.Value.Association
import Calculator.Value.Display
import Calculator.Value.Ownership
import Calculator.Pool.Basic
import Calculator.Pool.Constants
import Calculator.Pool.Literals
import Calculator.NamedBlock
import Calculator.Host.Fault
import Calculator.Host.Basic
import Calculator.Host.Occurrence
import Calculator.Host.Path
import Calculator.Host.Start
import Calculator.File.Mode
import Calculator.File.Error
import Calculator.File.Position
import Calculator.File.Stream
import Calculator.File.Table
import Calculator.File.SearchPath
import Calculator.File.Reader
import Calculator.File.Search
import Calculator.File.Listing
import Calculator.Machine
import Calculator.Copy.Error
import Calculator.Copy.Source
import Calculator.Copy.Destination
import Calculator.Copy.Gateway
import Calculator.Builtin.Argument
import Calculator.Builtin.File
import Calculator.Builtin.Block
import Calculator.Builtin.Registry
import Calculator.Session
import Calculator.Proofs.Patch
import Calculator.Proofs.PlainFile
import Calculator.Proofs.Host
import Calculator.Proofs.Occurrence
import Calculator.Proofs.Effect
import Calculator.Proofs.Stream
import Calculator.Proofs.Reader
import Calculator.Proofs.Files
import Calculator.Proofs.FileRun
import Calculator.Proofs.Settling
import Calculator.Proofs.TableRequests
import Calculator.Proofs.BufferedFiles
import Calculator.Proofs.Block
import Calculator.Proofs.Gateway
import Calculator.Proofs.CopyIntoBlock
import Calculator.Proofs.FailedCopy
import Calculator.Proofs.Outline
import Calculator.Proofs.Confinement
import Calculator.Proofs.Pool
import Calculator.Proofs.PoolLinks
import Calculator.Proofs.PoolReleases
import Calculator.Proofs.FileTable
import Calculator.Proofs.FileTableRun
import Calculator.Proofs.TableSteps
import Calculator.Proofs.StreamBuffers
import Calculator.Proofs.StreamCalls
import Calculator.Proofs.TableBuffers
import Calculator.Proofs.RegularFile
import Calculator.Proofs.ReadBuffer
import Calculator.Proofs.BlockRun
import Calculator.Proofs.BlockReach
import Calculator.Proofs.BuiltinCalls
import Calculator.Proofs.BuiltinBlocks
import Calculator.Proofs.BlockSession
import Calculator.Proofs.RegistryStep
import Calculator.Proofs.RegistryChronicle
import Calculator.Proofs.FrozenBlocks
import Calculator.Proofs.LiteralMeaning
import Calculator.Proofs.LiteralGrammar
import Calculator.Proofs.OversizedExponents
import Calculator.Proofs.PrintedNumbers
import Calculator.Proofs.Numerals
import Calculator.Proofs.CanonicalNumbers
import Calculator.Proofs.Payloads
import Calculator.Proofs.DrawnPayloads
import Calculator.Proofs.SessionPayloads
import Calculator.Proofs.TextWrites
import Calculator.Proofs.SessionActs
import Calculator.Proofs.SharedPayloads
import Calculator.Proofs.MisdirectedCopy
import Calculator.Proofs.FlushedPosition
import Calculator.Proofs.Bystanders
import Calculator.Proofs.AppendedFiles
import Calculator.Proofs.PipeInput
import Calculator.Proofs.RepositionedPipes
import Calculator.Proofs.PendingOutput
import Calculator.Proofs.Records
import Calculator.Proofs.GatheredOutput
import Calculator.Proofs.WrittenTexts
import Calculator.Proofs.CopyPermission
import Calculator.Proofs.FileRoundTrip
import Calculator.Proofs.CopyOutcome
import Calculator.Proofs.NumeratorBits
import Calculator.Proofs.GrowingBlocks
import Calculator.Proofs.DividedCopies
import Calculator.Proofs.CarriedDigits
import Calculator.Proofs.CopyWindows
import Calculator.Proofs.ReadingPace
import Calculator.Proofs.PacedTexts
import Calculator.Proofs.PlacedStreams
import Calculator.Proofs.Searches
import Calculator.Proofs.SearchLoops
import Calculator.Proofs.RegularEntry
import Calculator.Proofs.FileSearches
import Calculator.Proofs.SearchWindows
import Calculator.Proofs.HostBounds
import Calculator.Proofs.SeekTargets
import Calculator.Proofs.RewoundFiles
import Calculator.Proofs.WrongArguments
import Calculator.Proofs.OpenedNames
import Calculator.Proofs.SearchedPaths
import Calculator.Proofs.ReopenedFiles
import Calculator.Proofs.ListingLoops
import Calculator.Proofs.ListedFiles
import Calculator.Proofs.Insertions
import Calculator.Proofs.EqualValues
import Calculator.Proofs.ValueVariants
import Calculator.Proofs.OrderedAssociations
import Calculator.Proofs.BlockNames
import Calculator.Proofs.RowMajor
import Calculator.Proofs.WordImages
