import Calculator.File.Table
import Calculator.NamedBlock
import Calculator.Pool.Constants
import Calculator.Pool.Literals

/-!
# The machine

All that the calculator keeps between two calls, apart from variables: the pools of literals, the
named blocks and the open files.
-/

namespace Calculator

structure Config where
  /-- Most files that may be open at once, standard streams included. -/
  maxFiles : Nat := 20
  /-- Bytes gathered at once when a text is read. -/
  readChunk : Nat := 1024
  /-- Chunk of blocks that are made without one. -/
  blockChunk : Nat := Block.defaultChunk
  constantChunk : Nat := 400
  literalChunk : Nat := 100
  /-- Files that were open before the start are entered into the table. -/
  adoptInherited : Bool := false

structure Machine where
  config : Config
  constants : Constants
  literals : Literals
  blocks : NamedBlocks
  files : Files

namespace Machine

def new (config : Config) (host : Host) : Machine where
  config := config
  constants := Constants.new config.constantChunk
  literals := Literals.new config.literalChunk
  blocks := NamedBlocks.empty
  files := Files.new host config.maxFiles config.readChunk config.adoptInherited

def newBlock (machine : Machine) (length : Nat) : Block :=
  Block.allocate length machine.config.blockChunk

end Machine

end Calculator
