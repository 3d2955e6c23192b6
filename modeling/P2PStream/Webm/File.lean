/-
# `P2PStream.Webm.File` — the WebM file and the globals of `webm_parser.c`

The stream `FP` is its contents and a position.  `TOTAL_FILE_BYTES` trails the
real size: reads stop at it, writes do not move it.  The positions are
`__off64_t`; a seek to a negative one fails and leaves `FP` where it is.

The heap is not modelled, but for two things: whether `InitCluster`, `InitBlock` and
`InitChildBlocks` have run, since the pointers are null before, and what `malloc`
leaves in a fresh record.  The latter is a parameter, as is the contents of every
local buffer that is read before it is written.
-/
import P2PStream.Webm.Block

namespace P2PStream

open Lib

/-- `struct Cluster`, less its links. -/
structure Cluster where
  info : Chank
  pos : Int
  seq : UInt32
  option : UInt32
  deriving DecidableEq, Repr

/-- `MAX_CHILD_NUM`. -/
abbrev maxChildNum : Nat := 2

instance maxChildNum_neZero : NeZero maxChildNum := ⟨by decide⟩

/-- The file and the globals of `webm_parser.h`.  `CURRENT_BLOCKINFO` has
`MAX_BLOCKS_NUM = 1` entry. -/
structure Webm where
  file : List UInt8
  fp : Int
  currentFposR : Int
  currentFposW : Int
  currentReadBytes : Nat
  totalFileBytes : Int
  webmHeaderTotalBytes : UInt16
  webmHeaderData : List UInt8
  clusterAllocated : Bool
  blockAllocated : Bool
  childBlocksAllocated : Bool
  currentCluster : Cluster
  prevCluster : Cluster
  isFirstCluster : Bool
  firstClusterSeq : UInt32
  currentBlock : Block
  currentBlockNum : Nat
  totalBlockNum : UInt64
  currentChildBlock : Fin maxChildNum → Block
  latestBlockSeq : UInt32
  timecodeOffset : UInt64
  nodeTimecodeOffset : UInt64
  isGetTimecodeOffset : Bool
  currentBlockInfo : BlockInfo

def Cluster.zero : Cluster := ⟨Chank.zero, 0, 0, 0⟩

/-- The globals at program start, on a file opened at its head. -/
def Webm.start (file : List UInt8) : Webm where
  file := file
  fp := 0
  currentFposR := 0
  currentFposW := 0
  currentReadBytes := 0
  totalFileBytes := 0
  webmHeaderTotalBytes := 0
  webmHeaderData := []
  clusterAllocated := false
  blockAllocated := false
  childBlocksAllocated := false
  currentCluster := Cluster.zero
  prevCluster := Cluster.zero
  isFirstCluster := true
  firstClusterSeq := 0
  currentBlock := ⟨BlockInfo.zero, BlockInfo.zero⟩
  currentBlockNum := 0
  totalBlockNum := 0
  currentChildBlock := fun _ => ⟨BlockInfo.zero, BlockInfo.zero⟩
  latestBlockSeq := 0
  timecodeOffset := 0
  nodeTimecodeOffset := 0
  isGetTimecodeOffset := false
  currentBlockInfo := BlockInfo.zero

/-- `CURRENT_CHILD_BLOCK[i] = b`. -/
def Webm.setChildBlock (w : Webm) (i : Fin maxChildNum) (b : Block) : Webm :=
  { w with currentChildBlock := Function.update w.currentChildBlock i b }

/-! ## The stream -/

/-- A sum stored in an `__off64_t`. -/
def off64 (n : Int) : Int := n.bmod (2 ^ 64)

/-- The bytes `fread` takes for the request `n`. -/
def Webm.readBytes (w : Webm) (n : Nat) : List UInt8 := (w.file.drop w.fp.toNat).take n

/-- `fread` into `buf`. -/
def fread (buf : Buf) (n : Nat) (w : Webm) : Webm × Buf :=
  ({ w with fp := w.fp + (w.readBytes n).length }, buf.overlay (w.readBytes n))

/-- `if( bytes < dbytes ) bytes else dbytes`, where the comparison and the request
are unsigned: a negative `dbytes` is larger than any request. -/
def clampBytes (bytes : Nat) (dbytes : Int) : Nat :=
  if 0 ≤ dbytes ∧ dbytes ≤ bytes then dbytes.toNat else bytes

/-- `ImportWebM`; `buf` is what the buffer held before. -/
def importWebM (buf : Buf) (bytes : Nat) (w : Webm) : Webm × Buf :=
  let dbytes := w.totalFileBytes - w.currentFposR
  let (w', data) := fread buf (clampBytes bytes dbytes) w
  ({ w' with currentReadBytes := (w.readBytes (clampBytes bytes dbytes)).length }, data)

/-- `SearchWebM`. -/
def searchWebM (buf : Buf) (offset : Nat) (readBytes : Int) (w : Webm) : Webm × Buf :=
  fread buf (clampBytes offset (w.totalFileBytes - readBytes)) w

/-- `fsetpos`. -/
def fsetpos (offset : Int) (w : Webm) : Webm :=
  if 0 ≤ offset then { w with fp := offset } else w

/-- `SeekABSWebM` on `CURRENT_FPOS_R`. -/
def seekABSWebM (offset : Int) (w : Webm) : Webm :=
  { fsetpos offset w with currentFposR := offset }

/-- `SeekRLTWebM` on `CURRENT_FPOS_R`. -/
def seekRLTWebM (offset : Int) (w : Webm) : Webm := seekABSWebM (w.fp + offset) w

/-- `SeekForNextBlock`. -/
def seekForNextBlock (block : Block) (w : Webm) : Webm :=
  seekRLTWebM ((block.info.bytes.toNat : Int) - w.currentReadBytes) w

/-- The loop of `CalOffset` over `count` cluster headers, each read into `file_buf`. -/
def calOffsetLoop : Nat → Buf → Int → Webm → Webm × Int
  | 0, _, offset, w => (w, offset)
  | count + 1, fileBuf, offset, w =>
      let (w, fileBuf) := searchWebM fileBuf clusterHeaderBytes offset (fsetpos offset w)
      calOffsetLoop count fileBuf (off64 (offset + (getChank fileBuf).chankBytes)) w

/-- `CalOffset`; `stale` is what `file_buf` holds at first. -/
def calOffset (stale : Buf) (info : BlockInfo) (w : Webm) : Webm × Int :=
  let count := (info.clusterSeq.toUInt32 - w.firstClusterSeq).toNat
  let (w, offset) := calOffsetLoop count stale w.webmHeaderTotalBytes.toNat w
  (w, off64 (offset + (info.pos + info.bytes.toUInt32).toNat))

/-- `SeekABSForNextBlock`. -/
def seekABSForNextBlock (stale : Buf) (block : Block) (w : Webm) : Webm × Int :=
  let (w, offset) := calOffset stale block.prev w
  (seekABSWebM offset w, offset)

/-- `ReadBlock`: the block filled in, and the status; `stale` is what the local
buffer holds. -/
def readBlock (stale : Buf) (block : Block) (w : Webm) : Option (Webm × Block × Int) := do
  let (w, data) := importWebM stale maxBlockBytes.toNat w
  let (block, status) ← getNextBlockByBytes block maxBlockBytes data
  return ({ w with totalBlockNum := w.totalBlockNum + 1 }, block, status)

end P2PStream
