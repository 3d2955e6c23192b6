/-
# `P2PStream.Webm.Block` — block records and the segmenter (`webm_parser.c`)

A cluster's payload is cut into blocks of at most `MAX_BLOCK_BYTES` bytes: either
whole elements, or one piece of an element that is too large, or the last piece
of one followed by whole elements.  `GetNextBlockByBytes` produces the next
block from the record of the one before it (`block->prev->info`) and a window of
the payload; `GetChankByBytes` counts how many whole elements the window holds.

The walk of `GetChankByBytes` need not end: with a wrapping size it can come back
to a position it has left.  It visits positions `0 .. req` only, so a run of more
than `req + 1` rounds has repeated one and never ends; the walk is given that
many rounds and answers `none` when they are used up.
-/
import P2PStream.Webm.Chank

namespace P2PStream

open Lib

def statusPiece : UInt8 := 1
def statusSimpleblock : UInt8 := 2
def statusBlock : UInt8 := 3
def statusInit : UInt8 := 5

def blockinfoBytes : Nat := 18
def maxBlockBytes : UInt16 := 1000
def firstBlockSeq : UInt32 := 1

/-- `CLUSTER_END`, a result of `GetChankByBytes`. -/
def clusterEnd : Int := 2
/-- `ONLY_TIMECODE`, a result of `GetChankByBytes`. -/
def onlyTimecode : Int := 3

/-- `struct BlockInfo`, less its padding. -/
structure BlockInfo where
  pos : UInt32
  seq : UInt32
  bytes : UInt16
  totalPieceBytes : UInt16
  clusterSeq : UInt16
  totalPieces : UInt8
  pieceSeq : UInt8
  status : UInt8
  layer : UInt8
  deriving DecidableEq, Repr

/-- A `bzero`ed `struct BlockInfo`. -/
def BlockInfo.zero : BlockInfo := ⟨0, 0, 0, 0, 0, 0, 0, 0, 0⟩

/-- `struct Block`: the record being filled and `prev->info`, the one before it. -/
structure Block where
  info : BlockInfo
  prev : BlockInfo
  deriving DecidableEq, Repr

/-! ## The wire form -/

/-- `CopyBlockInfoToBytes`. -/
def copyBlockInfoToBytes (info : BlockInfo) : List UInt8 :=
  toBe 4 info.pos.toNat ++ toBe 4 info.seq.toNat ++ toBe 2 info.bytes.toNat ++
    toBe 2 info.totalPieceBytes.toNat ++ toBe 2 info.clusterSeq.toNat ++
    [info.totalPieces, info.pieceSeq, info.status, info.layer]

/-- `CopyBytesToBlockInfo`. -/
def copyBytesToBlockInfo (buf : Buf) : BlockInfo where
  pos := UInt32.ofNat (ofBe (buf.take 4))
  seq := UInt32.ofNat (ofBe ((buf.drop 4).take 4))
  bytes := UInt16.ofNat (ofBe ((buf.drop 8).take 2))
  totalPieceBytes := UInt16.ofNat (ofBe ((buf.drop 10).take 2))
  clusterSeq := UInt16.ofNat (ofBe ((buf.drop 12).take 2))
  totalPieces := buf 14
  pieceSeq := buf 15
  status := buf 16
  layer := buf 17

/-! ## Moving from block to block -/

/-- `InitBlock`. -/
def initBlock : Block where
  info := { BlockInfo.zero with pos := UInt32.ofNat clusterHeaderBytes }
  prev := { BlockInfo.zero with status := statusInit, clusterSeq := 0 }

/-- `ShiftToPreBlock`. -/
def shiftToPreBlock (block : Block) : Block where
  info := BlockInfo.zero
  prev := block.info

/-- `RenewBlock`: to the head of the next cluster. -/
def renewBlock (block : Block) : Block where
  info := BlockInfo.zero
  prev := { BlockInfo.zero with
    status := statusInit
    clusterSeq := block.info.clusterSeq + 1
    pos := UInt32.ofNat clusterHeaderBytes }

/-! ## The walk over a window -/

/-- The loop of `GetChankByBytes`.  `current_position` and `current_total_bytes`
both start at 0 and are always advanced together; they are `total`. -/
def getChankByBytesLoop (buf : Buf) (req : Nat) : Nat → Nat → Int → Option (Int × Nat)
  | 0, _, _ => none
  | fuel + 1, total, status =>
      let chank := getChank (buf.drop total)
      if chank.id = clusterId then some (clusterEnd, total)
      else if chank.id = cueId then some (clusterEnd, total)
      else if req < (total + chank.chankBytes) % 2 ^ 64 then some (status, total)
      else if chank.id = timecodeId then
        getChankByBytesLoop buf req fuel ((total + chank.chankBytes) % 2 ^ 64) onlyTimecode
      else if chank.id = simpleblockId then
        getChankByBytesLoop buf req fuel ((total + chank.chankBytes) % 2 ^ 64) 1
      else some (status, total)

/-- `GetChankByBytes`: the block with the bytes counted, and the status. -/
def getChankByBytes (block : Block) (buf : Buf) (req : UInt16) : Option (Block × Int) := do
  let (status, total) ← getChankByBytesLoop buf req.toNat (req.toNat + 2) 0 0
  let bytes := UInt16.ofNat (block.info.bytes.toNat + total)
  return ({ block with info := { block.info with bytes } }, status)

/-! ## Pieces -/

/-- The `flag` of `AssignBlockInfoByPiece`: 1, 2, 3. -/
inductive PieceFlag where
  | first
  | other
  | last
  deriving DecidableEq, Repr

/-- `(u8)(int)ceil( x*1.0 / MAX_BLOCK_BYTES )`.  Below `2 ^ 31` pieces the division
in double precision has the exact ceiling; above, the conversion to `int` gives
`INT_MIN`, whose low byte is 0. -/
def ceilPieces (x : Nat) : UInt8 :=
  let pieces := (x + (maxBlockBytes.toNat - 1)) / maxBlockBytes.toNat
  if pieces < 2 ^ 31 then UInt8.ofNat pieces else 0

/-- `AssignBlockInfoByPiece`. -/
def assignBlockInfoByPiece (block : Block) (buf : Buf) (req : UInt16) : PieceFlag → Block
  | .first =>
      let nextChank := getChank buf
      { block with info := { block.info with
          status := statusPiece
          totalPieces := ceilPieces ((nextChank.chankBytes + block.info.bytes.toNat) % 2 ^ 64)
          bytes := block.info.bytes + req
          pieceSeq := 1
          totalPieceBytes :=
            UInt16.ofNat (block.info.totalPieceBytes.toNat + nextChank.chankBytes) } }
  | .other =>
      { block with info := { block.info with
          status := statusPiece
          bytes := req
          totalPieces := block.prev.totalPieces
          pieceSeq := block.prev.pieceSeq + 1
          totalPieceBytes := block.prev.totalPieceBytes } }
  | .last =>
      { block with info := { block.info with
          status := statusPiece
          bytes := block.prev.totalPieceBytes - req * block.prev.pieceSeq.toUInt16
          totalPieces := block.prev.totalPieces
          pieceSeq := block.prev.pieceSeq + 1
          totalPieceBytes := block.prev.totalPieceBytes } }

/-- `AssignBlockInfoBySB`. -/
def assignBlockInfoBySB (block : Block) : Block :=
  { block with info := { block.info with
      status := statusSimpleblock, totalPieceBytes := 0, totalPieces := 0, pieceSeq := 0 } }

/-! ## The segmenter -/

/-- The branch of `GetNextBlockByBytes` for the first block of a cluster. -/
def getFirstBlock (block : Block) (req : UInt16) (head : Buf) : Option (Block × Int) := do
  let block := { block with info := { block.info with
    seq := 1, pos := UInt32.ofNat clusterHeaderBytes } }
  let (block, ret) ← getChankByBytes block head req
  if ret = 0 then
    return (assignBlockInfoByPiece block head req .first, ret)
  else if ret = onlyTimecode then
    let timecode := getChank head
    let block := { block with info := { block.info with
      totalPieceBytes := UInt16.ofNat timecode.chankBytes
      bytes := UInt16.ofNat timecode.chankBytes } }
    return (assignBlockInfoByPiece block (head.drop block.info.bytes.toNat)
      (req - block.info.bytes) .first, ret)
  else
    return (assignBlockInfoBySB block, ret)

/-- Whole elements when the window holds one, else the first piece of the next element. -/
def getSimpleBlocksOrPiece (block : Block) (req : UInt16) (head : Buf) :
    Option (Block × Int) := do
  let (block, ret) ← getChankByBytes block head req
  if ret > 0 then
    return (assignBlockInfoBySB block, ret)
  else
    return (assignBlockInfoByPiece block head req .first, ret)

/-- The last piece, and whatever whole elements follow it in the window. -/
def getLastPiece (block : Block) (req : UInt16) (head : Buf) : Option (Block × Int) := do
  let block := assignBlockInfoByPiece block head req .last
  let (block, ret) ← getChankByBytes block (head.drop block.info.bytes.toNat)
    (req - block.info.bytes)
  if ret > 0 then
    return ({ block with info := { block.info with status := statusBlock } }, ret)
  else
    return (block, ret)

/-- The branch of `GetNextBlockByBytes` for every later block. -/
def getLaterBlock (block : Block) (req : UInt16) (head : Buf) : Option (Block × Int) :=
  let block := { block with info := { block.info with
    seq := block.prev.seq + 1
    pos := block.prev.pos + block.prev.bytes.toUInt32 } }
  if block.prev.status = statusPiece then
    let prevTotalPiece := block.prev.totalPieces.toNat
    let prevSeq := block.prev.pieceSeq.toNat
    if prevTotalPiece = prevSeq + 1 then
      getLastPiece block req head
    else if prevTotalPiece = prevSeq then
      getSimpleBlocksOrPiece block req head
    else
      some (assignBlockInfoByPiece block head req .other, 0)
  else
    getSimpleBlocksOrPiece block req head

/-- `GetNextBlockByBytes`: the block filled in, and the status; `none` when the
walk never ends. -/
def getNextBlockByBytes (block : Block) (req : UInt16) (head : Buf) : Option (Block × Int) :=
  let block := { block with info := { block.info with clusterSeq := block.prev.clusterSeq } }
  if block.prev.status = statusInit then
    getFirstBlock block req head
  else
    getLaterBlock block req head

/-! ## What the segmenter keeps -/

/-- The cluster number of the record, and the record before it. -/
def SameCluster (b b' : Block) : Prop := b'.info.clusterSeq = b.info.clusterSeq ∧ b'.prev = b.prev

theorem SameCluster.trans {b₁ b₂ b₃ : Block} (h : SameCluster b₁ b₂) (h' : SameCluster b₂ b₃) :
    SameCluster b₁ b₃ := ⟨h'.1.trans h.1, h'.2.trans h.2⟩

theorem getChankByBytes_sameCluster {block block' : Block} {buf : Buf} {req : UInt16} {ret : Int}
    (h : getChankByBytes block buf req = some (block', ret)) : SameCluster block block' := by
  simp only [getChankByBytes, Option.bind_eq_bind, Option.bind_eq_some_iff] at h
  obtain ⟨_, -, h⟩ := h
  cases h
  exact ⟨rfl, rfl⟩

theorem assignBlockInfoByPiece_sameCluster (block : Block) (buf : Buf) (req : UInt16)
    (flag : PieceFlag) : SameCluster block (assignBlockInfoByPiece block buf req flag) := by
  cases flag <;> exact ⟨rfl, rfl⟩

theorem getFirstBlock_sameCluster {block block' : Block} {req : UInt16} {head : Buf} {ret : Int}
    (h : getFirstBlock block req head = some (block', ret)) : SameCluster block block' := by
  simp only [getFirstBlock, Option.bind_eq_bind, Option.bind_eq_some_iff, Prod.exists] at h
  obtain ⟨walked, status, hwalked, h⟩ := h
  have hkept := getChankByBytes_sameCluster hwalked
  have hsame : SameCluster block walked := ⟨hkept.1, hkept.2⟩
  split at h
  · cases h
    exact hsame.trans ⟨rfl, rfl⟩
  · split at h
    · cases h
      exact hsame.trans ⟨rfl, rfl⟩
    · cases h
      exact hsame.trans ⟨rfl, rfl⟩

theorem getSimpleBlocksOrPiece_sameCluster {block block' : Block} {req : UInt16} {head : Buf}
    {ret : Int} (h : getSimpleBlocksOrPiece block req head = some (block', ret)) :
    SameCluster block block' := by
  simp only [getSimpleBlocksOrPiece, Option.bind_eq_bind, Option.bind_eq_some_iff,
    Prod.exists] at h
  obtain ⟨walked, status, hwalked, h⟩ := h
  have hsame := getChankByBytes_sameCluster hwalked
  split at h
  · cases h
    exact hsame.trans ⟨rfl, rfl⟩
  · cases h
    exact hsame.trans ⟨rfl, rfl⟩

theorem getLastPiece_sameCluster {block block' : Block} {req : UInt16} {head : Buf} {ret : Int}
    (h : getLastPiece block req head = some (block', ret)) : SameCluster block block' := by
  simp only [getLastPiece, Option.bind_eq_bind, Option.bind_eq_some_iff, Prod.exists] at h
  obtain ⟨walked, status, hwalked, h⟩ := h
  have hsame : SameCluster block walked :=
    (assignBlockInfoByPiece_sameCluster block head req .last).trans
      (getChankByBytes_sameCluster hwalked)
  split at h
  · cases h
    exact hsame.trans ⟨rfl, rfl⟩
  · cases h
    exact hsame

theorem getNextBlockByBytes_cluster {block block' : Block} {req : UInt16} {head : Buf} {ret : Int}
    (h : getNextBlockByBytes block req head = some (block', ret)) :
    block'.info.clusterSeq = block.prev.clusterSeq ∧ block'.prev = block.prev := by
  simp only [getNextBlockByBytes] at h
  split at h
  · exact getFirstBlock_sameCluster h
  · simp only [getLaterBlock] at h
    split at h
    · split at h
      · have hsame := getLastPiece_sameCluster h
        exact ⟨hsame.1, hsame.2⟩
      · split at h
        · have hsame := getSimpleBlocksOrPiece_sameCluster h
          exact ⟨hsame.1, hsame.2⟩
        · cases h
          exact ⟨rfl, rfl⟩
    · have hsame := getSimpleBlocksOrPiece_sameCluster h
      exact ⟨hsame.1, hsame.2⟩

end P2PStream
